import Mathlib.Data.List.Chain
import Mathlib.Data.List.Nodup
import Mathlib.Data.List.Range
import Mathlib.Data.List.Perm.Basic

set_option autoImplicit false

namespace Counter

variable {α : Type}

def sumNeighbours (f : α → α → Nat) : List α → Nat
  | a :: b :: rest => f a b + sumNeighbours f (b :: rest)
  | _ => 0

def missing : List Nat → List Nat
  | [] => []
  | first :: rest =>
    (List.range' first (rest.getLastD first + 1 - first)).filter fun number =>
      number ∉ first :: rest

theorem sumNeighbours_congr {f g : α → α → Nat} {list : List α}
    (same : list.IsChain fun a b => f a b = g a b) :
    sumNeighbours f list = sumNeighbours g list := by
  induction list with
  | nil => rfl
  | cons a rest ih =>
    cases rest with
    | nil => rfl
    | cons b rest =>
      obtain ⟨here, later⟩ := List.isChain_cons_cons.mp same
      rw [sumNeighbours, sumNeighbours, here, ih later]

theorem sumNeighbours_map {β : Type} (f : β → β → Nat) (g : α → β) (list : List α) :
    sumNeighbours f (list.map g) = sumNeighbours (fun a b => f (g a) (g b)) list := by
  induction list with
  | nil => rfl
  | cons a rest ih =>
    cases rest with
    | nil => rfl
    | cons b rest =>
      rw [sumNeighbours, ← ih]
      rfl

theorem sumNeighbours_increasing (first : Nat) (rest : List Nat)
    (increasing : (first :: rest).IsChain (· < ·)) :
    first + sumNeighbours (fun a b => b - a - 1) (first :: rest) + rest.length =
      rest.getLastD first := by
  induction rest generalizing first with
  | nil => rfl
  | cons second rest ih =>
    obtain ⟨less, later⟩ := List.isChain_cons_cons.mp increasing
    have total := ih second later
    rw [sumNeighbours, List.length_cons, List.getLastD_cons]
    omega

theorem between_of_increasing {first number : Nat} {rest : List Nat}
    (increasing : (first :: rest).IsChain (· < ·)) (member : number ∈ first :: rest) :
    first ≤ number ∧ number ≤ rest.getLastD first := by
  induction rest generalizing first number with
  | nil =>
    obtain rfl := List.mem_singleton.mp member
    exact ⟨Nat.le_refl _, Nat.le_refl _⟩
  | cons second rest ih =>
    obtain ⟨less, later⟩ := List.isChain_cons_cons.mp increasing
    rw [List.getLastD_cons]
    rcases List.mem_cons.mp member with rfl | behind
    · have last := (ih later List.mem_cons_self).2
      omega
    · have inside := ih later behind
      omega

theorem length_missing {numbers : List Nat} (increasing : numbers.IsChain (· < ·)) :
    (missing numbers).length = sumNeighbours (fun a b => b - a - 1) numbers := by
  cases numbers with
  | nil => rfl
  | cons first rest =>
    have distinct : (first :: rest).Nodup :=
      (List.isChain_iff_pairwise.mp increasing).imp fun less => Nat.ne_of_lt less
    have total := sumNeighbours_increasing first rest increasing
    generalize range : List.range' first (rest.getLastD first + 1 - first) = all
    have present : (all.filter fun number => number ∈ first :: rest).length =
        (first :: rest).length := by
      apply List.Perm.length_eq
      rw [List.perm_ext_iff_of_nodup _ distinct]
      · intro number
        rw [List.mem_filter, decide_eq_true_iff, and_iff_right_iff_imp]
        intro member
        have inside := between_of_increasing increasing member
        rw [← range, List.mem_range'_1]
        omega
      · rw [← range]
        exact List.Nodup.filter _ List.nodup_range'
    have split := List.length_eq_length_filter_add (l := all) fun number =>
      decide (number ∈ first :: rest)
    have width : all.length = rest.getLastD first + 1 - first := by
      rw [← range, List.length_range']
    have absent : missing (first :: rest) =
        all.filter fun number => !decide (number ∈ first :: rest) := by
      simp only [missing, range, decide_not]
    rw [absent]
    rw [present, width, List.length_cons] at split
    omega

end Counter
