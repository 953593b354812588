import Mathlib.Data.List.MinMax
import Mathlib.Data.List.Sort
import Mathlib.Order.Bounds.Basic

set_option autoImplicit false

namespace Search

section Agreement

variable {α : Type} [DecidableEq α]

def agreement : List α → List α → Nat
  | x :: xs, y :: ys => if x = y then agreement xs ys + 1 else 0
  | _, _ => 0

theorem le_agreement_iff {xs ys : List α} {count : Nat} :
    count ≤ agreement xs ys ↔
      ∀ k, k < count → ∃ value, xs[k]? = some value ∧ ys[k]? = some value := by
  induction xs generalizing ys count with
  | nil =>
    cases count with
    | zero => simp
    | succ count =>
      constructor
      · intro some_
        exact absurd some_ (Nat.not_succ_le_zero count)
      · intro agree
        obtain ⟨value, here, _⟩ := agree 0 (Nat.succ_pos count)
        simp at here
  | cons x xs ih =>
    cases count with
    | zero => simp
    | succ count =>
      rw [Nat.forall_lt_succ_left']
      cases ys with
      | nil => simp [agreement]
      | cons y ys =>
        by_cases same : x = y
        · simp [agreement, same, ih]
        · simp [agreement, same, Ne.symm same]

end Agreement

section First

variable {α β : Type} [LinearOrder α] [LinearOrder β]

theorem isLeast_of_mem_argmax {f : α → β} {list : List α} {best : α}
    (increasing : list.SortedLT) (found : best ∈ list.argmax f) :
    IsGreatest {value | ∃ candidate ∈ list, value = f candidate} (f best) ∧
      IsLeast {candidate | candidate ∈ list ∧ f candidate = f best} best := by
  obtain ⟨member, greatest, first⟩ := List.mem_argmax_iff.mp found
  refine ⟨⟨⟨best, member, rfl⟩, ?_⟩, ⟨member, rfl⟩, ?_⟩
  · rintro value ⟨candidate, listed, rfl⟩
    exact greatest candidate listed
  · rintro candidate ⟨listed, same⟩
    have inside := List.idxOf_lt_length_of_mem member
    have inside' := List.idxOf_lt_length_of_mem listed
    have ordered : list[list.idxOf best] ≤ list[list.idxOf candidate] :=
      increasing.sortedLE.getElem_le_getElem_of_le (first candidate listed same.ge)
    simpa using ordered

end First

end Search
