import AdsRealtime.Shared.Circular
import Mathlib.Data.List.Perm.Subperm

set_option autoImplicit false

namespace Scan

open Circular (around)

def visited (word size start count : Nat) : List Nat :=
  (List.range count).map fun k => (start + k) % word % size

@[simp] theorem length_visited (word size start count : Nat) :
    (visited word size start count).length = count := by
  simp [visited]

theorem visited_succ (word size start count : Nat) :
    visited word size start (count + 1) =
      start % word % size :: visited word size ((start + 1) % word) count := by
  rw [visited, List.range_succ_eq_map, List.map_cons, List.map_map]
  congr 1
  apply List.map_congr_left
  intro k _
  rw [Function.comp, Nat.mod_add_mod, Nat.succ_eq_add_one, Nat.add_right_comm, Nat.add_assoc]

theorem visited_of_dvd {word size : Nat} (divides : size ∣ word) (start count : Nat) :
    visited word size start count = around size start count :=
  List.map_congr_left fun k _ => Nat.mod_mod_of_dvd (start + k) divides

theorem visited_of_le {word start count : Nat} (before : start + count ≤ word) (size : Nat) :
    visited word size start count = around size start count := by
  apply List.map_congr_left
  intro k member
  have inside := List.mem_range.mp member
  rw [Nat.mod_eq_of_lt (by omega : start + k < word)]

theorem not_nodup_visited {word size start : Nat} (inside : start < word)
    (uneven : ¬ size ∣ word) (wraps : word < start + size) :
    ¬ (visited word size start size).Nodup := by
  have offset : word % size ≠ 0 := fun even => uneven (Nat.dvd_of_mod_eq_zero even)
  have small := Nat.mod_lt word (by omega : 0 < size)
  have split := Nat.div_add_mod word size
  have atMost := Nat.mod_le word size
  -- The last place before the wrap whose slot comes again, and how far behind the wrap that is.
  obtain ⟨first, before, fits, reached⟩ : ∃ first, start + first < word ∧
      word % size + first < size ∧ word ≤ start + (word % size + first) := by
    by_cases near : word % size + (word - start) ≤ size
    · exact ⟨word - start - 1, by omega, by omega, by omega⟩
    · exact ⟨size - 1 - word % size, by omega, by omega, by omega⟩
  intro distinct
  have same : (start + first) % word % size = (start + (word % size + first)) % word % size := by
    obtain ⟨behind, there⟩ := Nat.exists_eq_add_of_le reached
    have here : start + first = behind + size * (word / size) := by
      omega
    rw [there, Nat.add_mod_left, Nat.mod_eq_of_lt before,
      Nat.mod_eq_of_lt (by omega : behind < word), here, Nat.add_mul_mod_self_left]
  have equal := List.inj_on_of_nodup_map distinct (List.mem_range.mpr (by omega))
    (List.mem_range.mpr fits) same
  omega

theorem visited_perm_range_iff {word size start : Nat} (inside : start < word) :
    (visited word size start size).Perm (List.range size) ↔
      size ∣ word ∨ start + size ≤ word := by
  constructor
  · intro once
    by_contra neither
    obtain ⟨uneven, wraps⟩ := not_or.mp neither
    exact not_nodup_visited inside uneven (by omega) (once.nodup_iff.mpr List.nodup_range)
  · rintro (divides | before)
    · rw [visited_of_dvd divides]
      exact Circular.around_perm_range size start
    · rw [visited_of_le before]
      exact Circular.around_perm_range size start

theorem visited_covers_iff {word size start : Nat} :
    (∀ slot, slot < size → slot ∈ visited word size start size) ↔
      (visited word size start size).Perm (List.range size) := by
  constructor
  · intro covers
    have inside : List.range size ⊆ visited word size start size :=
      fun slot member => covers slot (List.mem_range.mp member)
    have sub := List.subperm_of_subset List.nodup_range inside
    exact (sub.perm_of_length_le (by simp)).symm
  · intro once slot below
    exact once.mem_iff.mpr (List.mem_range.mpr below)

end Scan
