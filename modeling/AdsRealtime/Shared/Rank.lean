import Mathlib.Data.List.Sort
import Mathlib.Order.Bounds.Basic

set_option autoImplicit false

namespace Rank

variable {α : Type} [LinearOrder α]

theorem lt_countP_le {sorted : List α} (increasing : sorted.SortedLE) {index : Nat}
    (inside : index < sorted.length) : index < sorted.countP (· ≤ sorted[index]) := by
  have front : (sorted.take (index + 1)).countP (· ≤ sorted[index]) = index + 1 := by
    rw [List.countP_eq_length.mpr, List.length_take, Nat.min_eq_left inside]
    intro value member
    obtain ⟨k, below, rfl⟩ := List.mem_take_iff_getElem.mp member
    exact decide_eq_true (increasing.getElem_le_getElem_of_le (by omega))
  have most := (List.take_sublist (index + 1) sorted).countP_le (p := (· ≤ sorted[index]))
  omega

theorem le_countP_ge {sorted : List α} (increasing : sorted.SortedLE) {index : Nat}
    (inside : index < sorted.length) :
    sorted.length - index ≤ sorted.countP (sorted[index] ≤ ·) := by
  have back : (sorted.drop index).countP (sorted[index] ≤ ·) = sorted.length - index := by
    rw [List.countP_eq_length.mpr, List.length_drop]
    intro value member
    obtain ⟨k, below, rfl⟩ := List.mem_drop_iff_getElem.mp member
    exact decide_eq_true (increasing.getElem_le_getElem_of_le (by omega))
  have most := (List.drop_sublist index sorted).countP_le (p := (sorted[index] ≤ ·))
  omega

theorem isLeast_getElem_zero {sorted : List α} (increasing : sorted.SortedLE)
    (inside : 0 < sorted.length) : IsLeast {value | value ∈ sorted} sorted[0] := by
  refine ⟨List.getElem_mem inside, ?_⟩
  intro value member
  obtain ⟨k, below, rfl⟩ := List.mem_iff_getElem.mp member
  exact increasing.getElem_le_getElem_of_le (Nat.zero_le k)

theorem isGreatest_getElem_last {sorted : List α} (increasing : sorted.SortedLE)
    (inside : sorted.length - 1 < sorted.length) :
    IsGreatest {value | value ∈ sorted} sorted[sorted.length - 1] := by
  refine ⟨List.getElem_mem inside, ?_⟩
  intro value member
  obtain ⟨k, below, rfl⟩ := List.mem_iff_getElem.mp member
  exact increasing.getElem_le_getElem_of_le (Nat.le_sub_one_of_lt below)

/-- More than the given percentage of the sample is at most the value, the rest at least it. -/
structure IsPercentile (sample : List α) (percent : Nat) (value : α) : Prop where
  member : value ∈ sample
  atMost : percent * sample.length < 100 * sample.countP (· ≤ value)
  atLeast : (100 - percent) * sample.length ≤ 100 * sample.countP (value ≤ ·)

theorem isPercentile_getElem {sample sorted : List α} (increasing : sorted.SortedLE)
    (same : sorted.Perm sample) {percent index : Nat} (inside : index < sorted.length)
    (low : 100 * index ≤ percent * sample.length)
    (high : percent * sample.length < 100 * (index + 1)) :
    IsPercentile sample percent sorted[index] where
  member := same.mem_iff.mp (List.getElem_mem inside)
  atMost := by
    have below := lt_countP_le increasing inside
    rw [same.countP_eq] at below
    omega
  atLeast := by
    have above := le_countP_ge increasing inside
    rw [same.countP_eq, same.length_eq] at above
    rw [Nat.sub_mul]
    omega

theorem mergeSort_congr {sample other : List α} (same : sample.Perm other) :
    sample.mergeSort (· ≤ ·) = other.mergeSort (· ≤ ·) :=
  List.Perm.eq_of_sortedLE List.sortedLE_mergeSort List.sortedLE_mergeSort
    (((List.mergeSort_perm _ _).trans same).trans (List.mergeSort_perm _ _).symm)

end Rank
