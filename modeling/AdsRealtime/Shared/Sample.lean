import Mathlib.Order.Bounds.Basic
import Mathlib.Algebra.Order.BigOperators.Group.List
import Mathlib.Tactic.Linarith

set_option autoImplicit false

namespace Sample

abbrev values (sample : List Nat) : Set Nat :=
  {value | value ∈ sample}

theorem values_cons (value : Nat) (sample : List Nat) :
    values (value :: sample) = insert value (values sample) := by
  ext other
  exact List.mem_cons

theorem values_nonempty {sample : List Nat} (some_ : sample ≠ []) : (values sample).Nonempty :=
  List.exists_mem_of_ne_nil sample some_

theorem isLeast_of_insert {α : Type} [PartialOrder α] {set : Set α} {bound least : α}
    (some_ : set.Nonempty) (bounded : bound ∈ upperBounds set)
    (least_ : IsLeast (insert bound set) least) : IsLeast set least := by
  obtain ⟨member, lower⟩ := least_
  refine ⟨?_, fun value inside => lower (Set.mem_insert_of_mem bound inside)⟩
  rcases member with rfl | inside
  · obtain ⟨value, here⟩ := some_
    have same := le_antisymm (bounded here) (lower (Set.mem_insert_of_mem least here))
    rwa [← same]
  · exact inside

theorem isGreatest_of_insert {α : Type} [PartialOrder α] {set : Set α} {bound greatest : α}
    (some_ : set.Nonempty) (bounded : bound ∈ lowerBounds set)
    (greatest_ : IsGreatest (insert bound set) greatest) : IsGreatest set greatest :=
  isLeast_of_insert (α := αᵒᵈ) some_ bounded greatest_

theorem least_le_mean {sample : List Nat} {least : Nat} (some_ : sample ≠ [])
    (least_ : IsLeast (values sample) least) : least ≤ sample.sum / sample.length := by
  rw [Nat.le_div_iff_mul_le (List.length_pos_iff.mpr some_), Nat.mul_comm]
  simpa using List.card_nsmul_le_sum sample least fun value inside => least_.2 inside

theorem mean_le_greatest {sample : List Nat} {greatest : Nat}
    (greatest_ : IsGreatest (values sample) greatest) :
    sample.sum / sample.length ≤ greatest := by
  apply Nat.div_le_of_le_mul
  simpa using List.sum_le_card_nsmul sample greatest fun value inside => greatest_.2 inside

theorem mean_of_mod_iff {count size sum : Nat} (positive : 0 < count) (few : count < size) :
    sum % size / count = sum / count ↔ sum < size := by
  constructor
  · intro same
    by_contra large
    have split := Nat.div_add_mod sum size
    have turns : 1 ≤ sum / size := (Nat.one_le_div_iff (by omega)).mpr (by omega)
    have lost : sum % size + count ≤ sum := by
      have := Nat.mul_le_mul_left size turns
      omega
    have smaller := Nat.div_le_div_right (c := count) lost
    rw [Nat.add_div_right _ positive, same] at smaller
    omega
  · intro small
    rw [Nat.mod_eq_of_lt small]

end Sample
