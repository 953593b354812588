import Mathlib.Algebra.Order.BigOperators.Group.List
import Mathlib.Algebra.Order.Ring.Nat

set_option autoImplicit false

namespace Shortest

variable {α β ι : Type}

/-- No other code of the same data is shorter. -/
def IsShortest (decode : List β → List α) (code : List β) : Prop :=
  ∀ other, decode other = decode code → code.length ≤ other.length

/-- No code is shorter than the measure of what it decodes to, and some code is as short. -/
structure Measures (decode : List β → List α) (least : List α → Nat) : Prop where
  bounds : ∀ code, least (decode code) ≤ code.length
  attained : ∀ data, ∃ code, decode code = data ∧ code.length = least data

theorem Measures.isShortest_iff {decode : List β → List α} {least : List α → Nat}
    (measures : Measures decode least) (code : List β) :
    IsShortest decode code ↔ code.length = least (decode code) := by
  constructor
  · intro shortest
    obtain ⟨other, same, size⟩ := measures.attained (decode code)
    apply Nat.le_antisymm _ (measures.bounds code)
    rw [← size]
    exact shortest other same
  · intro exact' other same
    rw [exact', ← same]
    exact measures.bounds other

theorem sum_eq_sum_iff {least cost : ι → Nat} {parts : List ι}
    (below : ∀ part ∈ parts, least part ≤ cost part) :
    (parts.map cost).sum = (parts.map least).sum ↔ ∀ part ∈ parts, cost part = least part := by
  constructor
  · intro same part member
    by_contra differs
    have less : least part < cost part := Nat.lt_of_le_of_ne (below part member) (Ne.symm differs)
    have sums := List.sum_lt_sum least cost below ⟨part, member, less⟩
    omega
  · intro same
    rw [List.map_congr_left same]

end Shortest
