import Mathlib.Algebra.BigOperators.Group.List.Basic
import Mathlib.Algebra.Ring.Nat
import Mathlib.Data.List.Perm.Basic

set_option autoImplicit false

namespace InFlight

variable {ο : Type}

/-- What is left of the operations in flight when the one at the place makes a step: it goes on as
the given operation, or it is over. -/
def advance (operations : List ο) (place : Nat) (next : Option ο) : List ο :=
  next.toList ++ operations.eraseIdx place

def total (worth : ο → Nat) (operations : List ο) : Nat :=
  (operations.map worth).sum

@[simp] theorem total_nil (worth : ο → Nat) : total worth [] = 0 :=
  rfl

@[simp] theorem total_cons (worth : ο → Nat) (operation : ο) (operations : List ο) :
    total worth (operation :: operations) = worth operation + total worth operations := by
  simp [total]

theorem perm_of_getElem? {operations : List ο} {place : Nat} {operation : ο}
    (found : operations[place]? = some operation) :
    operations.Perm (operation :: operations.eraseIdx place) := by
  obtain ⟨inside, rfl⟩ := List.getElem?_eq_some_iff.mp found
  exact (List.getElem_cons_eraseIdx_perm inside).symm

theorem total_advance (worth : ο → Nat) {operations : List ο} {place : Nat} {operation : ο}
    (found : operations[place]? = some operation) (next : Option ο) :
    total worth (advance operations place next) + worth operation =
      total worth operations + (next.map worth).getD 0 := by
  have split : total worth operations =
      worth operation + total worth (operations.eraseIdx place) := by
    have sums := ((perm_of_getElem? found).map worth).sum_eq
    simpa [total] using sums
  cases next with
  | none =>
    simp only [advance, Option.toList_none, List.nil_append, Option.map_none, Option.getD_none]
    omega
  | some after =>
    simp only [advance, Option.toList_some, List.singleton_append, total_cons, Option.map_some,
      Option.getD_some]
    omega

theorem mem_advance {operations : List ο} {place : Nat} {next : Option ο} {operation : ο}
    (member : operation ∈ advance operations place next) :
    operation ∈ operations ∨ next = some operation := by
  rcases List.mem_append.mp member with new | old
  · exact .inr (Option.mem_toList.mp new)
  · exact .inl (List.mem_of_mem_eraseIdx old)

end InFlight
