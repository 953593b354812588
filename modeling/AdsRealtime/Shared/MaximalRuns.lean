import Mathlib.Algebra.Ring.Nat
import Mathlib.Data.List.SplitBy

set_option autoImplicit false

namespace MaximalRuns

variable {α : Type} [DecidableEq α]

def maximalRuns (data : List α) : List (List α) :=
  data.splitBy (· == ·)

theorem splitBy_replicate {count : Nat} (positive : 0 < count) (a : α) :
    (List.replicate count a).splitBy (· == ·) = [List.replicate count a] := by
  apply List.splitBy_of_isChain
  · exact List.ne_nil_of_length_pos (by simpa using positive)
  · exact List.isChain_replicate_of_rel count (by simp)

theorem maximalRuns_replicate_append {count : Nat} (positive : 0 < count) {a : α} {rest : List α}
    (ends : rest.head? ≠ some a) :
    maximalRuns (List.replicate count a ++ rest) =
      List.replicate count a :: maximalRuns rest := by
  rw [maximalRuns, List.splitBy_append, splitBy_replicate positive]
  · rfl
  · intro last isLast first isFirst
    have same := List.eq_of_mem_replicate (List.mem_of_mem_getLast? isLast)
    subst same
    simp only [beq_eq_false_iff_ne]
    rintro rfl
    exact ends isFirst

theorem exists_run (a : α) (rest : List α) :
    ∃ count behind, a :: rest = List.replicate (count + 1) a ++ behind ∧
      behind.head? ≠ some a := by
  induction rest with
  | nil => exact ⟨0, [], rfl, by simp⟩
  | cons b rest ih =>
    by_cases same : b = a
    · subst same
      obtain ⟨count, behind, split, ends⟩ := ih
      refine ⟨count + 1, behind, ?_, ends⟩
      rw [split, List.replicate_succ (n := count + 1), List.cons_append]
    · exact ⟨0, b :: rest, rfl, by simpa using same⟩

theorem exists_leading (a : α) (data : List α) :
    ∃ count behind, data = List.replicate count a ++ behind ∧ behind.head? ≠ some a := by
  cases data with
  | nil => exact ⟨0, [], rfl, by simp⟩
  | cons b rest =>
    by_cases same : b = a
    · subst same
      obtain ⟨count, behind, split, ends⟩ := exists_run b rest
      exact ⟨count + 1, behind, split, ends⟩
    · exact ⟨0, b :: rest, rfl, by simpa using same⟩

theorem run_induction {motive : List α → Prop} (nil : motive [])
    (run : ∀ (count : Nat) (a : α) (rest : List α), 0 < count → rest.head? ≠ some a →
      motive rest → motive (List.replicate count a ++ rest)) (data : List α) : motive data := by
  induction exact : data.length using Nat.strong_induction_on generalizing data with
  | _ size ih =>
    cases data with
    | nil => exact nil
    | cons a rest =>
      obtain ⟨count, behind, split, ends⟩ := exists_run a rest
      have shorter : behind.length < size := by
        have lengths := congrArg List.length split
        simp only [List.length_append, List.length_replicate, exact] at lengths
        omega
      rw [split]
      exact run (count + 1) a behind (Nat.succ_pos count) ends (ih _ shorter behind rfl)

theorem eq_sum_maximalRuns {f : List α → Nat} {weight : List α → Nat} (nil : f [] = 0)
    (run : ∀ (count : Nat) (a : α) (rest : List α), 0 < count → rest.head? ≠ some a →
      f (List.replicate count a ++ rest) = weight (List.replicate count a) + f rest)
    (data : List α) : f data = ((maximalRuns data).map weight).sum := by
  induction data using run_induction with
  | nil => exact nil
  | run count a rest positive ends ih =>
    rw [run count a rest positive ends, maximalRuns_replicate_append positive ends, ih,
      List.map_cons, List.sum_cons]

end MaximalRuns
