import Mathlib.Order.Lattice
import Mathlib.Tactic.Linarith

set_option autoImplicit false

namespace Releases

variable {release start call : Nat → Nat} {busy jitter period : Nat}

/-- Turn k calls its wait within `busy`, and the wait for the next release is over `jitter` after
it could be at the earliest, which is when the next turn starts. -/
structure Paced (release start call : Nat → Nat) (busy jitter k : Nat) : Prop where
  calls : call k ≤ start k + busy
  waits : max (call k) (release (k + 1)) ≤ start (k + 1)
  wakes : start (k + 1) ≤ max (call k) (release (k + 1)) + jitter

def OnTime (release start : Nat → Nat) (jitter k : Nat) : Prop :=
  release k ≤ start k ∧ start k ≤ release k + jitter

theorem onTime_next {k : Nat} (paced : Paced release start call busy jitter k)
    (early : start k + busy ≤ release (k + 1)) : OnTime release start jitter (k + 1) := by
  obtain ⟨calls, waits, wakes⟩ := paced
  have first : max (call k) (release (k + 1)) = release (k + 1) := max_eq_right (by omega)
  rw [first] at waits wakes
  exact ⟨waits, wakes⟩

theorem onTime_run (spaced : ∀ k, release (k + 1) = release k + period)
    (fits : busy + jitter ≤ period) (first : start 0 ≤ release 0 + jitter) (k : Nat)
    (paced : ∀ j, j ≤ k → Paced release start call busy jitter j) :
    OnTime release start jitter (k + 1) := by
  induction k with
  | zero =>
    have next := spaced 0
    exact onTime_next (paced 0 (Nat.le_refl 0)) (by omega)
  | succ k ih =>
    have next := spaced (k + 1)
    have before := (ih fun j earlier => paced j (Nat.le_succ_of_le earlier)).2
    exact onTime_next (paced (k + 1) (Nat.le_refl _)) (by omega)

-- A turn that starts late hands on less of its lateness than it started with.
theorem late_next {slack lateness k : Nat} (spaced : release (k + 1) = release k + period)
    (fits : busy + jitter + slack ≤ period) (late : start k ≤ release k + lateness)
    (paced : Paced release start call busy jitter k) :
    OnTime release start jitter (k + 1) ∨ start (k + 1) + slack ≤ release (k + 1) + lateness := by
  by_cases early : start k + busy ≤ release (k + 1)
  · exact Or.inl (onTime_next paced early)
  · obtain ⟨calls, waits, wakes⟩ := paced
    right
    rcases max_choice (call k) (release (k + 1)) with same | same
    · rw [same] at wakes
      omega
    · rw [same] at wakes
      omega

theorem onTime_again {slack : Nat} (spaced : ∀ k, release (k + 1) = release k + period)
    (fits : busy + jitter + slack ≤ period) (turns k : Nat)
    (late : start k ≤ release k + slack * turns)
    (paced : ∀ j, k ≤ j → j ≤ k + turns → Paced release start call busy jitter j) :
    ∃ j, k < j ∧ j ≤ k + turns + 1 ∧ OnTime release start jitter j := by
  induction turns generalizing k with
  | zero =>
    have here := paced k (Nat.le_refl k) (Nat.le_refl k)
    rcases late_next (spaced k) fits late here with onTime | caught
    · exact ⟨k + 1, by omega, by omega, onTime⟩
    · have waits := (max_le_iff.mp here.waits).2
      exact ⟨k + 1, by omega, by omega, waits, by omega⟩
  | succ turns ih =>
    have here := paced k (Nat.le_refl k) (by omega)
    rcases late_next (spaced k) fits late here with onTime | caught
    · exact ⟨k + 1, by omega, by omega, onTime⟩
    · have less : start (k + 1) ≤ release (k + 1) + slack * turns := by
        rw [Nat.mul_succ] at caught
        omega
      obtain ⟨j, after, within, onTime⟩ :=
        ih (k + 1) less fun j low high => paced j (by omega) (by omega)
      exact ⟨j, by omega, by omega, onTime⟩

theorem le_mul_ceil {slack : Nat} (positive : 0 < slack) (lateness : Nat) :
    lateness ≤ slack * ((lateness + slack - 1) / slack) := by
  have split := Nat.div_add_mod (lateness + slack - 1) slack
  have rest := Nat.mod_lt (lateness + slack - 1) positive
  omega

end Releases
