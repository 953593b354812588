import Mathlib.Data.List.Basic

set_option autoImplicit false

namespace Looping

variable {σ ρ τ : Type}

/-- One turn of a `while` loop: go round again, leave it, or hit undefined behaviour. -/
inductive Turn (σ ρ : Type) where
  | again (state : σ)
  | exit (result : ρ)
  | fault

inductive Outcome (ρ : Type) where
  | returned (result : ρ)
  | fault
  | running
  deriving DecidableEq, Repr

def Outcome.map (f : ρ → τ) : Outcome ρ → Outcome τ
  | .returned result => .returned (f result)
  | .fault => .fault
  | .running => .running

theorem Outcome.map_returns_iff (f : ρ → τ) (outcome : Outcome ρ) :
    (∃ result, outcome.map f = .returned result) ↔ ∃ value, outcome = .returned value := by
  cases outcome <;> simp [Outcome.map]

theorem Outcome.map_eq_returned_iff (f : ρ → τ) (outcome : Outcome ρ) (result : τ) :
    outcome.map f = .returned result ↔ ∃ value, outcome = .returned value ∧ f value = result := by
  cases outcome <;> simp [Outcome.map]

def run (turn : σ → Turn σ ρ) : Nat → σ → Outcome ρ
  | 0, _ => .running
  | fuel + 1, state =>
    match turn state with
    | .again next => run turn fuel next
    | .exit result => .returned result
    | .fault => .fault

/-- The loop never leaves: no number of turns is enough. -/
def Diverges (turn : σ → Turn σ ρ) (state : σ) : Prop :=
  ∀ fuel, run turn fuel state = .running

theorem run_again {turn : σ → Turn σ ρ} {state next : σ} (step : turn state = .again next)
    (fuel : Nat) : run turn (fuel + 1) state = run turn fuel next := by
  simp [run, step]

theorem run_exit {turn : σ → Turn σ ρ} {state : σ} {result : ρ} (step : turn state = .exit result)
    (fuel : Nat) : run turn (fuel + 1) state = .returned result := by
  simp [run, step]

theorem run_fault {turn : σ → Turn σ ρ} {state : σ} (step : turn state = .fault)
    (fuel : Nat) : run turn (fuel + 1) state = .fault := by
  simp [run, step]

theorem run_stable {turn : σ → Turn σ ρ} {fuel : Nat} {state : σ}
    (settled : run turn fuel state ≠ .running) (extra : Nat) :
    run turn (fuel + extra) state = run turn fuel state := by
  induction fuel generalizing state with
  | zero => exact absurd rfl settled
  | succ fuel ih =>
    rw [Nat.add_right_comm]
    cases step : turn state with
    | again next =>
      rw [run_again step] at settled
      rw [run_again step, run_again step, ih settled]
    | exit result => rw [run_exit step, run_exit step]
    | fault => rw [run_fault step, run_fault step]

theorem diverges_of_stuck {turn : σ → Turn σ ρ} {state : σ} (stuck : turn state = .again state) :
    Diverges turn state := by
  intro fuel
  induction fuel with
  | zero => rfl
  | succ fuel ih => rw [run_again stuck, ih]

def search (found : Nat → Bool) (number : Nat) : Turn Nat Nat :=
  if found number then .exit number else .again (number + 1)

theorem run_search {found : Nat → Bool} {result first fuel : Nat} (here : found result = true)
    (none_ : ∀ number, first ≤ number → number < result → found number = false)
    (behind : first ≤ result) (enough : result < first + fuel) :
    run (search found) fuel first = .returned result := by
  induction fuel generalizing first with
  | zero => omega
  | succ fuel ih =>
    by_cases same : first = result
    · subst same
      exact run_exit (by simp [search, here]) fuel
    · have missed := none_ first (Nat.le_refl _) (by omega)
      rw [run_again (show search found first = .again (first + 1) by simp [search, missed])]
      exact ih (fun number low => none_ number (by omega)) (by omega) (by omega)

end Looping
