import AdsRealtime.Shared.Runs

set_option autoImplicit false

namespace Runs

variable {σ ι : Type}

/-- Every step of the run changes the state. -/
def Effective (step : σ → ι → σ) : σ → List ι → Prop :=
  Guarded step fun state input => step state input ≠ state

/-- None of the inputs changes the state any more. -/
def Quiet (step : σ → ι → σ) (allowed : ι → Prop) (state : σ) : Prop :=
  ∀ input, allowed input → step state input = state

section

variable {step : σ → ι → σ} {allowed : ι → Prop} {invariant : σ → Prop} {cost : σ → Nat}
  (preserved : ∀ state input, allowed input → invariant state → invariant (step state input))
  (descends : ∀ state input, allowed input → invariant state → step state input ≠ state →
    cost (step state input) < cost state)

include preserved

theorem invariant_of_allowed {start : σ} (initial : invariant start) {inputs : List ι}
    (permitted : ∀ input ∈ inputs, allowed input) : invariant (after step start inputs) := by
  induction inputs generalizing start with
  | nil => exact initial
  | cons input rest ih =>
    obtain ⟨first, later⟩ := List.forall_mem_cons.mp permitted
    exact ih (preserved start input first initial) later

include descends

theorem length_le_of_effective {start : σ} {inputs : List ι} (initial : invariant start)
    (permitted : ∀ input ∈ inputs, allowed input) (effective : Effective step start inputs) :
    inputs.length + cost (after step start inputs) ≤ cost start := by
  induction inputs generalizing start with
  | nil => simp
  | cons input rest ih =>
    obtain ⟨changes, later⟩ := guarded_cons.mp effective
    have first := permitted input List.mem_cons_self
    have less := descends start input first initial changes
    have left := ih (preserved start input first initial)
      (fun other member => permitted other (List.mem_cons_of_mem _ member)) later
    rw [after_cons, List.length_cons]
    omega

theorem exists_quiet (start : σ) (initial : invariant start) :
    ∃ inputs, (∀ input ∈ inputs, allowed input) ∧ invariant (after step start inputs) ∧
      Quiet step allowed (after step start inputs) := by
  induction most : cost start using Nat.strong_induction_on generalizing start with
  | _ most_ ih =>
    by_cases quiet : Quiet step allowed start
    · exact ⟨[], by simp, initial, quiet⟩
    · unfold Quiet at quiet
      push Not at quiet
      obtain ⟨input, permitted, changes⟩ := quiet
      have less := descends start input permitted initial changes
      obtain ⟨inputs, more, settled⟩ := ih (cost (step start input)) (most ▸ less)
        (step start input) (preserved start input permitted initial) rfl
      exact ⟨input :: inputs, List.forall_mem_cons.mpr ⟨permitted, more⟩, settled⟩

end

end Runs
