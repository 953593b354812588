import AdsRealtime.Shared.Runs

set_option autoImplicit false

namespace Runs

variable {σ ι ο : Type}

/-- No sequence of inputs leads to different observations from the two states. -/
def Indistinguishable (step : σ → ι → σ) (observe : σ → ο) (a b : σ) : Prop :=
  ∀ inputs, observe (after step a inputs) = observe (after step b inputs)

theorem Indistinguishable.now {step : σ → ι → σ} {observe : σ → ο} {a b : σ}
    (same : Indistinguishable step observe a b) : observe a = observe b :=
  same []

theorem indistinguishable_of_bisimulation {step : σ → ι → σ} {observe : σ → ο}
    (related : σ → σ → Prop) (agrees : ∀ a b, related a b → observe a = observe b)
    (preserved : ∀ a b input, related a b → related (step a input) (step b input))
    {a b : σ} (start : related a b) : Indistinguishable step observe a b := by
  intro inputs
  induction inputs generalizing a b with
  | nil => exact agrees a b start
  | cons input inputs ih => exact ih (preserved a b input start)

end Runs
