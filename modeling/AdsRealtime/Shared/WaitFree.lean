import AdsRealtime.Shared.Runs

set_option autoImplicit false

namespace Runs

variable {σ ι : Type} {step : σ → ι → σ} {own : ι → Bool} {busy done : σ → Prop} {work : σ → Nat}

/-- Steps of its own bring a party on, and the others cannot set it back: after as many of its own
steps as it has work it is done, however the others are scheduled. -/
theorem done_within (positive : ∀ state, busy state → 0 < work state)
    (comesOn : ∀ state input, busy state → own input = true →
      done (step state input) ∨ busy (step state input) ∧ work (step state input) < work state)
    (keeps : ∀ state input, busy state → own input = false →
      busy (step state input) ∧ work (step state input) ≤ work state)
    {start : σ} (begun : busy start) {inputs : List ι} (enough : work start ≤ inputs.countP own) :
    ∃ before, before <+: inputs ∧ done (after step start before) := by
  induction inputs generalizing start with
  | nil =>
    have some_ := positive start begun
    rw [List.countP_nil] at enough
    omega
  | cons input rest ih =>
    have onward (busy_ : busy (step start input))
        (enough_ : work (step start input) ≤ rest.countP own) :
        ∃ before, before <+: input :: rest ∧ done (after step start before) := by
      obtain ⟨before, inside, ended⟩ := ih busy_ enough_
      exact ⟨input :: before, List.cons_prefix_cons.mpr ⟨rfl, inside⟩, ended⟩
    cases mine : own input with
    | true =>
      rw [List.countP_cons_of_pos mine] at enough
      rcases comesOn start input begun mine with ended | ⟨still, less⟩
      · exact ⟨[input], List.cons_prefix_cons.mpr ⟨rfl, List.nil_prefix⟩, ended⟩
      · exact onward still (by omega)
    | false =>
      rw [List.countP_cons_of_neg (by simp [mine])] at enough
      obtain ⟨still, less⟩ := keeps start input begun mine
      exact onward still (Nat.le_trans less enough)

end Runs
