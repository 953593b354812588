import Mathlib.Data.List.Induction
import Mathlib.Data.List.Infix

set_option autoImplicit false

namespace Runs

variable {σ ι : Type}

def after (step : σ → ι → σ) (start : σ) (inputs : List ι) : σ :=
  inputs.foldl step start

@[simp] theorem after_nil (step : σ → ι → σ) (start : σ) : after step start [] = start :=
  rfl

theorem after_cons (step : σ → ι → σ) (start : σ) (input : ι) (inputs : List ι) :
    after step start (input :: inputs) = after step (step start input) inputs :=
  rfl

theorem after_append (step : σ → ι → σ) (start : σ) (xs ys : List ι) :
    after step start (xs ++ ys) = after step (after step start xs) ys :=
  List.foldl_append

theorem after_snoc (step : σ → ι → σ) (start : σ) (inputs : List ι) (input : ι) :
    after step start (inputs ++ [input]) = step (after step start inputs) input := by
  rw [after_append]
  rfl

theorem project_after {τ : Type} {step : σ → ι → σ} {step' : τ → ι → τ} (project : σ → τ)
    (commutes : ∀ state input, project (step state input) = step' (project state) input)
    (start : σ) (inputs : List ι) :
    project (after step start inputs) = after step' (project start) inputs := by
  induction inputs generalizing start with
  | nil => rfl
  | cons input rest ih => rw [after_cons, after_cons, ih, commutes]

/-- Every input meets the guard in the state it is taken in. -/
def Guarded (step : σ → ι → σ) (guard : σ → ι → Prop) (start : σ) (inputs : List ι) : Prop :=
  ∀ before input, before ++ [input] <+: inputs → guard (after step start before) input

theorem guarded_front {step : σ → ι → σ} {guard : σ → ι → Prop} {start : σ}
    {before inputs : List ι} (inside : before <+: inputs)
    (guarded : Guarded step guard start inputs) : Guarded step guard start before :=
  fun earlier input front => guarded earlier input (front.trans inside)

theorem guarded_nil (step : σ → ι → σ) (guard : σ → ι → Prop) (start : σ) :
    Guarded step guard start [] := by
  intro before input inside
  simp at inside

theorem guarded_cons {step : σ → ι → σ} {guard : σ → ι → Prop} {start : σ} {input : ι}
    {inputs : List ι} : Guarded step guard start (input :: inputs) ↔
      guard start input ∧ Guarded step guard (step start input) inputs := by
  constructor
  · intro guarded
    refine ⟨guarded [] input ⟨inputs, rfl⟩, ?_⟩
    intro before other inside
    exact guarded (input :: before) other (List.cons_prefix_cons.mpr ⟨rfl, inside⟩)
  · rintro ⟨first, rest⟩ before other inside
    cases before with
    | nil =>
      obtain ⟨rfl, _⟩ := List.cons_prefix_cons.mp inside
      exact first
    | cons head before =>
      obtain ⟨rfl, shorter⟩ := List.cons_prefix_cons.mp inside
      exact rest before other shorter

theorem guarded_snoc {step : σ → ι → σ} {guard : σ → ι → Prop} {start : σ} {inputs : List ι}
    {input : ι} (guarded : Guarded step guard start inputs)
    (last : guard (after step start inputs) input) :
    Guarded step guard start (inputs ++ [input]) := by
  intro before other inside
  rcases List.prefix_concat_iff.mp inside with whole | shorter
  · obtain ⟨rfl, same⟩ := List.append_inj' whole rfl
    rw [List.singleton_inj.mp same]
    exact last
  · exact guarded before other shorter

theorem invariant_of_guarded {step : σ → ι → σ} {guard : σ → ι → Prop} (invariant : σ → Prop)
    (preserved : ∀ state input, invariant state → guard state input → invariant (step state input))
    {start : σ} (initial : invariant start) {inputs : List ι}
    (guarded : Guarded step guard start inputs) : invariant (after step start inputs) := by
  induction inputs using List.reverseRecOn with
  | nil => exact initial
  | append_singleton inputs input ih =>
    rw [after_snoc]
    apply preserved _ _ (ih (guarded_front (List.prefix_append _ _) guarded))
    exact guarded inputs input (List.prefix_refl _)

theorem invariant_of_step {step : σ → ι → σ} (invariant : σ → Prop)
    (preserved : ∀ state input, invariant state → invariant (step state input))
    {start : σ} (initial : invariant start) (inputs : List ι) :
    invariant (after step start inputs) := by
  have guarded : Guarded step (fun _ _ => True) start inputs := fun _ _ _ => trivial
  exact invariant_of_guarded invariant (fun state input holds _ => preserved state input holds)
    initial guarded

theorem always_of_next {step : σ → ι → σ} (good : σ → Prop) {start : σ} {inputs : List ι}
    (initial : good start)
    (next : ∀ before input, before ++ [input] <+: inputs → good (after step start before) →
      good (after step start (before ++ [input]))) :
    ∀ before, before <+: inputs → good (after step start before) := by
  intro before
  induction before using List.reverseRecOn with
  | nil => exact fun _ => initial
  | append_singleton before input ih =>
    intro inside
    exact next before input inside (ih ((List.prefix_append _ _).trans inside))

-- Where one step keeps what is good exactly under the guard, so does a whole run.
theorem always_iff_guarded {step : σ → ι → σ} {guard : σ → ι → Prop} (invariant good : σ → Prop)
    (preserved : ∀ state input, invariant state → invariant (step state input))
    (exact' : ∀ state input, invariant state → good state →
      (good (step state input) ↔ guard state input))
    {start : σ} (initial : invariant start) (initialGood : good start) (inputs : List ι) :
    (∀ before, before <+: inputs → good (after step start before)) ↔
      Guarded step guard start inputs := by
  constructor
  · intro always before input inside
    have here := invariant_of_step invariant preserved initial before
    have next := always _ inside
    rw [after_snoc] at next
    exact (exact' _ input here (always before ((List.prefix_append _ _).trans inside))).mp next
  · intro guarded before inside
    refine (invariant_of_guarded (fun state => invariant state ∧ good state) ?_
      ⟨initial, initialGood⟩ (guarded_front inside guarded)).2
    rintro state input ⟨holds, fine⟩ allowed
    exact ⟨preserved state input holds, (exact' state input holds fine).mpr allowed⟩

end Runs
