import AdsRealtime.Shared.Runs
import Mathlib.Computability.Language

set_option autoImplicit false

namespace Histories

open Runs Computability

variable {σ ι ε : Type} {step : σ → ι → σ} {events : σ → ι → List ε} {words : Language ε}

/-- What a run does to the world outside, input by input. -/
def history (step : σ → ι → σ) (events : σ → ι → List ε) (start : σ) : List ι → List ε
  | [] => []
  | input :: rest => events start input ++ history step events (step start input) rest

theorem history_append (start : σ) (xs ys : List ι) :
    history step events start (xs ++ ys) =
      history step events start xs ++ history step events (after step start xs) ys := by
  induction xs generalizing start with
  | nil => rfl
  | cons input rest ih =>
    rw [List.cons_append, history, ih, history, after_cons, List.append_assoc]

theorem history_snoc (start : σ) (inputs : List ι) (input : ι) :
    history step events start (inputs ++ [input]) =
      history step events start inputs ++ events (after step start inputs) input := by
  rw [history_append, history, history, List.append_nil]

theorem append_mem_kstar {xs ys : List ε} (left : xs ∈ words∗) (right : ys ∈ words∗) :
    xs ++ ys ∈ words∗ := by
  have both := Language.append_mem_mul left right
  rwa [kstar_mul_kstar] at both

theorem mem_kstar_of_mem {word : List ε} (member : word ∈ words) : word ∈ words∗ :=
  (le_kstar : words ≤ words∗) member

theorem history_mem_kstar {begun : σ → List ε} {invariant : σ → Prop}
    (preserved : ∀ state input, invariant state → invariant (step state input))
    (goesOn : ∀ state input, invariant state → ∃ whole ∈ words∗,
      begun state ++ events state input = whole ++ begun (step state input))
    {start : σ} (initial : invariant start) (fresh : begun start = []) (inputs : List ι) :
    ∃ whole ∈ words∗,
      history step events start inputs = whole ++ begun (after step start inputs) := by
  induction inputs using List.reverseRecOn with
  | nil => exact ⟨[], Language.nil_mem_kstar words, fresh.symm⟩
  | append_singleton inputs input ih =>
    obtain ⟨earlier, member, same⟩ := ih
    obtain ⟨whole, more, next⟩ :=
      goesOn _ input (invariant_of_step invariant preserved initial inputs)
    refine ⟨earlier ++ whole, append_mem_kstar member more, ?_⟩
    rw [history_snoc, same, List.append_assoc, next, List.append_assoc, after_snoc]

theorem exists_history {resting : σ → Prop}
    (played : ∀ state word, resting state → word ∈ words →
      ∃ inputs, history step events state inputs = word ∧ resting (after step state inputs))
    {start : σ} (rests : resting start) {whole : List ε} (member : whole ∈ words∗) :
    ∃ inputs, history step events start inputs = whole ∧ resting (after step start inputs) := by
  obtain ⟨list, rfl, inside⟩ := Language.mem_kstar.mp member
  clear member
  induction list generalizing start with
  | nil => exact ⟨[], rfl, rests⟩
  | cons word rest ih =>
    obtain ⟨here, later⟩ := List.forall_mem_cons.mp inside
    obtain ⟨first, same, stops⟩ := played start word rests here
    obtain ⟨inputs, others, end_⟩ := ih stops later
    refine ⟨first ++ inputs, ?_, ?_⟩
    · rw [history_append, same, others, List.flatten_cons]
    · rwa [after_append]

theorem histories_eq_kstar {begun : σ → List ε} {invariant resting : σ → Prop} {start : σ}
    {last : ι}
    (preserved : ∀ state input, invariant state → invariant (step state input))
    (goesOn : ∀ state input, invariant state → ∃ whole ∈ words∗,
      begun state ++ events state input = whole ++ begun (step state input))
    (played : ∀ state word, resting state → word ∈ words →
      ∃ inputs, history step events state inputs = word ∧ resting (after step state inputs))
    (ends : ∀ state, invariant state → begun (step state last) = [])
    (silent : ∀ state, resting state → events state last = [])
    (initial : invariant start) (rests : resting start) (fresh : begun start = []) :
    ({whole | ∃ inputs, history step events start (inputs ++ [last]) = whole} : Set (List ε)) =
      words∗ := by
  ext whole
  constructor
  · rintro ⟨inputs, rfl⟩
    obtain ⟨words_, member, same⟩ :=
      history_mem_kstar preserved goesOn initial fresh (inputs ++ [last])
    rw [after_snoc, ends _ (invariant_of_step invariant preserved initial inputs),
      List.append_nil] at same
    rw [same]
    exact member
  · intro member
    obtain ⟨inputs, same, stops⟩ := exists_history played rests member
    refine ⟨inputs, ?_⟩
    rw [history_snoc, same, silent _ stops, List.append_nil]

end Histories
