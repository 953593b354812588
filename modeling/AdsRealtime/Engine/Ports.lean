import AdsRealtime.Engine.Lifecycle
import AdsRealtime.Engine.Logging

set_option autoImplicit false

namespace AdsRealtime.AdsRealtimeEngine

variable {κ : Type}

def openedPort : Event → Option Int
  | .portOpened port => some port
  | .portClosed _ => none
  | .symbolHandleAcquired _ _ => none
  | .notificationAdded _ _ _ => none
  | .notificationDeleted _ _ _ => none
  | .variableFreed _ => none

def closedPort : Event → Option Int
  | .portOpened _ => none
  | .portClosed port => some port
  | .symbolHandleAcquired _ _ => none
  | .notificationAdded _ _ _ => none
  | .notificationDeleted _ _ _ => none
  | .variableFreed _ => none

def knownPort (engine : Engine κ) : List Int :=
  if engine.adsPort ≠ 0 then [engine.adsPort] else []

def Knows (engine : Engine κ) : Prop :=
  engine.log.filterMap openedPort = knownPort engine

def Unclosed (engine : Engine κ) : Prop :=
  engine.log.filterMap closedPort = []

def Connecting (engine : Engine κ) : Call κ → Prop
  | .connect _ => engine.adsPort = 0
  | .addVariable _ _ _ _ | .start | .stop => True

theorem perform_portless {engine : Engine κ} {call : Call κ}
    (other : ∀ opened, call ≠ .connect opened) {port : Event → Option Int}
    (about : ∀ event, port event ≠ none →
      ∃ ads, event = .portOpened ads ∨ event = .portClosed ads) :
    (perform engine call).adsPort = engine.adsPort ∧
      (perform engine call).log.filterMap port = engine.log.filterMap port := by
  have silent (event : Event)
      (unlike : ∀ ads, event ≠ .portOpened ads ∧ event ≠ .portClosed ads) : port event = none := by
    by_contra some_
    obtain ⟨ads, same | same⟩ := about event some_
    · exact (unlike ads).1 same
    · exact (unlike ads).2 same
  cases call with
  | connect opened => exact absurd rfl (other opened)
  | addVariable name callback replies address =>
    obtain ⟨events, logged, quiet⟩ := @addVariable_logged κ (fun event => port event = none) name
      callback replies address engine (silent _ (by simp)) (silent _ (by simp))
      fun object => silent _ (by simp)
    refine ⟨(addVariable_same name callback replies address engine).2, ?_⟩
    rw [perform, logged, List.filterMap_append, List.filterMap_eq_nil_iff.mpr quiet,
      List.append_nil]
  | start => exact ⟨rfl, rfl⟩
  | stop =>
    simp only [perform, stop]
    split
    · refine ⟨rfl, ?_⟩
      simp only [record, List.filterMap_append]
      rw [List.filterMap_eq_nil_iff.mpr (mem_deletions fun _ _ _ => silent _ (by simp)),
        List.filterMap_eq_nil_iff.mpr (mem_frees fun _ => silent _ (by simp)), List.append_nil,
        List.append_nil]
    · exact ⟨rfl, rfl⟩

theorem about_openedPort (event : Event) (some_ : openedPort event ≠ none) :
    ∃ ads, event = .portOpened ads ∨ event = .portClosed ads := by
  cases event with
  | portOpened port => exact ⟨port, .inl rfl⟩
  | portClosed port => exact ⟨port, .inr rfl⟩
  | _ => exact absurd rfl some_

theorem about_closedPort (event : Event) (some_ : closedPort event ≠ none) :
    ∃ ads, event = .portOpened ads ∨ event = .portClosed ads := by
  cases event with
  | portOpened port => exact ⟨port, .inl rfl⟩
  | portClosed port => exact ⟨port, .inr rfl⟩
  | _ => exact absurd rfl some_

theorem connect_ports (opened : Int) (engine : Engine κ) :
    (connect opened engine).2.log.filterMap openedPort =
        engine.log.filterMap openedPort ++ knownPort (connect opened engine).2 ∧
      (connect opened engine).2.log.filterMap closedPort = engine.log.filterMap closedPort := by
  rw [connect]
  split
  next failed => simp [knownPort, failed]
  next opened_ => simp [record, knownPort, opened_, openedPort, closedPort]

theorem knownPort_eq_nil {engine : Engine κ} : knownPort engine = [] ↔ engine.adsPort = 0 := by
  simp [knownPort]

theorem perform_unclosed {engine : Engine κ} (unclosed : Unclosed engine) (call : Call κ) :
    Unclosed (perform engine call) := by
  by_cases connects : ∃ opened, call = .connect opened
  · obtain ⟨opened, rfl⟩ := connects
    exact (connect_ports opened engine).2.trans unclosed
  · exact (perform_portless (not_exists.mp connects) about_closedPort).2.trans unclosed

theorem perform_knows_iff {engine : Engine κ} (knows : Knows engine) (call : Call κ) :
    Knows (perform engine call) ↔ Connecting engine call := by
  by_cases connects : ∃ opened, call = .connect opened
  · obtain ⟨opened, rfl⟩ := connects
    rw [Knows, perform, (connect_ports opened engine).1, knows, List.append_left_eq_self,
      knownPort_eq_nil]
    rfl
  · obtain ⟨samePort, same⟩ := perform_portless (not_exists.mp connects) about_openedPort
    refine iff_of_true ?_ ?_
    · rw [Knows, same, knownPort, samePort]
      exact knows
    · cases call with
      | connect opened => exact absurd ⟨opened, rfl⟩ connects
      | _ => trivial

def Lost (engine : Engine κ) : Prop :=
  (knownPort engine).length < (engine.log.filterMap openedPort).length

theorem perform_lost {engine : Engine κ} (lost : Lost engine) (call : Call κ) :
    Lost (perform engine call) := by
  by_cases connects : ∃ opened, call = .connect opened
  · obtain ⟨opened, rfl⟩ := connects
    rw [Lost, perform, (connect_ports opened engine).1, List.length_append]
    rw [Lost] at lost
    omega
  · obtain ⟨samePort, same⟩ := perform_portless (not_exists.mp connects) about_openedPort
    rw [Lost, same, knownPort, samePort]
    exact lost

theorem knows_or_lost (config : RealtimeConfig) (calls : List (Call κ)) :
    Knows (Runs.after perform (construct config) calls) ∨
      Lost (Runs.after perform (construct config) calls) := by
  refine Runs.invariant_of_step (fun engine : Engine κ => Knows engine ∨ Lost engine) ?_ ?_ calls
  · rintro engine call (knows | lost)
    · by_cases connecting : Connecting engine call
      · exact .inl ((perform_knows_iff knows call).mpr connecting)
      · right
        obtain ⟨opened, rfl⟩ : ∃ opened, call = .connect opened := by
          cases call with
          | connect opened => exact ⟨opened, rfl⟩
          | _ => exact absurd trivial connecting
        have some_ : knownPort engine ≠ [] := fun none_ => connecting (knownPort_eq_nil.mp none_)
        rw [Lost, perform, (connect_ports opened engine).1, knows, List.length_append]
        have positive := List.length_pos_iff.mpr some_
        omega
    · exact .inr (perform_lost lost call)
  · exact .inl rfl

theorem not_knows_of_lost {engine : Engine κ} (lost : Lost engine) : ¬ Knows engine := by
  intro knows
  rw [Lost, knows] at lost
  exact Nat.lt_irrefl _ lost

theorem knows_always {config : RealtimeConfig} {calls : List (Call κ)}
    (knows : Knows (Runs.after perform (construct config) calls)) :
    ∀ before, before <+: calls → Knows (Runs.after perform (construct config) before) := by
  rintro before ⟨later, rfl⟩
  rw [Runs.after_append] at knows
  refine (knows_or_lost config before).resolve_right fun lost => ?_
  exact not_knows_of_lost
    (Runs.invariant_of_step Lost (fun _ call lost => perform_lost lost call) lost later) knows

theorem destroy_portEvents (engine : Engine κ) :
    (destroy engine).log.filterMap openedPort = engine.log.filterMap openedPort ∧
      (destroy engine).log.filterMap closedPort =
        engine.log.filterMap closedPort ++ knownPort engine := by
  have other (opened : Int) : (Call.stop : Call κ) ≠ .connect opened := by simp
  obtain ⟨samePort, opens⟩ := @perform_portless κ engine .stop other _ about_openedPort
  obtain ⟨_, closes⟩ := @perform_portless κ engine .stop other _ about_closedPort
  have frees_ (port : Event → Option Int) (freed : ∀ object, port (.variableFreed object) = none)
      (ending : Engine κ) : (frees ending).filterMap port = [] :=
    List.filterMap_eq_nil_iff.mpr (mem_frees freed)
  rw [← opens, ← closes, knownPort, ← samePort, perform, destroy]
  split
  · simp only [record, List.filterMap_append]
    rw [frees_ openedPort fun _ => rfl, frees_ closedPort fun _ => rfl]
    simp [openedPort, closedPort]
  · simp only [record, List.filterMap_append]
    rw [frees_ openedPort fun _ => rfl, frees_ closedPort fun _ => rfl]
    simp

theorem ports_closed_once_iff (config : RealtimeConfig) (calls : List (Call κ)) :
    (destroy (Runs.after perform (construct config) calls)).log.filterMap closedPort =
        (destroy (Runs.after perform (construct config) calls)).log.filterMap openedPort ↔
      Runs.Guarded perform Connecting (construct config) calls := by
  have unclosed := Runs.invariant_of_step Unclosed
    (fun _ call unclosed => perform_unclosed unclosed call)
    (show Unclosed (construct config : Engine κ) from rfl) calls
  obtain ⟨opens, closes⟩ := destroy_portEvents (Runs.after perform (construct config) calls)
  rw [opens, closes, unclosed, List.nil_append]
  have always := Runs.always_iff_guarded (fun _ : Engine κ => True) Knows (fun _ _ _ => trivial)
    (fun engine call _ knows => perform_knows_iff knows call) trivial
    (show Knows (construct config : Engine κ) from rfl) calls
  rw [← always]
  constructor
  · exact fun same => knows_always same.symm
  · exact fun knows => (knows calls (List.prefix_refl _)).symm

end AdsRealtime.AdsRealtimeEngine
