import Mathlib.Data.List.Count
import AdsRealtime.Engine.Lifecycle

set_option autoImplicit false

namespace AdsRealtime.AdsRealtimeEngine

variable {κ : Type}

def heldObjects (variables_ : List (UInt32 × VariableHandle κ)) : List Nat :=
  variables_.map fun entry => entry.2.object

def HeldOrFreed (engine : Engine κ) : Prop :=
  ∀ object, engine.log.count (.variableFreed object) +
    (heldObjects engine.variables_).count object = if object < engine.allocated then 1 else 0

theorem count_frees (engine : Engine κ) (object : Nat) :
    (frees engine).count (.variableFreed object) =
      (heldObjects engine.variables_).count object := by
  have all : frees engine = (heldObjects engine.variables_).map .variableFreed := by
    rw [frees, heldObjects, List.map_map]
    rfl
  have injective : Function.Injective Event.variableFreed := fun _ _ same =>
    Event.variableFreed.inj same
  rw [all, List.count_map_of_injective _ _ injective]

theorem count_deletions (engine : Engine κ) (object : Nat) :
    (deletions engine).count (.variableFreed object) = 0 := by
  rw [List.count_eq_zero, deletions]
  simp

theorem count_assign (key : UInt32) (varHandle : VariableHandle κ)
    (variables_ : List (UInt32 × VariableHandle κ)) (object : Nat) :
    (assign key varHandle variables_).2.count (.variableFreed object) +
        (heldObjects (assign key varHandle variables_).1).count object =
      (heldObjects variables_).count object + if varHandle.object = object then 1 else 0 := by
  induction variables_ with
  | nil => simp [assign, heldObjects, List.count_singleton]
  | cons entry rest ih =>
    obtain ⟨other, held⟩ := entry
    rw [assign]
    split
    · simp only [heldObjects, List.map_cons, List.count_cons, List.count_nil, beq_iff_eq,
        Event.variableFreed.injEq]
      omega
    · simp only [heldObjects, List.map_cons, List.count_cons] at ih ⊢
      omega

theorem construct_heldOrFreed (config : RealtimeConfig) :
    HeldOrFreed (construct config : Engine κ) := by
  intro object
  simp [construct, heldObjects]

theorem connect_heldOrFreed {engine : Engine κ} (once : HeldOrFreed engine) (opened : Int) :
    HeldOrFreed (connect opened engine).2 := by
  intro object
  rw [connect]
  split
  · exact once object
  · have opened_ : [Event.portOpened opened].count (.variableFreed object) = 0 := by
      simp
    simp only [record, List.count_append, opened_]
    exact once object

theorem addVariable_heldOrFreed {engine : Engine κ} (once : HeldOrFreed engine) (name : String)
    (callback : Option κ) (replies : AdsReplies) (address : UInt64) :
    HeldOrFreed (addVariable name callback replies address engine).2 := by
  intro object
  have before := once object
  have recent : (if object < engine.allocated + 1 then 1 else 0) =
      (if object < engine.allocated then 1 else 0) +
        if engine.allocated = object then 1 else 0 := by
    split_ifs <;> omega
  by_cases invalid : callback.isNone
  · simp only [addVariable, if_pos invalid]
    exact before
  · by_cases noSymbol : replies.symbolResult ≠ 0
    · simp only [addVariable, if_neg invalid, if_pos noSymbol, record, List.count_append,
        List.count_singleton, beq_iff_eq, Event.variableFreed.injEq]
      omega
    · by_cases refused : replies.notificationResult ≠ 0
      · simp only [addVariable, if_neg invalid, if_neg noSymbol, if_pos refused, record,
          List.count_append, List.count_cons, List.count_nil, beq_iff_eq,
          Event.variableFreed.injEq, reduceCtorEq, if_false]
        omega
      · have moved := count_assign replies.notificationHandle
          (makeVarHandle name callback replies address engine) engine.variables_ object
        rw [show (makeVarHandle name callback replies address engine).object = engine.allocated
          from rfl] at moved
        simp only [addVariable, if_neg invalid, if_neg noSymbol, if_neg refused, record,
          List.count_append, List.count_cons, beq_iff_eq, reduceCtorEq, if_false]
        omega

theorem stop_heldOrFreed {engine : Engine κ} (once : HeldOrFreed engine) :
    HeldOrFreed (stop engine) := by
  intro object
  rw [stop]
  split
  · refine Eq.trans ?_ (once object)
    simp only [record, List.count_append, count_deletions, count_frees]
    simp [heldObjects]
  · exact once object

theorem perform_heldOrFreed {engine : Engine κ} (once : HeldOrFreed engine) (call : Call κ) :
    HeldOrFreed (perform engine call) := by
  cases call with
  | connect opened => exact connect_heldOrFreed once opened
  | addVariable name callback replies address =>
    exact addVariable_heldOrFreed once name callback replies address
  | start => exact once
  | stop => exact stop_heldOrFreed once

theorem allocated_stop (engine : Engine κ) : (stop engine).allocated = engine.allocated := by
  rw [stop]
  split <;> rfl

theorem allocated_destroy (engine : Engine κ) :
    (destroy engine).allocated = engine.allocated := by
  rw [← allocated_stop engine, destroy]
  split <;> rfl

theorem destroy_heldOrFreed {engine : Engine κ} (once : HeldOrFreed engine) :
    HeldOrFreed (destroy engine) := by
  intro object
  have stopped := stop_heldOrFreed once object
  rw [allocated_destroy, ← allocated_stop engine, ← stopped, destroy]
  split
  · simp only [record, List.count_append, count_frees]
    simp [heldObjects]
  · simp only [record, List.count_append, count_frees]
    simp [heldObjects]

theorem handles_freed_once (config : RealtimeConfig) (calls : List (Call κ)) (object : Nat) :
    (destroy (Runs.after perform (construct config) calls)).log.count (.variableFreed object) =
      if object < (Runs.after perform (construct config) calls).allocated then 1 else 0 := by
  have once := Runs.invariant_of_step HeldOrFreed
    (fun _ call once => perform_heldOrFreed once call) (construct_heldOrFreed config) calls
  have final := destroy_heldOrFreed once object
  rw [allocated_destroy] at final
  exact final

end AdsRealtime.AdsRealtimeEngine
