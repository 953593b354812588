import AdsRealtime.Engine.Lifecycle

set_option autoImplicit false

namespace AdsRealtime.AdsRealtimeEngine

open Subscription (live)

variable {κ : Type}

def symbolHandle : Event → Option UInt32
  | .symbolHandleAcquired _ handle => some handle
  | .portOpened _ => none
  | .portClosed _ => none
  | .notificationAdded _ _ _ => none
  | .notificationDeleted _ _ _ => none
  | .variableFreed _ => none

-- What the client holds on the PLC: nothing it does gives a symbol handle back.
def heldSymbols (log : List Event) : List UInt32 :=
  log.filterMap symbolHandle

def heldNotifications (log : List Event) : List UInt32 :=
  (live (subscriptions log)).map Prod.fst

theorem heldSymbols_append (xs ys : List Event) :
    heldSymbols (xs ++ ys) = heldSymbols xs ++ heldSymbols ys :=
  List.filterMap_append

/-- The call leaves the variables as they are, and the same handles on the PLC. -/
structure Unchanged (engine next : Engine κ) : Prop where
  variables_ : next.variables_ = engine.variables_
  symbols : ∀ handle, handle ∈ heldSymbols next.log ↔ handle ∈ heldSymbols engine.log
  notifications : ∀ handle,
    handle ∈ heldNotifications next.log ↔ handle ∈ heldNotifications engine.log

theorem Unchanged.refl (engine : Engine κ) : Unchanged engine engine :=
  ⟨rfl, fun _ => Iff.rfl, fun _ => Iff.rfl⟩

/-- The symbol handle has been granted, and the notification for it has not. -/
def Abandons (callback : Option κ) (replies : AdsReplies) : Prop :=
  callback.isSome = true ∧ replies.symbolResult = 0 ∧ replies.notificationResult ≠ 0

theorem addVariable_abandons {callback : Option κ} {replies : AdsReplies}
    (abandons : Abandons callback replies) (name : String) (address : UInt64)
    (engine : Engine κ) :
    addVariable name callback replies address engine =
      (false, record [.symbolHandleAcquired name replies.symbolHandle,
        .variableFreed engine.allocated] { engine with allocated := engine.allocated + 1 }) := by
  obtain ⟨valid, granted, refused⟩ := abandons
  obtain ⟨callback, rfl⟩ := Option.isSome_iff_exists.mp valid
  rw [addVariable]
  simp only [Option.isNone_some, Bool.false_eq_true, if_false, if_neg (not_not.mpr granted),
    if_pos refused]

theorem unchanged_of_freed (engine : Engine κ) {events : List Event}
    (silent : subscriptions events = [.freed engine.allocated]) :
    (record events { engine with allocated := engine.allocated + 1 }).variables_ =
        engine.variables_ ∧
      heldNotifications (record events { engine with allocated := engine.allocated + 1 }).log =
        heldNotifications engine.log := by
  refine ⟨rfl, ?_⟩
  simp only [record, heldNotifications]
  rw [subscriptions_append, silent, Subscription.live_snoc]
  rfl

theorem abandoned_unchanged_iff {callback : Option κ} {replies : AdsReplies}
    (abandons : Abandons callback replies) (name : String) (address : UInt64)
    (engine : Engine κ) :
    Unchanged engine (addVariable name callback replies address engine).2 ↔
      replies.symbolHandle ∈ heldSymbols engine.log := by
  rw [addVariable_abandons abandons]
  have freed := unchanged_of_freed engine (show subscriptions [.symbolHandleAcquired name
    replies.symbolHandle, .variableFreed engine.allocated] = [.freed engine.allocated] from rfl)
  have held : heldSymbols (record [.symbolHandleAcquired name replies.symbolHandle,
      .variableFreed engine.allocated] { engine with allocated := engine.allocated + 1 }).log =
        heldSymbols engine.log ++ [replies.symbolHandle] := by
    simp only [record]
    rw [heldSymbols_append]
    rfl
  constructor
  · intro unchanged
    rw [← unchanged.symbols, held]
    simp
  · intro already
    refine ⟨freed.1, fun handle => ?_, fun handle => by rw [freed.2]⟩
    rw [held, List.mem_append, List.mem_singleton]
    constructor
    · rintro (old | rfl)
      · exact old
      · exact already
    · exact Or.inl

theorem refused_unchanged {callback : Option κ} {replies : AdsReplies}
    (others : ¬ Abandons callback replies) {name : String} {address : UInt64} {engine : Engine κ}
    (refused : (addVariable name callback replies address engine).1 = false) :
    Unchanged engine (addVariable name callback replies address engine).2 := by
  by_cases invalid : callback.isNone = true
  · rw [addVariable]
    simp only [if_pos invalid]
    exact .refl engine
  · by_cases noSymbol : replies.symbolResult ≠ 0
    · have freed := unchanged_of_freed engine
        (show subscriptions [.variableFreed engine.allocated] = [.freed engine.allocated] from rfl)
      rw [addVariable]
      simp only [if_neg invalid, if_pos noSymbol]
      refine ⟨freed.1, fun handle => ?_, fun handle => by rw [freed.2]⟩
      simp only [record]
      rw [heldSymbols_append]
      simp [heldSymbols, symbolHandle]
    · by_cases denied : replies.notificationResult ≠ 0
      · have abandons : Abandons callback replies :=
          ⟨by simpa [Option.isSome_iff_ne_none] using invalid, not_not.mp noSymbol, denied⟩
        exact absurd abandons others
      · simp [addVariable, invalid, not_not.mp noSymbol, not_not.mp denied] at refused

theorem addVariable_atomic_iff (engine : Engine κ) (name : String) (callback : Option κ)
    (replies : AdsReplies) (address : UInt64) :
    ((addVariable name callback replies address engine).1 = false →
        Unchanged engine (addVariable name callback replies address engine).2) ↔
      ¬ (callback.isSome = true ∧ replies.symbolResult = 0 ∧ replies.notificationResult ≠ 0 ∧
        replies.symbolHandle ∉ heldSymbols engine.log) := by
  by_cases abandons : Abandons callback replies
  · rw [abandoned_unchanged_iff abandons, addVariable_abandons abandons]
    obtain ⟨valid, granted, refused⟩ := abandons
    simp [valid, granted, refused]
  · refine iff_of_true (refused_unchanged abandons) ?_
    rintro ⟨valid, granted, refused, _⟩
    exact abandons ⟨valid, granted, refused⟩

theorem addVariable_leaks_symbol_handle :
    ¬ ∀ (engine : Engine Unit) (name : String) (callback : Option Unit) (replies : AdsReplies)
        (address : UInt64), (addVariable name callback replies address engine).1 = false →
      Unchanged engine (addVariable name callback replies address engine).2 := by
  intro claimed
  have unchanged := claimed (connect 30000 (construct {})).2 "GVL.abc" (some ())
    { granted 1 7 with notificationResult := 0x711 } 0x1000 rfl
  have held : 1 ∈ heldSymbols (construct {} : Engine Unit).log :=
    (unchanged.symbols 1).mp (by decide)
  revert held
  decide

end AdsRealtime.AdsRealtimeEngine
