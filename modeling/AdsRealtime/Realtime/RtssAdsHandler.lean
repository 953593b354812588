import AdsRealtime.Realtime.RtssThread
import AdsRealtime.Shared.Indistinguishable

set_option autoImplicit false

namespace AdsRealtime

inductive RtssRoutine where
  | rtssProcessingLoop
  deriving DecidableEq

structure RtssAdsHandler (κ : Type) where
  rtssThread : RtssThread RtssRoutine
  callback : Option κ

namespace RtssAdsHandler

open Runs

variable {κ : Type}

def new (config : RtssConfig) : RtssAdsHandler κ :=
  { rtssThread := .new config, callback := none }

def start (callback : Option κ) (handle : Option Nat) (handler : RtssAdsHandler κ) :
    Bool × RtssAdsHandler κ × List WinCall :=
  let handler := { handler with callback := callback }
  let (started, rtssThread, calls) := handler.rtssThread.start (some .rtssProcessingLoop) handle
  (started, { handler with rtssThread := rtssThread }, calls)

def stop (result : WaitResult) (handler : RtssAdsHandler κ) : RtssAdsHandler κ × List WinCall :=
  let (rtssThread, calls) := handler.rtssThread.stop result
  ({ handler with rtssThread := rtssThread }, calls)

def simulateNotification (handler : RtssAdsHandler κ) (data : List UInt8) (timestampNs : UInt64) :
    Option (κ × List UInt8 × UInt64) :=
  handler.callback.map fun callback => (callback, data, timestampNs)

inductive Action (κ : Type) where
  | start (callback : Option κ) (handle : Option Nat)
  | stop (result : WaitResult)

def perform (handler : RtssAdsHandler κ) : Action κ → RtssAdsHandler κ
  | .start callback handle => (start callback handle handler).2.1
  | .stop result => (stop result handler).1

def observe (handler : RtssAdsHandler κ) :
    (List UInt8 → UInt64 → Option (κ × List UInt8 × UInt64)) × Bool :=
  (handler.simulateNotification, handler.rtssThread.running)

def Alike (a b : RtssAdsHandler κ) : Prop :=
  a.callback = b.callback ∧ a.rtssThread.running = b.rtssThread.running

theorem perform_alike (a b : RtssAdsHandler κ) (action : Action κ) (alike : Alike a b) :
    Alike (perform a action) (perform b action) := by
  obtain ⟨callback, running⟩ := alike
  cases action with
  | start other handle =>
    refine ⟨rfl, ?_⟩
    simp only [perform, start]
    rw [(RtssThread.start_keeps _ _ _).2, (RtssThread.start_keeps _ _ _).2, running]
  | stop result =>
    refine ⟨callback, ?_⟩
    simp only [perform, stop]
    rw [RtssThread.stop_rests, RtssThread.stop_rests]

theorem indistinguishable_iff (a b : RtssAdsHandler κ) :
    Indistinguishable perform observe a b ↔ Alike a b := by
  constructor
  · intro same
    obtain ⟨invoked, running⟩ := Prod.mk.inj same.now
    refine ⟨?_, running⟩
    have empty := congrFun (congrFun invoked []) 0
    simp only [simulateNotification] at empty
    cases left : a.callback <;> cases right : b.callback <;> simp_all
  · refine indistinguishable_of_bisimulation Alike ?_ perform_alike
    rintro a b ⟨callback, running⟩
    simp only [observe, running, Prod.mk.injEq, and_true]
    funext data timestampNs
    simp only [simulateNotification, callback]

theorem refused_start_iff {callback : Option κ} {handle : Option Nat}
    {handler : RtssAdsHandler κ} (refused : (start callback handle handler).1 = false) :
    Indistinguishable perform observe (start callback handle handler).2.1 handler ↔
      callback = handler.callback := by
  have keeps := RtssThread.start_keeps (some RtssRoutine.rtssProcessingLoop) handle
    handler.rtssThread
  have denied : (!handler.rtssThread.running && handle.isSome) = false := keeps.1.symm.trans refused
  rw [indistinguishable_iff]
  constructor
  · exact fun alike => alike.1
  · intro same
    refine ⟨same, ?_⟩
    simp only [start]
    rw [keeps.2]
    revert denied
    cases handler.rtssThread.running <;> cases handle <;> simp

end RtssAdsHandler

end AdsRealtime
