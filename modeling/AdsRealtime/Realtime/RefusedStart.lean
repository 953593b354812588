import AdsRealtime.Realtime.RtPeriodicTask
import AdsRealtime.Realtime.RtssAdsHandler

set_option autoImplicit false

namespace AdsRealtime

open Runs

namespace RtPeriodicTask

variable {τ : Type}

inductive Action (τ : Type) where
  | start (task : Option τ) (locked created : Int)
  | stop
  | iterate (nextWake : UInt64) (turn : Turn)

def perform (periodic : RtPeriodicTask τ) : Action τ → RtPeriodicTask τ
  | .start task locked created => (start task locked created periodic).2.1
  | .stop => (stop periodic).1
  | .iterate nextWake turn =>
    if periodic.rtThread.running then
      (Loop.iterate { periodic := periodic, nextWake := nextWake } turn).periodic
    else
      periodic

def invoked (periodic : RtPeriodicTask τ) : Option τ :=
  if periodic.rtThread.running then periodic.task else none

def observe (periodic : RtPeriodicTask τ) : Option τ × Bool :=
  (periodic.invoked, periodic.rtThread.running)

-- A task only counts while the thread is running: the next start sets it anew.
structure Alike (a b : RtPeriodicTask τ) : Prop where
  config : a.rtThread.config = b.rtThread.config
  running : a.rtThread.running = b.rtThread.running
  task : a.rtThread.running = true → a.task = b.task

theorem started_congr {a b : RtPeriodicTask τ} (alike : Alike a b) (locked created : Int) :
    (a.rtThread.start (some .periodicLoop) locked created).1 =
      (b.rtThread.start (some .periodicLoop) locked created).1 := by
  rw [Bool.eq_iff_iff, RtThread.started_iff, RtThread.started_iff, alike.config, alike.running]

theorem perform_alike (a b : RtPeriodicTask τ) (action : Action τ) (alike : Alike a b) :
    Alike (perform a action) (perform b action) := by
  obtain ⟨config, running, task⟩ := id alike
  cases action with
  | start other locked created =>
    have left := RtThread.start_keeps (some Routine.periodicLoop) locked created a.rtThread
    have right := RtThread.start_keeps (some Routine.periodicLoop) locked created b.rtThread
    rw [← started_congr alike, ← running, ← config] at right
    exact ⟨left.1.trans right.1.symm, left.2.trans right.2.symm, fun _ => rfl⟩
  | stop =>
    have left := RtThread.stop_keeps a.rtThread
    have right := RtThread.stop_keeps b.rtThread
    rw [← config] at right
    refine ⟨left.1.trans right.1.symm, left.2.trans right.2.symm, fun busy => ?_⟩
    exact absurd (left.2.symm.trans busy) Bool.false_ne_true
  | iterate nextWake turn =>
    simp only [perform, ← running]
    split
    · exact ⟨config, running, task⟩
    · exact alike

theorem indistinguishable_iff {a b : RtPeriodicTask τ}
    (config : a.rtThread.config = b.rtThread.config) :
    Indistinguishable perform observe a b ↔ Alike a b := by
  constructor
  · intro same
    obtain ⟨invoked_, running⟩ := Prod.mk.inj same.now
    refine ⟨config, running, fun busy => ?_⟩
    simpa [invoked, busy, ← running] using invoked_
  · refine indistinguishable_of_bisimulation Alike ?_ perform_alike
    rintro a b ⟨_, running, task⟩
    by_cases busy : a.rtThread.running = true
    · simp [observe, invoked, ← running, busy, task busy]
    · simp [observe, invoked, ← running, busy]

theorem refused_start_iff {task : Option τ} {locked created : Int} {periodic : RtPeriodicTask τ}
    (refused : (start task locked created periodic).1 = false) :
    Indistinguishable perform observe (start task locked created periodic).2.1 periodic ↔
      (periodic.rtThread.running = true → task = periodic.task) := by
  have keeps := RtThread.start_keeps (some Routine.periodicLoop) locked created periodic.rtThread
  have denied : (periodic.rtThread.start (some .periodicLoop) locked created).1 = false := refused
  rw [denied, Bool.or_false] at keeps
  rw [indistinguishable_iff keeps.1]
  constructor
  · intro alike busy
    exact alike.task (keeps.2.trans busy)
  · intro same
    exact ⟨keeps.1, keeps.2, fun busy => same (keeps.2.symm.trans busy)⟩

end RtPeriodicTask

theorem refused_start_changes_nothing_iff (τ κ : Type) :
    (∀ (periodic : RtPeriodicTask τ) (task : Option τ) (locked created : Int),
      (periodic.start task locked created).1 = false →
        (Indistinguishable RtPeriodicTask.perform RtPeriodicTask.observe
            (periodic.start task locked created).2.1 periodic ↔
          (periodic.rtThread.running = true → task = periodic.task))) ∧
    ∀ (handler : RtssAdsHandler κ) (callback : Option κ) (handle : Option Nat),
      (handler.start callback handle).1 = false →
        (Indistinguishable RtssAdsHandler.perform RtssAdsHandler.observe
            (handler.start callback handle).2.1 handler ↔
          callback = handler.callback) :=
  ⟨fun _ _ _ _ refused => RtPeriodicTask.refused_start_iff refused,
    fun _ _ _ refused => RtssAdsHandler.refused_start_iff refused⟩

theorem refused_start_changes_nothing_iff_second :
    ¬ Indistinguishable RtPeriodicTask.perform RtPeriodicTask.observe
        (RtPeriodicTask.start (some 2) 0 0
          ((RtPeriodicTask.new 100 {}).start (some 1) 0 0).2.1).2.1
        ((RtPeriodicTask.new 100 {}).start (some 1) 0 0).2.1 ∧
      ¬ Indistinguishable RtssAdsHandler.perform RtssAdsHandler.observe
        ((RtssAdsHandler.new {}).start (some 1) none).2.1 (RtssAdsHandler.new {}) := by
  have both := refused_start_changes_nothing_iff Nat Nat
  constructor
  · rw [both.1 _ _ _ _ (by decide)]
    decide
  · rw [both.2 _ _ _ (by decide)]
    decide

theorem refused_start_swaps_task :
    ¬ ∀ (actions : List (RtPeriodicTask.Action Nat)) (task : Option Nat) (locked created : Int),
      (RtPeriodicTask.start task locked created
        (after RtPeriodicTask.perform (.new 100 {}) actions)).1 = false →
      Indistinguishable RtPeriodicTask.perform RtPeriodicTask.observe
        (RtPeriodicTask.start task locked created
          (after RtPeriodicTask.perform (.new 100 {}) actions)).2.1
        (after RtPeriodicTask.perform (.new 100 {}) actions) := by
  intro claimed
  have same := (claimed [.start (some 1) 0 0] (some 2) 0 0 (by decide)).now
  revert same
  decide

end AdsRealtime
