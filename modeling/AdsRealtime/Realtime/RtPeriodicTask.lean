import AdsRealtime.Realtime.RtLatencyTracker
import AdsRealtime.Realtime.RtThread
import AdsRealtime.Shared.Releases
import Mathlib.Tactic.IntervalCases

set_option autoImplicit false

namespace AdsRealtime

structure Timespec where
  tvSec : UInt64
  tvNsec : UInt64
  deriving DecidableEq

namespace RtTimer

-- The argument is the time that clock_gettime gives.
def nowNs (ts : Timespec) : UInt64 :=
  ts.tvSec * 1000000000 + ts.tvNsec

-- The absolute time that clock_nanosleep is called with.
def waitUntilNs (targetNs : UInt64) : Timespec :=
  { tvSec := targetNs / 1000000000, tvNsec := targetNs % 1000000000 }

theorem nowNs_waitUntilNs (targetNs : UInt64) :
    nowNs (waitUntilNs targetNs) = targetNs ∧ (waitUntilNs targetNs).tvNsec < 1000000000 := by
  have below := targetNs.toNat_lt
  have second : (1000000000 : UInt64).toNat = 1000000000 := rfl
  constructor
  · rw [← UInt64.toNat_inj]
    simp only [nowNs, waitUntilNs, UInt64.toNat_add, UInt64.toNat_mul, UInt64.toNat_div,
      UInt64.toNat_mod, second]
    omega
  · rw [UInt64.lt_iff_toNat_lt]
    simp only [waitUntilNs, UInt64.toNat_mod, second]
    omega

end RtTimer

inductive Routine where
  | periodicLoop
  deriving DecidableEq

structure RtPeriodicTask (τ : Type) where
  periodNs : UInt64
  rtThread : RtThread Routine
  task : Option τ
  latencyTracker : RtLatencyTracker

namespace RtPeriodicTask

open Releases

variable {τ : Type}

def new (periodUs : UInt32) (config : RtConfig) : RtPeriodicTask τ :=
  { periodNs := periodUs.toUInt64 * 1000
    rtThread := .new config
    task := none
    latencyTracker := .new }

def start (task : Option τ) (locked created : Int) (periodic : RtPeriodicTask τ) :
    Bool × RtPeriodicTask τ × List Syscall :=
  let periodic := { periodic with task := task }
  let (started, rtThread, calls) :=
    periodic.rtThread.start (some .periodicLoop) locked created
  (started, { periodic with rtThread := rtThread }, calls)

def stop (periodic : RtPeriodicTask τ) : RtPeriodicTask τ × List Syscall :=
  let (rtThread, calls) := periodic.rtThread.stop
  ({ periodic with rtThread := rtThread }, calls)

/-- The clock in one turn of periodic_loop: at its start, after the task, at the call of
wait_until_ns and at its return. -/
structure Turn where
  startNs : UInt64
  endNs : UInt64
  waitNs : UInt64
  wokenNs : UInt64
  deriving DecidableEq

structure Loop (τ : Type) where
  periodic : RtPeriodicTask τ
  nextWake : UInt64

def enter (nowNs : UInt64) (periodic : RtPeriodicTask τ) : Loop τ :=
  { periodic := periodic, nextWake := nowNs + periodic.periodNs }

def Loop.latency (loop : Loop τ) (turn : Turn) : UInt64 :=
  turn.endNs - loop.nextWake

def Loop.iterate (loop : Loop τ) (turn : Turn) : Loop τ :=
  { periodic := { loop.periodic with
      latencyTracker := loop.periodic.latencyTracker.record (loop.latency turn) }
    nextWake := loop.nextWake + loop.periodic.periodNs }

-- The state after n turns; is_running decides how many there are.
def Loop.after (loop : Loop τ) (turns : Nat → Turn) : Nat → Loop τ
  | 0 => loop
  | k + 1 => (loop.after turns k).iterate (turns k)

theorem periodNs_after (loop : Loop τ) (turns : Nat → Turn) (k : Nat) :
    (loop.after turns k).periodic.periodNs = loop.periodic.periodNs := by
  induction k with
  | zero => rfl
  | succ k ih => exact ih

/-- The clock never goes back, and no wait is over before its target. -/
structure Clocked (nowNs : UInt64) (loop : Loop τ) (turns : Nat → Turn) (n : Nat) : Prop where
  entered : 0 < n → nowNs ≤ (turns 0).startNs
  executed : ∀ k, k < n → (turns k).startNs ≤ (turns k).endNs
  ended : ∀ k, k < n → (turns k).endNs ≤ (turns k).waitNs
  waited : ∀ k, k < n → (turns k).waitNs ≤ (turns k).wokenNs
  woken : ∀ k, k < n → (loop.after turns (k + 1)).nextWake ≤ (turns k).wokenNs
  again : ∀ k, k + 1 < n → (turns k).wokenNs ≤ (turns (k + 1)).startNs

/-- The recorded latency is the difference of the two instants as integers. -/
def LatencyExact (loop : Loop τ) (turn : Turn) : Prop :=
  ((loop.latency turn).toNat : Int) = turn.endNs.toNat - loop.nextWake.toNat

theorem latencyExact_iff (loop : Loop τ) (turn : Turn) :
    LatencyExact loop turn ↔ loop.nextWake ≤ turn.endNs := by
  have below := (loop.latency turn).toNat_lt
  constructor
  · intro exact
    rw [UInt64.le_iff_toNat_le]
    have nonnegative := Int.natCast_nonneg (loop.latency turn).toNat
    rw [exact] at nonnegative
    omega
  · intro reached
    rw [LatencyExact, Loop.latency, UInt64.toNat_sub_of_le _ _ reached]
    rw [UInt64.le_iff_toNat_le] at reached
    omega

theorem latencyExact_later {nowNs : UInt64} {loop : Loop τ} {turns : Nat → Turn} {n k : Nat}
    (clocked : Clocked nowNs loop turns n) (inside : k + 1 < n) :
    LatencyExact (loop.after turns (k + 1)) (turns (k + 1)) := by
  rw [latencyExact_iff]
  calc (loop.after turns (k + 1)).nextWake
      ≤ (turns k).wokenNs := clocked.woken k (by omega)
    _ ≤ (turns (k + 1)).startNs := clocked.again k inside
    _ ≤ (turns (k + 1)).endNs := clocked.executed (k + 1) inside

theorem periodicLoop_latency_iff (nowNs : UInt64) (periodic : RtPeriodicTask τ)
    (turns : Nat → Turn) (n : Nat) (clocked : Clocked nowNs (periodic.enter nowNs) turns n) :
    (∀ k, k < n → LatencyExact ((periodic.enter nowNs).after turns k) (turns k)) ↔
      (0 < n → nowNs + periodic.periodNs ≤ (turns 0).endNs) := by
  constructor
  · intro exact some_
    exact (latencyExact_iff _ _).mp (exact 0 some_)
  · intro first k inside
    cases k with
    | zero => exact (latencyExact_iff _ _).mpr (first inside)
    | succ k => exact latencyExact_later clocked inside

def everyPeriod (k : Nat) : Turn :=
  let startNs := if k = 0 then 1000000 else 1000000 + UInt64.ofNat (k + 1) * 100000
  { startNs := startNs
    endNs := startNs + 500
    waitNs := startNs + 600
    wokenNs := 1000000 + UInt64.ofNat (k + 2) * 100000 }

def longFirst : Nat → Turn :=
  Function.update everyPeriod 0 ⟨1000000, 1150000, 1150100, 1200000⟩

theorem periodicLoop_latency_iff_long_first :
    LatencyExact (((new 100 {} : RtPeriodicTask Unit).enter 1000000).after longFirst 0)
        (longFirst 0) ∧
      LatencyExact (((new 100 {} : RtPeriodicTask Unit).enter 1000000).after longFirst 1)
        (longFirst 1) := by
  have clocked : Clocked 1000000 ((new 100 {} : RtPeriodicTask Unit).enter 1000000) longFirst 2 :=
    ⟨by decide, by decide, by decide, by decide, by decide, fun k inside => by
      obtain rfl : k = 0 := by omega
      decide⟩
  have exact := (periodicLoop_latency_iff 1000000 (new 100 {}) longFirst 2 clocked).mpr (by decide)
  exact ⟨exact 0 (by decide), exact 1 (by decide)⟩

theorem periodicLoop_first_latency_wraps :
    ¬ ∀ (periodUs : UInt32) (nowNs : UInt64) (turns : Nat → Turn) (n : Nat), 0 < periodUs →
      Clocked nowNs ((new periodUs {} : RtPeriodicTask Unit).enter nowNs) turns n →
      ∀ k, k < n → LatencyExact
        (((new periodUs {} : RtPeriodicTask Unit).enter nowNs).after turns k) (turns k) := by
  intro claimed
  have clocked : Clocked 1000000 ((new 100 {} : RtPeriodicTask Unit).enter 1000000) everyPeriod 1 :=
    ⟨by decide, by decide, by decide, by decide, by decide, fun k inside => by omega⟩
  have first := claimed 100 1000000 everyPeriod 1 (by decide) clocked 0 (by decide)
  rw [latencyExact_iff] at first
  exact absurd first (by decide)

theorem maxNs_after_early {nowNs : UInt64} {periodic : RtPeriodicTask τ} {turns : Nat → Turn}
    (fits : nowNs.toNat + periodic.periodNs.toNat < 2 ^ 64) (reached : nowNs ≤ (turns 0).endNs)
    (early : (turns 0).endNs < nowNs + periodic.periodNs) (n : Nat) :
    2 ^ 64 - periodic.periodNs.toNat ≤
      ((periodic.enter nowNs).after turns (n + 1)).periodic.latencyTracker.maxNs.toNat := by
  induction n with
  | zero =>
    have target : (nowNs + periodic.periodNs).toNat = nowNs.toNat + periodic.periodNs.toNat := by
      rw [UInt64.toNat_add, Nat.mod_eq_of_lt fits]
    rw [UInt64.le_iff_toNat_le] at reached
    rw [UInt64.lt_iff_toNat_lt, target] at early
    change _ ≤ (RtLatencyTracker.record _ periodic.latencyTracker).maxNs.toNat
    rw [RtLatencyTracker.record_max]
    apply le_max_of_le_left
    change _ ≤ ((turns 0).endNs - (nowNs + periodic.periodNs)).toNat
    rw [UInt64.toNat_sub, target]
    omega
  | succ n ih =>
    change _ ≤ (RtLatencyTracker.record _ _).maxNs.toNat
    rw [RtLatencyTracker.record_max]
    exact le_max_of_le_right ih

def wakeTarget (nowNs : UInt64) (periodic : RtPeriodicTask τ) (k : Nat) : Nat :=
  nowNs.toNat + (k + 1) * periodic.periodNs.toNat

theorem wakeTarget_succ (nowNs : UInt64) (periodic : RtPeriodicTask τ) (k : Nat) :
    wakeTarget nowNs periodic (k + 1) = wakeTarget nowNs periodic k + periodic.periodNs.toNat := by
  rw [wakeTarget, wakeTarget, Nat.succ_mul (k + 1), Nat.add_assoc]

theorem wakeTarget_mono (nowNs : UInt64) (periodic : RtPeriodicTask τ) :
    Monotone (wakeTarget nowNs periodic) :=
  monotone_nat_of_le_succ fun k => by
    rw [wakeTarget_succ]
    exact Nat.le_add_right _ _

theorem nextWake_after {nowNs : UInt64} {periodic : RtPeriodicTask τ} (turns : Nat → Turn) {k : Nat}
    (fits : wakeTarget nowNs periodic k < 2 ^ 64) :
    ((periodic.enter nowNs).after turns k).nextWake.toNat = wakeTarget nowNs periodic k := by
  induction k with
  | zero =>
    rw [wakeTarget, Nat.one_mul] at fits ⊢
    change (nowNs + periodic.periodNs).toNat = _
    rw [UInt64.toNat_add, Nat.mod_eq_of_lt fits]
  | succ k ih =>
    have before := ih (Nat.lt_of_le_of_lt (wakeTarget_mono nowNs periodic (Nat.le_succ k)) fits)
    change (((periodic.enter nowNs).after turns k).nextWake +
      ((periodic.enter nowNs).after turns k).periodic.periodNs).toNat = _
    rw [UInt64.toNat_add, periodNs_after, before]
    rw [wakeTarget_succ] at fits ⊢
    exact Nat.mod_eq_of_lt fits

/-- Turn k calls its wait within `busy`, the wait is over within `jitter` of the earliest instant
it may return at, and the next turn starts then. -/
structure Punctual (loop : Loop τ) (turns : Nat → Turn) (busy jitter k : Nat) : Prop where
  calls : (turns k).waitNs.toNat ≤ (turns k).startNs.toNat + busy
  waits : max (turns k).waitNs.toNat (loop.after turns (k + 1)).nextWake.toNat ≤
    (turns k).wokenNs.toNat
  wakes : (turns k).wokenNs.toNat ≤
    max (turns k).waitNs.toNat (loop.after turns (k + 1)).nextWake.toNat + jitter
  again : (turns (k + 1)).startNs = (turns k).wokenNs

abbrev starts (turns : Nat → Turn) (k : Nat) : Nat :=
  (turns k).startNs.toNat

theorem Punctual.paced {nowNs : UInt64} {periodic : RtPeriodicTask τ} {turns : Nat → Turn}
    {busy jitter k : Nat} (punctual : Punctual (periodic.enter nowNs) turns busy jitter k)
    (fits : wakeTarget nowNs periodic (k + 1) < 2 ^ 64) :
    Paced (wakeTarget nowNs periodic) (starts turns) (fun j => (turns j).waitNs.toNat)
      busy jitter k := by
  obtain ⟨calls, waits, wakes, again⟩ := punctual
  rw [nextWake_after turns fits, ← again] at waits wakes
  exact ⟨calls, waits, wakes⟩

theorem periodicLoop_lateness (nowNs : UInt64) (periodic : RtPeriodicTask τ) (turns : Nat → Turn)
    (n : Nat) (fits : wakeTarget nowNs periodic n < 2 ^ 64) :
    (∀ k, k ≤ n → ((periodic.enter nowNs).after turns k).nextWake.toNat =
      wakeTarget nowNs periodic k) ∧
    (∀ busy jitter, busy + jitter ≤ periodic.periodNs.toNat →
      nowNs.toNat ≤ starts turns 0 → starts turns 0 ≤ nowNs.toNat + jitter →
      (∀ k, k + 1 < n → Punctual (periodic.enter nowNs) turns busy jitter k) →
      ∀ k, 1 ≤ k → k < n → OnTime (wakeTarget nowNs periodic) (starts turns) jitter k) ∧
    ∀ k late slack busy jitter, 1 ≤ k → starts turns k = wakeTarget nowNs periodic k + late →
      0 < slack → busy + jitter + slack ≤ periodic.periodNs.toNat →
      (∀ j, k ≤ j → j + 1 < n → Punctual (periodic.enter nowNs) turns busy jitter j) →
      k + (late + slack - 1) / slack + 1 < n →
      ∃ j, k < j ∧ j ≤ k + (late + slack - 1) / slack + 1 ∧
        OnTime (wakeTarget nowNs periodic) (starts turns) jitter j := by
  have within (k : Nat) (inside : k ≤ n) : wakeTarget nowNs periodic k < 2 ^ 64 :=
    Nat.lt_of_le_of_lt (wakeTarget_mono nowNs periodic inside) fits
  refine ⟨fun k inside => nextWake_after turns (within k inside), ?_, ?_⟩
  · intro busy jitter room _ first punctual k positive inside
    obtain ⟨k, rfl⟩ := Nat.exists_eq_add_of_le' positive
    apply onTime_run (wakeTarget_succ nowNs periodic) room
    · have later : nowNs.toNat ≤ wakeTarget nowNs periodic 0 := Nat.le_add_right _ _
      omega
    · intro j earlier
      exact (punctual j (by omega)).paced (within (j + 1) (by omega))
  · intro k late slack busy jitter _ delayed positive room punctual long
    apply onTime_again (wakeTarget_succ nowNs periodic) room
    · have covers := le_mul_ceil positive late
      omega
    · intro j after before
      exact (punctual j after (by omega)).paced (within (j + 1) (by omega))

def overrunStart (k : Nat) : UInt64 :=
  if k = 0 then 1000000
  else if k = 1 then 1200000
  else if k ≤ 7 then 1450000 + UInt64.ofNat k * 50000
  else 1000000 + UInt64.ofNat (k + 1) * 100000

def overrun (k : Nat) : Turn :=
  let busy := if k = 1 then 350000 else 50000
  { startNs := overrunStart k
    endNs := overrunStart k + busy
    waitNs := overrunStart k + busy
    wokenNs := overrunStart (k + 1) }

theorem periodicLoop_lateness_overrun :
    (∀ k, 1 ≤ k → k < 3 →
      OnTime (wakeTarget 1000000 (new 100 {} : RtPeriodicTask Unit)) (starts everyPeriod) 0 k) ∧
    ∃ j, 2 < j ∧ j ≤ 8 ∧
      OnTime (wakeTarget 1000000 (new 100 {} : RtPeriodicTask Unit)) (starts overrun) 0 j := by
  constructor
  · have onTime := (periodicLoop_lateness 1000000 (new 100 {} : RtPeriodicTask Unit) everyPeriod 3
      (by decide)).2.1 600 0 (by decide) (by decide) (by decide)
    apply onTime
    intro k before
    have inside : k < 2 := by omega
    interval_cases k <;> constructor <;> decide
  · have caught := (periodicLoop_lateness 1000000 (new 100 {} : RtPeriodicTask Unit) overrun 9
      (by decide)).2.2 2 250000 50000 50000 0 (by decide) (by decide) (by decide) (by decide)
    apply caught
    · intro j after before
      have inside : j < 8 := by omega
      interval_cases j <;> constructor <;> decide
    · decide

end RtPeriodicTask

end AdsRealtime
