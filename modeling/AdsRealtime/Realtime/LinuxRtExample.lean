import AdsRealtime.Realtime.RtPeriodicTask

set_option autoImplicit false

namespace AdsRealtime.LinuxRtExample

open RtPeriodicTask

variable {τ : Type}

def constraintMet (tracker : RtLatencyTracker) : Bool :=
  tracker.maxNs < 1000000

theorem maxNs_after_lt_iff (loop : Loop τ) (turns : Nat → Turn) (bound n : Nat) :
    (loop.after turns n).periodic.latencyTracker.maxNs.toNat < bound ↔
      loop.periodic.latencyTracker.maxNs.toNat < bound ∧
        ∀ k, k < n → ((loop.after turns k).latency (turns k)).toNat < bound := by
  induction n with
  | zero => simp [Loop.after]
  | succ n ih =>
    change (RtLatencyTracker.record ((loop.after turns n).latency (turns n))
      (loop.after turns n).periodic.latencyTracker).maxNs.toNat < bound ↔ _
    rw [RtLatencyTracker.record_max, max_lt_iff, ih]
    constructor
    · rintro ⟨last, initial, earlier⟩
      refine ⟨initial, fun k inside => ?_⟩
      rcases Nat.lt_succ_iff_lt_or_eq.mp inside with before | rfl
      · exact earlier k before
      · exact last
    · rintro ⟨initial, every⟩
      exact ⟨every n (Nat.lt_succ_self n), initial, fun k inside => every k (by omega)⟩

theorem latency_of_reached {loop : Loop τ} {turn : Turn} (reached : loop.nextWake ≤ turn.endNs) :
    (loop.latency turn).toNat = turn.endNs.toNat - loop.nextWake.toNat := by
  have exact' := (latencyExact_iff loop turn).mpr reached
  rw [LatencyExact] at exact'
  rw [UInt64.le_iff_toNat_le] at reached
  omega

-- The difference of a turn that ends too early wraps round.
theorem latency_of_early {loop : Loop τ} {turn : Turn} (early : turn.endNs < loop.nextWake) :
    (loop.latency turn).toNat = 2 ^ 64 + turn.endNs.toNat - loop.nextWake.toNat := by
  have below := loop.nextWake.toNat_lt
  rw [UInt64.lt_iff_toNat_lt] at early
  rw [Loop.latency, UInt64.toNat_sub]
  omega

theorem periodNs_new (periodUs : UInt32) (config : RtConfig) :
    (new periodUs config : RtPeriodicTask τ).periodNs.toNat = periodUs.toNat * 1000 := by
  have below := periodUs.toNat_lt
  have thousand : (1000 : UInt64).toNat = 1000 := rfl
  change (periodUs.toUInt64 * 1000).toNat = _
  rw [UInt64.toNat_mul, UInt32.toNat_toUInt64, thousand]
  omega

section

variable {periodUs : UInt32} {config : RtConfig} {nowNs : UInt64} {turns : Nat → Turn} {n : Nat}

-- Only the first turn can end before its target: the later ones begin after it.
theorem early_first
    (clocked : Clocked nowNs ((new periodUs config : RtPeriodicTask τ).enter nowNs) turns n)
    {k : Nat} (inside : k < n)
    (early : (turns k).endNs <
      (((new periodUs config : RtPeriodicTask τ).enter nowNs).after turns k).nextWake) : k = 0 := by
  cases k with
  | zero => rfl
  | succ k =>
    have reached := (latencyExact_iff _ _).mp (latencyExact_later clocked inside)
    exact absurd early (UInt64.not_lt.mpr reached)

theorem latency_lt_iff
    (fits : wakeTarget nowNs (new periodUs config : RtPeriodicTask τ) n < 2 ^ 64)
    (clocked : Clocked nowNs ((new periodUs config : RtPeriodicTask τ).enter nowNs) turns n)
    {k : Nat} (inside : k < n) :
    ((((new periodUs config : RtPeriodicTask τ).enter nowNs).after turns k).latency
        (turns k)).toNat < 1000000 ↔
      wakeTarget nowNs (new periodUs config : RtPeriodicTask τ) k ≤ (turns k).endNs.toNat ∧
        (turns k).endNs.toNat <
          wakeTarget nowNs (new periodUs config : RtPeriodicTask τ) k + 1000000 := by
  have target := nextWake_after turns (Nat.lt_of_le_of_lt
    (wakeTarget_mono nowNs (new periodUs config : RtPeriodicTask τ) (Nat.le_of_lt inside)) fits)
  by_cases early : (turns k).endNs <
      (((new periodUs config : RtPeriodicTask τ).enter nowNs).after turns k).nextWake
  · obtain rfl := early_first clocked inside early
    have entered := clocked.entered inside
    have executed := clocked.executed 0 inside
    have wraps := latency_of_early early
    have short := periodUs.toNat_lt
    rw [UInt64.le_iff_toNat_le] at entered executed
    rw [UInt64.lt_iff_toNat_lt] at early
    rw [target] at wraps early
    have first : wakeTarget nowNs (new periodUs config : RtPeriodicTask τ) 0 =
        nowNs.toNat + periodUs.toNat * 1000 := by
      rw [wakeTarget, periodNs_new, Nat.zero_add, Nat.one_mul]
    constructor <;> intro claimed <;> omega
  · have reached := UInt64.not_lt.mp early
    have exact' := latency_of_reached reached
    rw [UInt64.le_iff_toNat_le, target] at reached
    rw [target] at exact'
    omega

end

theorem constraintMet_iff (periodUs : UInt32) (config : RtConfig) (nowNs : UInt64)
    (turns : Nat → Turn) (n : Nat)
    (fits : wakeTarget nowNs (new periodUs config : RtPeriodicTask τ) n < 2 ^ 64)
    (clocked : Clocked nowNs ((new periodUs config : RtPeriodicTask τ).enter nowNs) turns n) :
    constraintMet (((new periodUs config : RtPeriodicTask τ).enter nowNs).after turns
        n).periodic.latencyTracker = true ↔
      (0 < n → wakeTarget nowNs (new periodUs config : RtPeriodicTask τ) 0 ≤
        (turns 0).endNs.toNat) ∧
      ∀ k, k < n → (turns k).endNs.toNat <
        wakeTarget nowNs (new periodUs config : RtPeriodicTask τ) k + 1000000 := by
  have small : ∀ latencyNs : UInt64, latencyNs < 1000000 ↔ latencyNs.toNat < 1000000 :=
    fun _ => UInt64.lt_iff_toNat_lt
  rw [constraintMet, decide_eq_true_iff, small, maxNs_after_lt_iff]
  constructor
  · rintro ⟨_, every⟩
    constructor
    · intro some_
      exact ((latency_lt_iff fits clocked some_).mp (every 0 some_)).1
    · intro k inside
      exact ((latency_lt_iff fits clocked inside).mp (every k inside)).2
  · rintro ⟨first, every⟩
    refine ⟨show (0 : UInt64).toNat < 1000000 by decide, fun k inside => ?_⟩
    refine (latency_lt_iff fits clocked inside).mpr ⟨?_, every k inside⟩
    cases k with
    | zero => exact first inside
    | succ k =>
      have reached := (latencyExact_iff _ _).mp (latencyExact_later clocked inside)
      have target := nextWake_after turns (Nat.lt_of_le_of_lt
        (wakeTarget_mono nowNs (new periodUs config : RtPeriodicTask τ) (Nat.le_of_lt inside)) fits)
      rwa [UInt64.le_iff_toNat_le, target] at reached

theorem constraintMet_iff_long_first :
    constraintMet (((new 100 {} : RtPeriodicTask Unit).enter 1000000).after longFirst
        2).periodic.latencyTracker = true ↔
      (0 < 2 → wakeTarget 1000000 (new 100 {} : RtPeriodicTask Unit) 0 ≤
        (longFirst 0).endNs.toNat) ∧
      ∀ k, k < 2 → (longFirst k).endNs.toNat <
        wakeTarget 1000000 (new 100 {} : RtPeriodicTask Unit) k + 1000000 := by
  apply constraintMet_iff
  · decide
  · refine ⟨by decide, by decide, by decide, by decide, by decide, fun k inside => ?_⟩
    obtain rfl : k = 0 := by omega
    decide

-- A task that is always done in time is reported as a deadline miss.
example : constraintMet (((new 100 {} : RtPeriodicTask Unit).enter 1000000).after everyPeriod
    1).periodic.latencyTracker = false := by
  decide

end AdsRealtime.LinuxRtExample
