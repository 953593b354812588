import AdsRealtime.Shared.Runs
import AdsRealtime.Shared.Sample

set_option autoImplicit false

namespace AdsRealtime

open Sample

structure RtLatencyTracker where
  minNs : UInt64
  maxNs : UInt64
  count : UInt64
  sumNs : UInt64
  deriving DecidableEq, Repr

namespace RtLatencyTracker

def new : RtLatencyTracker :=
  { minNs := UInt64.ofNat (UInt64.size - 1), maxNs := 0, count := 0, sumNs := 0 }

def record (latencyNs : UInt64) (tracker : RtLatencyTracker) : RtLatencyTracker :=
  { minNs := if latencyNs < tracker.minNs then latencyNs else tracker.minNs
    maxNs := if latencyNs > tracker.maxNs then latencyNs else tracker.maxNs
    sumNs := tracker.sumNs + latencyNs
    count := tracker.count + 1 }

def avgNs (tracker : RtLatencyTracker) : UInt64 :=
  if tracker.count > 0 then tracker.sumNs / tracker.count else 0

def reset (_ : RtLatencyTracker) : RtLatencyTracker :=
  { minNs := UInt64.ofNat (UInt64.size - 1), maxNs := 0, sumNs := 0, count := 0 }

inductive Call where
  | record (latencyNs : UInt64)
  | reset
  deriving DecidableEq

def perform (tracker : RtLatencyTracker) : Call → RtLatencyTracker
  | .record latencyNs => record latencyNs tracker
  | .reset => reset tracker

def keep (latencies : List Nat) : Call → List Nat
  | .record latencyNs => latencyNs.toNat :: latencies
  | .reset => []

def recorded (calls : List Call) : List Nat :=
  Runs.after keep [] calls

/-- The statistics are those of the recorded latencies. -/
structure Exact (tracker : RtLatencyTracker) (latencies : List Nat) : Prop where
  min : IsLeast (values latencies) tracker.minNs.toNat
  max : IsGreatest (values latencies) tracker.maxNs.toNat
  count : tracker.count.toNat = latencies.length
  avg : tracker.avgNs.toNat = latencies.sum / latencies.length
  ordered : tracker.minNs ≤ tracker.avgNs ∧ tracker.avgNs ≤ tracker.maxNs

structure Tracks (tracker : RtLatencyTracker) (latencies : List Nat) : Prop where
  bounded : ∀ latency ∈ latencies, latency ≤ UInt64.size - 1
  min : IsLeast (insert (UInt64.size - 1) (values latencies)) tracker.minNs.toNat
  max : IsGreatest (insert 0 (values latencies)) tracker.maxNs.toNat
  count : tracker.count.toNat = latencies.length % UInt64.size
  sum : tracker.sumNs.toNat = latencies.sum % UInt64.size

theorem new_tracks : Tracks new [] where
  bounded := by simp
  min := by simp [new, values, isLeast_singleton]
  max := by simp [new, values, isGreatest_singleton]
  count := by simp [new]
  sum := by simp [new]

theorem record_min (latencyNs : UInt64) (tracker : RtLatencyTracker) :
    (record latencyNs tracker).minNs.toNat = min latencyNs.toNat tracker.minNs.toNat := by
  simp only [record, UInt64.lt_iff_toNat_lt]
  split <;> omega

theorem record_max (latencyNs : UInt64) (tracker : RtLatencyTracker) :
    (record latencyNs tracker).maxNs.toNat = max latencyNs.toNat tracker.maxNs.toNat := by
  simp only [record, gt_iff_lt, UInt64.lt_iff_toNat_lt]
  split <;> omega

theorem record_tracks {tracker : RtLatencyTracker} {latencies : List Nat}
    (tracks : Tracks tracker latencies) (latencyNs : UInt64) :
    Tracks (record latencyNs tracker) (latencyNs.toNat :: latencies) where
  bounded := by
    intro latency member
    rcases List.mem_cons.mp member with rfl | earlier
    · exact Nat.le_sub_one_of_lt latencyNs.toNat_lt_size
    · exact tracks.bounded latency earlier
  min := by
    rw [values_cons, Set.insert_comm, record_min]
    exact tracks.min.insert latencyNs.toNat
  max := by
    rw [values_cons, Set.insert_comm, record_max]
    exact tracks.max.insert latencyNs.toNat
  count := by
    have count := tracks.count
    simp only [record, UInt64.toNat_add, List.length_cons, UInt64.toNat_one] at count ⊢
    rw [count]
    exact Nat.mod_add_mod _ _ _
  sum := by
    have sum := tracks.sum
    simp only [record, UInt64.toNat_add, List.sum_cons] at sum ⊢
    rw [sum, Nat.add_comm latencyNs.toNat]
    exact Nat.mod_add_mod _ _ _

theorem perform_tracks {tracker : RtLatencyTracker} {latencies : List Nat}
    (tracks : Tracks tracker latencies) (call : Call) :
    Tracks (perform tracker call) (keep latencies call) := by
  cases call with
  | record latencyNs => exact record_tracks tracks latencyNs
  | reset => exact new_tracks

theorem after_tracks (calls : List Call) :
    Tracks (Runs.after perform new calls) (recorded calls) := by
  induction calls using List.reverseRecOn with
  | nil => exact new_tracks
  | append_singleton calls call ih =>
    rw [recorded, Runs.after_snoc, Runs.after_snoc]
    exact perform_tracks ih call

theorem avgNs_toNat {tracker : RtLatencyTracker} (counted : 0 < tracker.count) :
    tracker.avgNs.toNat = tracker.sumNs.toNat / tracker.count.toNat := by
  rw [avgNs, if_pos counted, UInt64.toNat_div]

-- The count and the sum fit, which is all that the mean and the count depend on.
theorem exact_iff {tracker : RtLatencyTracker} {latencies : List Nat}
    (tracks : Tracks tracker latencies) (counted : 0 < tracker.count) :
    Exact tracker latencies ↔
      latencies.length < UInt64.size ∧ latencies.sum < UInt64.size := by
  have positive : 0 < tracker.count.toNat := UInt64.lt_iff_toNat_lt.mp counted
  have count := tracks.count
  have average := avgNs_toNat counted
  have below := tracker.count.toNat_lt_size
  constructor
  · intro exact
    have few : latencies.length < UInt64.size := by
      rw [← exact.count]
      exact below
    have mean := exact.avg
    rw [average, tracks.sum, exact.count] at mean
    rw [exact.count] at positive
    exact ⟨few, (mean_of_mod_iff positive few).mp mean⟩
  · rintro ⟨few, small⟩
    rw [Nat.mod_eq_of_lt few] at count
    rw [count] at positive average
    have some_ : latencies ≠ [] := List.ne_nil_of_length_pos positive
    have least := isLeast_of_insert (values_nonempty some_) tracks.bounded tracks.min
    have greatest := isGreatest_of_insert (values_nonempty some_) (fun _ _ => Nat.zero_le _)
      tracks.max
    rw [tracks.sum, Nat.mod_eq_of_lt small] at average
    refine ⟨least, greatest, count, average, ?_, ?_⟩
    · rw [UInt64.le_iff_toNat_le, average]
      exact least_le_mean some_ least
    · rw [UInt64.le_iff_toNat_le, average]
      exact mean_le_greatest greatest

theorem statistics_exact_iff (calls : List Call) :
    (∀ before, before <+: calls → 0 < (Runs.after perform new before).count →
        Exact (Runs.after perform new before) (recorded before)) ↔
      ∀ before, before <+: calls → (recorded before).length % 2 ^ 64 ≠ 0 →
        (recorded before).length < 2 ^ 64 ∧ (recorded before).sum < 2 ^ 64 := by
  refine forall_congr' fun before => imp_congr_right fun _ => ?_
  have tracks := after_tracks before
  have counted : 0 < (Runs.after perform new before).count ↔
      (recorded before).length % 2 ^ 64 ≠ 0 := by
    rw [UInt64.lt_iff_toNat_lt, tracks.count]
    exact Nat.pos_iff_ne_zero
  constructor
  · intro exact nonzero
    exact (exact_iff tracks (counted.mpr nonzero)).mp (exact (counted.mpr nonzero))
  · intro fits positive
    exact (exact_iff tracks positive).mpr (fits (counted.mp positive))

def lateAfterEarly : List Call :=
  [.record (0 - 100000), .record 200000]

theorem statistics_mean_below_min :
    ¬ ∀ before, before <+: lateAfterEarly → 0 < (Runs.after perform new before).count →
      Exact (Runs.after perform new before) (recorded before) := by
  intro exact
  have ordered := (exact lateAfterEarly (List.prefix_refl _) (by decide)).ordered
  revert ordered
  decide

end RtLatencyTracker

end AdsRealtime
