import AdsRealtime.Shared.Rank
import Mathlib.Algebra.Ring.Nat

set_option autoImplicit false

namespace AdsRealtime

-- The latencies are doubles in the source; what is not a number is never among the samples.
structure PerformanceStats (α : Type) where
  totalNotifications : UInt64
  deadlineMisses : UInt64
  minLatencyUs : α
  maxLatencyUs : α
  avgLatencyUs : α
  p50LatencyUs : α
  p95LatencyUs : α
  p99LatencyUs : α
  throughputHz : UInt32
  deriving DecidableEq

namespace AdsRealtimeEngine

open Rank (IsPercentile)

structure PerformanceTracking (α : Type) where
  stats : PerformanceStats α
  latencySamples : List α

variable {α : Type}

-- The product is a `size_t`.
def percentileIndex (size percent : Nat) : Nat :=
  size * percent % UInt64.size / 100

def percentiles (samples : List α) : Option (α × α × α) := do
  let p50 ← samples[samples.length / 2]?
  let p95 ← samples[percentileIndex samples.length 95]?
  let p99 ← samples[percentileIndex samples.length 99]?
  return (p50, p95, p99)

variable [LinearOrder α]

-- It is a copy of the samples that is sorted.
def getStatistics (tracking : PerformanceTracking α) :
    Option (PerformanceStats α) × PerformanceTracking α :=
  let stats := tracking.stats
  if tracking.latencySamples.isEmpty then
    (some stats, tracking)
  else
    let samples := tracking.latencySamples.mergeSort (· ≤ ·)
    let filled := (percentiles samples).map fun (p50, p95, p99) =>
      { stats with p50LatencyUs := p50, p95LatencyUs := p95, p99LatencyUs := p99 }
    (filled, tracking)

omit [LinearOrder α] in
theorem percentileIndex_eq {size percent : Nat} (small : size * percent < UInt64.size) :
    percentileIndex size percent = size * percent / 100 := by
  rw [percentileIndex, Nat.mod_eq_of_lt small]

/-- What the three values owe to the samples they are taken from. -/
structure Ranked (samples : List α) (p50 p95 p99 : α) : Prop where
  ordered : p50 ≤ p95 ∧ p95 ≤ p99
  p50 : IsPercentile samples 50 p50
  p95 : IsPercentile samples 95 p95
  p99 : IsPercentile samples 99 p99

theorem percentiles_ranked {samples sorted : List α} (increasing : sorted.SortedLE)
    (same : sorted.Perm samples) (some_ : samples ≠ [])
    (few : samples.length * 99 < UInt64.size) :
    ∃ p50 p95 p99, percentiles sorted = some (p50, p95, p99) ∧ Ranked samples p50 p95 p99 := by
  have length := same.length_eq
  have positive := List.length_pos_iff.mpr some_
  have middle : sorted.length / 2 < sorted.length := by
    omega
  have high : sorted.length * 95 / 100 < sorted.length := by
    omega
  have highest : sorted.length * 99 / 100 < sorted.length := by
    omega
  refine ⟨sorted[sorted.length / 2], sorted[sorted.length * 95 / 100],
    sorted[sorted.length * 99 / 100], ?_, ?_⟩
  · rw [percentiles, percentileIndex_eq (by omega), percentileIndex_eq (by omega),
      List.getElem?_eq_getElem middle, List.getElem?_eq_getElem high,
      List.getElem?_eq_getElem highest]
    rfl
  · constructor
    · exact ⟨increasing.getElem_le_getElem_of_le (by omega),
        increasing.getElem_le_getElem_of_le (by omega)⟩
    · exact Rank.isPercentile_getElem increasing same middle (by omega) (by omega)
    · exact Rank.isPercentile_getElem increasing same high (by omega) (by omega)
    · exact Rank.isPercentile_getElem increasing same highest (by omega) (by omega)

theorem getStatistics_of_samples {tracking : PerformanceTracking α}
    (some_ : tracking.latencySamples ≠ []) :
    getStatistics tracking =
      ((percentiles (tracking.latencySamples.mergeSort (· ≤ ·))).map fun (p50, p95, p99) =>
        { tracking.stats with p50LatencyUs := p50, p95LatencyUs := p95, p99LatencyUs := p99 },
        tracking) := by
  rw [getStatistics]
  exact if_neg (by simpa using some_)

theorem getStatistics_congr {tracking other : PerformanceTracking α}
    (stats : tracking.stats = other.stats)
    (same : tracking.latencySamples.Perm other.latencySamples) :
    (getStatistics tracking).1 = (getStatistics other).1 := by
  by_cases none_ : tracking.latencySamples = []
  · have none_' : other.latencySamples = [] := (none_ ▸ same).nil_eq.symm
    simp [getStatistics, none_, none_', stats]
  · have some_ : other.latencySamples ≠ [] := fun empty => none_ (empty ▸ same).eq_nil
    rw [getStatistics_of_samples none_, getStatistics_of_samples some_, stats,
      Rank.mergeSort_congr same]

theorem getStatistics_ranked (tracking : PerformanceTracking α)
    (some_ : tracking.latencySamples ≠ [])
    (few : tracking.latencySamples.length * 99 < 2 ^ 64) :
    ∃ stats, getStatistics tracking = (some stats, tracking) ∧
      Ranked tracking.latencySamples stats.p50LatencyUs stats.p95LatencyUs stats.p99LatencyUs ∧
        ∀ other : PerformanceTracking α, other.stats = tracking.stats →
          other.latencySamples.Perm tracking.latencySamples →
            (getStatistics other).1 = some stats := by
  obtain ⟨p50, p95, p99, found, ranked⟩ := percentiles_ranked List.sortedLE_mergeSort
    (List.mergeSort_perm tracking.latencySamples (· ≤ ·)) some_ few
  refine ⟨{ tracking.stats with p50LatencyUs := p50, p95LatencyUs := p95, p99LatencyUs := p99 },
    ?_, ranked, ?_⟩
  · rw [getStatistics_of_samples some_, found]
    rfl
  · intro other stats same
    rw [getStatistics_congr stats same, getStatistics_of_samples some_, found]
    rfl

def threeSamples : PerformanceTracking Nat :=
  { stats :=
      { totalNotifications := 3, deadlineMisses := 0, minLatencyUs := 0, maxLatencyUs := 0,
        avgLatencyUs := 0, p50LatencyUs := 0, p95LatencyUs := 0, p99LatencyUs := 0,
        throughputHz := 0 }
    latencySamples := [40, 10, 10] }

theorem getStatistics_ranked_three :
    ∃ stats, getStatistics threeSamples = (some stats, threeSamples) ∧
      Ranked [40, 10, 10] stats.p50LatencyUs stats.p95LatencyUs stats.p99LatencyUs ∧
        ∀ other : PerformanceTracking Nat, other.stats = threeSamples.stats →
          other.latencySamples.Perm [40, 10, 10] → (getStatistics other).1 = some stats :=
  getStatistics_ranked threeSamples (by decide) (by decide)

end AdsRealtimeEngine

end AdsRealtime
