import AdsRealtime.Engine.Statistics
import AdsRealtime.Realtime.PerformanceCounter
import AdsRealtime.Shared.Runs

set_option autoImplicit false

namespace AdsRealtime.RtssExample

open AdsRealtimeEngine (percentiles percentiles_ranked Ranked)

instance linearOrderUInt64 : LinearOrder UInt64 where
  le_refl := UInt64.le_refl
  le_trans _ _ _ := UInt64.le_trans
  le_antisymm _ _ := UInt64.le_antisymm
  le_total := UInt64.le_total
  lt_iff_le_not_ge _ _ := by
    simp only [UInt64.lt_iff_toNat_lt, UInt64.le_iff_toNat_le]
    omega
  toDecidableLE := inferInstance
  toDecidableEq := inferInstance
  toDecidableLT := inferInstance

-- The two readings of the performance counter that a notification takes.
structure Notification where
  sent : Int64
  handled : Int64

def maxLatencies : Nat := 10000

-- The callback of main: simulate_notification has taken the timestamp.
def onNotification (timer : RtssTimer) (now : Int64) (timestamp : UInt64)
    (latencies : List UInt64) : List UInt64 :=
  let latency := timer.nowNs now - timestamp
  if latencies.length < maxLatencies then latencies ++ [latency] else latencies

def notify (timer : RtssTimer) (latencies : List UInt64) (notification : Notification) :
    List UInt64 :=
  onNotification timer notification.handled (timer.nowNs notification.sent) latencies

def latency (timer : RtssTimer) (notification : Notification) : UInt64 :=
  timer.nowNs notification.handled - timer.nowNs notification.sent

theorem notify_cases (timer : RtssTimer) (latencies : List UInt64) (notification : Notification) :
    (latencies.length < maxLatencies ∧
        notify timer latencies notification = latencies ++ [latency timer notification]) ∨
      (maxLatencies ≤ latencies.length ∧ notify timer latencies notification = latencies) := by
  rcases Nat.lt_or_ge latencies.length maxLatencies with room | full
  · exact .inl ⟨room, if_pos room⟩
  · exact .inr ⟨full, if_neg (Nat.not_lt.mpr full)⟩

theorem after_notify (timer : RtssTimer) (notifications : List Notification) :
    Runs.after (notify timer) [] notifications =
      (notifications.take maxLatencies).map (latency timer) := by
  induction notifications using List.reverseRecOn with
  | nil => rfl
  | append_singleton notifications notification ih =>
    rw [Runs.after_snoc, ih]
    rcases notify_cases timer ((notifications.take maxLatencies).map (latency timer))
      notification with ⟨room, kept⟩ | ⟨full, dropped⟩
    · simp only [List.length_map, List.length_take] at room
      rw [kept, List.take_of_length_le (by omega), List.take_of_length_le (by simp; omega),
        List.map_append, List.map_singleton]
    · simp only [List.length_map, List.length_take] at full
      rw [dropped, List.take_append_of_le_length (by omega)]

def Timely (notification : Notification) : Prop :=
  0 ≤ notification.sent ∧ notification.sent ≤ notification.handled ∧
    notification.handled.toNatClampNeg * 10 ^ 9 < 2 ^ 64

def exactLatency (timer : RtssTimer) (notification : Notification) : Nat :=
  notification.handled.toNatClampNeg * 10 ^ 9 / timer.freq.toNatClampNeg -
    notification.sent.toNatClampNeg * 10 ^ 9 / timer.freq.toNatClampNeg

theorem latency_exact {timer : RtssTimer} (positive : 0 < timer.freq)
    {notification : Notification} (timely : Timely notification) :
    (latency timer notification).toNat = exactLatency timer notification := by
  obtain ⟨nonneg, later, small⟩ := timely
  have keeps : KeepsTime timer.nowNs timer.freq notification.sent notification.handled :=
    (ticksToNs_keepsTime_iff nonneg later positive).mpr small
  rw [latency, UInt64.toNat_sub_of_le _ _ keeps.monotone, keeps.second, keeps.first]
  rfl

theorem latencies_exact {timer : RtssTimer} (positive : 0 < timer.freq)
    (notifications : List Notification)
    (timely : ∀ notification ∈ notifications, Timely notification) :
    (Runs.after (notify timer) [] notifications).map UInt64.toNat =
      (notifications.take maxLatencies).map (exactLatency timer) := by
  rw [after_notify, List.map_map]
  apply List.map_congr_left
  intro notification member
  rw [Function.comp_apply]
  exact latency_exact positive (timely notification (List.mem_of_mem_take member))

theorem latency_wraps {timer : RtssTimer} (positive : 0 < timer.freq) :
    (latency timer { sent := 18446744073, handled := 18446744074 }).toNat +
        (timer.nowNs 18446744073).toNat =
      2 ^ 64 + (timer.nowNs 18446744074).toNat := by
  have back := UInt64.lt_iff_toNat_lt.mp (ticksToNs_goes_back positive)
  have below := (ticksToNs 18446744073 timer.freq).toNat_lt
  simp only [latency, RtssTimer.nowNs, UInt64.toNat_sub]
  omega

structure LatencyStatistics (α : Type) where
  min : α
  max : α
  p50 : α
  p95 : α
  p99 : α

variable {α : Type} [LinearOrder α]

-- The latencies are `uint64_t` in the source. The vector itself is sorted here.
def latencyStatistics (latencies : List α) : Option (LatencyStatistics α) × List α :=
  if latencies.isEmpty then
    (none, latencies)
  else
    let latencies := latencies.mergeSort (· ≤ ·)
    let statistics := do
      let min ← latencies.head?
      let max ← latencies.getLast?
      let (p50, p95, p99) ← percentiles latencies
      return { min := min, max := max, p50 := p50, p95 := p95, p99 := p99 }
    (statistics, latencies)

theorem latencyStatistics_ranked {latencies : List α} (some_ : latencies ≠ [])
    (few : latencies.length ≤ maxLatencies) :
    ∃ statistics,
      latencyStatistics latencies = (some statistics, latencies.mergeSort (· ≤ ·)) ∧
        Ranked latencies statistics.p50 statistics.p95 statistics.p99 ∧
          IsLeast {latency | latency ∈ latencies} statistics.min ∧
            IsGreatest {latency | latency ∈ latencies} statistics.max := by
  have same := List.mergeSort_perm latencies (· ≤ ·)
  have increasing : (latencies.mergeSort (· ≤ ·)).SortedLE := List.sortedLE_mergeSort
  have members : {latency | latency ∈ latencies.mergeSort (· ≤ ·)} =
      {latency | latency ∈ latencies} := Set.ext fun _ => same.mem_iff
  have bounded : latencies.length * 99 < UInt64.size :=
    Nat.lt_of_le_of_lt (Nat.mul_le_mul_right 99 few) (by decide)
  obtain ⟨p50, p95, p99, found, ranked⟩ := percentiles_ranked increasing same some_ bounded
  have first : 0 < (latencies.mergeSort (· ≤ ·)).length := by
    rw [same.length_eq]
    exact List.length_pos_iff.mpr some_
  have least := Rank.isLeast_getElem_zero increasing first
  have greatest := Rank.isGreatest_getElem_last increasing (Nat.sub_one_lt_of_lt first)
  rw [members] at least greatest
  refine ⟨⟨_, _, p50, p95, p99⟩, ?_, ranked, least, greatest⟩
  have some_' : latencies.isEmpty = false := by simpa using some_
  simp only [latencyStatistics, some_', List.head?_eq_getElem?, List.getLast?_eq_getElem?,
    List.getElem?_eq_getElem first, List.getElem?_eq_getElem (Nat.sub_one_lt_of_lt first), found]
  rfl

theorem recorded_ranked (timer : RtssTimer) {notifications : List Notification}
    (some_ : notifications ≠ []) :
    ∃ statistics,
      (latencyStatistics (Runs.after (notify timer) [] notifications)).1 = some statistics ∧
        Ranked ((notifications.take maxLatencies).map (latency timer)) statistics.p50
          statistics.p95 statistics.p99 ∧
          IsLeast {value | value ∈ (notifications.take maxLatencies).map (latency timer)}
            statistics.min ∧
            IsGreatest {value | value ∈ (notifications.take maxLatencies).map (latency timer)}
              statistics.max := by
  have kept : (notifications.take maxLatencies).map (latency timer) ≠ [] := by
    simpa [maxLatencies] using some_
  have few : ((notifications.take maxLatencies).map (latency timer)).length ≤ maxLatencies := by
    rw [List.length_map]
    exact List.length_take_le _ _
  obtain ⟨statistics, found, ranked⟩ := latencyStatistics_ranked kept few
  rw [after_notify]
  exact ⟨statistics, congrArg Prod.fst found, ranked⟩

end AdsRealtime.RtssExample
