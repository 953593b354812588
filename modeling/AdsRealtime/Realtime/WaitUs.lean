import AdsRealtime.Realtime.PerformanceCounter
import AdsRealtime.Shared.Looping

set_option autoImplicit false

namespace AdsRealtime

open Looping

-- What wait_us has done: read the counter up to this reading, or asked Sleep for this long. How
-- long Sleep then takes is up to the system's ticks, and nothing is said about it here.
inductive Wait where
  | polled (last : Nat)
  | sleepAsked (milliseconds : UInt32)
  deriving DecidableEq

namespace RtssTimer

-- The count of microseconds is promoted to the type of the frequency.
def targetTicks (microseconds : UInt32) (timer : RtssTimer) : Int64 :=
  Int64.ofNat microseconds.toNat * timer.freq / 1000000

-- The counter gives `start` first, and then one reading a turn.
def waitUs (microseconds : UInt32) (start : Int64) (now : Nat → Int64) (fuel : Nat)
    (timer : RtssTimer) : Outcome Wait :=
  if microseconds < 10 then
    let reached := fun turn => !decide (now turn - start < targetTicks microseconds timer)
    (run (search reached) fuel 0).map .polled
  else
    .returned (.sleepAsked ((microseconds + 999) / 1000))

def elapsed (start : Int64) (now : Nat → Int64) (turn : Nat) : Nat :=
  ((now turn).toInt - start.toInt).toNat

-- The counter never goes back, and no count of less than ten microseconds overflows.
structure Counting (timer : RtssTimer) (start : Int64) (now : Nat → Int64) : Prop where
  nonnegative : 0 ≤ start
  later : ∀ turn, start ≤ now turn
  positive : 0 < timer.freq
  slow : 9 * timer.freq.toInt < 2 ^ 63

section

variable {timer : RtssTimer} {start : Int64} {now : Nat → Int64} {microseconds : UInt32}

theorem toInt_targetTicks (counting : Counting timer start now) (short : microseconds < 10) :
    (targetTicks microseconds timer).toInt =
      ((microseconds.toNat * timer.freq.toNatClampNeg / 1000000 : Nat) : Int) := by
  have few : microseconds.toNat < 10 := UInt32.lt_iff_toNat_lt.mp short
  have frequency := Int64.cast_toNatClampNeg timer.freq (Int64.le_of_lt counting.positive)
  have slow := counting.slow
  rw [← frequency] at slow
  have bounded := Nat.mul_le_mul_right timer.freq.toNatClampNeg (Nat.le_of_lt_succ few)
  have product : (Int64.ofNat microseconds.toNat * timer.freq).toInt =
      ((microseconds.toNat * timer.freq.toNatClampNeg : Nat) : Int) := by
    rw [Int64.toInt_mul, Int64.toInt_ofNat_of_lt (by omega), ← frequency, ← Nat.cast_mul]
    exact Int.bmod_eq_of_le_mul_two (by omega) (by omega)
  rw [targetTicks, Int64.toInt_div_of_ne_right _ _ (by decide), product]
  exact (Int.ofNat_tdiv _ _).symm

theorem reached_iff (counting : Counting timer start now) (short : microseconds < 10)
    (turn : Nat) :
    (!decide (now turn - start < targetTicks microseconds timer)) = true ↔
      microseconds.toNat * timer.freq.toNatClampNeg / 1000000 ≤ elapsed start now turn := by
  have later := counting.later turn
  have difference := Int64.toInt_sub_of_le _ _ counting.nonnegative later
  rw [Bool.not_eq_true', decide_eq_false_iff_not, Int64.lt_iff_toInt_lt, difference,
    toInt_targetTicks counting short, elapsed]
  have ordered := Int64.le_iff_toInt_le.mp later
  omega

theorem waitUs_short (short : microseconds < 10) (fuel : Nat) :
    waitUs microseconds start now fuel timer =
      (run (search fun turn => !decide (now turn - start < targetTicks microseconds timer)) fuel
        0).map .polled := by
  rw [waitUs, if_pos short]

theorem waitUs_long (long : ¬ microseconds < 10) (fuel : Nat) :
    waitUs microseconds start now fuel timer =
      .returned (.sleepAsked ((microseconds + 999) / 1000)) := by
  rw [waitUs, if_neg long]

end

/-- What is polled is less than a tick short and no reading too long, and what Sleep is asked for
is at least the count and less than a millisecond more. -/
def Covers (microseconds : UInt32) (start : Int64) (now : Nat → Int64) (timer : RtssTimer) :
    Wait → Prop
  | .polled last =>
    microseconds.toNat * timer.freq.toNatClampNeg < (elapsed start now last + 1) * 1000000 ∧
      ∀ turn, turn < last →
        (elapsed start now turn + 1) * 1000000 ≤ microseconds.toNat * timer.freq.toNatClampNeg
  | .sleepAsked milliseconds =>
    microseconds.toNat ≤ milliseconds.toNat * 1000 ∧
      milliseconds.toNat * 1000 < microseconds.toNat + 1000

section

variable {timer : RtssTimer} {start : Int64} {now : Nat → Int64} {microseconds : UInt32}

theorem covers_sleepAsked_iff :
    Covers microseconds start now timer (.sleepAsked ((microseconds + 999) / 1000)) ↔
      microseconds.toNat ≤ 4294966296 := by
  have below := microseconds.toNat_lt
  have asked : ((microseconds + 999) / 1000).toNat =
      (microseconds.toNat + 999) % 2 ^ 32 / 1000 := by
    rw [UInt32.toNat_div, UInt32.toNat_add]
    rfl
  rw [Covers, asked]
  omega

theorem lt_iff_div_le {microticks ticks : Nat} :
    microticks < (ticks + 1) * 1000000 ↔ microticks / 1000000 ≤ ticks := by
  omega

theorem polls (counting : Counting timer start now) (short : microseconds < 10)
    (late : ∃ turn, microseconds.toNat * timer.freq.toNatClampNeg <
      (elapsed start now turn + 1) * 1000000) :
    ∃ last, Covers microseconds start now timer (.polled last) ∧
      ∀ fuel, last < fuel →
        waitUs microseconds start now fuel timer = .returned (.polled last) := by
  simp only [lt_iff_div_le, ← reached_iff counting short] at late
  refine ⟨Nat.find late, ⟨?_, ?_⟩, ?_⟩
  · have here := Nat.find_spec late
    rwa [reached_iff counting short, ← lt_iff_div_le] at here
  · intro turn earlier
    have before := Nat.find_min late earlier
    rwa [reached_iff counting short, ← lt_iff_div_le, Nat.not_lt] at before
  · intro fuel enough
    have found := run_search (Nat.find_spec late)
      (fun turn _ earlier => Bool.eq_false_of_not_eq_true (Nat.find_min late earlier))
      (Nat.zero_le _) (by omega : Nat.find late < 0 + fuel)
    rw [waitUs_short short, found]
    rfl

theorem waitUs_covers_iff (counting : Counting timer start now) (microseconds : UInt32) :
    (∃ wait enough, (∀ fuel, enough < fuel →
          waitUs microseconds start now fuel timer = .returned wait) ∧
        Covers microseconds start now timer wait) ↔
      microseconds.toNat ≤ 4294966296 ∧
        (microseconds < 10 → ∃ turn, microseconds.toNat * timer.freq.toNatClampNeg <
          (elapsed start now turn + 1) * 1000000) := by
  by_cases short : microseconds < 10
  · have few : microseconds.toNat < 10 := UInt32.lt_iff_toNat_lt.mp short
    constructor
    · rintro ⟨wait, enough, returns, covers⟩
      refine ⟨by omega, fun _ => ?_⟩
      have here := returns (enough + 1) (Nat.lt_succ_self enough)
      rw [waitUs_short short, Outcome.map_eq_returned_iff] at here
      obtain ⟨last, _, rfl⟩ := here
      exact ⟨last, covers.1⟩
    · rintro ⟨_, late⟩
      obtain ⟨last, covers, returns⟩ := polls counting short (late short)
      exact ⟨.polled last, last, returns, covers⟩
  · constructor
    · rintro ⟨wait, enough, returns, covers⟩
      refine ⟨?_, fun few => absurd few short⟩
      have here := returns (enough + 1) (Nat.lt_succ_self enough)
      rw [waitUs_long short] at here
      obtain rfl := Outcome.returned.inj here
      exact covers_sleepAsked_iff.mp covers
    · rintro ⟨fits, _⟩
      exact ⟨_, 0, fun fuel _ => waitUs_long short fuel, covers_sleepAsked_iff.mpr fits⟩

theorem waitUs_covers_iff_seven :
    (∃ wait enough, (∀ fuel, enough < fuel →
          waitUs 7 0 (fun turn => Int64.ofNat (min turn 100 * 10)) fuel { freq := 10000000 } =
            .returned wait) ∧
        Covers 7 0 (fun turn => Int64.ofNat (min turn 100 * 10)) { freq := 10000000 } wait) ↔
      (7 : UInt32).toNat ≤ 4294966296 ∧
        ((7 : UInt32) < 10 → ∃ turn, (7 : UInt32).toNat * (10000000 : Int64).toNatClampNeg <
          (elapsed 0 (fun turn => Int64.ofNat (min turn 100 * 10)) turn + 1) * 1000000) := by
  apply waitUs_covers_iff
  refine ⟨by decide, ?_, by decide, by decide⟩
  intro turn
  rw [Int64.le_iff_toInt_le, Int64.toInt_ofNat_of_lt (by omega)]
  exact Int.natCast_nonneg _

end

-- For the cycle of 100 µs of the processing loop, Sleep is asked for a millisecond.
example (start : Int64) (now : Nat → Int64) (timer : RtssTimer) :
    waitUs 100 start now 1 timer = .returned (.sleepAsked 1) :=
  rfl

end RtssTimer

end AdsRealtime
