import AdsRealtime.Shared.Sample

set_option autoImplicit false

namespace AdsRealtime

-- The factor is unsigned, so the product and the quotient are taken in `unsigned long long`.
def ticksToNs (quadPart frequency : Int64) : UInt64 :=
  quadPart.toUInt64 * 1000000000 / frequency.toUInt64

structure RtssTimer where
  freq : Int64

-- The argument is the reading that QueryPerformanceCounter gives.
def RtssTimer.nowNs (timer : RtssTimer) (now : Int64) : UInt64 :=
  ticksToNs now timer.freq

def AdsRealtimeEngine.getTimestampNs (qpcFrequency now : Int64) : UInt64 :=
  ticksToNs now qpcFrequency

/-- What two readings, the second not before the first, owe to a clock of this frequency. -/
structure KeepsTime (clock : Int64 → UInt64) (frequency c1 c2 : Int64) : Prop where
  monotone : clock c1 ≤ clock c2
  first : (clock c1).toNat = c1.toNatClampNeg * 10 ^ 9 / frequency.toNatClampNeg
  second : (clock c2).toNat = c2.toNatClampNeg * 10 ^ 9 / frequency.toNatClampNeg

theorem toNatClampNeg_mono {a b : Int64} (less : a ≤ b) : a.toNatClampNeg ≤ b.toNatClampNeg :=
  Int.toNat_le_toNat (Int64.le_iff_toInt_le.mp less)

theorem toNatClampNeg_pos {a : Int64} (positive : 0 < a) : 0 < a.toNatClampNeg := by
  have above := Int64.lt_iff_toInt_lt.mp positive
  rw [Int64.toInt_zero] at above
  exact Int.lt_toNat.mpr above

section Clock

variable {quadPart frequency : Int64}

theorem toNat_ticksToNs (nonneg : 0 ≤ quadPart) (positive : 0 < frequency) :
    (ticksToNs quadPart frequency).toNat =
      quadPart.toNatClampNeg * 10 ^ 9 % 2 ^ 64 / frequency.toNatClampNeg := by
  rw [ticksToNs, UInt64.toNat_div, UInt64.toNat_mul, Int64.toNat_toUInt64_of_le nonneg,
    Int64.toNat_toUInt64_of_le (Int64.le_of_lt positive)]
  rfl

theorem ticksToNs_exact_iff (nonneg : 0 ≤ quadPart) (positive : 0 < frequency) :
    (ticksToNs quadPart frequency).toNat =
        quadPart.toNatClampNeg * 10 ^ 9 / frequency.toNatClampNeg ↔
      quadPart.toNatClampNeg * 10 ^ 9 < 2 ^ 64 := by
  have below := frequency.toNatClampNeg_lt
  rw [toNat_ticksToNs nonneg positive]
  exact Sample.mean_of_mod_iff (toNatClampNeg_pos positive) (by omega)

theorem ticksToNs_goes_back (positive : 0 < frequency) :
    ticksToNs 18446744074 frequency < ticksToNs 18446744073 frequency := by
  have some_ := toNatClampNeg_pos positive
  have below := frequency.toNatClampNeg_lt
  rw [UInt64.lt_iff_toNat_lt, toNat_ticksToNs (by decide) positive,
    toNat_ticksToNs (by decide) positive]
  have before : (18446744073 : Int64).toNatClampNeg = 18446744073 :=
    Int64.toNatClampNeg_ofNat_of_lt (by decide)
  have behind : (18446744074 : Int64).toNatClampNeg = 18446744074 :=
    Int64.toNatClampNeg_ofNat_of_lt (by decide)
  have fits : 18446744073 * 10 ^ 9 % 2 ^ 64 = 18446744073000000000 := rfl
  have wraps : 18446744074 * 10 ^ 9 % 2 ^ 64 = 290448384 := rfl
  have whole := @Nat.lt_div_mul_add 18446744073000000000 _ some_
  rw [before, behind, fits, wraps, Nat.div_lt_iff_lt_mul some_]
  omega

end Clock

theorem ticksToNs_keepsTime_iff {frequency c1 c2 : Int64} (nonneg : 0 ≤ c1) (later : c1 ≤ c2)
    (positive : 0 < frequency) :
    KeepsTime (fun now => ticksToNs now frequency) frequency c1 c2 ↔
      c2.toNatClampNeg * 10 ^ 9 < 2 ^ 64 := by
  have nonneg' := Int64.le_trans nonneg later
  have ordered := Nat.mul_le_mul_right (10 ^ 9) (toNatClampNeg_mono later)
  constructor
  · intro keeps
    exact (ticksToNs_exact_iff nonneg' positive).mp keeps.second
  · intro small
    have first := (ticksToNs_exact_iff nonneg positive).mpr (Nat.lt_of_le_of_lt ordered small)
    have second := (ticksToNs_exact_iff nonneg' positive).mpr small
    refine ⟨?_, first, second⟩
    rw [UInt64.le_iff_toNat_le, first, second]
    exact Nat.div_le_div_right ordered

theorem timestamps_keepTime_iff {frequency c1 c2 : Int64} (nonneg : 0 ≤ c1) (later : c1 ≤ c2)
    (positive : 1 ≤ frequency) :
    (KeepsTime (AdsRealtimeEngine.getTimestampNs frequency) frequency c1 c2 ∧
        KeepsTime (RtssTimer.nowNs { freq := frequency }) frequency c1 c2) ↔
      c2.toNatClampNeg * 10 ^ 9 < 2 ^ 64 := by
  have above : 0 < frequency := Int64.lt_of_lt_of_le (by decide) positive
  have one := ticksToNs_keepsTime_iff nonneg later above
  constructor
  · intro both
    exact one.mp both.1
  · intro small
    exact ⟨one.mpr small, one.mpr small⟩

theorem timestamps_keepTime_iff_last :
    (KeepsTime (AdsRealtimeEngine.getTimestampNs 10000000) 10000000 18446744072 18446744073 ∧
        KeepsTime (RtssTimer.nowNs { freq := 10000000 }) 10000000 18446744072 18446744073) ↔
      (18446744073 : Int64).toNatClampNeg * 10 ^ 9 < 2 ^ 64 :=
  timestamps_keepTime_iff (by decide) (by decide) (by decide)

theorem timestamps_go_back :
    (18446744074 : Int64).toNatClampNeg * 10 ^ 9 / (10000000 : Int64).toNatClampNeg < 2 ^ 64 ∧
      ¬ (KeepsTime (AdsRealtimeEngine.getTimestampNs 10000000) 10000000 18446744073 18446744074 ∧
        KeepsTime (RtssTimer.nowNs { freq := 10000000 }) 10000000 18446744073 18446744074) := by
  constructor
  · decide
  · intro both
    have monotone := both.1.monotone
    revert monotone
    decide

end AdsRealtime
