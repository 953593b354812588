import AdsRealtime.Compression.DictionaryStream
import AdsRealtime.Compression.PayloadCompressor
import Mathlib.Algebra.Order.Field.Rat
import Mathlib.Tactic.Linarith
import Mathlib.Tactic.Positivity

set_option autoImplicit false

namespace AdsRealtime.PayloadCompressor

structure CompressionStats where
  originalSize : Nat
  compressedSize : Nat
  compressionRatio : ℚ
  method : Method

-- The ratio is the exact quotient, and the time that compress_auto takes is left out.
def benchmark (data : List UInt8) : CompressionStats :=
  let (compressed, method) := compressAuto data
  { originalSize := data.length
    compressedSize := compressed.length
    compressionRatio := if data.length > 0 then (data.length : ℚ) / compressed.length else 1
    method := method }

-- The savings that print_stats shows, a difference of two size_t.
def savings (stats : CompressionStats) : UInt64 :=
  UInt64.ofNat stats.originalSize - UInt64.ofNat stats.compressedSize

def shorter (data : List UInt8) : Nat :=
  min (SimpleCompressor.compress data).length (DictionaryCompressor.compress data).length

def Compressible (data : List UInt8) : Prop :=
  64 ≤ data.length ∧ 10 * shorter data < 9 * data.length

instance (data : List UInt8) : Decidable (Compressible data) :=
  inferInstanceAs (Decidable (_ ∧ _))

theorem compressAuto_compressible {data : List UInt8} (compressible : Compressible data) :
    (compressAuto data).1.length = shorter data ∧ (compressAuto data).2 ≠ .none := by
  obtain ⟨large, small⟩ := compressible
  unfold shorter at small ⊢
  unfold compressAuto
  rw [if_neg (Nat.not_lt.mpr large)]
  simp only [worthwhile, decide_eq_true_eq]
  split_ifs with rle dict
  · exact ⟨(Nat.min_eq_left (Nat.le_of_lt rle.1)).symm, by simp⟩
  · have least : (DictionaryCompressor.compress data).length ≤
        (SimpleCompressor.compress data).length := by
      omega
    exact ⟨(Nat.min_eq_right least).symm, by simp⟩
  · omega

theorem compressAuto_incompressible {data : List UInt8} (incompressible : ¬ Compressible data) :
    compressAuto data = (data, .none) := by
  rw [Compressible, shorter] at incompressible
  unfold compressAuto
  simp only [worthwhile, decide_eq_true_eq]
  split_ifs with small rle dict
  · rfl
  · omega
  · omega
  · rfl

theorem length_compressAuto (data : List UInt8) :
    (compressAuto data).1.length = if Compressible data then shorter data else data.length := by
  split
  next compressible => exact (compressAuto_compressible compressible).1
  next incompressible => rw [compressAuto_incompressible incompressible]

theorem length_le_shorter (data : List UInt8) : data.length ≤ 85 * shorter data := by
  have rle := SimpleCompressor.length_le_compress data
  have dict := DictionaryCompressor.length_le_compress data
  unfold shorter
  omega

/-- What the numbers of a benchmark may be. -/
structure Plausible (stats : CompressionStats) : Prop where
  neverLarger : stats.compressedSize ≤ stats.originalSize
  atLeastOne : 1 ≤ stats.compressionRatio
  atMost : stats.compressionRatio ≤ 85
  compressed_iff : stats.method ≠ .none ↔ 10 / 9 < stats.compressionRatio
  saved : stats.originalSize < 2 ^ 64 →
    (savings stats).toNat = stats.originalSize - stats.compressedSize

theorem toNat_ofNat_sub {original compressed : Nat} (less : compressed ≤ original)
    (fits : original < 2 ^ 64) :
    (UInt64.ofNat original - UInt64.ofNat compressed).toNat = original - compressed := by
  have whole := UInt64.toNat_ofNat_of_lt' fits
  have part := UInt64.toNat_ofNat_of_lt' (Nat.lt_of_le_of_lt less fits)
  rw [UInt64.toNat_sub_of_le, whole, part]
  rw [UInt64.le_iff_toNat_le, whole, part]
  exact less

theorem benchmark_incompressible {data : List UInt8} (incompressible : ¬ Compressible data) :
    benchmark data =
      { originalSize := data.length
        compressedSize := data.length
        compressionRatio := 1
        method := .none } := by
  rw [benchmark, compressAuto_incompressible incompressible]
  by_cases some_ : data.length > 0
  · have nonzero : (data.length : ℚ) ≠ 0 := by
      exact_mod_cast Nat.ne_of_gt some_
    simp only [if_pos some_, div_self nonzero]
  · simp only [if_neg some_]

theorem benchmark_compressible {data : List UInt8} (compressible : Compressible data) :
    (benchmark data).compressedSize = shorter data ∧ (benchmark data).method ≠ .none ∧
      (benchmark data).compressionRatio = (data.length : ℚ) / shorter data := by
  obtain ⟨size, used⟩ := compressAuto_compressible compressible
  have some_ : data.length > 0 := Nat.lt_of_lt_of_le (by decide) compressible.1
  refine ⟨size, used, ?_⟩
  simp only [benchmark, if_pos some_, size]

theorem benchmark_plausible (data : List UInt8) : Plausible (benchmark data) := by
  by_cases compressible : Compressible data
  · obtain ⟨size, used, ratio⟩ := benchmark_compressible compressible
    have most := length_le_shorter data
    obtain ⟨large, small⟩ := compressible
    have positive : (0 : ℚ) < shorter data := by
      exact_mod_cast (show 0 < shorter data by omega)
    have less : (benchmark data).compressedSize ≤ (benchmark data).originalSize := by
      change _ ≤ data.length
      omega
    constructor
    case neverLarger => exact less
    case atLeastOne =>
      rw [ratio, le_div_iff₀ positive, one_mul]
      exact_mod_cast (show shorter data ≤ data.length by omega)
    case atMost =>
      rw [ratio, div_le_iff₀ positive]
      exact_mod_cast most
    case compressed_iff =>
      refine iff_of_true used ?_
      have tenth : (10 : ℚ) * shorter data < 9 * data.length := by exact_mod_cast small
      rw [ratio, lt_div_iff₀ positive]
      linarith
    case saved => exact toNat_ofNat_sub less
  · rw [benchmark_incompressible compressible]
    constructor
    case neverLarger => exact Nat.le_refl _
    case atLeastOne => exact le_refl _
    case atMost => norm_num
    case compressed_iff =>
      refine iff_of_false (fun used => used rfl) ?_
      norm_num
    case saved => exact toNat_ofNat_sub (Nat.le_refl _)

theorem benchmark_exact (data : List UInt8) :
    (benchmark data).compressedSize =
        (if Compressible data then shorter data else data.length) ∧
      Plausible (benchmark data) :=
  ⟨length_compressAuto data, benchmark_plausible data⟩

end AdsRealtime.PayloadCompressor
