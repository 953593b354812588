import AdsRealtime.Compression.SimpleCompressor
import Mathlib.Data.List.Induction

set_option autoImplicit false

namespace AdsRealtime.SimpleCompressor

theorem decompress_escaped (rest : List UInt8) :
    decompress (0xFF :: 0x00 :: rest) = 0xFF :: decompress rest := by
  rw [decompress.eq_def]
  simp

theorem decompress_run {count : UInt8} (nonzero : count ≠ 0) (value : UInt8) (rest : List UInt8) :
    decompress (0xFF :: count :: value :: rest) =
      List.replicate count.toNat value ++ decompress rest := by
  rw [decompress.eq_def]
  simp [nonzero]

theorem decompress_literal {byte : UInt8} (plain : byte ≠ 0xFF) (rest : List UInt8) :
    decompress (byte :: rest) = byte :: decompress rest := by
  rw [decompress.eq_def]
  simp [plain]

-- A marker that is cut off is skipped, and what stands behind it read on its own.
theorem decompress_dangling {next : UInt8} (nonzero : next ≠ 0) :
    decompress [0xFF, next] = decompress [next] := by
  rw [decompress.eq_def]
  simp [nonzero]

theorem decompress_marker : decompress [0xFF] = [] := by
  simp [decompress]

theorem length_decompress_le (data : List UInt8) :
    (decompress data).length ≤ 85 * data.length := by
  induction data using decompress.induct with
  | case1 => simp
  | case2 rest escaped ih =>
    obtain ⟨behind, rfl⟩ := List.head?_eq_some_iff.mp escaped
    rw [List.tail_cons] at ih
    rw [decompress_escaped]
    simp only [List.length_cons]
    omega
  | case3 count value rest nonzero ih =>
    have few := count.toNat_lt
    have other : count ≠ 0 := by simpa using nonzero
    rw [decompress_run other, List.length_append, List.length_replicate]
    simp only [List.length_cons]
    omega
  | case4 next nonzero ih =>
    have other : next ≠ 0 := by simpa using nonzero
    rw [decompress_dangling other]
    simp only [List.length_cons] at ih ⊢
    omega
  | case5 => simp [decompress_marker]
  | case6 byte rest plain ih =>
    rw [decompress_literal plain]
    simp only [List.length_cons]
    omega

theorem decompress_chunks (chunks : List (List UInt8)) (rest : List UInt8) :
    decompress (chunks.flatMap compress ++ rest) = chunks.flatten ++ decompress rest := by
  induction chunks with
  | nil => rfl
  | cons chunk chunks ih =>
    rw [List.flatMap_cons, List.append_assoc, decompress_compress_append, ih, List.flatten_cons,
      List.append_assoc]

theorem length_le_compress (data : List UInt8) : data.length ≤ 85 * (compress data).length := by
  have decoded := decompress_compress_append data []
  have expands := length_decompress_le (compress data)
  simp only [decompress_nil, List.append_nil] at decoded
  rwa [decoded] at expands

end AdsRealtime.SimpleCompressor
