import AdsRealtime.Compression.DictionaryMatch
import Mathlib.Data.Nat.Bitwise

set_option autoImplicit false

namespace AdsRealtime.DictionaryCompressor

open Looping

def visited (data : List UInt8) (pos : Nat) : List Nat :=
  if pos < data.length then
    let found := findMatch data pos
    if minMatch ≤ found.2.toNat then
      pos :: visited data (pos + found.2.toNat)
    else
      pos :: visited data (pos + 1)
  else
    []
termination_by data.length - pos
decreasing_by
  · have advance : 3 ≤ (findMatch data pos).2.toNat := by assumption
    omega
  · omega

/-- No match the encoder takes starts a full window back: its distance fits into 12 bits. -/
def NearMatches (data : List UInt8) : Prop :=
  ∀ pos ∈ visited data 0, (findMatch data pos).1.toNat < windowSize

instance (data : List UInt8) : Decidable (NearMatches data) :=
  inferInstanceAs (Decidable (∀ pos ∈ visited data 0, (findMatch data pos).1.toNat < windowSize))

def mask (data : List UInt8) : List UInt8 :=
  data.map (· &&& 0x7F)

theorem and_low (byte : UInt8) : (byte &&& 0x7F).toNat = byte.toNat % 128 := by
  rw [UInt8.toNat_and]
  exact Nat.and_two_pow_sub_one_eq_mod byte.toNat 7

theorem mask_literal (byte : UInt8) : byte &&& 0x7F &&& 0x80 = 0 := by
  rw [UInt8.and_assoc]
  exact UInt8.and_zero

theorem mask_byte_eq (byte : UInt8) : byte &&& 0x7F = byte ↔ byte < 0x80 := by
  rw [← UInt8.toNat_inj, and_low, UInt8.lt_iff_toNat_lt]
  have := byte.toNat_lt
  change byte.toNat % 128 = byte.toNat ↔ byte.toNat < 128
  omega

theorem mask_eq_self (data : List UInt8) : mask data = data ↔ ∀ byte ∈ data, byte < 0x80 := by
  induction data with
  | nil => simp [mask]
  | cons byte data ih =>
    simp only [mask] at ih
    simp only [mask, List.map_cons, List.cons.injEq, mask_byte_eq, ih, List.forall_mem_cons]

theorem mask_take_succ {data : List UInt8} {pos : Nat} (inside : pos < data.length) :
    mask (data.take (pos + 1)) = mask (data.take pos) ++ [data[pos] &&& 0x7F] := by
  rw [mask, List.take_succ_eq_append_getElem inside, List.map_append]
  rfl

theorem high_nibble : ∀ high < 16, UInt8.ofNat (0x80 ||| high) &&& 0x80 ≠ 0 ∧
    (UInt8.ofNat (0x80 ||| high) &&& 0x0F).toNat = high := by
  decide

theorem low_nibble : ∀ low < 16, (UInt8.ofNat (low &&& 0x0F) &&& 0x0F).toNat = low := by
  decide

-- The decoder reads the distance back modulo 2^12.
theorem matchOffset_packed (offset : Nat) :
    matchOffset (UInt8.ofNat (0x80 ||| ((offset >>> 8) &&& 0x0F))) (UInt8.ofNat (offset &&& 0xFF)) =
      offset % windowSize := by
  have high : (offset >>> 8) &&& 0x0F = offset / 256 % 16 := by
    rw [Nat.shiftRight_eq_div_pow]
    exact Nat.and_two_pow_sub_one_eq_mod _ 4
  have low : offset &&& 0xFF = offset % 256 := Nat.and_two_pow_sub_one_eq_mod offset 8
  have byte : (UInt8.ofNat (offset % 256)).toNat = offset % 256 := by
    rw [UInt8.toNat_ofNat']
    omega
  rw [matchOffset, high, low, (high_nibble _ (Nat.mod_lt _ (by omega))).2, byte,
    ← Nat.shiftLeft_add_eq_or_of_lt (Nat.mod_lt _ (by omega)), Nat.shiftLeft_eq]
  simp only [windowSize]
  omega

theorem matchLength_packed {length : Nat} (long : minMatch ≤ length) (short : length ≤ maxMatch) :
    matchLength (UInt8.ofNat ((length - minMatch) &&& 0x0F)) = length := by
  simp only [minMatch, maxMatch] at long short
  rw [matchLength, low_nibble (length - minMatch) (by simp only [minMatch]; omega)]
  simp only [minMatch]
  omega

theorem copyMatch_mask {data : List UInt8} {pos offset : Nat} (back : 1 ≤ offset)
    (inside : offset ≤ pos) (length : Nat) (fits : pos + length ≤ data.length)
    (same : ∀ k, k < length → data[pos - offset + k]? = data[pos + k]?) :
    copyMatch length (pos - offset) (mask (data.take pos)) =
      some (mask (data.take (pos + length))) := by
  induction length generalizing pos with
  | zero => rfl
  | succ length ih =>
    have here : pos < data.length := by omega
    have source : (mask (data.take pos))[pos - offset]? = some (data[pos] &&& 0x7F) := by
      have first := same 0 (by omega)
      rw [Nat.add_zero, Nat.add_zero, List.getElem?_eq_getElem here] at first
      rw [mask, List.getElem?_map, List.getElem?_take_of_lt (by omega), first]
      rfl
    have onward : pos - offset + 1 = pos + 1 - offset := by omega
    rw [copyMatch, source]
    simp only
    have sameOn : ∀ k, k < length → data[pos + 1 - offset + k]? = data[pos + 1 + k]? := by
      intro k less
      have later := same (k + 1) (by omega)
      rwa [← Nat.add_assoc, Nat.add_right_comm, onward, ← Nat.add_assoc,
        Nat.add_right_comm] at later
    rw [← mask_take_succ here, onward, ih (by omega) (by omega) sameOn]
    congr 3
    omega

theorem length_mask_take {data : List UInt8} {pos : Nat} (inside : pos ≤ data.length) :
    (mask (data.take pos)).length = pos := by
  simp [mask, inside]

theorem turn_matchToken {data : List UInt8} {pos : Nat} {offset : UInt16} {length : UInt8}
    (found : IsMatch data pos offset.toNat length.toNat) (rest : List UInt8) :
    turn (matchToken offset length ++ rest, mask (data.take pos)) =
      if offset.toNat < windowSize then
        .again (rest, mask (data.take (pos + length.toNat)))
      else
        .fault := by
  obtain ⟨back, inside, window, long, short, fits, same⟩ := found
  have high : (offset.toNat >>> 8) &&& 0x0F < 16 :=
    Nat.lt_of_le_of_lt Nat.and_le_right (by omega)
  have marked := (high_nibble _ high).1
  change turn (_ :: _ :: _ :: rest, _) = _
  rw [turn_match marked, matchOffset_packed, matchLength_packed long short, replay,
    length_mask_take (by omega)]
  by_cases near : offset.toNat < windowSize
  · have exact : offset.toNat % windowSize = offset.toNat := Nat.mod_eq_of_lt near
    rw [if_pos near, exact, if_neg (by omega), copyMatch_mask back inside _ fits same]
  · -- The twelve bits of a distance of 4096 are zero, and the copy starts at the end of the output.
    have wrapped : offset.toNat % windowSize = 0 := by
      simp only [windowSize] at window near ⊢
      omega
    have beyond : copyMatch length.toNat pos (mask (data.take pos)) = none := by
      obtain ⟨more, longer⟩ : ∃ more, length.toNat = more + 1 :=
        ⟨length.toNat - 1, by simp only [minMatch] at long; omega⟩
      have missing : (mask (data.take pos))[pos]? = none := by
        rw [List.getElem?_eq_none]
        rw [length_mask_take (by omega)]
      rw [longer, copyMatch, missing]
    rw [if_neg near, wrapped, if_neg (by omega), Nat.sub_zero, beyond]

theorem run_compressFrom (data : List UInt8) (pos : Nat) (fuel : Nat)
    (enough : (compressFrom data pos).length < fuel) :
    run turn fuel (compressFrom data pos, mask (data.take pos)) =
      if ∀ p ∈ visited data pos, (findMatch data p).1.toNat < windowSize then
        .returned (mask data)
      else
        .fault := by
  induction pos using compressFrom.induct data generalizing fuel with
  | case1 pos inside found long ih =>
    simp only [found] at long ih
    have token := turn_matchToken (findMatch_isMatch long)
      (compressFrom data (pos + (findMatch data pos).2.toNat))
    rw [compressFrom, dif_pos inside, if_pos long] at enough ⊢
    rw [visited, if_pos inside, if_pos long]
    cases fuel with
    | zero => omega
    | succ fuel =>
      simp only [List.length_append, matchToken, List.length_cons] at enough
      by_cases near : (findMatch data pos).1.toNat < windowSize
      · rw [if_pos near] at token
        rw [run_again token, ih fuel (by omega)]
        simp only [List.forall_mem_cons, near, true_and]
      · rw [if_neg near] at token
        rw [run_fault token]
        simp only [List.forall_mem_cons, near, false_and, if_false]
  | case2 pos inside found short ih =>
    have token := turn_literal (mask_literal data[pos]) (compressFrom data (pos + 1))
      (mask (data.take pos))
    rw [← mask_take_succ inside] at token
    rw [compressFrom, dif_pos inside, if_neg short] at enough ⊢
    rw [visited, if_pos inside, if_neg short]
    have here : (findMatch data pos).1.toNat < windowSize := by
      rcases bestMatch_cases data pos with none_ | ⟨i, first, before, long, value⟩
      · rw [(findMatch_toNat data pos).1, none_]
        simp only [windowSize]
        omega
      · rw [(findMatch_toNat data pos).2, value] at short
        exact absurd long short
    cases fuel with
    | zero => omega
    | succ fuel =>
      simp only [List.length_cons] at enough
      rw [run_again token, ih fuel (by omega)]
      simp only [List.forall_mem_cons, here, true_and]
  | case3 pos outside =>
    rw [compressFrom, dif_neg outside] at enough ⊢
    rw [visited, if_neg outside, List.take_of_length_le (by omega)]
    cases fuel with
    | zero => omega
    | succ fuel =>
      simp [run, turn]

theorem decompress_compress (data : List UInt8) :
    decompress (compress data) = if NearMatches data then .returned (mask data) else .fault := by
  have h := run_compressFrom data 0 ((compress data).length + 1) (Nat.lt_succ_self _)
  rw [List.take_zero] at h
  exact h

theorem dictionaryCompressor_lossless_iff (data : List UInt8) :
    decompress (compress data) = .returned data ↔
      (∀ byte ∈ data, byte < 0x80) ∧ NearMatches data := by
  rw [decompress_compress]
  by_cases near : NearMatches data
  · simp [near, mask_eq_self]
  · simp [near]

theorem dictionaryCompressor_loses_high_bit :
    decompress (compress [0x80]) ≠ .returned [0x80] := by
  decide +kernel

end AdsRealtime.DictionaryCompressor
