import AdsRealtime.Compression.DictionaryReading
import AdsRealtime.Payload.CompressedPayload

set_option autoImplicit false

namespace AdsRealtime

open Looping PayloadCompressor
open DictionaryCompressor (cutOff decompressReading turnReading)

theorem decompressWith_returns_iff (outside : List UInt8 → Int → UInt8) (data : List UInt8)
    (method : UInt8) :
    (∃ result, decompressWith (decompressReading outside) data method = .returned result) ↔
      ¬ (method = Method.dictionary.code ∧ cutOff data = true) := by
  unfold decompressWith
  split_ifs with rle dictionary
  · simp [rle, Method.code]
  · rcases DictionaryCompressor.decompressReading_cases outside data with
      ⟨cut, running⟩ | ⟨whole, result, returned⟩
    · simp [dictionary, cut, running]
    · simp [dictionary, whole, returned]
  · simp [dictionary]

def dictionaryPayload (data : List UInt8) : Option (List UInt8) :=
  if (BinaryPayloadHeader.ofBytes data).type = PayloadType.compressed.code ∧
      data[sizeofBinaryPayloadHeader]? = some Method.dictionary.code then
    some (data.drop (sizeofBinaryPayloadHeader + 1))
  else
    none

theorem decompressPayloadWith_returns_iff (outside : List UInt8 → Int → UInt8)
    (data : List UInt8) :
    (∃ result, decompressPayloadWith (decompressReading outside) data = .returned result) ↔
      ∀ payload ∈ dictionaryPayload data, cutOff payload = false := by
  unfold decompressPayloadWith dictionaryPayload
  by_cases short : data.length < sizeofBinaryPayloadHeader + 1
  · have missing : data[sizeofBinaryPayloadHeader]? = none :=
      List.getElem?_eq_none (by omega)
    simp only [dif_pos short, missing]
    simp
  · have present : sizeofBinaryPayloadHeader < data.length := by omega
    rw [dif_neg short, List.getElem?_eq_getElem present]
    by_cases plain : (BinaryPayloadHeader.ofBytes data).type ≠ PayloadType.compressed.code
    · simp only [if_pos plain, plain, false_and, if_false]
      simp
    · have returns := decompressWith_returns_iff outside
        (data.drop (sizeofBinaryPayloadHeader + 1)) data[sizeofBinaryPayloadHeader]
      rw [if_neg plain]
      refine (Outcome.map_returns_iff _ _).trans (returns.trans ?_)
      simp only [not_not.mp plain, true_and, Option.some.injEq]
      split_ifs with method
      · simp only [method, true_and, Option.mem_some_iff, forall_eq', Bool.not_eq_true]
      · simp only [method, false_and, not_false_eq_true, Option.not_mem_none, IsEmpty.forall_iff,
          implies_true]

theorem decompress_terminates_iff (outside : List UInt8 → Int → UInt8) (data : List UInt8) :
    ((∃ fuel result, run (turnReading outside) fuel (data, []) = .returned result) ↔
        cutOff data = false) ∧
      (∀ method,
        (∃ result, decompressWith (decompressReading outside) data method = .returned result) ↔
          ¬ (method = Method.dictionary.code ∧ cutOff data = true)) ∧
      ((∃ result, decompressPayloadWith (decompressReading outside) data = .returned result) ↔
        ∀ payload ∈ dictionaryPayload data, cutOff payload = false) :=
  ⟨DictionaryCompressor.returns_iff outside data,
    fun method => decompressWith_returns_iff outside data method,
    decompressPayloadWith_returns_iff outside data⟩

theorem decompress_stalls :
    ¬ ∀ outside data, ∃ fuel result, run (turnReading outside) fuel (data, []) =
      .returned result := by
  intro terminates
  have whole := (DictionaryCompressor.returns_iff (fun _ _ => 0) [0x80]).mp
    (terminates (fun _ _ => 0) [0x80])
  revert whole
  decide +kernel

end AdsRealtime
