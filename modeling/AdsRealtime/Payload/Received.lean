import AdsRealtime.Compression.DictionaryStream
import AdsRealtime.Payload.RoundTrip

set_option autoImplicit false

namespace AdsRealtime

open Looping PayloadCompressor

def IsCompressed (data : List UInt8) : Prop :=
  sizeofBinaryPayloadHeader + 1 ≤ data.length ∧
    (BinaryPayloadHeader.ofBytes data).type = PayloadType.compressed.code

instance (data : List UInt8) : Decidable (IsCompressed data) :=
  inferInstanceAs (Decidable (_ ∧ _))

theorem decompressPayload_other {data : List UInt8} (other : ¬ IsCompressed data) :
    decompressPayload data = .returned data := by
  unfold decompressPayload decompressPayloadWith
  split
  · rfl
  · rename_i long
    refine if_pos fun marked => other ⟨?_, marked⟩
    omega

theorem decompressPayload_compressed {data : List UInt8} (compressed : IsCompressed data) :
    ∃ method, data[sizeofBinaryPayloadHeader]? = some method ∧
      decompressPayload data =
        (PayloadCompressor.decompress (data.drop (sizeofBinaryPayloadHeader + 1)) method).map
          fun payload =>
            (restoredHeader (BinaryPayloadHeader.ofBytes data) payload.length).bytes ++
              payload := by
  obtain ⟨long, marked⟩ := compressed
  have inside : sizeofBinaryPayloadHeader < data.length := long
  refine ⟨data[sizeofBinaryPayloadHeader], List.getElem?_eq_getElem inside, ?_⟩
  unfold decompressPayload decompressPayloadWith
  rw [dif_neg (Nat.not_lt.mpr long)]
  simp only [marked, ne_eq, not_true_eq_false, if_false]
  rfl

theorem length_decompress_le {data payload : List UInt8} {method : UInt8}
    (returned : PayloadCompressor.decompress data method = .returned payload) :
    payload.length ≤ 85 * data.length := by
  unfold PayloadCompressor.decompress decompressWith at returned
  split_ifs at returned
  · obtain rfl := Outcome.returned.inj returned
    exact SimpleCompressor.length_decompress_le data
  · have bound := DictionaryCompressor.length_decompress_le returned
    omega
  · obtain rfl := Outcome.returned.inj returned
    omega

/-- What decompress_payload makes of a message, whoever wrote it. -/
structure Received (data out : List UInt8) : Prop where
  bounded : out.length ≤ 85 * data.length
  settled : decompressPayload out = .returned out
  untouched : ¬ IsCompressed data → out = data
  restored : IsCompressed data → ∃ payload,
    out = (restoredHeader (BinaryPayloadHeader.ofBytes data) payload.length).bytes ++ payload ∧
      BinaryPayloadHeader.ofBytes out =
        restoredHeader (BinaryPayloadHeader.ofBytes data) payload.length ∧
      (BinaryPayloadHeader.ofBytes out).totalSize.toNat = out.length % 2 ^ 32

theorem decompressPayload_received (data out : List UInt8)
    (returned : decompressPayload data = .returned out) : Received data out := by
  by_cases compressed : IsCompressed data
  · obtain ⟨method, _, decompressed⟩ := decompressPayload_compressed compressed
    rw [decompressed] at returned
    obtain ⟨payload, recovered, rfl⟩ := (Outcome.map_eq_returned_iff _ _ _).mp returned
    have bound := length_decompress_le recovered
    have long := compressed.1
    have header := BinaryPayloadHeader.ofBytes_append
      (restoredHeader (BinaryPayloadHeader.ofBytes data) payload.length) payload
    rw [List.length_drop] at bound
    rw [sizeofBinaryPayloadHeader_eq] at long bound
    refine ⟨?_, ?_, fun other => absurd compressed other, fun _ => ⟨payload, rfl, header, ?_⟩⟩
    · rw [List.length_append, BinaryPayloadHeader.length_bytes]
      omega
    · apply decompressPayload_plain
      rw [header]
      simp [restoredHeader, PayloadType.code]
    · rw [header, restoredHeader, UInt32.toNat_ofNat', List.length_append,
        BinaryPayloadHeader.length_bytes, sizeofBinaryPayloadHeader_eq]
  · rw [decompressPayload_other compressed] at returned
    obtain rfl := Outcome.returned.inj returned
    exact ⟨by omega, decompressPayload_other compressed, fun _ => rfl,
      fun marked => absurd marked compressed⟩

def zerosFrame : List UInt8 :=
  (BinaryPayloadHeader.mk 1 2 1 24 0 0).bytes ++ [1, 0xFF, 0xFF, 0x00]

theorem decompressPayload_received_zeros :
    Received zerosFrame ((BinaryPayloadHeader.mk 1 1 1 275 0 0).bytes ++ List.replicate 255 0) :=
  decompressPayload_received _ _ (by decide +kernel)

end AdsRealtime
