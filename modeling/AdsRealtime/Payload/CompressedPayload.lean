import AdsRealtime.Compression.PayloadCompressor
import AdsRealtime.Payload.WireFormat

set_option autoImplicit false

namespace AdsRealtime

open Looping PayloadCompressor

structure CompressedPayloadBuilder extends BinaryPayloadBuilder where
  enableCompression : Bool
  deriving DecidableEq, Repr

def compressedFrame (uncompressed compressedData : List UInt8) (method : Method) : List UInt8 :=
  let header := BinaryPayloadHeader.ofBytes uncompressed
  let header := { header with
    type := PayloadType.compressed.code
    totalSize := .ofNat (sizeofBinaryPayloadHeader + 1 + compressedData.length) }
  header.bytes ++ method.code :: compressedData

namespace CompressedPayloadBuilder

def createSingleCompressed (builder : CompressedPayloadBuilder) (clock : Nat → UInt64)
    (name : List UInt8) (type : AdsDataType) (data : List UInt8) :
    List UInt8 × CompressedPayloadBuilder :=
  let (uncompressed, base) := builder.toBinaryPayloadBuilder.createSingle clock name type data
  let builder := { builder with toBinaryPayloadBuilder := base }
  if !builder.enableCompression ∨ uncompressed.length < 128 then
    (uncompressed, builder)
  else
    let payload := uncompressed.drop sizeofBinaryPayloadHeader
    let (compressedData, method) := compressAuto payload
    if method = .none then
      (uncompressed, builder)
    else
      (compressedFrame uncompressed compressedData method, builder)

def createBatchCompressed (builder : CompressedPayloadBuilder) (clock : Nat → UInt64)
    (vars : List Variable) : List UInt8 × CompressedPayloadBuilder :=
  let (uncompressed, base) := builder.toBinaryPayloadBuilder.createBatch clock vars
  let builder := { builder with toBinaryPayloadBuilder := base }
  if !builder.enableCompression ∨ uncompressed.length < 256 then
    (uncompressed, builder)
  else
    let payload := uncompressed.drop sizeofBinaryPayloadHeader
    let (compressedData, method) := compressAuto payload
    if method = .none ∨ ¬ worthwhile compressedData.length payload.length then
      (uncompressed, builder)
    else
      (compressedFrame uncompressed compressedData method, builder)

def setCompressionEnabled (builder : CompressedPayloadBuilder) (enabled : Bool) :
    CompressedPayloadBuilder :=
  { builder with enableCompression := enabled }

end CompressedPayloadBuilder

def decompressPayloadWith (dictionary : List UInt8 → Outcome (List UInt8)) (data : List UInt8) :
    Outcome (List UInt8) :=
  if short : data.length < sizeofBinaryPayloadHeader + 1 then
    .returned data
  else
    let header := BinaryPayloadHeader.ofBytes data
    if header.type ≠ PayloadType.compressed.code then
      .returned data
    else
      let method := data.get ⟨sizeofBinaryPayloadHeader, by omega⟩
      let compressedData := data.drop (sizeofBinaryPayloadHeader + 1)
      (decompressWith dictionary compressedData method).map fun decompressed =>
        let header := { header with
          type := PayloadType.batch.code
          totalSize := .ofNat (sizeofBinaryPayloadHeader + decompressed.length) }
        header.bytes ++ decompressed

def decompressPayload (data : List UInt8) : Outcome (List UInt8) :=
  decompressPayloadWith DictionaryCompressor.decompress data

def restoredHeader (header : BinaryPayloadHeader) (size : Nat) : BinaryPayloadHeader :=
  { header with
    type := PayloadType.batch.code
    totalSize := .ofNat (sizeofBinaryPayloadHeader + size) }

theorem decompressPayload_plain (data : List UInt8)
    (plain : (BinaryPayloadHeader.ofBytes data).type ≠ PayloadType.compressed.code) :
    decompressPayload data = .returned data := by
  unfold decompressPayload decompressPayloadWith
  split
  · rfl
  · exact if_pos plain

theorem decompressPayload_compressedFrame (header : BinaryPayloadHeader)
    (payload compressedData : List UInt8) (method : Method) :
    decompressPayload (compressedFrame (header.bytes ++ payload) compressedData method) =
      (PayloadCompressor.decompress compressedData method.code).map fun decompressed =>
        (restoredHeader header decompressed.length).bytes ++ decompressed := by
  simp only [compressedFrame, BinaryPayloadHeader.ofBytes_append]
  generalize total : UInt32.ofNat (sizeofBinaryPayloadHeader + 1 + compressedData.length) = size
  let marked : BinaryPayloadHeader := { header with
    type := PayloadType.compressed.code
    totalSize := size }
  change decompressPayload (marked.bytes ++ method.code :: compressedData) = _
  have long : ¬ (marked.bytes ++ method.code :: compressedData).length <
      sizeofBinaryPayloadHeader + 1 := by
    simp only [List.length_append, BinaryPayloadHeader.length_bytes, List.length_cons,
      sizeofBinaryPayloadHeader_eq]
    omega
  have behind : (marked.bytes ++ method.code :: compressedData).drop
      (sizeofBinaryPayloadHeader + 1) = compressedData := by
    simp [List.drop_append]
  have methodByte : (marked.bytes ++ method.code :: compressedData).get
      ⟨sizeofBinaryPayloadHeader, by omega⟩ = method.code := by
    simp
  rw [decompressPayload, decompressPayloadWith, dif_neg long]
  simp only [methodByte, behind, BinaryPayloadHeader.ofBytes_append]
  rw [if_neg (by simp [marked])]
  rfl

end AdsRealtime
