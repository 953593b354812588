import AdsRealtime.Payload.RoundTrip

set_option autoImplicit false

namespace AdsRealtime

open PayloadCompressor

/-- What a receiver may rely on in the bytes that replace the uncompressed frame. -/
structure SelfConsistent (uncompressed out : List UInt8) : Prop where
  neverLarger : out.length ≤ uncompressed.length
  smaller_iff : out.length < uncompressed.length ↔
    (BinaryPayloadHeader.ofBytes out).type = PayloadType.compressed.code
  otherwise : (BinaryPayloadHeader.ofBytes out).type ≠ PayloadType.compressed.code →
    out = uncompressed
  totalSize : (BinaryPayloadHeader.ofBytes out).totalSize.toNat = out.length % 2 ^ 32
  version : (BinaryPayloadHeader.ofBytes out).version =
    (BinaryPayloadHeader.ofBytes uncompressed).version
  variableCount : (BinaryPayloadHeader.ofBytes out).variableCount =
    (BinaryPayloadHeader.ofBytes uncompressed).variableCount
  timestampUs : (BinaryPayloadHeader.ofBytes out).timestampUs =
    (BinaryPayloadHeader.ofBytes uncompressed).timestampUs
  sequenceNumber : (BinaryPayloadHeader.ofBytes out).sequenceNumber =
    (BinaryPayloadHeader.ofBytes uncompressed).sequenceNumber

-- The header and the method byte are paid for by a tenth of ten bytes or more.
theorem length_compressedFrame_lt (header : BinaryPayloadHeader) {payload : List UInt8}
    {compressedData : List UInt8} (method : Method) (large : 10 ≤ payload.length)
    (small : worthwhile compressedData.length payload.length) :
    (compressedFrame (header.bytes ++ payload) compressedData method).length <
      (header.bytes ++ payload).length := by
  simp only [worthwhile, decide_eq_true_eq] at small
  simp only [compressedFrame, List.length_append, BinaryPayloadHeader.length_bytes,
    List.length_cons]
  omega

theorem compressedFrame_selfConsistent {header : BinaryPayloadHeader} {payload : List UInt8}
    {compressedData : List UInt8} (method : Method) (large : 10 ≤ payload.length)
    (small : worthwhile compressedData.length payload.length) :
    SelfConsistent (header.bytes ++ payload)
      (compressedFrame (header.bytes ++ payload) compressedData method) := by
  have shorter := length_compressedFrame_lt header method large small
  have read : BinaryPayloadHeader.ofBytes
      (compressedFrame (header.bytes ++ payload) compressedData method) =
      { header with
        type := PayloadType.compressed.code
        totalSize := .ofNat (sizeofBinaryPayloadHeader + 1 + compressedData.length) } := by
    simp only [compressedFrame, BinaryPayloadHeader.ofBytes_append]
  have size : (compressedFrame (header.bytes ++ payload) compressedData method).length =
      sizeofBinaryPayloadHeader + 1 + compressedData.length := by
    simp only [compressedFrame, List.length_append, BinaryPayloadHeader.length_bytes,
      List.length_cons, sizeofBinaryPayloadHeader_eq]
    omega
  constructor
  case neverLarger => exact Nat.le_of_lt shorter
  case smaller_iff => simp only [read, shorter]
  case otherwise => simp [read]
  case totalSize => rw [read, size, UInt32.toNat_ofNat']
  all_goals rw [read, BinaryPayloadHeader.ofBytes_append]

theorem uncompressed_selfConsistent {header : BinaryPayloadHeader} {payload : List UInt8}
    (plain : header.type ≠ PayloadType.compressed.code)
    (total : header.totalSize = .ofNat (20 + payload.length)) :
    SelfConsistent (header.bytes ++ payload) (header.bytes ++ payload) := by
  have read := BinaryPayloadHeader.ofBytes_append header payload
  constructor
  case neverLarger => exact Nat.le_refl _
  case smaller_iff => simp [read, plain]
  case otherwise => exact fun _ => rfl
  case totalSize =>
    rw [read, total, UInt32.toNat_ofNat', List.length_append, BinaryPayloadHeader.length_bytes]
  all_goals rfl

theorem emitted_selfConsistent (enabled : Bool) {threshold : Nat} (large : 30 ≤ threshold)
    {header : BinaryPayloadHeader} {payload : List UInt8}
    (plain : header.type ≠ PayloadType.compressed.code)
    (total : header.totalSize = .ofNat (20 + payload.length)) :
    SelfConsistent (header.bytes ++ payload)
      (emitted enabled threshold (header.bytes ++ payload)) := by
  unfold emitted
  split
  next compresses =>
    obtain ⟨on, reached, used⟩ := compresses
    have small := compressAuto_worthwhile used
    rw [List.length_append, BinaryPayloadHeader.length_bytes] at reached
    rw [payloadOf_append] at small ⊢
    exact compressedFrame_selfConsistent _ (by omega) small
  next => exact uncompressed_selfConsistent plain total

theorem totalSize_singleHeader (builder : BinaryPayloadBuilder) (clock : Nat → UInt64)
    (var : Variable) :
    (singleHeader builder clock var).totalSize =
      .ofNat (20 + (variableRecord (clock 0) var).length) := by
  rw [length_variableRecord, singleHeader]

theorem createCompressed_selfConsistent (builder : CompressedPayloadBuilder)
    (clock : Nat → UInt64) :
    (∀ name type data, SelfConsistent
      (builder.toBinaryPayloadBuilder.createSingle clock name type data).1
      (builder.createSingleCompressed clock name type data).1) ∧
    ∀ vars, SelfConsistent
      (builder.toBinaryPayloadBuilder.createBatch clock vars).1
      (builder.createBatchCompressed clock vars).1 := by
  constructor
  · intro name type data
    have bytes := createSingle_bytes builder.toBinaryPayloadBuilder clock ⟨name, type, data⟩
    rw [createSingleCompressed_emitted, bytes]
    exact emitted_selfConsistent _ (by decide) (by simp [singleHeader, PayloadType.code])
      (totalSize_singleHeader _ _ _)
  · intro vars
    rw [createBatchCompressed_emitted, createBatch_bytes]
    exact emitted_selfConsistent _ (by decide) (by simp [batchHeader, PayloadType.code])
      (totalSize_batchHeader _ _ _)

end AdsRealtime
