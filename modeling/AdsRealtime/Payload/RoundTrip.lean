import AdsRealtime.Payload.CompressedPayload

set_option autoImplicit false

namespace AdsRealtime

open Looping PayloadCompressor

abbrev payloadOf (frame : List UInt8) : List UInt8 :=
  frame.drop sizeofBinaryPayloadHeader

theorem payloadOf_append (header : BinaryPayloadHeader) (payload : List UInt8) :
    payloadOf (header.bytes ++ payload) = payload := by
  simp [payloadOf]

/--
The builder replaces the frame: it is enabled, the frame has the builder's minimum size, and
the bytes behind the header are worth compressing.
-/
def Compresses (enabled : Bool) (threshold : Nat) (uncompressed : List UInt8) : Prop :=
  enabled = true ∧ threshold ≤ uncompressed.length ∧
    (compressAuto (payloadOf uncompressed)).2 ≠ .none

instance (enabled : Bool) (threshold : Nat) (uncompressed : List UInt8) :
    Decidable (Compresses enabled threshold uncompressed) :=
  inferInstanceAs (Decidable (_ ∧ _ ∧ _))

def emitted (enabled : Bool) (threshold : Nat) (uncompressed : List UInt8) : List UInt8 :=
  if Compresses enabled threshold uncompressed then
    compressedFrame uncompressed (compressAuto (payloadOf uncompressed)).1
      (compressAuto (payloadOf uncompressed)).2
  else
    uncompressed

theorem skips_iff (enabled : Bool) (threshold : Nat) (frame : List UInt8) :
    ((!enabled) = true ∨ frame.length < threshold) ↔
      ¬ (enabled = true ∧ threshold ≤ frame.length) := by
  cases enabled
  · simp
  · simp

theorem createSingleCompressed_emitted (builder : CompressedPayloadBuilder)
    (clock : Nat → UInt64) (name : List UInt8) (type : AdsDataType) (data : List UInt8) :
    (builder.createSingleCompressed clock name type data).1 =
      emitted builder.enableCompression 128
        (builder.toBinaryPayloadBuilder.createSingle clock name type data).1 := by
  unfold CompressedPayloadBuilder.createSingleCompressed emitted
  generalize builder.toBinaryPayloadBuilder.createSingle clock name type data = single
  by_cases compresses : Compresses builder.enableCompression 128 single.1
  · obtain ⟨enabled, large, used⟩ := id compresses
    rw [if_pos compresses]
    simp only [skips_iff, enabled, large, and_self, not_true, if_false]
    rw [if_neg (show ¬ (compressAuto (payloadOf single.1)).2 = .none from used)]
  · rw [if_neg compresses]
    simp only [skips_iff]
    split_ifs with large raw
    · rfl
    · exact absurd ⟨large.1, large.2, raw⟩ compresses
    · rfl

-- The second size check of the batch builder repeats the one compress_auto has made.
theorem createBatchCompressed_emitted (builder : CompressedPayloadBuilder)
    (clock : Nat → UInt64) (vars : List Variable) :
    (builder.createBatchCompressed clock vars).1 =
      emitted builder.enableCompression 256
        (builder.toBinaryPayloadBuilder.createBatch clock vars).1 := by
  unfold CompressedPayloadBuilder.createBatchCompressed emitted
  generalize builder.toBinaryPayloadBuilder.createBatch clock vars = batch
  by_cases compresses : Compresses builder.enableCompression 256 batch.1
  · obtain ⟨enabled, large, used⟩ := id compresses
    have again := compressAuto_worthwhile used
    rw [if_pos compresses]
    simp only [skips_iff, enabled, large, and_self, not_true, if_false]
    rw [if_neg (show ¬ ((compressAuto (payloadOf batch.1)).2 = .none ∨
      ¬ worthwhile (compressAuto (payloadOf batch.1)).1.length (payloadOf batch.1).length = true)
      from fun either => either.elim used (fun small => small again))]
  · rw [if_neg compresses]
    simp only [skips_iff]
    split_ifs with large raw
    · rfl
    · exact absurd ⟨large.1, large.2, fun none_ => raw (Or.inl none_)⟩ compresses
    · rfl

def UsesDictionary (enabled : Bool) (threshold : Nat) (uncompressed : List UInt8) : Prop :=
  enabled = true ∧ threshold ≤ uncompressed.length ∧
    (compressAuto (payloadOf uncompressed)).2 = .dictionary

theorem decompressPayload_emitted (enabled : Bool) (threshold : Nat)
    (header : BinaryPayloadHeader) (payload : List UInt8)
    (plain : header.type ≠ PayloadType.compressed.code) :
    decompressPayload (emitted enabled threshold (header.bytes ++ payload)) =
      if Compresses enabled threshold (header.bytes ++ payload) then
        (if (compressAuto payload).2 = .dictionary then
          DictionaryCompressor.decompress (DictionaryCompressor.compress payload)
        else
          .returned payload).map fun decompressed =>
            (restoredHeader header decompressed.length).bytes ++ decompressed
      else
        .returned (header.bytes ++ payload) := by
  have behind : payloadOf (header.bytes ++ payload) = payload := payloadOf_append header payload
  unfold emitted
  by_cases compresses : Compresses enabled threshold (header.bytes ++ payload)
  · rw [if_pos compresses, if_pos compresses, behind, decompressPayload_compressedFrame,
      decompress_compressAuto]
  · rw [if_neg compresses, if_neg compresses]
    apply decompressPayload_plain
    rwa [BinaryPayloadHeader.ofBytes_append]

theorem frame_lossless_iff (enabled : Bool) (threshold : Nat) (header : BinaryPayloadHeader)
    (payload : List UInt8) (batch : header.type = PayloadType.batch.code)
    (total : header.totalSize = .ofNat (20 + payload.length)) :
    decompressPayload (emitted enabled threshold (header.bytes ++ payload)) =
        .returned (header.bytes ++ payload) ↔
      (UsesDictionary enabled threshold (header.bytes ++ payload) →
        (∀ byte ∈ payload, byte < 0x80) ∧ DictionaryCompressor.NearMatches payload) := by
  have behind : payloadOf (header.bytes ++ payload) = payload := payloadOf_append header payload
  have restored : restoredHeader header payload.length = header := by
    cases header
    simp_all [restoredHeader]
  rw [decompressPayload_emitted enabled threshold header payload (by rw [batch]; decide)]
  by_cases compresses : Compresses enabled threshold (header.bytes ++ payload)
  · rw [if_pos compresses]
    obtain ⟨on, large, used⟩ := compresses
    rw [behind] at used
    by_cases dictionary : (compressAuto payload).2 = .dictionary
    · have uses : UsesDictionary enabled threshold (header.bytes ++ payload) :=
        ⟨on, large, behind.symm ▸ dictionary⟩
      rw [if_pos dictionary, DictionaryCompressor.decompress_compress,
        ← DictionaryCompressor.mask_eq_self]
      by_cases near : DictionaryCompressor.NearMatches payload
      · simp only [near, if_true, Outcome.map, Outcome.returned.injEq, uses, and_true,
          true_implies]
        constructor
        · intro same
          exact (List.append_inj same (by simp)).2
        · intro kept
          rw [kept, restored]
      · simp [near, Outcome.map, uses]
    · rw [if_neg dictionary]
      simp only [Outcome.map, restored, true_iff]
      intro uses
      exact absurd (behind ▸ uses.2.2) dictionary
  · rw [if_neg compresses]
    simp only [true_iff]
    intro uses
    exact absurd ⟨uses.1, uses.2.1, by rw [uses.2.2]; simp⟩ compresses

theorem totalSize_batchHeader (builder : BinaryPayloadBuilder) (clock : Nat → UInt64)
    (vars : List Variable) :
    (batchHeader builder clock vars).totalSize =
      .ofNat (20 + (variableRecords clock 1 vars).length) := by
  rw [length_variableRecords]
  rfl

theorem createBatchCompressed_lossless_iff (builder : CompressedPayloadBuilder)
    (clock : Nat → UInt64) (vars : List Variable) :
    let uncompressed := (builder.toBinaryPayloadBuilder.createBatch clock vars).1
    decompressPayload (builder.createBatchCompressed clock vars).1 = .returned uncompressed ↔
      (UsesDictionary builder.enableCompression 256 uncompressed →
        (∀ byte ∈ payloadOf uncompressed, byte < 0x80) ∧
          DictionaryCompressor.NearMatches (payloadOf uncompressed)) := by
  intro uncompressed
  have bytes : uncompressed = _ := createBatch_bytes builder.toBinaryPayloadBuilder clock vars
  rw [createBatchCompressed_emitted]
  change decompressPayload (emitted builder.enableCompression 256 uncompressed) = _ ↔ _
  rw [bytes, payloadOf_append]
  exact frame_lossless_iff _ _ _ _ rfl (totalSize_batchHeader _ _ _)

-- 224 bytes from 0x80 to 0x8F in turn: no runs, and matches of 18 bytes after the first round.
def sawtooth : List UInt8 :=
  (List.range 224).map fun k => 0x80 + UInt8.ofNat (k % 16)

theorem createBatchCompressed_loses_high_bits :
    decompressPayload
        (CompressedPayloadBuilder.createBatchCompressed { BinaryPayloadBuilder.new with
          enableCompression := true } (fun _ => 0) [⟨[], .custom, sawtooth⟩]).1 ≠
      .returned
        (BinaryPayloadBuilder.new.createBatch (fun _ => 0) [⟨[], .custom, sawtooth⟩]).1 := by
  rw [createBatchCompressed_emitted, createBatch_bytes]
  intro lossless
  have low := (frame_lossless_iff true 256 _ _ rfl (totalSize_batchHeader _ _ _)).mp lossless
  have uses : UsesDictionary true 256
      ((batchHeader .new (fun _ => 0) [⟨[], .custom, sawtooth⟩]).bytes ++
        variableRecords (fun _ => 0) 1 [⟨[], .custom, sawtooth⟩]) := by
    unfold UsesDictionary
    decide +kernel
  have byte := (low uses).1 0x80 (by decide +kernel)
  exact absurd byte (by decide)

/-- The fields decompress_payload is expected to hand back, read from the two frames. -/
def KeepsHeader (uncompressed : List UInt8) (outcome : Outcome (List UInt8)) : Prop :=
  ∃ frame, outcome = .returned frame ∧
    let before := BinaryPayloadHeader.ofBytes uncompressed
    let after := BinaryPayloadHeader.ofBytes frame
    after.type = before.type ∧ after.version = before.version ∧
      after.variableCount = before.variableCount ∧ after.timestampUs = before.timestampUs ∧
      after.sequenceNumber = before.sequenceNumber

theorem keepsHeader_emitted (enabled : Bool) (threshold : Nat) (header : BinaryPayloadHeader)
    (payload : List UInt8) (plain : header.type ≠ PayloadType.compressed.code) :
    KeepsHeader (header.bytes ++ payload)
        (decompressPayload (emitted enabled threshold (header.bytes ++ payload))) ↔
      (Compresses enabled threshold (header.bytes ++ payload) →
        header.type = PayloadType.batch.code ∧
          ((compressAuto payload).2 = .dictionary → DictionaryCompressor.NearMatches payload)) := by
  have restored (data : List UInt8) :
      KeepsHeader (header.bytes ++ payload)
        (.returned ((restoredHeader header data.length).bytes ++ data)) ↔
        header.type = PayloadType.batch.code := by
    simp only [KeepsHeader, Outcome.returned.injEq, exists_eq_left',
      BinaryPayloadHeader.ofBytes_append, restoredHeader, and_true]
    exact eq_comm
  rw [decompressPayload_emitted enabled threshold header payload plain]
  by_cases compresses : Compresses enabled threshold (header.bytes ++ payload)
  · rw [if_pos compresses]
    by_cases dictionary : (compressAuto payload).2 = .dictionary
    · rw [if_pos dictionary, DictionaryCompressor.decompress_compress]
      by_cases near : DictionaryCompressor.NearMatches payload
      · simp [near, Outcome.map, restored, compresses]
      · simp [near, Outcome.map, compresses, dictionary, KeepsHeader]
    · simp [dictionary, Outcome.map, restored, compresses]
  · rw [if_neg compresses]
    simp [compresses, KeepsHeader]

theorem decompressPayload_header_iff (builder : CompressedPayloadBuilder) (clock : Nat → UInt64) :
    (∀ name type data,
      let uncompressed := (builder.toBinaryPayloadBuilder.createSingle clock name type data).1
      KeepsHeader uncompressed
          (decompressPayload (builder.createSingleCompressed clock name type data).1) ↔
        ¬ Compresses builder.enableCompression 128 uncompressed) ∧
    ∀ vars,
      let uncompressed := (builder.toBinaryPayloadBuilder.createBatch clock vars).1
      KeepsHeader uncompressed (decompressPayload (builder.createBatchCompressed clock vars).1) ↔
        (UsesDictionary builder.enableCompression 256 uncompressed →
          DictionaryCompressor.NearMatches (payloadOf uncompressed)) := by
  constructor
  · intro name type data uncompressed
    have bytes : uncompressed = _ :=
      createSingle_bytes builder.toBinaryPayloadBuilder clock ⟨name, type, data⟩
    rw [createSingleCompressed_emitted]
    change KeepsHeader uncompressed
      (decompressPayload (emitted builder.enableCompression 128 uncompressed)) ↔ _
    rw [bytes, keepsHeader_emitted _ _ _ _ (by simp [singleHeader, PayloadType.code])]
    simp [singleHeader, PayloadType.code]
  · intro vars uncompressed
    have bytes : uncompressed = _ := createBatch_bytes builder.toBinaryPayloadBuilder clock vars
    rw [createBatchCompressed_emitted]
    change KeepsHeader uncompressed
      (decompressPayload (emitted builder.enableCompression 256 uncompressed)) ↔ _
    rw [bytes, keepsHeader_emitted _ _ _ _ (by simp [batchHeader, PayloadType.code]),
      payloadOf_append]
    simp only [UsesDictionary, Compresses, payloadOf_append]
    constructor
    · rintro kept ⟨on, large, dictionary⟩
      exact (kept ⟨on, large, by simp [dictionary]⟩).2 dictionary
    · rintro near ⟨on, large, used⟩
      exact ⟨rfl, fun dictionary => near ⟨on, large, dictionary⟩⟩

theorem createSingleCompressed_becomes_batch :
    ¬ KeepsHeader
      (BinaryPayloadBuilder.new.createSingle (fun _ => 0) [] .custom (List.replicate 100 0)).1
      (decompressPayload (CompressedPayloadBuilder.createSingleCompressed
        { BinaryPayloadBuilder.new with enableCompression := true } (fun _ => 0) [] .custom
        (List.replicate 100 0)).1) := by
  let var : Variable := ⟨[], .custom, List.replicate 100 0⟩
  have bytes := createSingle_bytes .new (fun _ => 0) var
  have used : (compressAuto (variableRecord 0 var)).2 ≠ .none :=
    compressAuto_used (by decide) (by decide +kernel)
  rw [createSingleCompressed_emitted]
  change ¬ KeepsHeader (BinaryPayloadBuilder.createSingle .new _ var.name var.type var.data).1
    (decompressPayload (emitted true 128
      (BinaryPayloadBuilder.createSingle .new _ var.name var.type var.data).1))
  rw [bytes, keepsHeader_emitted _ _ _ _ (by simp [singleHeader, PayloadType.code])]
  have large :
      128 ≤ ((singleHeader .new (fun _ => 0) var).bytes ++ variableRecord 0 var).length := by
    rw [List.length_append, BinaryPayloadHeader.length_bytes, length_variableRecord]
    decide
  intro kept
  have type := (kept ⟨rfl, large, by rw [payloadOf_append]; exact used⟩).1
  exact absurd type (by simp [singleHeader, PayloadType.code])

end AdsRealtime
