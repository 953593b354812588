import AdsRealtime.Compression.Benchmark
import AdsRealtime.Payload.FrameSize
import AdsRealtime.Payload.Sequence

set_option autoImplicit false

namespace AdsRealtime.CompressionExample

open Looping CompressedPayloadBuilder

structure Printed where
  uncompressed : Nat
  compressed : Nat
  savings : UInt64
  decompressed : Nat
  «match» : Bool
  deriving DecidableEq

/-- The example for any variables; the clock is read in the one batch and later in the other. -/
def testCompressedPayload (clock later : Nat → UInt64) (vars : List Variable) : Outcome Printed :=
  let builder := construct true
  let builder := builder.setCompressionEnabled false
  let (uncompressed, base) := builder.toBinaryPayloadBuilder.createBatch clock vars
  let builder := { builder with toBinaryPayloadBuilder := base }
  let builder := builder.setCompressionEnabled true
  let (compressed, _) := builder.createBatchCompressed later vars
  (decompressPayload compressed).map fun decompressed =>
    { uncompressed := uncompressed.length
      compressed := compressed.length
      savings := UInt64.ofNat uncompressed.length - UInt64.ofNat compressed.length
      decompressed := decompressed.length
      «match» := decompressed.length == uncompressed.length }

def secondBatch (clock later : Nat → UInt64) (vars : List Variable) : List UInt8 :=
  ((BinaryPayloadBuilder.new.createBatch clock vars).2.createBatch later vars).1

/-- The decoder does not reach outside what it has decoded. -/
def Restorable (frame : List UInt8) : Prop :=
  UsesDictionary true 256 frame → DictionaryCompressor.NearMatches (payloadOf frame)

section

variable {header : BinaryPayloadHeader} {payload : List UInt8}

theorem decompressPayload_far (plain : header.type ≠ PayloadType.compressed.code)
    (far : ¬ Restorable (header.bytes ++ payload)) :
    decompressPayload (emitted true 256 (header.bytes ++ payload)) = .fault := by
  rw [Restorable, payloadOf_append] at far
  obtain ⟨uses, beyond⟩ := Classical.not_imp.mp far
  obtain ⟨_, large, dictionary⟩ := uses
  have compresses : Compresses true 256 (header.bytes ++ payload) :=
    ⟨rfl, large, by rw [dictionary]; simp⟩
  rw [payloadOf_append] at dictionary
  rw [decompressPayload_emitted _ _ _ _ plain, if_pos compresses, if_pos dictionary,
    DictionaryCompressor.decompress_compress, if_neg beyond]
  rfl

theorem decompressPayload_near (plain : header.type ≠ PayloadType.compressed.code)
    (near : Restorable (header.bytes ++ payload)) :
    ∃ decompressed,
      decompressPayload (emitted true 256 (header.bytes ++ payload)) = .returned decompressed ∧
        decompressed.length = (header.bytes ++ payload).length := by
  rw [Restorable, payloadOf_append] at near
  rw [decompressPayload_emitted _ _ _ _ plain]
  by_cases compresses : Compresses true 256 (header.bytes ++ payload)
  · rw [if_pos compresses]
    by_cases dictionary : (PayloadCompressor.compressAuto payload).2 = .dictionary
    · have inside := near ⟨rfl, compresses.2.1, by rw [payloadOf_append]; exact dictionary⟩
      rw [if_pos dictionary, DictionaryCompressor.decompress_compress, if_pos inside]
      exact ⟨_, rfl, by simp [DictionaryCompressor.mask]⟩
    · rw [if_neg dictionary]
      exact ⟨_, rfl, by simp⟩
  · rw [if_neg compresses]
    exact ⟨_, rfl, rfl⟩

end

theorem nearMatches_of_short {data : List UInt8}
    (short : data.length ≤ DictionaryCompressor.windowSize) :
    DictionaryCompressor.NearMatches data := by
  intro pos _
  rw [DictionaryCompressor.findMatch_full_iff]
  rintro ⟨deep, long, _⟩
  have inside := (DictionaryCompressor.matchLen_agrees data _ pos 0
    (Nat.lt_of_lt_of_le (by decide) long)).1
  omega

/-- What the example shows for two batches of this size. -/
structure Reassuring (size : Nat) (printed : Printed) : Prop where
  uncompressed : printed.uncompressed = size
  decompressed : printed.decompressed = size
  matches_ : printed.match = true
  neverLarger : printed.compressed ≤ size
  saved : size < 2 ^ 64 → printed.savings.toNat = size - printed.compressed

section

variable (clock later : Nat → UInt64) (vars : List Variable)

theorem secondBatch_bytes :
    secondBatch clock later vars =
      (batchHeader (BinaryPayloadBuilder.new.createBatch clock vars).2 later vars).bytes ++
        variableRecords later 1 vars :=
  createBatch_bytes _ later vars

theorem length_secondBatch :
    (secondBatch clock later vars).length =
      (BinaryPayloadBuilder.new.createBatch clock vars).1.length := by
  rw [secondBatch, length_createBatch, length_createBatch]

theorem length_emitted_le :
    (emitted true 256 (secondBatch clock later vars)).length ≤
      (secondBatch clock later vars).length := by
  rw [secondBatch_bytes]
  exact (emitted_selfConsistent true (by decide) (by simp [batchHeader, PayloadType.code])
    (totalSize_batchHeader _ _ _)).neverLarger

theorem testCompressedPayload_eq :
    testCompressedPayload clock later vars =
      (decompressPayload (emitted true 256 (secondBatch clock later vars))).map fun decompressed =>
        { uncompressed := (secondBatch clock later vars).length
          compressed := (emitted true 256 (secondBatch clock later vars)).length
          savings := UInt64.ofNat (secondBatch clock later vars).length -
            UInt64.ofNat (emitted true 256 (secondBatch clock later vars)).length
          decompressed := decompressed.length
          «match» := decompressed.length == (secondBatch clock later vars).length } := by
  rw [length_secondBatch]
  simp only [testCompressedPayload, createBatchCompressed_emitted]
  rfl

theorem testCompressedPayload_matches :
    (¬ Restorable (secondBatch clock later vars) →
      testCompressedPayload clock later vars = .fault) ∧
    (Restorable (secondBatch clock later vars) →
      (∃ printed, testCompressedPayload clock later vars = .returned printed ∧
        Reassuring (secondBatch clock later vars).length printed) ∧
      (decompressPayload (emitted true 256 (secondBatch clock later vars)) =
          .returned (secondBatch clock later vars) ↔
        (UsesDictionary true 256 (secondBatch clock later vars) →
          ∀ byte ∈ payloadOf (secondBatch clock later vars), byte < 0x80))) ∧
    ((payloadOf (secondBatch clock later vars)).length ≤ DictionaryCompressor.windowSize →
      Restorable (secondBatch clock later vars)) := by
  have plain : (batchHeader (BinaryPayloadBuilder.new.createBatch clock vars).2 later vars).type ≠
      PayloadType.compressed.code := by
    simp [batchHeader, PayloadType.code]
  have bytes := secondBatch_bytes clock later vars
  refine ⟨?_, ?_, fun short _ => nearMatches_of_short short⟩
  · intro far
    rw [bytes] at far
    rw [testCompressedPayload_eq, bytes, decompressPayload_far plain far]
    rfl
  · intro near
    constructor
    · rw [bytes] at near
      obtain ⟨decompressed, returned, size⟩ := decompressPayload_near plain near
      rw [← bytes] at returned size
      rw [testCompressedPayload_eq, returned]
      have less := length_emitted_le clock later vars
      refine ⟨_, rfl, rfl, size, ?_, less, PayloadCompressor.toNat_ofNat_sub less⟩
      simp [size]
    · have lossless := frame_lossless_iff true 256
        (batchHeader (BinaryPayloadBuilder.new.createBatch clock vars).2 later vars)
        (variableRecords later 1 vars) rfl (totalSize_batchHeader _ _ _)
      rw [bytes, payloadOf_append, lossless]
      rw [Restorable, bytes, payloadOf_append] at near
      exact forall_congr' fun uses => and_iff_left (near uses)

end

def sawtoothAndFlag : List Variable :=
  [⟨[], .custom, sawtooth⟩, ⟨[0x61], .bool, [1]⟩]

theorem testCompressedPayload_matches_sawtooth :
    ∃ printed, testCompressedPayload (fun _ => 0) (fun _ => 7) sawtoothAndFlag =
        .returned printed ∧
      Reassuring (secondBatch (fun _ => 0) (fun _ => 7) sawtoothAndFlag).length printed := by
  have all := testCompressedPayload_matches (fun _ => 0) (fun _ => 7) sawtoothAndFlag
  refine (all.2.1 (all.2.2 ?_)).1
  rw [payloadOf, List.length_drop, length_secondBatch, length_createBatch]
  simp [sawtoothAndFlag, recordSize, sawtooth, DictionaryCompressor.windowSize]

end AdsRealtime.CompressionExample
