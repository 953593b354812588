import AdsRealtime.Payload.RoundTrip
import AdsRealtime.Shared.Counter
import AdsRealtime.Shared.Runs

set_option autoImplicit false

namespace AdsRealtime

open Looping PayloadCompressor

namespace CompressedPayloadBuilder

def construct (compress : Bool) : CompressedPayloadBuilder :=
  { BinaryPayloadBuilder.new with enableCompression := compress }

inductive Call where
  | createSingle (clock : Nat → UInt64) (name : List UInt8) (type : AdsDataType)
      (data : List UInt8)
  | createBatch (clock : Nat → UInt64) (vars : List Variable)
  | createSingleCompressed (clock : Nat → UInt64) (name : List UInt8) (type : AdsDataType)
      (data : List UInt8)
  | createBatchCompressed (clock : Nat → UInt64) (vars : List Variable)
  | setCompressionEnabled (enabled : Bool)

structure Stream where
  builder : CompressedPayloadBuilder
  payloads : List (List UInt8)

def Stream.fresh (compress : Bool) : Stream :=
  { builder := construct compress, payloads := [] }

def perform (stream : Stream) : Call → Stream
  | .createSingle clock name type data =>
    let (payload, base) := stream.builder.createSingle clock name type data
    { builder := { stream.builder with toBinaryPayloadBuilder := base }
      payloads := stream.payloads ++ [payload] }
  | .createBatch clock vars =>
    let (payload, base) := stream.builder.createBatch clock vars
    { builder := { stream.builder with toBinaryPayloadBuilder := base }
      payloads := stream.payloads ++ [payload] }
  | .createSingleCompressed clock name type data =>
    let (payload, builder) := stream.builder.createSingleCompressed clock name type data
    { builder := builder, payloads := stream.payloads ++ [payload] }
  | .createBatchCompressed clock vars =>
    let (payload, builder) := stream.builder.createBatchCompressed clock vars
    { builder := builder, payloads := stream.payloads ++ [payload] }
  | .setCompressionEnabled enabled =>
    { stream with builder := stream.builder.setCompressionEnabled enabled }

end CompressedPayloadBuilder

open CompressedPayloadBuilder

def sequenceNumberOf (frame : List UInt8) : UInt32 :=
  (BinaryPayloadHeader.ofBytes frame).sequenceNumber

def ReceivedAs (payload frame : List UInt8) : Prop :=
  frame = payload ∨ decompressPayload payload = .returned frame

def Carries (payload : List UInt8) (sequenceNumber : UInt32) : Prop :=
  ∀ frame, ReceivedAs payload frame → sequenceNumberOf frame = sequenceNumber

theorem emitted_carries (enabled : Bool) (threshold : Nat) (header : BinaryPayloadHeader)
    (payload : List UInt8) (plain : header.type ≠ PayloadType.compressed.code) :
    Carries (emitted enabled threshold (header.bytes ++ payload)) header.sequenceNumber := by
  unfold emitted
  rintro frame (rfl | decompressed)
  · split_ifs
    · rw [sequenceNumberOf, compressedFrame, BinaryPayloadHeader.ofBytes_append,
        BinaryPayloadHeader.ofBytes_append]
    · rw [sequenceNumberOf, BinaryPayloadHeader.ofBytes_append]
  · split_ifs at decompressed
    · rw [decompressPayload_compressedFrame] at decompressed
      generalize PayloadCompressor.decompress _ _ = outcome at decompressed
      cases outcome with
      | returned result =>
        obtain rfl := Outcome.returned.inj decompressed
        rw [sequenceNumberOf, BinaryPayloadHeader.ofBytes_append]
        rfl
      | fault => cases decompressed
      | running => cases decompressed
    · rw [decompressPayload_plain _ (by rwa [BinaryPayloadHeader.ofBytes_append])] at decompressed
      obtain rfl := Outcome.returned.inj decompressed
      rw [sequenceNumberOf, BinaryPayloadHeader.ofBytes_append]

theorem emitted_disabled (frame : List UInt8) : emitted false 0 frame = frame :=
  if_neg fun compresses => Bool.false_ne_true compresses.1

theorem createSingle_carries (builder : BinaryPayloadBuilder) (enabled : Bool) (threshold : Nat)
    (clock : Nat → UInt64) (name : List UInt8) (type : AdsDataType) (data : List UInt8) :
    Carries (emitted enabled threshold (builder.createSingle clock name type data).1)
      builder.sequenceCounter := by
  have bytes := createSingle_bytes builder clock ⟨name, type, data⟩
  rw [bytes]
  exact emitted_carries enabled threshold (singleHeader builder clock ⟨name, type, data⟩) _
    (by simp [singleHeader, PayloadType.code])

theorem createBatch_carries (builder : BinaryPayloadBuilder) (enabled : Bool) (threshold : Nat)
    (clock : Nat → UInt64) (vars : List Variable) :
    Carries (emitted enabled threshold (builder.createBatch clock vars).1)
      builder.sequenceCounter := by
  rw [createBatch_bytes]
  exact emitted_carries enabled threshold (batchHeader builder clock vars) _
    (by simp [batchHeader, PayloadType.code])

theorem createSingleCompressed_counter (builder : CompressedPayloadBuilder)
    (clock : Nat → UInt64) (name : List UInt8) (type : AdsDataType) (data : List UInt8) :
    (builder.createSingleCompressed clock name type data).2.sequenceCounter =
      builder.sequenceCounter + 1 := by
  unfold createSingleCompressed
  dsimp only
  split_ifs <;> rfl

theorem createBatchCompressed_counter (builder : CompressedPayloadBuilder)
    (clock : Nat → UInt64) (vars : List Variable) :
    (builder.createBatchCompressed clock vars).2.sequenceCounter =
      builder.sequenceCounter + 1 := by
  unfold createBatchCompressed
  dsimp only
  split_ifs <;> rfl

theorem perform_cases (stream : Stream) (call : Call) :
    (∃ payload, (perform stream call).payloads = stream.payloads ++ [payload] ∧
        Carries payload stream.builder.sequenceCounter ∧
        (perform stream call).builder.sequenceCounter = stream.builder.sequenceCounter + 1) ∨
      ((perform stream call).payloads = stream.payloads ∧
        (perform stream call).builder.sequenceCounter = stream.builder.sequenceCounter) := by
  cases call with
  | createSingle clock name type data =>
    have carries := createSingle_carries stream.builder.toBinaryPayloadBuilder false 0 clock name
      type data
    rw [emitted_disabled] at carries
    exact .inl ⟨_, rfl, carries, rfl⟩
  | createBatch clock vars =>
    have carries := createBatch_carries stream.builder.toBinaryPayloadBuilder false 0 clock vars
    rw [emitted_disabled] at carries
    exact .inl ⟨_, rfl, carries, rfl⟩
  | createSingleCompressed clock name type data =>
    have carries := createSingle_carries stream.builder.toBinaryPayloadBuilder
      stream.builder.enableCompression 128 clock name type data
    rw [← createSingleCompressed_emitted] at carries
    exact .inl ⟨_, rfl, carries, createSingleCompressed_counter stream.builder clock name type data⟩
  | createBatchCompressed clock vars =>
    have carries := createBatch_carries stream.builder.toBinaryPayloadBuilder
      stream.builder.enableCompression 256 clock vars
    rw [← createBatchCompressed_emitted] at carries
    exact .inl ⟨_, rfl, carries, createBatchCompressed_counter stream.builder clock vars⟩
  | setCompressionEnabled enabled => exact .inr ⟨rfl, rfl⟩

/-- The payloads are numbered in the order in which they were emitted. -/
structure Numbered (stream : Stream) : Prop where
  counter : stream.builder.sequenceCounter = .ofNat stream.payloads.length
  numbers : ∀ k payload, stream.payloads[k]? = some payload → Carries payload (.ofNat k)

theorem fresh_numbered (compress : Bool) : Numbered (.fresh compress) where
  counter := rfl
  numbers := by simp [Stream.fresh]

theorem perform_numbered (stream : Stream) (call : Call) (numbered : Numbered stream) :
    Numbered (perform stream call) := by
  obtain ⟨counter, numbers⟩ := numbered
  rcases perform_cases stream call with
    ⟨payload, payloads, carries, next⟩ | ⟨payloads, next⟩
  · constructor
    · rw [next, payloads, counter, List.length_append, List.length_singleton]
      exact (UInt32.ofNat_add _ 1).symm
    · intro k other found
      rw [payloads] at found
      rcases Nat.lt_trichotomy k stream.payloads.length with old | new | beyond
      · rw [List.getElem?_append_left old] at found
        exact numbers k other found
      · rw [new, List.getElem?_concat_length, Option.some.injEq] at found
        rw [new, ← found, ← counter]
        exact carries
      · rw [List.getElem?_eq_none (by simpa using Nat.succ_le_of_lt beyond)] at found
        cases found
  · constructor
    · rw [next, payloads, counter]
    · rw [payloads]
      exact numbers

theorem run_numbered (compress : Bool) (calls : List Call) :
    Numbered (Runs.after perform (.fresh compress) calls) :=
  Runs.invariant_of_step Numbered perform_numbered (fresh_numbered compress) calls

def lostBetween (previous next : List UInt8) : Nat :=
  (sequenceNumberOf next - sequenceNumberOf previous - 1).toNat

theorem ofNat_gap {i j : Nat} (less : i < j) (few : j - i - 1 < 2 ^ 32 - 1) :
    (UInt32.ofNat j - UInt32.ofNat i - 1).toNat = j - i - 1 := by
  rw [UInt32.toNat_sub, UInt32.toNat_sub, UInt32.toNat_ofNat', UInt32.toNat_ofNat',
    UInt32.toNat_one]
  omega

theorem payload_sequence (compress : Bool) (calls : List Call) :
    (∀ k payload, (Runs.after perform (.fresh compress) calls).payloads[k]? = some payload →
      ∀ frame, ReceivedAs payload frame → (sequenceNumberOf frame).toNat = k % 2 ^ 32) ∧
    ∀ received : List (Nat × List UInt8),
      (∀ entry ∈ received, ∃ payload,
        (Runs.after perform (.fresh compress) calls).payloads[entry.1]? = some payload ∧
          ReceivedAs payload entry.2) →
      received.IsChain (fun previous next =>
        previous.1 < next.1 ∧ next.1 - previous.1 - 1 < 2 ^ 32 - 1) →
      Counter.sumNeighbours (fun previous next => lostBetween previous.2 next.2) received =
        (Counter.missing (received.map Prod.fst)).length := by
  have numbered := run_numbered compress calls
  constructor
  · intro k payload found frame taken
    rw [numbered.numbers k payload found frame taken, UInt32.toNat_ofNat']
  · intro received emitted few
    have increasing : (received.map Prod.fst).IsChain (· < ·) :=
      List.isChain_map_of_isChain Prod.fst (fun _ _ near => near.1) few
    rw [Counter.length_missing increasing, Counter.sumNeighbours_map]
    apply Counter.sumNeighbours_congr
    refine few.imp_of_mem_imp ?_
    rintro ⟨i, previous⟩ ⟨j, next⟩ memberI memberJ ⟨less, near⟩
    obtain ⟨payloadI, foundI, takenI⟩ := emitted _ memberI
    obtain ⟨payloadJ, foundJ, takenJ⟩ := emitted _ memberJ
    rw [lostBetween, numbered.numbers _ _ foundI _ takenI, numbered.numbers _ _ foundJ _ takenJ]
    exact ofNat_gap less near

def threeBatches : List Call :=
  [.createBatch (fun _ => 0) [], .createBatchCompressed (fun _ => 0) [],
    .createBatch (fun _ => 0) []]

theorem payload_sequence_one_lost :
    Counter.sumNeighbours (fun previous next => lostBetween previous.2 next.2)
        [(0, (batchHeader .new (fun _ => 0) []).bytes),
          (2, (batchHeader { buffer := [], sequenceCounter := 2 } (fun _ => 0) []).bytes)] = 1 := by
  apply (payload_sequence true threeBatches).2
  · intro entry member
    simp only [List.mem_cons, List.not_mem_nil, or_false] at member
    rcases member with rfl | rfl
    · exact ⟨_, by rfl, .inl (by decide +kernel)⟩
    · exact ⟨_, by rfl, .inl (by decide +kernel)⟩
  · simp

end AdsRealtime
