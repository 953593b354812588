import AdsRealtime.Payload.BinaryPayload
import Mathlib.Tactic.Linarith

set_option autoImplicit false

namespace AdsRealtime

open BinaryPayloadBuilder

def PayloadType.ofCode? : UInt8 → Option PayloadType
  | 0 => some .single
  | 1 => some .batch
  | 2 => some .compressed
  | _ => none

theorem PayloadType.ofCode?_code (type : PayloadType) : ofCode? type.code = some type := by
  cases type <;> rfl

def AdsDataType.ofCode? : UInt8 → Option AdsDataType
  | 1 => some .bool
  | 2 => some .byte
  | 3 => some .word
  | 4 => some .dword
  | 5 => some .int16
  | 6 => some .int32
  | 7 => some .int64
  | 8 => some .real32
  | 9 => some .real64
  | 10 => some .string
  | 255 => some .custom
  | _ => none

theorem AdsDataType.ofCode?_code (type : AdsDataType) : ofCode? type.code = some type := by
  cases type <;> rfl

def slice (buffer : List UInt8) (offset length : Nat) : List UInt8 :=
  (buffer.drop offset).take length

/--
The format as its header structs document it: what a receiver that only knows the two structs
reads, and the offset at which it stops.
-/
def readVariables (buffer : List UInt8) : Nat → Nat → Option (List Variable × Nat)
  | 0, offset => some ([], offset)
  | count + 1, offset =>
      let nameAt := offset + sizeofVariableHeader
      if buffer.length < nameAt then
        none
      else
        let header := VariableHeader.ofBytes (buffer.drop offset)
        let dataAt := nameAt + header.nameLength.toNat
        let next := dataAt + header.dataLength.toNat
        if buffer.length < next then
          none
        else
          match AdsDataType.ofCode? header.dataType, readVariables buffer count next with
          | some type, some (vars, last) =>
            let var : Variable :=
              { name := slice buffer nameAt header.nameLength.toNat
                type
                data := slice buffer dataAt header.dataLength.toNat }
            some (var :: vars, last)
          | _, _ => none

def readPayload (buffer : List UInt8) : Option (BinaryPayloadHeader × List Variable × Nat) :=
  if buffer.length < sizeofBinaryPayloadHeader then
    none
  else
    let header := BinaryPayloadHeader.ofBytes buffer
    match readVariables buffer header.variableCount.toNat sizeofBinaryPayloadHeader with
    | some (vars, last) => some (header, vars, last)
    | none => none

def variableHeader (timestampUs : UInt64) (var : Variable) : VariableHeader :=
  { nameLength := .ofNat var.name.length
    dataType := var.type.code
    dataLength := .ofNat var.data.length
    timestampUs }

def variableRecord (timestampUs : UInt64) (var : Variable) : List UInt8 :=
  (variableHeader timestampUs var).bytes ++ (var.name ++ var.data)

def variableRecords (clock : Nat → UInt64) : Nat → List Variable → List UInt8
  | _, [] => []
  | reading, var :: rest =>
      variableRecord (clock reading) var ++ variableRecords clock (reading + 1) rest

def recordSize (var : Variable) : Nat :=
  15 + var.name.length + var.data.length

@[simp] theorem length_variableRecord (timestampUs : UInt64) (var : Variable) :
    (variableRecord timestampUs var).length = recordSize var := by
  simp [variableRecord, recordSize, Nat.add_assoc]

theorem length_variableRecords (clock : Nat → UInt64) (reading : Nat) (vars : List Variable) :
    (variableRecords clock reading vars).length = (vars.map recordSize).sum := by
  induction vars generalizing reading with
  | nil => rfl
  | cons var rest ih => simp [variableRecords, ih]

theorem appendVariables_eq (clock : Nat → UInt64) (reading : Nat) (buffer : List UInt8)
    (vars : List Variable) :
    appendVariables clock reading buffer vars = buffer ++ variableRecords clock reading vars := by
  induction vars generalizing reading buffer with
  | nil => simp [appendVariables, variableRecords]
  | cons var rest ih =>
    rw [appendVariables, ih, variableRecords]
    simp [appendVariable, appendBytes, variableRecord, variableHeader]

theorem totalSize_eq (vars : List Variable) : totalSize vars = 20 + (vars.map recordSize).sum := by
  have fold (start : Nat) :
      vars.foldl (fun total var =>
        total + (sizeofVariableHeader + var.name.length + var.data.length)) start =
        start + (vars.map recordSize).sum := by
    induction vars generalizing start with
    | nil => rfl
    | cons var rest ih =>
      rw [List.foldl_cons, ih, List.map_cons, List.sum_cons, Nat.add_assoc]
      simp [recordSize]
  exact fold 20

def batchHeader (builder : BinaryPayloadBuilder) (clock : Nat → UInt64) (vars : List Variable) :
    BinaryPayloadHeader :=
  { version := 1
    type := PayloadType.batch.code
    variableCount := .ofNat vars.length
    totalSize := .ofNat (20 + (vars.map recordSize).sum)
    timestampUs := clock 0
    sequenceNumber := builder.sequenceCounter }

def singleHeader (builder : BinaryPayloadBuilder) (clock : Nat → UInt64) (var : Variable) :
    BinaryPayloadHeader :=
  { version := 1
    type := PayloadType.single.code
    variableCount := 1
    totalSize := .ofNat (20 + recordSize var)
    timestampUs := clock 0
    sequenceNumber := builder.sequenceCounter }

theorem createBatch_bytes (builder : BinaryPayloadBuilder) (clock : Nat → UInt64)
    (vars : List Variable) :
    (createBatch builder clock vars).1 =
      (batchHeader builder clock vars).bytes ++ variableRecords clock 1 vars := by
  simp [createBatch, appendVariables_eq, appendBytes, totalSize_eq, batchHeader]

theorem createSingle_bytes (builder : BinaryPayloadBuilder) (clock : Nat → UInt64)
    (var : Variable) :
    (createSingle builder clock var.name var.type var.data).1 =
      (singleHeader builder clock var).bytes ++ variableRecord (clock 0) var := by
  have total : sizeofBinaryPayloadHeader + sizeofVariableHeader + var.name.length +
      var.data.length = 20 + recordSize var := by
    simp [recordSize, ← Nat.add_assoc]
  simp only [createSingle, total]
  simp [appendBytes, singleHeader, variableRecord, variableHeader]

theorem length_createBatch (builder : BinaryPayloadBuilder) (clock : Nat → UInt64)
    (vars : List Variable) :
    (createBatch builder clock vars).1.length = 20 + (vars.map recordSize).sum := by
  rw [createBatch_bytes, List.length_append, BinaryPayloadHeader.length_bytes,
    length_variableRecords]

def Variable.Fits (var : Variable) : Prop :=
  var.name.length < 2 ^ 16 ∧ var.data.length < 2 ^ 32

theorem variableHeader_lengths {var : Variable} (fits : var.Fits) (timestampUs : UInt64) :
    (variableHeader timestampUs var).nameLength.toNat = var.name.length ∧
      (variableHeader timestampUs var).dataLength.toNat = var.data.length :=
  ⟨UInt16.toNat_ofNat_of_lt' fits.1, UInt32.toNat_ofNat_of_lt' fits.2⟩

theorem slice_append (before middle after : List UInt8) :
    slice (before ++ (middle ++ after)) before.length middle.length = middle := by
  simp [slice]

theorem readVariables_record {var : Variable} (fits : var.Fits) (timestampUs : UInt64)
    (before after : List UInt8) (count : Nat) :
    readVariables (before ++ (variableRecord timestampUs var ++ after)) (count + 1) before.length =
      (readVariables (before ++ (variableRecord timestampUs var ++ after)) count
        (before.length + recordSize var)).map fun (vars, last) => (var :: vars, last) := by
  obtain ⟨name, data⟩ := variableHeader_lengths fits timestampUs
  have type : AdsDataType.ofCode? (variableHeader timestampUs var).dataType = some var.type :=
    AdsDataType.ofCode?_code var.type
  have header : VariableHeader.ofBytes
      ((before ++ (variableRecord timestampUs var ++ after)).drop before.length) =
        variableHeader timestampUs var := by
    rw [List.drop_left, variableRecord, List.append_assoc, VariableHeader.ofBytes_append]
  have nameSlice : slice (before ++ (variableRecord timestampUs var ++ after))
      (before.length + 15) var.name.length = var.name := by
    have h := slice_append (before ++ (variableHeader timestampUs var).bytes) var.name
      (var.data ++ after)
    simpa [variableRecord] using h
  have dataSlice : slice (before ++ (variableRecord timestampUs var ++ after))
      (before.length + 15 + var.name.length) var.data.length = var.data := by
    have h := slice_append (before ++ (variableHeader timestampUs var).bytes ++ var.name) var.data
      after
    simpa [variableRecord, Nat.add_assoc] using h
  have total : (before ++ (variableRecord timestampUs var ++ after)).length =
      before.length + recordSize var + after.length := by
    simp [Nat.add_assoc]
  have next : before.length + 15 + var.name.length + var.data.length =
      before.length + recordSize var := by
    simp only [recordSize, Nat.add_assoc]
  have room : 15 + var.name.length ≤ recordSize var := Nat.le_add_right _ _
  rw [readVariables]
  simp only [sizeofVariableHeader_eq, header, name, data, type, nameSlice, dataSlice, total, next]
  rw [if_neg (by omega), if_neg (by omega)]
  cases readVariables (before ++ (variableRecord timestampUs var ++ after)) count
    (before.length + recordSize var) <;> rfl

theorem readVariables_records (clock : Nat → UInt64) (reading : Nat) (vars : List Variable)
    (fits : ∀ var ∈ vars, var.Fits) (before : List UInt8) :
    readVariables (before ++ variableRecords clock reading vars) vars.length before.length =
      some (vars, before.length + (vars.map recordSize).sum) := by
  induction vars generalizing reading before with
  | nil => rfl
  | cons var rest ih =>
    have later := ih (reading + 1) (fun v member => fits v (List.mem_cons_of_mem _ member))
      (before ++ variableRecord (clock reading) var)
    rw [List.append_assoc, List.length_append, length_variableRecord] at later
    rw [variableRecords, List.length_cons, readVariables_record (fits var (by simp)), later]
    simp [Nat.add_assoc]

structure ReadsBack (buffer : List UInt8) (type : PayloadType) (sequenceNumber : UInt32)
    (vars : List Variable) (header : BinaryPayloadHeader) : Prop where
  walk : readPayload buffer = some (header, vars, header.totalSize.toNat)
  version : header.version = 1
  payloadType : header.type = type.code
  typeDecoded : PayloadType.ofCode? header.type = some type
  sequence : header.sequenceNumber = sequenceNumber
  size : header.totalSize.toNat = buffer.length
  decoded : ∀ out, decodeHeader buffer out = (true, header)

theorem readsBack_records (header : BinaryPayloadHeader) (type : PayloadType)
    (clock : Nat → UInt64) (reading : Nat) (vars : List Variable) (fits : ∀ var ∈ vars, var.Fits)
    (version : header.version = 1) (payloadType : header.type = type.code)
    (count : header.variableCount.toNat = vars.length)
    (total : header.totalSize.toNat = 20 + (vars.map recordSize).sum) :
    ReadsBack (header.bytes ++ variableRecords clock reading vars) type header.sequenceNumber
      vars header := by
  have length : (header.bytes ++ variableRecords clock reading vars).length =
      header.totalSize.toNat := by
    rw [List.length_append, BinaryPayloadHeader.length_bytes, length_variableRecords, total]
  have enough : ¬ (header.bytes ++ variableRecords clock reading vars).length <
      sizeofBinaryPayloadHeader := by
    rw [sizeofBinaryPayloadHeader_eq]
    omega
  have walk := readVariables_records clock reading vars fits header.bytes
  rw [BinaryPayloadHeader.length_bytes] at walk
  have typeDecoded : PayloadType.ofCode? header.type = some type := by
    rw [payloadType, PayloadType.ofCode?_code]
  refine ⟨?_, version, payloadType, typeDecoded, rfl, length.symm, ?_⟩
  · rw [readPayload, if_neg enough]
    simp only [BinaryPayloadHeader.ofBytes_append, count, sizeofBinaryPayloadHeader_eq, walk, total]
  · intro out
    rw [decodeHeader, if_neg enough]
    simp [BinaryPayloadHeader.ofBytes_append, version]

theorem createPayload_readBack (builder : BinaryPayloadBuilder) (clock : Nat → UInt64)
    (vars : List Variable) (count : vars.length < 2 ^ 16)
    (names : ∀ var ∈ vars, var.name.length < 2 ^ 16)
    (datas : ∀ var ∈ vars, var.data.length < 2 ^ 32)
    (total : 20 + (vars.map fun var => 15 + var.name.length + var.data.length).sum < 2 ^ 32) :
    (∃ header, ReadsBack (createBatch builder clock vars).1 .batch builder.sequenceCounter
      vars header) ∧
    ∀ var, vars = [var] →
      ∃ header, ReadsBack (createSingle builder clock var.name var.type var.data).1 .single
        builder.sequenceCounter [var] header := by
  have fits : ∀ var ∈ vars, var.Fits := fun var member => ⟨names var member, datas var member⟩
  constructor
  · refine ⟨batchHeader builder clock vars, ?_⟩
    rw [createBatch_bytes]
    exact readsBack_records _ .batch clock 1 vars fits rfl rfl (UInt16.toNat_ofNat_of_lt' count)
      (UInt32.toNat_ofNat_of_lt' total)
  · rintro var rfl
    refine ⟨singleHeader builder clock var, ?_⟩
    have one : variableRecord (clock 0) var = variableRecords clock 0 [var] := by
      simp [variableRecords]
    have small : 20 + recordSize var < 2 ^ 32 := by simpa [recordSize] using total
    rw [createSingle_bytes, one]
    exact readsBack_records _ .single clock 0 [var] fits rfl rfl rfl
      (by simpa [singleHeader] using UInt32.toNat_ofNat_of_lt' small)

def twoVariables : List Variable :=
  [⟨[0x61], .int32, [1, 2, 3, 4]⟩, ⟨[0x62, 0x63], .bool, [1]⟩]

theorem createPayload_readBack_two :
    (∃ header, ReadsBack (createBatch new (fun reading => .ofNat reading) twoVariables).1
      .batch new.sequenceCounter twoVariables header) ∧
    ∃ header, ReadsBack (createSingle new (fun _ => 7) [0x62, 0x63] .bool [1]).1
      .single new.sequenceCounter [⟨[0x62, 0x63], .bool, [1]⟩] header :=
  ⟨(createPayload_readBack new (fun reading => .ofNat reading) twoVariables (by decide)
      (by decide) (by decide) (by decide)).1,
    (createPayload_readBack new (fun _ => 7) [⟨[0x62, 0x63], .bool, [1]⟩] (by decide)
      (by decide) (by decide) (by decide)).2 ⟨[0x62, 0x63], .bool, [1]⟩ rfl⟩

theorem variableRecord_append_inj {timestampUs : UInt64} {a b : Variable} (fitsA : a.Fits)
    (fitsB : b.Fits) {restA restB : List UInt8}
    (same : variableRecord timestampUs a ++ restA = variableRecord timestampUs b ++ restB) :
    a = b ∧ restA = restB := by
  simp only [variableRecord, List.append_assoc] at same
  obtain ⟨bytes, bodies⟩ := List.append_inj same (by simp)
  have header : variableHeader timestampUs a = variableHeader timestampUs b := by
    rw [← VariableHeader.ofBytes_append (variableHeader timestampUs a) [], bytes,
      VariableHeader.ofBytes_append]
  obtain ⟨nameA, dataA⟩ := variableHeader_lengths fitsA timestampUs
  obtain ⟨nameB, dataB⟩ := variableHeader_lengths fitsB timestampUs
  rw [header] at nameA dataA
  obtain ⟨name, tails⟩ := List.append_inj bodies (nameA.symm.trans nameB)
  obtain ⟨data, rests⟩ := List.append_inj tails (dataA.symm.trans dataB)
  have type : a.type = b.type := AdsDataType.code_inj.mp (congrArg VariableHeader.dataType header)
  cases a
  cases b
  simp only at name type data
  exact ⟨by rw [name, type, data], rests⟩

theorem variableRecords_inj (timestampUs : UInt64) (xs ys : List Variable)
    (fitsX : ∀ var ∈ xs, var.Fits) (fitsY : ∀ var ∈ ys, var.Fits) (i j : Nat)
    (same : variableRecords (fun _ => timestampUs) i xs =
      variableRecords (fun _ => timestampUs) j ys) : xs = ys := by
  induction xs generalizing ys i j with
  | nil =>
    cases ys with
    | nil => rfl
    | cons y ys =>
      have lengths := congrArg List.length same
      simp [variableRecords, recordSize] at lengths
      omega
  | cons x xs ih =>
    cases ys with
    | nil =>
      have lengths := congrArg List.length same
      simp [variableRecords, recordSize] at lengths
    | cons y ys =>
      obtain ⟨head, tail⟩ := variableRecord_append_inj (fitsX x (by simp)) (fitsY y (by simp)) same
      rw [head, ih ys (fun var member => fitsX var (List.mem_cons_of_mem _ member))
        (fun var member => fitsY var (List.mem_cons_of_mem _ member)) _ _ tail]

theorem createBatch_inj (builder : BinaryPayloadBuilder) (timestampUs : UInt64)
    (xs ys : List Variable) (fitsX : ∀ var ∈ xs, var.Fits) (fitsY : ∀ var ∈ ys, var.Fits)
    (same : (createBatch builder (fun _ => timestampUs) xs).1 =
      (createBatch builder (fun _ => timestampUs) ys).1) : xs = ys := by
  rw [createBatch_bytes, createBatch_bytes] at same
  exact variableRecords_inj timestampUs xs ys fitsX fitsY 1 1 (List.append_inj same (by simp)).2

-- The header a receiver finds for an empty variable, and for one whose lengths are multiples of
-- the field widths.
def emptyHeader (timestampUs : UInt64) : List UInt8 :=
  (variableHeader timestampUs ⟨[], .bool, []⟩).bytes

@[simp] theorem length_emptyHeader (timestampUs : UInt64) : (emptyHeader timestampUs).length = 15 :=
  VariableHeader.length_bytes _

theorem variableHeader_wraps (timestampUs : UInt64) (var : Variable) (type : var.type = .bool)
    (name : var.name.length % 2 ^ 16 = 0) (data : var.data.length % 2 ^ 32 = 0) :
    (variableHeader timestampUs var).bytes = emptyHeader timestampUs := by
  have nameLength : UInt16.ofNat var.name.length = 0 := by
    apply UInt16.toNat_inj.mp
    rw [UInt16.toNat_ofNat', name]
    rfl
  have dataLength : UInt32.ofNat var.data.length = 0 := by
    apply UInt32.toNat_inj.mp
    rw [UInt32.toNat_ofNat', data]
    rfl
  rw [variableHeader, nameLength, dataLength, type]
  rfl

-- An oversize name (or data) is read as an empty one followed by a second variable.
theorem createBatch_collides (builder : BinaryPayloadBuilder) (timestampUs : UInt64)
    (a b : Variable) (typeA : a.type = .bool) (typeB : b.type = .bool)
    (nameA : a.name.length % 2 ^ 16 = 0) (nameB : b.name.length % 2 ^ 16 = 0)
    (dataA : a.data.length % 2 ^ 32 = 0) (dataB : b.data.length % 2 ^ 32 = 0)
    (bodies : a.name ++ a.data ++ emptyHeader timestampUs =
      emptyHeader timestampUs ++ (b.name ++ b.data)) :
    (createBatch builder (fun _ => timestampUs) [a, ⟨[], .bool, []⟩]).1 =
      (createBatch builder (fun _ => timestampUs) [⟨[], .bool, []⟩, b]).1 := by
  have lengths := congrArg List.length bodies
  simp only [List.length_append, length_emptyHeader] at lengths
  have sizes : recordSize a = recordSize b := by
    simp only [recordSize]
    omega
  have total : ([a, ⟨[], .bool, []⟩].map recordSize).sum =
      ([⟨[], .bool, []⟩, b].map recordSize).sum := by
    simp [sizes, Nat.add_comm]
  rw [createBatch_bytes, createBatch_bytes]
  congr 1
  · simp only [batchHeader, total]
    rfl
  · simp only [variableRecords, variableRecord, List.append_nil,
      variableHeader_wraps timestampUs a typeA nameA dataA,
      variableHeader_wraps timestampUs b typeB nameB dataB]
    change _ ++ _ ++ emptyHeader timestampUs = emptyHeader timestampUs ++ _
    rw [List.append_assoc, bodies]

def Bounded (maxName maxData : Nat) (vars : List Variable) : Prop :=
  ∀ var ∈ vars, var.name.length ≤ maxName ∧ var.data.length ≤ maxData

theorem bounded_pair {maxName maxData : Nat} {a b : Variable}
    (nameA : a.name.length ≤ maxName) (dataA : a.data.length ≤ maxData)
    (nameB : b.name.length ≤ maxName) (dataB : b.data.length ≤ maxData) :
    Bounded maxName maxData [a, b] := by
  intro var member
  simp only [List.mem_cons, List.not_mem_nil, or_false] at member
  rcases member with rfl | rfl
  · exact ⟨nameA, dataA⟩
  · exact ⟨nameB, dataB⟩

-- Two batches that differ and serialise alike: the first variable's bytes hold a second header.
theorem oversize_name_collides (builder : BinaryPayloadBuilder) (timestampUs : UInt64)
    (pad : List UInt8) (size : pad.length + 15 = 2 ^ 16) :
    (createBatch builder (fun _ => timestampUs)
        [⟨emptyHeader timestampUs ++ pad, .bool, []⟩, ⟨[], .bool, []⟩]).1 =
      (createBatch builder (fun _ => timestampUs)
        [⟨[], .bool, []⟩, ⟨pad ++ emptyHeader timestampUs, .bool, []⟩]).1 := by
  refine createBatch_collides builder timestampUs _ _ rfl rfl ?_ ?_ rfl rfl (by simp)
  · rw [List.length_append, length_emptyHeader, Nat.add_comm, size, Nat.mod_self]
  · rw [List.length_append, length_emptyHeader, size, Nat.mod_self]

theorem oversize_data_collides (builder : BinaryPayloadBuilder) (timestampUs : UInt64)
    (pad : List UInt8) (size : pad.length + 15 = 2 ^ 32) :
    (createBatch builder (fun _ => timestampUs)
        [⟨[], .bool, emptyHeader timestampUs ++ pad⟩, ⟨[], .bool, []⟩]).1 =
      (createBatch builder (fun _ => timestampUs)
        [⟨[], .bool, []⟩, ⟨[], .bool, pad ++ emptyHeader timestampUs⟩]).1 := by
  refine createBatch_collides builder timestampUs _ _ rfl rfl rfl rfl ?_ ?_ (by simp)
  · rw [List.length_append, length_emptyHeader, Nat.add_comm, size, Nat.mod_self]
  · rw [List.length_append, length_emptyHeader, size, Nat.mod_self]

theorem emptyHeader_append_ne (timestampUs : UInt64) (pad : List UInt8) :
    emptyHeader timestampUs ++ pad ≠ [] := by
  intro none_
  have lengths := congrArg List.length none_
  rw [List.length_append, length_emptyHeader, List.length_nil] at lengths
  omega

-- A bound that lets a length reach the range of its field lets a header in with its padding.
theorem length_emptyHeader_pad (timestampUs : UInt64) {range bound : Nat} (room : 15 ≤ range)
    (wide : ¬ bound < range) :
    (emptyHeader timestampUs ++ List.replicate (range - 15) 0).length ≤ bound ∧
      (List.replicate (range - 15) 0 ++ emptyHeader timestampUs).length ≤ bound := by
  rw [List.length_append, List.length_append, length_emptyHeader, List.length_replicate]
  omega

theorem createBatch_unambiguous_iff (builder : BinaryPayloadBuilder) (timestampUs : UInt64)
    (maxName maxData : Nat) :
    (∀ xs ys, Bounded maxName maxData xs → Bounded maxName maxData ys →
      (createBatch builder (fun _ => timestampUs) xs).1 =
        (createBatch builder (fun _ => timestampUs) ys).1 → xs = ys) ↔
      maxName < 2 ^ 16 ∧ maxData < 2 ^ 32 := by
  constructor
  · intro unambiguous
    constructor
    · by_contra wide
      obtain ⟨first, second⟩ :=
        length_emptyHeader_pad timestampUs (show 15 ≤ 2 ^ 16 by omega) wide
      have equal := unambiguous _ _
        (bounded_pair first (Nat.zero_le _) (Nat.zero_le _) (Nat.zero_le _))
        (bounded_pair (Nat.zero_le _) (Nat.zero_le _) second (Nat.zero_le _))
        (oversize_name_collides builder timestampUs _ (by rw [List.length_replicate]; rfl))
      simp only [List.cons.injEq, Variable.mk.injEq] at equal
      exact emptyHeader_append_ne timestampUs _ equal.1.1
    · by_contra wide
      obtain ⟨first, second⟩ :=
        length_emptyHeader_pad timestampUs (show 15 ≤ 2 ^ 32 by omega) wide
      have equal := unambiguous _ _
        (bounded_pair (Nat.zero_le _) first (Nat.zero_le _) (Nat.zero_le _))
        (bounded_pair (Nat.zero_le _) (Nat.zero_le _) (Nat.zero_le _) second)
        (oversize_data_collides builder timestampUs _ (by rw [List.length_replicate]; rfl))
      simp only [List.cons.injEq, Variable.mk.injEq] at equal
      exact emptyHeader_append_ne timestampUs _ equal.1.2.2
  · rintro ⟨name, data⟩ xs ys boundedX boundedY same
    exact createBatch_inj builder timestampUs xs ys
      (fun var member => ⟨lt_of_le_of_lt (boundedX var member).1 name,
        lt_of_le_of_lt (boundedX var member).2 data⟩)
      (fun var member => ⟨lt_of_le_of_lt (boundedY var member).1 name,
        lt_of_le_of_lt (boundedY var member).2 data⟩) same

theorem createBatch_ambiguous :
    (createBatch new (fun _ => 0)
        [⟨emptyHeader 0 ++ List.replicate 65521 0, .bool, []⟩, ⟨[], .bool, []⟩]).1 =
      (createBatch new (fun _ => 0)
        [⟨[], .bool, []⟩, ⟨List.replicate 65521 0 ++ emptyHeader 0, .bool, []⟩]).1 ∧
    [(⟨emptyHeader 0 ++ List.replicate 65521 0, .bool, []⟩ : Variable), ⟨[], .bool, []⟩] ≠
      [⟨[], .bool, []⟩, ⟨List.replicate 65521 0 ++ emptyHeader 0, .bool, []⟩] := by
  refine ⟨oversize_name_collides new 0 _ (by rw [List.length_replicate]; rfl), ?_⟩
  intro equal
  simp only [List.cons.injEq, Variable.mk.injEq] at equal
  exact emptyHeader_append_ne 0 _ equal.1.1

end AdsRealtime
