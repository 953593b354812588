import AdsRealtime.Shared.Framing
import AdsRealtime.Shared.Runs

set_option autoImplicit false

namespace AdsRealtime

open LittleEndian Framing

namespace VariableBatch

structure Entry where
  name : List UInt8
  data : List UInt8
  timestampUs : UInt64
  deriving DecidableEq

end VariableBatch

structure VariableBatch where
  entries : List VariableBatch.Entry
  maxBatchSize : Nat
  batchTimeout : Int
  lastFlush : Int

namespace VariableBatch

-- `duration_cast<microseconds>` of a clock that counts nanoseconds.
def microseconds (nanoseconds : Int) : Int :=
  nanoseconds.tdiv 1000

def Entry.make (name data : List UInt8) (now : Int) : Entry :=
  { name := name, data := data, timestampUs := UInt64.ofInt (microseconds now) }

def new (maxSize : Nat) (timeout now : Int) : VariableBatch :=
  { entries := [], maxBatchSize := maxSize, batchTimeout := timeout, lastFlush := now }

def shouldFlush (batch : VariableBatch) (now : Int) : Bool :=
  if batch.entries.length ≥ batch.maxBatchSize then
    true
  else
    microseconds (now - batch.lastFlush) ≥ batch.batchTimeout

-- clock k is the k-th reading of the clock within the call.
def addVariable (batch : VariableBatch) (clock : Nat → Int) (name data : List UInt8) :
    Bool × VariableBatch :=
  let batch := { batch with entries := batch.entries ++ [Entry.make name data (clock 0)] }
  (batch.shouldFlush (clock 1), batch)

def appendEntry (buffer : List UInt8) (entry : Entry) : List UInt8 :=
  let entryStart := buffer.length
  let buffer := buffer ++ encode 4 0
  let dataStart := buffer.length
  let nameLen := UInt16.ofNat entry.name.length
  let buffer := buffer ++ encode 2 nameLen.toNat
  let buffer := buffer ++ entry.name
  let buffer := buffer ++ encode 8 entry.timestampUs.toNat
  let dataLen := UInt32.ofNat entry.data.length
  let buffer := buffer ++ encode 4 dataLen.toNat
  let buffer := buffer ++ entry.data
  let entryLen := UInt32.ofNat (buffer.length - dataStart)
  patch buffer entryStart (encode 4 entryLen.toNat)

def serialize (batch : VariableBatch) : List UInt8 :=
  let count := UInt32.ofNat batch.entries.length
  batch.entries.foldl appendEntry (encode 4 count.toNat)

def clear (batch : VariableBatch) (now : Int) : VariableBatch :=
  { batch with entries := [], lastFlush := now }

def size (batch : VariableBatch) : Nat :=
  batch.entries.length

def empty (batch : VariableBatch) : Bool :=
  batch.entries.isEmpty

-- [name_len:2][name][timestamp:8][data_len:4][data]
def record (entry : Entry) : List UInt8 :=
  encode 2 (UInt16.ofNat entry.name.length).toNat ++ entry.name ++
    encode 8 entry.timestampUs.toNat ++ encode 4 (UInt32.ofNat entry.data.length).toNat ++
    entry.data

def readRecords (buffer : List UInt8) : Option (List (List UInt8) × List UInt8) :=
  match readNat 4 buffer with
  | none => none
  | some (count, rest) => readFrames 4 count rest

def parseRecord (bytes : List UInt8) : Option (Entry × List UInt8) := do
  let (nameLen, rest) ← readNat 2 bytes
  let (name, rest) ← takeExactly nameLen rest
  let (timestampUs, rest) ← readNat 8 rest
  let (dataLen, rest) ← readNat 4 rest
  let (data, rest) ← takeExactly dataLen rest
  some ({ name := name, data := data, timestampUs := UInt64.ofNat timestampUs }, rest)

theorem length_record (entry : Entry) :
    (record entry).length = 14 + entry.name.length + entry.data.length := by
  simp only [record, List.length_append, length_encode]
  omega

theorem appendEntry_eq (buffer : List UInt8) {entry : Entry}
    (small : (record entry).length < 2 ^ 32) :
    appendEntry buffer entry = buffer ++ frame 4 (record entry) := by
  have behind : ((((buffer ++ encode 4 0) ++ encode 2 (UInt16.ofNat entry.name.length).toNat ++
      entry.name) ++ encode 8 entry.timestampUs.toNat) ++
      encode 4 (UInt32.ofNat entry.data.length).toNat) ++ entry.data =
        buffer ++ encode 4 0 ++ record entry := by
    simp only [record, List.append_assoc]
  have length : (buffer ++ encode 4 0 ++ record entry).length - (buffer ++ encode 4 0).length =
      (record entry).length := by
    rw [List.length_append, Nat.add_sub_cancel_left]
  simp only [appendEntry, behind, length, UInt32.toNat_ofNat_of_lt' small]
  rw [patch_append (by rw [length_encode, length_encode]), frame, List.append_assoc]

theorem foldl_appendEntry (buffer : List UInt8) (entries : List Entry)
    (small : ∀ entry ∈ entries, (record entry).length < 2 ^ 32) :
    entries.foldl appendEntry buffer = buffer ++ (entries.map record).flatMap (frame 4) := by
  induction entries generalizing buffer with
  | nil => simp
  | cons entry rest ih =>
    rw [List.foldl_cons, appendEntry_eq buffer (small entry List.mem_cons_self),
      ih _ fun other member => small other (List.mem_cons_of_mem _ member), List.map_cons,
      List.flatMap_cons, List.append_assoc]

theorem readRecords_serialize (batch : VariableBatch) (count : batch.entries.length < 2 ^ 32)
    (small : ∀ entry ∈ batch.entries, (record entry).length < 2 ^ 32) :
    readRecords batch.serialize = some (batch.entries.map record, []) := by
  have records := readFrames_append 4 (batch.entries.map record) [] (by
    intro bytes member
    obtain ⟨entry, inside, rfl⟩ := List.mem_map.mp member
    exact small entry inside)
  rw [List.length_map, List.append_nil] at records
  rw [readRecords, serialize, foldl_appendEntry _ _ small, UInt32.toNat_ofNat_of_lt' count,
    readNat_encode count]
  exact records

theorem parseRecord_record {entry : Entry} (name : entry.name.length < 2 ^ 16)
    (data : entry.data.length < 2 ^ 32) (rest : List UInt8) :
    parseRecord (record entry ++ rest) = some (entry, rest) := by
  have stamp : entry.timestampUs.toNat < 256 ^ 8 := entry.timestampUs.toNat_lt
  have stampBack : UInt64.ofNat entry.timestampUs.toNat = entry.timestampUs := by simp
  rw [parseRecord, record, UInt16.toNat_ofNat_of_lt' name, UInt32.toNat_ofNat_of_lt' data]
  simp only [List.append_assoc]
  rw [readNat_encode name]
  simp only [Option.bind_eq_bind, Option.bind_some, takeExactly_append]
  rw [readNat_encode stamp]
  simp only [Option.bind_some]
  rw [readNat_encode data]
  simp only [Option.bind_some, takeExactly_append, stampBack]

structure Call where
  clock : Nat → Int
  name : List UInt8
  data : List UInt8

def Call.entry (call : Call) : Entry :=
  Entry.make call.name call.data (call.clock 0)

def perform (batch : VariableBatch) (call : Call) : VariableBatch :=
  (batch.addVariable call.clock call.name call.data).2

theorem entries_after (batch : VariableBatch) (calls : List Call) :
    (Runs.after perform batch calls).entries = batch.entries ++ calls.map Call.entry := by
  induction calls generalizing batch with
  | nil => simp
  | cons call rest ih =>
    rw [Runs.after_cons, ih, List.map_cons, List.append_cons]
    rfl

theorem serialize_readBack (maxSize : Nat) (timeout now : Int) (calls : List Call)
    (count : calls.length < 2 ^ 32)
    (small : ∀ call ∈ calls, (record call.entry).length < 2 ^ 32) :
    readRecords (Runs.after perform (new maxSize timeout now) calls).serialize =
        some (calls.map fun call => record call.entry, []) ∧
      ((∀ call ∈ calls, call.name.length < 2 ^ 16) →
        ∀ call ∈ calls, ∀ rest,
          parseRecord (record call.entry ++ rest) = some (call.entry, rest)) := by
  have entries := entries_after (new maxSize timeout now) calls
  change _ = calls.map Call.entry at entries
  constructor
  · rw [readRecords_serialize]
    · rw [entries, List.map_map]
      rfl
    · rw [entries, List.length_map]
      exact count
    · rw [entries]
      intro entry member
      obtain ⟨call, inside, rfl⟩ := List.mem_map.mp member
      exact small call inside
  · intro names call member rest
    have size := small call member
    rw [length_record] at size
    exact parseRecord_record (names call member) (by omega) rest

def twoCalls : List Call :=
  [{ clock := fun _ => 7000, name := [0x61], data := [1, 2, 3, 4] },
    { clock := fun _ => 8000, name := [0x62, 0x63], data := [] }]

theorem serialize_readBack_two :
    readRecords (Runs.after perform (new 100 10000 0) twoCalls).serialize =
        some (twoCalls.map fun call => record call.entry, []) ∧
      ((∀ call ∈ twoCalls, call.name.length < 2 ^ 16) →
        ∀ call ∈ twoCalls, ∀ rest,
          parseRecord (record call.entry ++ rest) = some (call.entry, rest)) :=
  serialize_readBack 100 10000 0 twoCalls (by decide) (by decide)

end VariableBatch

end AdsRealtime
