import AdsRealtime.Ring.History

set_option autoImplicit false

namespace AdsRealtime.SharedMemoryRingBuffer.Concurrent

inductive Writer where
  | idle
  | called (data : List UInt8)
  | loadedWritePos (data : List UInt8) (writePos : Nat)
  | copying (data : List UInt8) (writePos : Nat) (todo : List (Nat × UInt8))

-- Where the reader is in `read`; `got` is what it has copied so far.
inductive Reader where
  | idle
  | called (len : Nat)
  | loadedWritePos (len writePos : Nat)
  | copyingLength (len readPos : Nat) (todo : List Nat) (got : List UInt8)
  | copyingData (dataPos msgLen : Nat) (todo : List Nat) (got : List UInt8)

inductive Event where
  | writeAccepted (len free : Nat)
  | writeReturned (success : Bool) (data : List UInt8)
  | readCalled (len : Nat)
  | readReturned (result : ReadResult)

def Event.fillsExactly : Event → Bool
  | .writeAccepted len free => free == len + sizeofMsgLen
  | _ => false

structure System where
  ring : Mapping
  writer : Writer
  reader : Reader
  trace : List Event

def initial (ring : Mapping) : System :=
  { ring := ring, writer := .idle, reader := .idle, trace := [] }

-- One atomic step of the writer. A copy may be cut anywhere: it stores the next chunk + 1 bytes.
def writerStep (bufferSize chunk : Nat) (ring : Mapping) :
    Writer → Mapping × Writer × List Event
  | .idle => (ring, .idle, [])
  | .called data => (ring, .loadedWritePos data ring.writePos, [])
  | .loadedWritePos data writePos =>
    let free := available bufferSize writePos ring.readPos
    if free < data.length + sizeofMsgLen then
      (ring, .idle, [.writeReturned false data])
    else
      (ring, .copying data writePos (frameStores bufferSize data writePos),
        [.writeAccepted data.length free])
  | .copying data writePos [] =>
    ({ ring with
        writePos := ((writePos + sizeofMsgLen) % bufferSize + data.length) % bufferSize },
      .idle, [.writeReturned true data])
  | .copying data writePos (store :: todo) =>
    ({ ring with
        dataBuffer := Circular.storeAll ring.dataBuffer ((store :: todo).take (chunk + 1)) },
      .copying data writePos ((store :: todo).drop (chunk + 1)), [])

def readerStep (bufferSize chunk : Nat) (ring : Mapping) :
    Reader → Mapping × Reader × List Event
  | .idle => (ring, .idle, [])
  | .called len => (ring, .loadedWritePos len ring.writePos, [])
  | .loadedWritePos len writePos =>
    if ring.readPos = writePos then
      (ring, .idle, [.readReturned { success := false, len := len, data := [] }])
    else
      (ring, .copyingLength len ring.readPos
        (readWrappedLoads bufferSize sizeofMsgLen ring.readPos) [], [])
  | .copyingLength len readPos [] got =>
    let msgLen := LittleEndian.decode got
    let dataPos := (readPos + sizeofMsgLen) % bufferSize
    if msgLen > len then
      (ring, .idle, [.readReturned { success := false, len := msgLen, data := [] }])
    else
      (ring, .copyingData dataPos msgLen (readWrappedLoads bufferSize msgLen dataPos) [], [])
  | .copyingLength len readPos (address :: todo) got =>
    (ring, .copyingLength len readPos ((address :: todo).drop (chunk + 1))
      (got ++ Circular.loadAll ring.dataBuffer ((address :: todo).take (chunk + 1))), [])
  | .copyingData dataPos msgLen [] got =>
    ({ ring with readPos := (dataPos + msgLen) % bufferSize }, .idle,
      [.readReturned { success := true, len := msgLen, data := got }])
  | .copyingData dataPos msgLen (address :: todo) got =>
    (ring, .copyingData dataPos msgLen ((address :: todo).drop (chunk + 1))
      (got ++ Circular.loadAll ring.dataBuffer ((address :: todo).take (chunk + 1))), [])

inductive Action where
  | callWrite (data : List UInt8)
  | callRead (len : Nat)
  | writer (chunk : Nat)
  | reader (chunk : Nat)

def Action.isWriter : Action → Bool
  | .callWrite _ | .writer _ => true
  | .callRead _ | .reader _ => false

def callWrite (bufferSize : Nat) (data : List UInt8) : Writer → Writer × List Event
  | .idle =>
    if tooLarge bufferSize data.length then (.idle, [.writeReturned false data])
    else (.called data, [])
  | busy => (busy, [])

def callRead (len : Nat) : Reader → Reader × List Event
  | .idle => (.called len, [.readCalled len])
  | busy => (busy, [])

/-- A call made while the party is still in the last one leaves everything as it is. -/
def act (bufferSize : Nat) (system : System) : Action → System
  | .callWrite data =>
    let (writer, events) := callWrite bufferSize data system.writer
    { system with writer := writer, trace := system.trace ++ events }
  | .callRead len =>
    let (reader, events) := callRead len system.reader
    { system with reader := reader, trace := system.trace ++ events }
  | .writer chunk =>
    let (ring, writer, events) := writerStep bufferSize chunk system.ring system.writer
    { system with ring := ring, writer := writer, trace := system.trace ++ events }
  | .reader chunk =>
    let (ring, reader, events) := readerStep bufferSize chunk system.ring system.reader
    { system with ring := ring, reader := reader, trace := system.trace ++ events }

def reached (bufferSize : Nat) (ring : Mapping) (actions : List Action) : System :=
  Runs.after (act bufferSize) (initial ring) actions

def Writer.EndsOutside (bufferSize : Nat) (ring : Mapping) : Writer → Prop
  | .loadedWritePos data writePos =>
    data.length + sizeofMsgLen ≤ available bufferSize writePos ring.readPos ∧
      SharedMemoryRingBuffer.EndsOutside bufferSize writePos data.length
  | .idle | .called _ | .copying _ _ _ => False

def LeavesView (bufferSize : Nat) (system : System) : Action → Prop
  | .writer _ => system.writer.EndsOutside bufferSize system.ring
  | .callWrite _ | .callRead _ | .reader _ => False

def StaysInView (bufferSize : Nat) (ring : Mapping) (actions : List Action) : Prop :=
  Runs.Guarded (act bufferSize) (fun system action => ¬ LeavesView bufferSize system action)
    (initial ring) actions

def written : List Event → List (List UInt8)
  | [] => []
  | .writeReturned true data :: rest => data :: written rest
  | .writeReturned false _ :: rest => written rest
  | .writeAccepted _ _ :: rest => written rest
  | .readCalled _ :: rest => written rest
  | .readReturned _ :: rest => written rest

def delivered : List Event → List (List UInt8)
  | [] => []
  | .readReturned result :: rest =>
    if result.success then result.data :: delivered rest else delivered rest
  | .writeReturned _ _ :: rest => delivered rest
  | .writeAccepted _ _ :: rest => delivered rest
  | .readCalled _ :: rest => delivered rest

def unread (trace : List Event) : List (List UInt8) :=
  (written trace).drop (delivered trace).length

theorem written_append (xs ys : List Event) : written (xs ++ ys) = written xs ++ written ys := by
  induction xs with
  | nil => rfl
  | cons event rest ih =>
    rcases event with _ | ⟨_ | _, _⟩ | _ | _ <;> simp [written, ih]

theorem delivered_append (xs ys : List Event) :
    delivered (xs ++ ys) = delivered xs ++ delivered ys := by
  induction xs with
  | nil => rfl
  | cons event rest ih =>
    cases event with
    | readReturned result =>
      by_cases success : result.success <;> simp [delivered, success, ih]
    | _ => simp [delivered, ih]

-- Only the step in which a read succeeds changes the mapping, and then the read position alone.
theorem readerStep_cases (bufferSize chunk : Nat) (ring : Mapping) (reader : Reader) :
    (∃ reader' events, readerStep bufferSize chunk ring reader = (ring, reader', events) ∧
        written events = []) ∨
      ∃ readPos result, readerStep bufferSize chunk ring reader =
          ({ ring with readPos := readPos % bufferSize }, .idle, [.readReturned result]) ∧
        result.success = true := by
  cases reader with
  | idle => exact .inl ⟨_, _, rfl, rfl⟩
  | called len => exact .inl ⟨_, _, rfl, rfl⟩
  | loadedWritePos len writePos =>
    simp only [readerStep]
    split <;> exact .inl ⟨_, _, rfl, rfl⟩
  | copyingLength len readPos todo got =>
    cases todo with
    | nil =>
      simp only [readerStep]
      split <;> exact .inl ⟨_, _, rfl, rfl⟩
    | cons address todo => exact .inl ⟨_, _, rfl, rfl⟩
  | copyingData dataPos msgLen todo got =>
    cases todo with
    | nil => exact .inr ⟨_, _, rfl, rfl⟩
    | cons address todo => exact .inl ⟨_, _, rfl, rfl⟩

theorem readerStep_silent {bufferSize chunk : Nat} {ring ring' : Mapping} {reader reader' : Reader}
    {events : List Event}
    (step : readerStep bufferSize chunk ring reader = (ring', reader', events))
    (silent : delivered events = []) : ring' = ring := by
  rcases readerStep_cases bufferSize chunk ring reader with
    ⟨_, _, still, _⟩ | ⟨_, result, returned, success⟩
  · rw [step] at still
    exact congrArg Prod.fst still
  · rw [step] at returned
    obtain ⟨_, _, rfl⟩ := Prod.mk.inj returned |>.imp_right Prod.mk.inj
    simp [delivered, success] at silent

theorem delivered_act (bufferSize : Nat) (system : System) (action : Action) :
    delivered system.trace <+: delivered (act bufferSize system action).trace := by
  cases action <;> simp only [act, delivered_append] <;> exact List.prefix_append _ _

theorem delivered_after (bufferSize : Nat) (system : System) (actions : List Action) :
    delivered system.trace <+: delivered (Runs.after (act bufferSize) system actions).trace := by
  induction actions generalizing system with
  | nil => exact List.prefix_refl _
  | cons action rest ih => exact (delivered_act bufferSize system action).trans (ih _)

theorem ring_of_undelivered {bufferSize : Nat} (during : List Action) (system other : System)
    (sameRing : system.ring = other.ring) (sameWriter : system.writer = other.writer)
    (undelivered : delivered (Runs.after (act bufferSize) system during).trace =
      delivered system.trace) :
    (Runs.after (act bufferSize) system during).ring =
      (Runs.after (act bufferSize) other (during.filter Action.isWriter)).ring := by
  induction during generalizing system other with
  | nil => exact sameRing
  | cons action rest ih =>
    have shorter : delivered (act bufferSize system action).trace <+: delivered system.trace :=
      undelivered ▸ delivered_after bufferSize (act bufferSize system action) rest
    have same := (delivered_act bufferSize system action).eq_of_length_le shorter.length_le
    replace undelivered := undelivered.trans same
    cases action with
    | callWrite data =>
      rw [List.filter_cons_of_pos rfl]
      apply ih (act bufferSize system (.callWrite data)) (act bufferSize other (.callWrite data))
        sameRing _ undelivered
      simp only [act, sameWriter]
    | callRead len =>
      rw [List.filter_cons_of_neg Bool.false_ne_true]
      exact ih (act bufferSize system (.callRead len)) other sameRing sameWriter undelivered
    | writer chunk =>
      rw [List.filter_cons_of_pos rfl]
      apply ih (act bufferSize system (.writer chunk)) (act bufferSize other (.writer chunk)) _ _
        undelivered <;>
        simp only [act, sameRing, sameWriter]
    | reader chunk =>
      rw [List.filter_cons_of_neg Bool.false_ne_true]
      rcases step : readerStep bufferSize chunk system.ring system.reader with
        ⟨ring', reader', events⟩
      have kept : ring' = system.ring := by
        apply readerStep_silent step
        simpa only [act, step, delivered_append, List.self_eq_append_right] using same
      refine ih (act bufferSize system (.reader chunk)) other ?_ ?_ undelivered
      · simp only [act, step]
        exact kept.trans sameRing
      · simp only [act, step]
        exact sameWriter

theorem act_reader {bufferSize chunk : Nat} {ring ring' : Mapping} {reader reader' : Reader}
    {events : List Event}
    (step : readerStep bufferSize chunk ring reader = (ring', reader', events)) (writer : Writer)
    (trace : List Event) :
    act bufferSize ⟨ring, writer, reader, trace⟩ (.reader chunk) =
      ⟨ring', writer, reader', trace ++ events⟩ := by
  simp only [act, step]

theorem readerStep_copyLength {bufferSize chunk len readPos : Nat} {ring : Mapping}
    {todo : List Nat} (some : 0 < todo.length) (all : todo.length ≤ chunk + 1) :
    readerStep bufferSize chunk ring (.copyingLength len readPos todo []) =
      (ring, .copyingLength len readPos [] (Circular.loadAll ring.dataBuffer todo), []) := by
  cases todo with
  | nil => exact absurd some (Nat.lt_irrefl 0)
  | cons address todo =>
    rw [readerStep, List.drop_eq_nil_of_le all, List.take_of_length_le all, List.nil_append]

theorem after_idle_reader {bufferSize : Nat} {ring : Mapping} {writer : Writer} {trace : List Event}
    (chunks : List Nat) :
    Runs.after (act bufferSize) ⟨ring, writer, .idle, trace⟩ (chunks.map .reader) =
      ⟨ring, writer, .idle, trace⟩ := by
  induction chunks with
  | nil => rfl
  | cons chunk chunks ih =>
    rw [List.map_cons, Runs.after_cons, act_reader rfl, List.append_nil, ih]

theorem after_copyData {bufferSize chunk dataPos msgLen : Nat} {ring : Mapping} {writer : Writer}
    {trace : List Event} {todo : List Nat} (all : todo.length ≤ chunk + 1) :
    Runs.after (act bufferSize) ⟨ring, writer, .copyingData dataPos msgLen todo [], trace⟩
        [.reader chunk, .reader 0] =
      ⟨{ ring with readPos := (dataPos + msgLen) % bufferSize }, writer, .idle,
        trace ++ [.readReturned
          { success := true, len := msgLen, data := Circular.loadAll ring.dataBuffer todo }]⟩ := by
  cases todo with
  | nil =>
    rw [Runs.after_cons, act_reader rfl]
    exact after_idle_reader [0]
  | cons address todo =>
    have copied : readerStep bufferSize chunk ring
          (.copyingData dataPos msgLen (address :: todo) []) =
        (ring, .copyingData dataPos msgLen []
          (Circular.loadAll ring.dataBuffer (address :: todo)), []) := by
      rw [readerStep, List.drop_eq_nil_of_le all, List.take_of_length_le all, List.nil_append]
    rw [Runs.after_cons, act_reader copied, List.append_nil, Runs.after_cons, act_reader rfl]
    rfl

theorem read_uninterrupted (bufferSize len : Nat) (ring : Mapping) (writer : Writer)
    (trace : List Event) :
    Runs.after (act bufferSize) ⟨ring, writer, .idle, trace⟩
        (.callRead len :: [0, 0, 3, 0, len, 0].map .reader) =
      ⟨(read bufferSize len ring).2, writer, .idle,
        trace ++ [.readCalled len, .readReturned (read bufferSize len ring).1]⟩ := by
  have called : act bufferSize ⟨ring, writer, .idle, trace⟩ (.callRead len) =
      ⟨ring, writer, .called len, trace ++ [.readCalled len]⟩ := rfl
  have loaded : readerStep bufferSize 0 ring (.called len) =
      (ring, .loadedWritePos len ring.writePos, []) := rfl
  simp only [List.map_cons]
  rw [Runs.after_cons, called, Runs.after_cons, act_reader loaded, List.append_nil,
    Runs.after_cons]
  by_cases empty : ring.readPos = ring.writePos
  · have answered : readerStep bufferSize 0 ring (.loadedWritePos len ring.writePos) =
        (ring, .idle, [.readReturned { success := false, len := len, data := [] }]) := by
      rw [readerStep, if_pos empty]
    rw [act_reader answered, read, if_pos empty, List.append_assoc]
    exact after_idle_reader [3, 0, len, 0]
  · have apart : readerStep bufferSize 0 ring (.loadedWritePos len ring.writePos) =
        (ring, .copyingLength len ring.readPos
          (readWrappedLoads bufferSize sizeofMsgLen ring.readPos) [], []) := by
      rw [readerStep, if_neg empty]
    have copied : readerStep bufferSize 3 ring (.copyingLength len ring.readPos
          (readWrappedLoads bufferSize sizeofMsgLen ring.readPos) []) =
        (ring, .copyingLength len ring.readPos []
          (readWrapped bufferSize ring.dataBuffer sizeofMsgLen ring.readPos), []) := by
      apply readerStep_copyLength <;> rw [length_readWrappedLoads, sizeofMsgLen]
      decide
    rw [act_reader apart, Runs.after_cons, act_reader copied, Runs.after_cons, read,
      if_neg empty, List.append_nil, List.append_nil]
    generalize length : LittleEndian.decode
      (readWrapped bufferSize ring.dataBuffer sizeofMsgLen ring.readPos) = msgLen
    by_cases large : msgLen > len
    · have answered : readerStep bufferSize 0 ring (.copyingLength len ring.readPos []
            (readWrapped bufferSize ring.dataBuffer sizeofMsgLen ring.readPos)) =
          (ring, .idle, [.readReturned { success := false, len := msgLen, data := [] }]) := by
        simp only [readerStep, length, if_pos large]
      rw [act_reader answered, if_pos large, List.append_assoc]
      exact after_idle_reader [len, 0]
    · have fits : readerStep bufferSize 0 ring (.copyingLength len ring.readPos []
            (readWrapped bufferSize ring.dataBuffer sizeofMsgLen ring.readPos)) =
          (ring, .copyingData ((ring.readPos + sizeofMsgLen) % bufferSize) msgLen
            (readWrappedLoads bufferSize msgLen ((ring.readPos + sizeofMsgLen) % bufferSize)) [],
            []) := by
        simp only [readerStep, length, if_neg large]
      have all : (readWrappedLoads bufferSize msgLen
          ((ring.readPos + sizeofMsgLen) % bufferSize)).length ≤ len + 1 := by
        rw [length_readWrappedLoads]
        omega
      rw [act_reader fits, if_neg large, List.append_nil]
      exact (after_copyData all).trans (by rw [List.append_assoc]; rfl)

theorem length_frameStores (bufferSize : Nat) (data : List UInt8) (writePos : Nat) :
    (frameStores bufferSize data writePos).length = sizeofMsgLen + data.length := by
  rw [frameStores, List.length_append, length_writeWrappedStores, length_writeWrappedStores,
    LittleEndian.length_encode]

theorem act_writer {bufferSize chunk : Nat} {ring ring' : Mapping} {writer writer' : Writer}
    {events : List Event}
    (step : writerStep bufferSize chunk ring writer = (ring', writer', events)) (reader : Reader)
    (trace : List Event) :
    act bufferSize ⟨ring, writer, reader, trace⟩ (.writer chunk) =
      ⟨ring', writer', reader, trace ++ events⟩ := by
  simp only [act, step]

theorem after_idle_writer {bufferSize : Nat} {ring : Mapping} {reader : Reader}
    {trace : List Event} (chunks : List Nat) :
    Runs.after (act bufferSize) ⟨ring, .idle, reader, trace⟩ (chunks.map .writer) =
      ⟨ring, .idle, reader, trace⟩ := by
  induction chunks with
  | nil => rfl
  | cons chunk chunks ih =>
    rw [List.map_cons, Runs.after_cons, act_writer rfl, List.append_nil, ih]

theorem writerStep_copy {bufferSize chunk writePos : Nat} {ring : Mapping} {data : List UInt8}
    {todo : List (Nat × UInt8)} (some : 0 < todo.length) (all : todo.length ≤ chunk + 1) :
    writerStep bufferSize chunk ring (.copying data writePos todo) =
      ({ ring with dataBuffer := Circular.storeAll ring.dataBuffer todo },
        .copying data writePos [], []) := by
  cases todo with
  | nil => exact absurd some (Nat.lt_irrefl 0)
  | cons store todo => rw [writerStep, List.drop_eq_nil_of_le all, List.take_of_length_le all]

def writeEvents (bufferSize : Nat) (data : List UInt8) (ring : Mapping) : List Event :=
  if (write bufferSize data ring).1 then
    [.writeAccepted data.length (available bufferSize ring.writePos ring.readPos),
      .writeReturned true data]
  else [.writeReturned false data]

theorem write_uninterrupted (bufferSize : Nat) (data : List UInt8) (ring : Mapping)
    (reader : Reader) (trace : List Event) :
    Runs.after (act bufferSize) ⟨ring, .idle, reader, trace⟩
        [.callWrite data, .writer 0, .writer 0, .writer (sizeofMsgLen + data.length), .writer 0] =
      ⟨(write bufferSize data ring).2, .idle, reader,
        trace ++ writeEvents bufferSize data ring⟩ := by
  rcases write_cases bufferSize data ring with ⟨small, fits, accepted⟩ | ⟨reason, refused⟩
  · have called : act bufferSize ⟨ring, .idle, reader, trace⟩ (.callWrite data) =
        ⟨ring, .called data, reader, trace⟩ := by
      simp [act, callWrite, tooLarge, Nat.not_lt.mpr small]
    have loaded : writerStep bufferSize 0 ring (.called data) =
        (ring, .loadedWritePos data ring.writePos, []) := rfl
    have checked : writerStep bufferSize 0 ring (.loadedWritePos data ring.writePos) =
        (ring, .copying data ring.writePos (frameStores bufferSize data ring.writePos),
          [.writeAccepted data.length (available bufferSize ring.writePos ring.readPos)]) := by
      rw [writerStep, if_neg (Nat.not_lt.mpr fits)]
    have stores := length_frameStores bufferSize data ring.writePos
    have copied := @writerStep_copy bufferSize (sizeofMsgLen + data.length) ring.writePos ring data
      (frameStores bufferSize data ring.writePos) (by rw [stores, sizeofMsgLen]; omega)
      (by rw [stores]; omega)
    rw [Runs.after_cons, called, Runs.after_cons, act_writer loaded, Runs.after_cons,
      act_writer checked, Runs.after_cons, act_writer copied, Runs.after_cons, act_writer rfl,
      accepted, writeEvents, accepted]
    simp [published]
  · rw [refused, writeEvents, refused]
    by_cases large : data.length > bufferSize / 2
    · have called : act bufferSize ⟨ring, .idle, reader, trace⟩ (.callWrite data) =
          ⟨ring, .idle, reader, trace ++ [.writeReturned false data]⟩ := by
        simp [act, callWrite, tooLarge, large]
      rw [Runs.after_cons, called]
      exact after_idle_writer [0, 0, sizeofMsgLen + data.length, 0]
    · have called : act bufferSize ⟨ring, .idle, reader, trace⟩ (.callWrite data) =
          ⟨ring, .called data, reader, trace⟩ := by
        simp [act, callWrite, tooLarge, large]
      have loaded : writerStep bufferSize 0 ring (.called data) =
          (ring, .loadedWritePos data ring.writePos, []) := rfl
      have checked : writerStep bufferSize 0 ring (.loadedWritePos data ring.writePos) =
          (ring, .idle, [.writeReturned false data]) := by
        rw [writerStep, if_pos (reason.resolve_left large)]
      rw [Runs.after_cons, called, Runs.after_cons, act_writer loaded, Runs.after_cons,
        act_writer checked, List.append_nil]
      exact after_idle_writer [sizeofMsgLen + data.length, 0]

end AdsRealtime.SharedMemoryRingBuffer.Concurrent
