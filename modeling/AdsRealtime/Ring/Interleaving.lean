import AdsRealtime.Ring.Concurrent
import AdsRealtime.Shared.Channel

set_option autoImplicit false

namespace AdsRealtime.SharedMemoryRingBuffer.Concurrent

open Circular (Holds around loadAll)

def service : Channel.Service (List UInt8) Nat ReadResult where
  answer := answer
  taken := fun result => if result.success then [result.data] else []
  remaining := remaining
  conserves := by
    intro len queue
    cases queue with
    | nil => rfl
    | cons message rest =>
      by_cases fits : message.length ≤ len <;> simp [answer, remaining, fits]

theorem service_delivers {len : Nat} {vacant : Bool} {message : List UInt8}
    {rest : List (List UInt8)} (fits : message.length ≤ len) :
    Channel.Step service ⟨message :: rest, some (len, vacant)⟩
      (.answered { success := true, len := message.length, data := message }) ⟨rest, none⟩ := by
  have answered : Channel.Step service ⟨message :: rest, some (len, vacant)⟩
      (.answered (answer len (message :: rest))) ⟨remaining len (message :: rest), none⟩ :=
    .answered
  simpa only [answer, remaining, if_pos fits] using answered

theorem service_refuses {len : Nat} {vacant : Bool} {message : List UInt8}
    {rest : List (List UInt8)} (short : ¬ message.length ≤ len) :
    Channel.Step service ⟨message :: rest, some (len, vacant)⟩
      (.answered { success := false, len := message.length, data := [] })
      ⟨message :: rest, none⟩ := by
  have answered : Channel.Step service ⟨message :: rest, some (len, vacant)⟩
      (.answered (answer len (message :: rest))) ⟨remaining len (message :: rest), none⟩ :=
    .answered
  simpa only [answer, remaining, if_neg short] using answered

def observe : Event → Option (Channel.Event (List UInt8) Nat ReadResult)
  | .writeAccepted _ _ => none
  | .writeReturned false _ => none
  | .writeReturned true data => some (.sent data)
  | .readCalled len => some (.asked len)
  | .readReturned result => some (.answered result)

def observed (trace : List Event) : List (Channel.Event (List UInt8) Nat ReadResult) :=
  trace.filterMap observe

theorem sent_observed (trace : List Event) : Channel.sent (observed trace) = written trace := by
  induction trace with
  | nil => rfl
  | cons event rest ih =>
    rcases event with _ | ⟨_ | _, _⟩ | _ | _ <;>
      simpa [observed, observe, List.filterMap_cons, Channel.sent, written] using ih

theorem taken_observed (trace : List Event) :
    Channel.taken service (observed trace) = delivered trace := by
  induction trace with
  | nil => rfl
  | cons event rest ih =>
    rcases event with _ | ⟨_ | _, _⟩ | _ | result
    case readReturned =>
      by_cases success : result.success <;>
        simpa [observed, observe, List.filterMap_cons, Channel.taken, delivered, service,
          success] using ih
    all_goals simpa [observed, observe, List.filterMap_cons, Channel.taken, delivered] using ih

theorem pending_observed (trace : List Event) :
    Channel.pending service (observed trace) = unread trace := by
  rw [Channel.pending, sent_observed, taken_observed, unread]

structure WriterCopying (bufferSize : Nat) (ring : Mapping) (queue : List (List UInt8))
    (data : List UInt8) (todo : List (Nat × UInt8)) : Prop where
  small : data.length ≤ bufferSize / 2
  fits : (frames queue).length + (frame data).length < bufferSize
  inView : ∀ address ∈ around bufferSize ring.writePos (frame data).length,
    address < ring.viewSize
  finishes : Holds (Circular.storeAll ring.dataBuffer todo) bufferSize ring.writePos (frame data)
  behind : ∀ store ∈ todo, store.1 ∈ around bufferSize ring.writePos (frame data).length

def WriterReady (bufferSize : Nat) (ring : Mapping) (queue : List (List UInt8)) : Writer → Prop
  | .idle => True
  | .called data => data.length ≤ bufferSize / 2
  | .loadedWritePos data writePos => data.length ≤ bufferSize / 2 ∧ writePos = ring.writePos
  | .copying data writePos todo =>
    writePos = ring.writePos ∧ WriterCopying bufferSize ring queue data todo

structure ReaderCopying (bufferSize : Nat) (ring : Mapping) (queue : List (List UInt8))
    (contents : List UInt8) (todo : List Nat) (got : List UInt8) : Prop where
  finishes : got ++ loadAll ring.dataBuffer todo = contents
  queued : ∀ address ∈ todo, address ∈ around bufferSize ring.readPos (frames queue).length

-- The loaded write position may be out of date: the reader has seen a front part of the queue.
def ReaderReady (bufferSize : Nat) (ring : Mapping) (queue : List (List UInt8))
    (asking : Option (Nat × Bool)) : Reader → Prop
  | .idle => asking = none
  | .called len => ∃ vacant, asking = some (len, vacant) ∧ (queue = [] → vacant = true)
  | .loadedWritePos len writePos => ∃ vacant seen later,
    asking = some (len, vacant) ∧ queue = seen ++ later ∧
      writePos = (ring.readPos + (frames seen).length) % bufferSize ∧
      (seen = [] → vacant = true)
  | .copyingLength len readPos todo got => ∃ vacant message rest,
    asking = some (len, vacant) ∧ queue = message :: rest ∧ readPos = ring.readPos ∧
      ReaderCopying bufferSize ring queue
        (LittleEndian.encode sizeofMsgLen message.length) todo got
  | .copyingData dataPos msgLen todo got => ∃ len vacant message rest,
    asking = some (len, vacant) ∧ queue = message :: rest ∧ message.length ≤ len ∧
      dataPos = (ring.readPos + sizeofMsgLen) % bufferSize ∧ msgLen = message.length ∧
      ReaderCopying bufferSize ring queue message todo got

structure Simulates (bufferSize : Nat) (system : System)
    (state : Channel.State (List UInt8) Nat) : Prop where
  stored : Stored bufferSize system.ring state.queue
  writer : WriterReady bufferSize system.ring state.queue system.writer
  reader : ReaderReady bufferSize system.ring state.queue state.asking system.reader

section Interference

variable {bufferSize : Nat} {ring : Mapping} {queue : List (List UInt8)}

theorem ReaderCopying.storeAll {contents : List UInt8} {todo : List Nat} {got : List UInt8}
    (copying : ReaderCopying bufferSize ring queue contents todo got)
    {stores : List (Nat × UInt8)}
    (untouched : ∀ address ∈ around bufferSize ring.readPos (frames queue).length,
      address ∉ stores.map Prod.fst) :
    ReaderCopying bufferSize
      { ring with dataBuffer := Circular.storeAll ring.dataBuffer stores } queue contents todo
      got where
  finishes := by
    rw [Circular.loadAll_frame _ _ _ fun address member =>
      untouched address (copying.queued address member)]
    exact copying.finishes
  queued := copying.queued

theorem ReaderCopying.publish {contents : List UInt8} {todo : List Nat} {got : List UInt8}
    (copying : ReaderCopying bufferSize ring queue contents todo got) (data : List UInt8)
    (writePos : Nat) :
    ReaderCopying bufferSize { ring with writePos := writePos } (queue ++ [data]) contents todo
      got where
  finishes := copying.finishes
  queued := by
    intro address member
    apply Circular.around_subset _ (copying.queued address member)
    rw [frames_snoc, List.length_append]
    exact Nat.le_add_right _ _

theorem ReaderReady.storeAll {asking : Option (Nat × Bool)} {reader : Reader}
    (ready : ReaderReady bufferSize ring queue asking reader) {stores : List (Nat × UInt8)}
    (untouched : ∀ address ∈ around bufferSize ring.readPos (frames queue).length,
      address ∉ stores.map Prod.fst) :
    ReaderReady bufferSize { ring with dataBuffer := Circular.storeAll ring.dataBuffer stores }
      queue asking reader := by
  cases reader with
  | idle => exact ready
  | called len => exact ready
  | loadedWritePos len writePos => exact ready
  | copyingLength len readPos todo got =>
    obtain ⟨vacant, message, rest, asked, head, same, copying⟩ := ready
    exact ⟨vacant, message, rest, asked, head, same, copying.storeAll untouched⟩
  | copyingData dataPos msgLen todo got =>
    obtain ⟨len, vacant, message, rest, asked, head, fits, same, length, copying⟩ := ready
    exact ⟨len, vacant, message, rest, asked, head, fits, same, length,
      copying.storeAll untouched⟩

theorem ReaderReady.publish {asking : Option (Nat × Bool)} {reader : Reader}
    (ready : ReaderReady bufferSize ring queue asking reader) (data : List UInt8)
    (writePos : Nat) :
    ReaderReady bufferSize { ring with writePos := writePos } (queue ++ [data]) asking reader := by
  cases reader with
  | idle => exact ready
  | called len =>
    obtain ⟨vacant, asked, _⟩ := ready
    exact ⟨vacant, asked, by simp⟩
  | loadedWritePos len loaded =>
    obtain ⟨vacant, seen, later, asked, split, same, none⟩ := ready
    exact ⟨vacant, seen, later ++ [data], asked, by simp [split], same, none⟩
  | copyingLength len readPos todo got =>
    obtain ⟨vacant, message, rest, asked, head, same, copying⟩ := ready
    exact ⟨vacant, message, rest ++ [data], asked, by simp [head], same,
      copying.publish data writePos⟩
  | copyingData dataPos msgLen todo got =>
    obtain ⟨len, vacant, message, rest, asked, head, fits, same, length, copying⟩ := ready
    exact ⟨len, vacant, message, rest ++ [data], asked, by simp [head], fits, same, length,
      copying.publish data writePos⟩

theorem WriterReady.consume {message : List UInt8} {writer : Writer}
    (ready : WriterReady bufferSize ring (message :: queue) writer) (readPos : Nat) :
    WriterReady bufferSize { ring with readPos := readPos } queue writer := by
  cases writer with
  | idle => trivial
  | called data => exact ready
  | loadedWritePos data writePos => exact ready
  | copying data writePos todo =>
    obtain ⟨same, copying⟩ := ready
    have fits := copying.fits
    rw [frames_cons, List.length_append] at fits
    exact ⟨same, { copying with fits := by omega }⟩

end Interference

section Steps

variable {bufferSize : Nat} {ring ring' : Mapping} {queue : List (List UInt8)}
variable {asking : Option (Nat × Bool)} {writer writer' : Writer} {reader reader' : Reader}
variable {events : List Event} {chunk : Nat}

theorem WriterCopying.begin {data : List UInt8} (ring : Mapping)
    (small : data.length ≤ bufferSize / 2)
    (fits : (frames queue).length + (frame data).length < bufferSize)
    (inView : ∀ address ∈ around bufferSize ring.writePos (frame data).length,
      address < ring.viewSize) :
    WriterCopying bufferSize ring queue data (frameStores bufferSize data ring.writePos) := by
  have room : (frame data).length ≤ bufferSize := by
    omega
  have stores := frameStores_eq room ring.writePos
  refine ⟨small, fits, inView, ?_, ?_⟩
  · rw [stores]
    exact Circular.holds_storeAll _ _ room
  · rw [stores]
    exact fun store member => (List.of_mem_zip member).1

theorem WriterCopying.untouched (stored : Stored bufferSize ring queue) {data : List UInt8}
    {todo : List (Nat × UInt8)} (copying : WriterCopying bufferSize ring queue data todo)
    (count : Nat) :
    ∀ address ∈ around bufferSize ring.readPos (frames queue).length,
      address ∉ (todo.take count).map Prod.fst :=
  stored.untouched (Nat.le_of_lt copying.fits) fun store member =>
    copying.behind store (List.mem_of_mem_take member)

theorem WriterCopying.advance {data : List UInt8} {todo : List (Nat × UInt8)}
    (copying : WriterCopying bufferSize ring queue data todo) (count : Nat) :
    WriterCopying bufferSize
      { ring with dataBuffer := Circular.storeAll ring.dataBuffer (todo.take count) } queue data
      (todo.drop count) where
  small := copying.small
  fits := copying.fits
  inView := copying.inView
  finishes := by
    rw [← Circular.storeAll_append, List.take_append_drop]
    exact copying.finishes
  behind := fun store member => copying.behind store (List.mem_of_mem_drop member)

theorem ReaderCopying.advance {contents : List UInt8} {todo : List Nat} {got : List UInt8}
    (copying : ReaderCopying bufferSize ring queue contents todo got) (count : Nat) :
    ReaderCopying bufferSize ring queue contents (todo.drop count)
      (got ++ loadAll ring.dataBuffer (todo.take count)) where
  finishes := by
    rw [List.append_assoc, ← Circular.loadAll_append, List.take_append_drop]
    exact copying.finishes
  queued := fun address member => copying.queued address (List.mem_of_mem_drop member)

theorem ReaderCopying.finished {contents got : List UInt8}
    (copying : ReaderCopying bufferSize ring queue contents [] got) : got = contents := by
  simpa [loadAll] using copying.finishes

theorem ReaderCopying.beginLength {message : List UInt8}
    (stored : Stored bufferSize ring (message :: queue)) :
    ReaderCopying bufferSize ring (message :: queue)
      (LittleEndian.encode sizeofMsgLen message.length)
      (readWrappedLoads bufferSize sizeofMsgLen ring.readPos) [] where
  finishes := stored.readWrapped_length
  queued := by
    have fits := stored.head_fits
    rw [readWrappedLoads_eq (by omega) (by omega)]
    intro address member
    apply Circular.around_subset _ member
    rw [frames_cons, List.length_append, length_frame]
    omega

theorem ReaderCopying.beginData {message : List UInt8}
    (stored : Stored bufferSize ring (message :: queue)) :
    ReaderCopying bufferSize ring (message :: queue) message
      (readWrappedLoads bufferSize message.length
        ((ring.readPos + sizeofMsgLen) % bufferSize)) [] where
  finishes := stored.readWrapped_data
  queued := by
    have fits := stored.head_fits
    rw [readWrappedLoads_eq (by omega) (by omega), Circular.around_mod]
    intro address member
    have inFrame : address ∈ around bufferSize ring.readPos (sizeofMsgLen + message.length) := by
      rw [Circular.around_append]
      exact List.mem_append_right _ member
    apply Circular.around_subset _ inFrame
    rw [frames_cons, List.length_append, length_frame]
    omega

theorem writerStep_sound (narrow : bufferSize < 2 ^ 32) (stored : Stored bufferSize ring queue)
    (ready : WriterReady bufferSize ring queue writer)
    (other : ReaderReady bufferSize ring queue asking reader)
    (stays : ¬ writer.EndsOutside bufferSize ring)
    (step : writerStep bufferSize chunk ring writer = (ring', writer', events))
    (room : ∀ event ∈ events, event.fillsExactly = false) :
    ∃ next, Channel.Run service ⟨queue, asking⟩ (observed events) next ∧
      Stored bufferSize ring' next.queue ∧ WriterReady bufferSize ring' next.queue writer' ∧
      ReaderReady bufferSize ring' next.queue next.asking reader := by
  cases writer with
  | idle =>
    simp only [writerStep, Prod.mk.injEq] at step
    obtain ⟨rfl, rfl, rfl⟩ := step
    exact ⟨_, .nil _, stored, ready, other⟩
  | called data =>
    simp only [writerStep, Prod.mk.injEq] at step
    obtain ⟨rfl, rfl, rfl⟩ := step
    exact ⟨_, .nil _, stored, ⟨ready, rfl⟩, other⟩
  | loadedWritePos data writePos =>
    obtain ⟨small, rfl⟩ := ready
    have space := stored.available_eq
    by_cases full : available bufferSize ring.writePos ring.readPos < data.length + sizeofMsgLen
    · simp only [writerStep, if_pos full, Prod.mk.injEq] at step
      obtain ⟨rfl, rfl, rfl⟩ := step
      exact ⟨_, .nil _, stored, trivial, other⟩
    · simp only [writerStep, if_neg full, Prod.mk.injEq] at step
      obtain ⟨rfl, rfl, rfl⟩ := step
      have notExact : available bufferSize ring.writePos ring.readPos ≠
          data.length + sizeofMsgLen := by
        simpa [Event.fillsExactly] using room
      have fits : (frames queue).length + (frame data).length < bufferSize := by
        rw [length_frame]
        omega
      have inView : ∀ address ∈ around bufferSize ring.writePos (frame data).length,
          address < ring.viewSize := by
        rw [length_frame, stored.view, inView_iff narrow stored.writeInside]
        exact fun outside => stays ⟨Nat.not_lt.mp full, outside⟩
      exact ⟨_, .nil _, stored, ⟨rfl, WriterCopying.begin ring small fits inView⟩, other⟩
  | copying data writePos todo =>
    obtain ⟨rfl, copying⟩ := ready
    cases todo with
    | nil =>
      simp only [writerStep, Prod.mk.injEq] at step
      obtain ⟨rfl, rfl, rfl⟩ := step
      exact ⟨_, .cons (.sent data) (.nil _),
        stored.publish copying.small copying.fits copying.inView copying.finishes, trivial,
        other.publish data _⟩
    | cons store todo =>
      simp only [writerStep, Prod.mk.injEq] at step
      obtain ⟨rfl, rfl, rfl⟩ := step
      have untouched := copying.untouched stored (chunk + 1)
      exact ⟨_, .nil _, stored.storeAll untouched, ⟨rfl, copying.advance (chunk + 1)⟩,
        other.storeAll untouched⟩

theorem readerStep_sound (narrow : bufferSize < 2 ^ 32) (stored : Stored bufferSize ring queue)
    (ready : ReaderReady bufferSize ring queue asking reader)
    (other : WriterReady bufferSize ring queue writer)
    (step : readerStep bufferSize chunk ring reader = (ring', reader', events)) :
    ∃ next, Channel.Run service ⟨queue, asking⟩ (observed events) next ∧
      Stored bufferSize ring' next.queue ∧ WriterReady bufferSize ring' next.queue writer ∧
      ReaderReady bufferSize ring' next.queue next.asking reader' := by
  cases reader with
  | idle =>
    simp only [readerStep, Prod.mk.injEq] at step
    obtain ⟨rfl, rfl, rfl⟩ := step
    exact ⟨_, .nil _, stored, other, ready⟩
  | called len =>
    obtain ⟨vacant, asked, none⟩ := ready
    simp only [readerStep, Prod.mk.injEq] at step
    obtain ⟨rfl, rfl, rfl⟩ := step
    refine ⟨_, .nil _, stored, other, vacant, queue, [], asked, ?_, stored.distance, none⟩
    exact (List.append_nil queue).symm
  | loadedWritePos len writePos =>
    obtain ⟨vacant, seen, later, rfl, rfl, rfl, none⟩ := ready
    by_cases reached : ring.readPos = (ring.readPos + (frames seen).length) % bufferSize
    · simp only [readerStep, if_pos reached, Prod.mk.injEq] at step
      obtain ⟨rfl, rfl, rfl⟩ := step
      obtain rfl := none (stored.seen_eq_nil reached)
      exact ⟨⟨seen ++ later, .none⟩, .cons .missed (.nil _), stored, other, rfl⟩
    · simp only [readerStep, if_neg reached, Prod.mk.injEq] at step
      obtain ⟨rfl, rfl, rfl⟩ := step
      cases seen with
      | nil =>
        rw [frames_nil, List.length_nil, Nat.add_zero,
          Nat.mod_eq_of_lt stored.readInside] at reached
        exact absurd rfl reached
      | cons message rest =>
        exact ⟨_, .nil _, stored, other, vacant, message, rest ++ later, rfl, rfl, rfl,
          ReaderCopying.beginLength stored⟩
  | copyingLength len readPos todo got =>
    obtain ⟨vacant, message, rest, rfl, rfl, rfl, copying⟩ := ready
    cases todo with
    | nil =>
      have length := decode_length narrow (stored.small message (by simp))
      rw [copying.finished] at step
      simp only [readerStep, length] at step
      by_cases large : message.length > len
      · simp only [if_pos large, Prod.mk.injEq] at step
        obtain ⟨rfl, rfl, rfl⟩ := step
        have short : ¬ message.length ≤ len := Nat.not_le.mpr large
        exact ⟨⟨message :: rest, none⟩, .cons (service_refuses short) (.nil _), stored, other, rfl⟩
      · simp only [if_neg large, Prod.mk.injEq] at step
        obtain ⟨rfl, rfl, rfl⟩ := step
        exact ⟨_, .nil _, stored, other, len, vacant, message, rest, rfl, rfl,
          Nat.not_lt.mp large, rfl, rfl, ReaderCopying.beginData stored⟩
    | cons address todo =>
      simp only [readerStep, Prod.mk.injEq] at step
      obtain ⟨rfl, rfl, rfl⟩ := step
      exact ⟨_, .nil _, stored, other, vacant, message, rest, rfl, rfl, rfl,
        copying.advance (chunk + 1)⟩
  | copyingData dataPos msgLen todo got =>
    obtain ⟨len, vacant, message, rest, rfl, rfl, fits, rfl, rfl, copying⟩ := ready
    cases todo with
    | nil =>
      rw [copying.finished] at step
      simp only [readerStep, Prod.mk.injEq] at step
      obtain ⟨rfl, rfl, rfl⟩ := step
      exact ⟨⟨rest, none⟩, .cons (service_delivers fits) (.nil _), stored.consume,
        other.consume _, rfl⟩
    | cons address todo =>
      simp only [readerStep, Prod.mk.injEq] at step
      obtain ⟨rfl, rfl, rfl⟩ := step
      exact ⟨_, .nil _, stored, other, len, vacant, message, rest, rfl, rfl, fits, rfl, rfl,
        copying.advance (chunk + 1)⟩

end Steps

theorem act_simulates {bufferSize : Nat} (narrow : bufferSize < 2 ^ 32) {system : System}
    {state : Channel.State (List UInt8) Nat} (simulates : Simulates bufferSize system state)
    (action : Action)
    (room : ∀ event ∈ (act bufferSize system action).trace, event.fillsExactly = false)
    (stays : ¬ LeavesView bufferSize system action) :
    ∃ next events, (act bufferSize system action).trace = system.trace ++ events ∧
      Channel.Run service state (observed events) next ∧
      Simulates bufferSize (act bufferSize system action) next := by
  obtain ⟨ring, writer, reader, trace⟩ := system
  obtain ⟨stored, ready, other⟩ := simulates
  cases action with
  | callWrite data =>
    cases writer with
    | idle =>
      cases large : tooLarge bufferSize data.length with
      | true =>
        simp only [act, callWrite, large, if_true]
        exact ⟨state, [.writeReturned false data], rfl, .nil state, stored, trivial, other⟩
      | false =>
        have small : data.length ≤ bufferSize / 2 := by
          simpa [tooLarge] using large
        simp only [act, callWrite, large, Bool.false_eq_true, if_false]
        exact ⟨state, [], rfl, .nil state, stored, small, other⟩
    | called pending => exact ⟨state, [], rfl, .nil state, stored, ready, other⟩
    | loadedWritePos pending writePos => exact ⟨state, [], rfl, .nil state, stored, ready, other⟩
    | copying pending writePos todo => exact ⟨state, [], rfl, .nil state, stored, ready, other⟩
  | callRead len =>
    cases reader with
    | idle =>
      obtain ⟨queue, asking⟩ := state
      obtain rfl : asking = none := other
      refine ⟨⟨queue, some (len, queue.isEmpty)⟩, [.readCalled len], rfl,
        .cons (.asked len) (.nil _), stored, ready, queue.isEmpty, rfl, ?_⟩
      exact List.isEmpty_iff.mpr
    | called pending => exact ⟨state, [], rfl, .nil state, stored, ready, other⟩
    | loadedWritePos pending writePos => exact ⟨state, [], rfl, .nil state, stored, ready, other⟩
    | copyingLength pending readPos todo got =>
      exact ⟨state, [], rfl, .nil state, stored, ready, other⟩
    | copyingData dataPos msgLen todo got =>
      exact ⟨state, [], rfl, .nil state, stored, ready, other⟩
  | writer chunk =>
    rcases step : writerStep bufferSize chunk ring writer with ⟨ring', writer', events⟩
    simp only [act, step] at room ⊢
    have newRoom : ∀ event ∈ events, event.fillsExactly = false :=
      fun event member => room event (List.mem_append_right _ member)
    obtain ⟨next, run, stored, ready, other⟩ := 
      writerStep_sound narrow stored ready other stays step newRoom
    exact ⟨next, events, rfl, run, stored, ready, other⟩
  | reader chunk =>
    rcases step : readerStep bufferSize chunk ring reader with ⟨ring', reader', events⟩
    simp only [act, step]
    obtain ⟨next, run, stored, ready, other⟩ := readerStep_sound narrow stored other ready step
    exact ⟨next, events, rfl, run, stored, ready, other⟩

def Refines (bufferSize : Nat) (system : System) : Prop :=
  ∃ state, Channel.Run service Channel.start (observed system.trace) state ∧
    Simulates bufferSize system state

theorem trace_act (bufferSize : Nat) (system : System) (action : Action) :
    system.trace <+: (act bufferSize system action).trace := by
  cases action <;> exact List.prefix_append _ _

theorem run_refines {bufferSize : Nat} (positive : 0 < bufferSize) (narrow : bufferSize < 2 ^ 32)
    (area : Nat → UInt8) {actions : List Action}
    (room : ∀ event ∈ (reached bufferSize (create bufferSize area) actions).trace,
      event.fillsExactly = false)
    (stays : StaysInView bufferSize (create bufferSize area) actions) :
    Refines bufferSize (reached bufferSize (create bufferSize area) actions) := by
  revert room
  refine Runs.invariant_of_guarded
    (fun system : System => (∀ event ∈ system.trace, event.fillsExactly = false) →
      Refines bufferSize system) ?_ ?_ stays
  · intro system action refines inView room
    obtain ⟨state, run, simulates⟩ :=
      refines fun event member => room event ((trace_act _ _ _).subset member)
    obtain ⟨next, events, extended, more, simulates⟩ :=
      act_simulates narrow simulates action room inView
    refine ⟨next, ?_, simulates⟩
    rw [extended, observed, List.filterMap_append]
    exact Channel.run_trans run more
  · intro _
    exact ⟨Channel.start, .nil _, create_stored positive area, trivial, rfl⟩

def Event.isRead : Event → Bool
  | .readCalled _ | .readReturned _ => true
  | .writeAccepted _ _ | .writeReturned _ _ => false

/--
What the two sides have seen is what a queue shows them: messages come out in order, and a read
answers for the oldest message not yet delivered (or that there was none when it was called).
-/
structure OrderedDelivery (trace : List Event) : Prop where
  inOrder : delivered trace <+: written trace
  answered : ∀ before result later, trace = before ++ .readReturned result :: later →
    ∃ early len middle, before = early ++ .readCalled len :: middle ∧
      (∀ event ∈ middle, event.isRead = false) ∧
      (result = answer len (unread before) ∨ (unread early = [] ∧ result = answer len []))

theorem observed_split {trace : List Event}
    {early middle : List (Channel.Event (List UInt8) Nat ReadResult)} {len : Nat}
    (split : observed trace = early ++ .asked len :: middle) :
    ∃ early' middle', trace = early' ++ .readCalled len :: middle' ∧ observed early' = early ∧
      observed middle' = middle := by
  obtain ⟨front, back, rfl, rfl, tail⟩ := List.filterMap_eq_append_iff.mp split
  obtain ⟨silent, event, rest, rfl, skipped, seen, rfl⟩ := List.filterMap_eq_cons_iff.mp tail
  obtain rfl : event = .readCalled len := by
    rcases event with _ | ⟨_ | _, _⟩ | _ | _ <;> simp_all [observe]
  refine ⟨front ++ silent, rest, by simp, ?_, rfl⟩
  rw [observed, List.filterMap_append, List.filterMap_eq_nil_iff.mpr skipped, List.append_nil]

theorem isRead_of_isSent {trace : List Event}
    (sent : ∀ event ∈ observed trace, event.isSent = true) :
    ∀ event ∈ trace, event.isRead = false := by
  intro event member
  rcases event with _ | ⟨_ | _, _⟩ | len | result
  case readCalled =>
    exact absurd (sent (.asked len) (List.mem_filterMap.mpr ⟨_, member, rfl⟩)) Bool.false_ne_true
  case readReturned =>
    exact absurd (sent (.answered result) (List.mem_filterMap.mpr ⟨_, member, rfl⟩))
      Bool.false_ne_true
  all_goals rfl

theorem Refines.orderedDelivery {bufferSize : Nat} {system : System}
    (refines : Refines bufferSize system) : OrderedDelivery system.trace := by
  obtain ⟨state, run, _⟩ := refines
  constructor
  · have taken := Channel.taken_prefix run
    rwa [taken_observed, sent_observed] at taken
  · intro before result later split
    have whole : observed system.trace = observed before ++ .answered result :: observed later := by
      rw [split, observed, List.filterMap_append, List.filterMap_cons]
      rfl
    rw [whole] at run
    obtain ⟨early, len, middle, front, quiet, reply⟩ := Channel.answer_eq run
    obtain ⟨early, middle, rfl, rfl, rfl⟩ := observed_split front
    rw [pending_observed, pending_observed] at reply
    exact ⟨early, len, middle, rfl, isRead_of_isSent quiet, reply⟩

end AdsRealtime.SharedMemoryRingBuffer.Concurrent
