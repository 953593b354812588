import AdsRealtime.Ring.Interleaving
import AdsRealtime.Ring.WaitFree

set_option autoImplicit false

namespace AdsRealtime.SharedMemoryRingBuffer.Concurrent

open Circular (around)

def Writer.todo : Writer → List Nat
  | .copying _ _ todo => todo.map Prod.fst
  | .idle | .called _ | .loadedWritePos _ _ => []

def Reader.todo : Reader → List Nat
  | .copyingLength _ _ todo _ | .copyingData _ _ todo _ => todo
  | .idle | .called _ | .loadedWritePos _ _ => []

/-- Messages come out whole and in order. A read that is given len + 8 steps of its own returns the
oldest message that was unread when it was called, and a write that is given len + 7 is accepted if
there was room for it when it was called. What does not deliver leaves the ring to the writer, and
no copy leaves the view. -/
structure Delivers (bufferSize : Nat) (ring : Mapping) (actions : List Action) : Prop where
  ordered : OrderedDelivery (reached bufferSize ring actions).trace
  undisturbed : ∀ before during, actions = before ++ during →
    delivered (reached bufferSize ring actions).trace =
      delivered (reached bufferSize ring before).trace →
    (reached bufferSize ring actions).ring =
      (reached bufferSize ring (before ++ during.filter Action.isWriter)).ring
  reads : ∀ before len during, actions = before ++ .callRead len :: during →
    (reached bufferSize ring before).reader = .idle →
    len + 8 ≤ during.countP Action.stepsReader →
    ∃ steps middle result, steps <+: during ∧
      (reached bufferSize ring (before ++ .callRead len :: steps)).trace =
        (reached bufferSize ring before).trace ++ .readCalled len :: middle ++
          [.readReturned result] ∧
      (∀ event ∈ middle, event.isRead = false) ∧
      (unread (reached bufferSize ring before).trace ≠ [] →
        result = answer len (unread (reached bufferSize ring before).trace))
  writes : ∀ before data during, actions = before ++ .callWrite data :: during →
    (reached bufferSize ring before).writer = .idle → data.length ≤ bufferSize / 2 →
    data.length + 7 ≤ during.countP Action.stepsWriter →
    ∃ steps middle success, steps <+: during ∧
      (reached bufferSize ring (before ++ .callWrite data :: steps)).trace =
        (reached bufferSize ring before).trace ++ middle ++ [.writeReturned success data] ∧
      written middle = [] ∧
      ((frames (unread (reached bufferSize ring before).trace)).length + (frame data).length <
        bufferSize → success = true)
  inView : ∀ before, before <+: actions →
    ∀ address ∈ (reached bufferSize ring before).writer.todo ++
      (reached bufferSize ring before).reader.todo, address < ring.viewSize

section Reads

variable {bufferSize : Nat} {system : System} {start : List Event} {len : Nat}

structure ReadUnderWay (start : List Event) (len : Nat) (system : System) : Prop where
  busy : system.reader ≠ .idle
  trace : ∃ middle, system.trace = start ++ .readCalled len :: middle ∧
    ∀ event ∈ middle, event.isRead = false

def ReadEnded (start : List Event) (len : Nat) (system : System) : Prop :=
  ∃ middle result, system.trace = start ++ .readCalled len :: middle ++ [.readReturned result] ∧
    ∀ event ∈ middle, event.isRead = false

theorem writerStep_isRead (bufferSize chunk : Nat) (ring : Mapping) (writer : Writer) :
    ∀ event ∈ (writerStep bufferSize chunk ring writer).2.2, event.isRead = false := by
  cases writer with
  | idle => simp [writerStep]
  | called data => simp [writerStep]
  | loadedWritePos data writePos =>
    simp only [writerStep]
    split <;> simp [Event.isRead]
  | copying data writePos todo => cases todo <;> simp [writerStep, Event.isRead]

theorem callWrite_isRead (bufferSize : Nat) (data : List UInt8) (writer : Writer) :
    ∀ event ∈ (callWrite bufferSize data writer).2, event.isRead = false := by
  cases writer with
  | idle =>
    simp only [callWrite]
    split <;> simp [Event.isRead]
  | _ => simp [callWrite]

theorem ReadUnderWay.keeps (underWay : ReadUnderWay start len system) {action : Action}
    (other : action.stepsReader = false) :
    ReadUnderWay start len (act bufferSize system action) := by
  obtain ⟨busy, middle, trace, quiet⟩ := underWay
  have extend {events : List Event} (silent : ∀ event ∈ events, event.isRead = false) :
      ∃ more, system.trace ++ events = start ++ .readCalled len :: more ∧
        ∀ event ∈ more, event.isRead = false := by
    refine ⟨middle ++ events, by simp [trace], ?_⟩
    exact fun event member => (List.mem_append.mp member).elim (quiet event) (silent event)
  refine ⟨by rwa [reader_keeps busy other], ?_⟩
  cases action with
  | callWrite data => exact extend (callWrite_isRead bufferSize data system.writer)
  | writer chunk => exact extend (writerStep_isRead bufferSize chunk system.ring system.writer)
  | callRead more =>
    have silent : (callRead more system.reader).2 = [] := by
      cases at_ : system.reader with
      | idle => exact absurd at_ busy
      | _ => rfl
    refine @extend (callRead more system.reader).2 ?_
    rw [silent]
    exact fun event member => absurd member (List.not_mem_nil)
  | reader chunk => cases other

theorem ReadUnderWay.comesOn (underWay : ReadUnderWay start len system) (chunk : Nat) :
    ReadEnded start len (act bufferSize system (.reader chunk)) ∨
      ReadUnderWay start len (act bufferSize system (.reader chunk)) ∧
        readerWork (act bufferSize system (.reader chunk)).reader < readerWork system.reader := by
  obtain ⟨busy, middle, trace, quiet⟩ := underWay
  simp only [act]
  rcases readerStep_comesOn busy bufferSize chunk system.ring with
    ⟨ring', result, step⟩ | ⟨reader', step, still, less⟩
  · rw [step]
    exact .inl ⟨middle, result, by simp [trace], quiet⟩
  · rw [step]
    exact .inr ⟨⟨still, middle, by simp [trace], quiet⟩, less⟩

theorem ReadUnderWay.ends (underWay : ReadUnderWay start len system) {during : List Action}
    (enough : readerWork system.reader ≤ during.countP Action.stepsReader) :
    ∃ steps, steps <+: during ∧ ReadEnded start len (Runs.after (act bufferSize) system steps) := by
  refine @Runs.done_within _ _ (act bufferSize) Action.stepsReader (ReadUnderWay start len)
    (ReadEnded start len) (fun state => readerWork state.reader) ?_ ?_ ?_ system underWay during
    enough
  · intro state going
    cases at_ : state.reader with
    | idle => exact absurd at_ going.busy
    | _ => simp [readerWork]
  · intro state action going mine
    cases action with
    | reader chunk => exact going.comesOn chunk
    | _ => cases mine
  · intro state action going other
    exact ⟨going.keeps other, by rw [reader_keeps going.busy other]⟩

theorem lastRead_unique {before before' middle middle' : List Event} {event event' : Event}
    (same : before ++ event :: middle = before' ++ event' :: middle')
    (read : event.isRead = true) (read' : event'.isRead = true)
    (quiet : ∀ event ∈ middle, event.isRead = false)
    (quiet' : ∀ event ∈ middle', event.isRead = false) :
    before = before' ∧ event = event' := by
  rcases List.append_eq_append_iff.mp same with ⟨more, rfl, rest⟩ | ⟨more, rfl, rest⟩
  · cases more with
    | nil => simp_all
    | cons head more =>
      have late : event' ∈ middle := by
        rw [(List.cons.inj rest).2]
        simp
      simp [quiet event' late] at read'
  · cases more with
    | nil => simp_all
    | cons head more =>
      have late : event ∈ middle' := by
        rw [(List.cons.inj rest).2]
        simp
      simp [quiet' event late] at read

theorem delivered_quiet {middle : List Event} (quiet : ∀ event ∈ middle, event.isRead = false) :
    delivered middle = [] := by
  induction middle with
  | nil => rfl
  | cons event rest ih =>
    have here := quiet event (by simp)
    have rest_ := ih fun event member => quiet event (List.mem_cons_of_mem _ member)
    cases event <;> simp_all [delivered, Event.isRead]

theorem answer_append (len : Nat) {queue : List (List UInt8)} (some_ : queue ≠ [])
    (more : List (List UInt8)) : answer len (queue ++ more) = answer len queue := by
  cases queue with
  | nil => exact absurd rfl some_
  | cons message rest => rfl

theorem OrderedDelivery.answered_first {middle : List Event} {result : ReadResult}
    (ordered : OrderedDelivery (start ++ .readCalled len :: middle ++ [.readReturned result]))
    (inOrder : delivered start <+: written start)
    (quiet : ∀ event ∈ middle, event.isRead = false) (some_ : unread start ≠ []) :
    result = answer len (unread start) := by
  obtain ⟨early, len', middle', split, quiet', reply⟩ :=
    ordered.answered (start ++ .readCalled len :: middle) result [] rfl
  obtain ⟨rfl, asked⟩ := lastRead_unique split rfl rfl quiet quiet'
  obtain rfl := Event.readCalled.inj asked
  rcases reply with answered | ⟨none, _⟩
  · have later : unread (start ++ .readCalled len :: middle) = unread start ++ written middle := by
      simp only [unread, written_append, delivered_append, written, delivered,
        delivered_quiet quiet, List.append_nil]
      exact List.drop_append_of_le_length inOrder.length_le
    rw [answered, later, answer_append len some_]
  · exact absurd none some_

end Reads

section Writes

variable {bufferSize : Nat} {system : System} {start : List Event} {data : List UInt8}

def Writer.UpToDate (ring : Mapping) : Writer → Prop
  | .loadedWritePos _ writePos => writePos = ring.writePos
  | .idle | .called _ | .copying _ _ _ => True

theorem readerStep_writePos (bufferSize chunk : Nat) (ring : Mapping) (reader : Reader) :
    (readerStep bufferSize chunk ring reader).1.writePos = ring.writePos := by
  rcases readerStep_cases bufferSize chunk ring reader with ⟨_, _, step, _⟩ | ⟨_, _, step, _⟩ <;>
    rw [step]

theorem act_upToDate (upToDate : system.writer.UpToDate system.ring) (action : Action) :
    (act bufferSize system action).writer.UpToDate (act bufferSize system action).ring := by
  cases action with
  | callWrite more =>
    simp only [act]
    cases at_ : system.writer with
    | idle =>
      simp only [callWrite]
      split <;> trivial
    | _ => rwa [at_] at upToDate
  | callRead len => exact upToDate
  | writer chunk =>
    simp only [act]
    cases system.writer with
    | idle => trivial
    | called pending => rfl
    | loadedWritePos pending writePos =>
      simp only [writerStep]
      split <;> trivial
    | copying pending writePos todo => cases todo <;> trivial
  | reader chunk =>
    have kept := readerStep_writePos bufferSize chunk system.ring system.reader
    simp only [act]
    cases at_ : system.writer with
    | loadedWritePos pending writePos =>
      rw [at_] at upToDate
      exact Eq.trans upToDate kept.symm
    | _ => trivial

structure WriteUnderWay (start : List Event) (data : List UInt8) (system : System) : Prop where
  writing : Writing data system.writer
  upToDate : system.writer.UpToDate system.ring
  trace : ∃ middle, system.trace = start ++ middle ∧ written middle = []

-- A refusal is decided on the positions that it leaves behind.
def WriteEnded (bufferSize : Nat) (start : List Event) (data : List UInt8) (system : System) :
    Prop :=
  ∃ middle success, system.trace = start ++ middle ++ [.writeReturned success data] ∧
    written middle = [] ∧
    (success = false → available bufferSize system.ring.writePos system.ring.readPos <
      data.length + sizeofMsgLen)

theorem writerStep_refused {chunk : Nat} {ring ring' : Mapping} {writer : Writer}
    (writing : Writing data writer) (upToDate : writer.UpToDate ring)
    (step : writerStep bufferSize chunk ring writer = (ring', .idle, [.writeReturned false data])) :
    available bufferSize ring'.writePos ring'.readPos < data.length + sizeofMsgLen := by
  cases writer with
  | idle => exact writing.elim
  | called other => simp [writerStep] at step
  | loadedWritePos other writePos =>
    obtain rfl : other = data := writing
    obtain rfl : writePos = ring.writePos := upToDate
    by_cases full : available bufferSize ring.writePos ring.readPos < other.length + sizeofMsgLen
    · simp only [writerStep, if_pos full, Prod.mk.injEq] at step
      rwa [← step.1]
    · simp [writerStep, if_neg full] at step
  | copying other writePos todo => cases todo <;> simp [writerStep] at step

theorem readerStep_written (bufferSize chunk : Nat) (ring : Mapping) (reader : Reader) :
    written (readerStep bufferSize chunk ring reader).2.2 = [] := by
  rcases readerStep_cases bufferSize chunk ring reader with ⟨_, _, step, quiet⟩ | ⟨_, _, step, _⟩
  · rw [step]
    exact quiet
  · rw [step]
    rfl

theorem WriteUnderWay.keeps (underWay : WriteUnderWay start data system) {action : Action}
    (other : action.stepsWriter = false) :
    WriteUnderWay start data (act bufferSize system action) := by
  obtain ⟨writing, upToDate, middle, trace, quiet⟩ := underWay
  have extend {events : List Event} (silent : written events = []) :
      ∃ more, system.trace ++ events = start ++ more ∧ written more = [] :=
    ⟨middle ++ events, by simp [trace], by simp [written_append, quiet, silent]⟩
  refine ⟨by rwa [writer_keeps writing other], act_upToDate upToDate action, ?_⟩
  cases action with
  | callWrite more =>
    have silent : (callWrite bufferSize more system.writer).2 = [] := by
      cases at_ : system.writer with
      | idle =>
        rw [at_] at writing
        exact writing.elim
      | _ => rfl
    refine @extend (callWrite bufferSize more system.writer).2 ?_
    rw [silent]
    rfl
  | writer chunk => cases other
  | callRead len =>
    refine extend ?_
    cases system.reader <;> rfl
  | reader chunk => exact extend (readerStep_written bufferSize chunk system.ring system.reader)

theorem WriteUnderWay.comesOn (underWay : WriteUnderWay start data system) (chunk : Nat) :
    WriteEnded bufferSize start data (act bufferSize system (.writer chunk)) ∨
      WriteUnderWay start data (act bufferSize system (.writer chunk)) ∧
        writerWork (act bufferSize system (.writer chunk)).writer < writerWork system.writer := by
  have upToDate := @act_upToDate bufferSize system underWay.upToDate (.writer chunk)
  obtain ⟨writing, current, middle, trace, quiet⟩ := underWay
  simp only [act] at upToDate ⊢
  rcases writerStep_comesOn writing bufferSize chunk system.ring with
    ⟨ring', success, step⟩ | ⟨ring', writer', events, step, silent, still, less⟩
  · rw [step]
    refine .inl ⟨middle, success, by simp [trace], quiet, ?_⟩
    rintro rfl
    exact writerStep_refused writing current step
  · rw [step] at upToDate ⊢
    exact .inr ⟨⟨still, upToDate, middle ++ events, by simp [trace],
      by simp [written_append, quiet, silent]⟩, less⟩

theorem WriteUnderWay.ends (underWay : WriteUnderWay start data system) {during : List Action}
    (enough : writerWork system.writer ≤ during.countP Action.stepsWriter) :
    ∃ steps, steps <+: during ∧
      WriteEnded bufferSize start data (Runs.after (act bufferSize) system steps) := by
  refine @Runs.done_within _ _ (act bufferSize) Action.stepsWriter (WriteUnderWay start data)
    (WriteEnded bufferSize start data) (fun state => writerWork state.writer)
    (fun state going => writing_positive going.writing) ?_ ?_ system underWay during enough
  · intro state action going mine
    cases action with
    | writer chunk => exact going.comesOn chunk
    | _ => cases mine
  · intro state action going other
    exact ⟨going.keeps other, by rw [writer_keeps going.writing other]⟩

theorem Refines.stored (refines : Refines bufferSize system) :
    Stored bufferSize system.ring (unread system.trace) := by
  obtain ⟨state, run, simulates⟩ := refines
  rw [← pending_observed, ← Channel.queue_eq_pending run]
  exact simulates.stored

theorem length_frames_drop (count : Nat) (queue : List (List UInt8)) :
    (frames (queue.drop count)).length ≤ (frames queue).length := by
  conv_rhs => rw [← List.take_append_drop count queue, frames, List.flatMap_append,
    List.length_append]
  exact Nat.le_add_left _ _

-- Until the write is decided, the reader can only have made more room.
theorem full_of_refused {middle : List Event} (refines : Refines bufferSize system)
    (earlier : delivered start <+: delivered system.trace)
    (trace : system.trace = start ++ middle ++ [.writeReturned false data])
    (quiet : written middle = [])
    (space : available bufferSize system.ring.writePos system.ring.readPos <
      data.length + sizeofMsgLen) :
    bufferSize < (frames (unread start)).length + (frame data).length := by
  rw [refines.stored.available_eq] at space
  obtain ⟨more, extended⟩ := earlier
  have less : unread system.trace = (unread start).drop more.length := by
    rw [unread, ← extended, trace, written_append, written_append, quiet, unread, List.drop_drop,
      List.length_append, written, written, List.append_nil, List.append_nil]
  have shorter := length_frames_drop more.length (unread start)
  rw [less] at space
  rw [length_frame]
  omega

end Writes

section View

variable {bufferSize : Nat} {system : System}

structure Positions (bufferSize : Nat) (system : System) : Prop where
  inside : Inside bufferSize system.ring
  upToDate : system.writer.UpToDate system.ring

theorem act_inside (inside : Inside bufferSize system.ring) (action : Action) :
    Inside bufferSize (act bufferSize system action).ring := by
  have positive : 0 < bufferSize := Nat.zero_lt_of_lt inside.writePos
  cases action with
  | callWrite data => exact inside
  | callRead len => exact inside
  | writer chunk =>
    simp only [act]
    cases system.writer with
    | idle => exact inside
    | called data => exact inside
    | loadedWritePos data writePos =>
      simp only [writerStep]
      split <;> exact inside
    | copying data writePos todo =>
      cases todo with
      | nil => exact ⟨inside.view, Nat.mod_lt _ positive, inside.readPos⟩
      | cons store todo => exact ⟨inside.view, inside.writePos, inside.readPos⟩
  | reader chunk =>
    simp only [act]
    rcases readerStep_cases bufferSize chunk system.ring system.reader with
      ⟨_, _, step, _⟩ | ⟨_, _, step, _⟩
    · rw [step]
      exact inside
    · rw [step]
      exact ⟨inside.view, inside.writePos, Nat.mod_lt _ positive⟩

theorem reached_positions (positive : 0 < bufferSize) (area : Nat → UInt8)
    (actions : List Action) :
    Positions bufferSize (reached bufferSize (create bufferSize area) actions) := by
  apply Runs.invariant_of_step (Positions bufferSize)
  · intro system action positions
    exact ⟨act_inside positions.inside action, act_upToDate positions.upToDate action⟩
  · exact ⟨⟨rfl, positive, positive⟩, trivial⟩

theorem not_leavesView_of_inView (narrow : bufferSize < 2 ^ 32)
    (positions : Positions bufferSize system) {action : Action}
    (inView : ∀ address ∈ (act bufferSize system action).writer.todo,
      address < system.ring.viewSize) : ¬ LeavesView bufferSize system action := by
  cases action with
  | callWrite data => exact not_false
  | callRead len => exact not_false
  | reader chunk => exact not_false
  | writer chunk =>
    intro leaves
    rw [LeavesView] at leaves
    simp only [act] at inView
    cases at_ : system.writer with
    | loadedWritePos data writePos =>
      have upToDate := positions.upToDate
      rw [at_] at leaves upToDate inView
      obtain rfl : writePos = system.ring.writePos := upToDate
      obtain ⟨fits, outside⟩ := leaves
      have room := positions.inside.available_le
      have whole : (frame data).length ≤ bufferSize := by
        rw [length_frame]
        omega
      simp only [writerStep, if_neg (Nat.not_lt.mpr fits), Writer.todo] at inView
      rw [frameStores_eq whole, List.map_fst_zip (by simp), length_frame, positions.inside.view]
        at inView
      exact (inView_iff narrow positions.inside.writePos).mp inView outside
    | _ =>
      rw [at_] at leaves
      exact leaves

theorem Simulates.inView {state : Channel.State (List UInt8) Nat}
    (simulates : Simulates bufferSize system state) :
    ∀ address ∈ system.writer.todo ++ system.reader.todo, address < system.ring.viewSize := by
  intro address member
  obtain ⟨stored, writing, reading⟩ := simulates
  rcases List.mem_append.mp member with store | load
  · cases at_ : system.writer with
    | copying data writePos todo =>
      rw [at_] at writing store
      obtain ⟨_, copying⟩ := writing
      obtain ⟨pair, listed, rfl⟩ := List.mem_map.mp store
      exact copying.inView _ (copying.behind pair listed)
    | _ => simp [at_, Writer.todo] at store
  · cases at_ : system.reader with
    | copyingLength len readPos todo got =>
      rw [at_] at reading load
      obtain ⟨_, _, _, _, _, _, copying⟩ := reading
      exact stored.mapped address (copying.queued address load)
    | copyingData dataPos msgLen todo got =>
      rw [at_] at reading load
      obtain ⟨_, _, _, _, _, _, _, _, _, copying⟩ := reading
      exact stored.mapped address (copying.queued address load)
    | _ => simp [at_, Reader.todo] at load

end View

theorem trace_reached (bufferSize : Nat) (ring : Mapping) (before later : List Action) :
    (reached bufferSize ring before).trace <+:
      (reached bufferSize ring (before ++ later)).trace := by
  rw [reached, reached, Runs.after_append]
  induction later using List.reverseRecOn with
  | nil => exact List.prefix_refl _
  | append_singleton later action ih =>
    rw [Runs.after_snoc]
    exact ih.trans (trace_act _ _ _)

section Returns

variable {bufferSize : Nat} {ring : Mapping} {before during : List Action}

theorem delivered_reached (bufferSize : Nat) (ring : Mapping) (before later : List Action) :
    delivered (reached bufferSize ring before).trace <+:
      delivered (reached bufferSize ring (before ++ later)).trace := by
  rw [reached, reached, Runs.after_append]
  exact delivered_after _ _ _

theorem read_returns {len : Nat} (idle : (reached bufferSize ring before).reader = .idle)
    (enough : len + 8 ≤ during.countP Action.stepsReader)
    (ordered : ∀ steps, steps <+: during →
      OrderedDelivery (reached bufferSize ring (before ++ .callRead len :: steps)).trace)
    (inOrder : delivered (reached bufferSize ring before).trace <+:
      written (reached bufferSize ring before).trace) :
    ∃ steps middle result, steps <+: during ∧
      (reached bufferSize ring (before ++ .callRead len :: steps)).trace =
        (reached bufferSize ring before).trace ++ .readCalled len :: middle ++
          [.readReturned result] ∧
      (∀ event ∈ middle, event.isRead = false) ∧
      (unread (reached bufferSize ring before).trace ≠ [] →
        result = answer len (unread (reached bufferSize ring before).trace)) := by
  have called : act bufferSize (reached bufferSize ring before) (.callRead len) =
      { reached bufferSize ring before with
        reader := .called len
        trace := (reached bufferSize ring before).trace ++ [.readCalled len] } := by
    simp only [act, idle, callRead]
  have underWay : ReadUnderWay (reached bufferSize ring before).trace len
      (act bufferSize (reached bufferSize ring before) (.callRead len)) := by
    rw [called]
    exact ⟨by simp, [], rfl, by simp⟩
  obtain ⟨steps, inside, middle, result, trace, quiet⟩ :=
    underWay.ends (by rw [called]; exact enough)
  rw [← Runs.after_cons, reached, ← Runs.after_append, ← reached, ← reached] at trace
  refine ⟨steps, middle, result, inside, trace, quiet, ?_⟩
  have orderedHere := ordered steps inside
  rw [trace] at orderedHere
  exact orderedHere.answered_first inOrder quiet

theorem write_returns {data : List UInt8} (idle : (reached bufferSize ring before).writer = .idle)
    (small : data.length ≤ bufferSize / 2)
    (enough : data.length + 7 ≤ during.countP Action.stepsWriter)
    (refines : ∀ steps, steps <+: during →
      Refines bufferSize (reached bufferSize ring (before ++ .callWrite data :: steps))) :
    ∃ steps middle success, steps <+: during ∧
      (reached bufferSize ring (before ++ .callWrite data :: steps)).trace =
        (reached bufferSize ring before).trace ++ middle ++ [.writeReturned success data] ∧
      written middle = [] ∧
      ((frames (unread (reached bufferSize ring before).trace)).length + (frame data).length <
        bufferSize → success = true) := by
  have called : act bufferSize (reached bufferSize ring before) (.callWrite data) =
      { reached bufferSize ring before with writer := .called data } := by
    simp [act, idle, callWrite, tooLarge, Nat.not_lt.mpr small]
  have underWay : WriteUnderWay (reached bufferSize ring before).trace data
      (act bufferSize (reached bufferSize ring before) (.callWrite data)) := by
    rw [called]
    exact ⟨rfl, trivial, [], by simp, rfl⟩
  obtain ⟨steps, inside, middle, success, trace, quiet, refused⟩ :=
    underWay.ends (by rw [called]; exact enough)
  rw [← Runs.after_cons, reached, ← Runs.after_append, ← reached, ← reached] at trace
  rw [← Runs.after_cons, reached, ← Runs.after_append, ← reached] at refused
  refine ⟨steps, middle, success, inside, trace, quiet, fun room => ?_⟩
  cases success with
  | true => rfl
  | false =>
    have full := full_of_refused (refines steps inside) (delivered_reached _ _ _ _) trace quiet
      (refused rfl)
    omega

end Returns

theorem interleaving_delivers_iff {bufferSize : Nat} (positive : 0 < bufferSize)
    (narrow : bufferSize < 2 ^ 32) {granted : Granted} {area : Nat → UInt8} {ring : Mapping}
    (created : construct bufferSize true granted area none = .ok ring) (actions : List Action)
    (room : ∀ event ∈ (reached bufferSize ring actions).trace, event.fillsExactly = false) :
    Delivers bufferSize ring actions ↔ StaysInView bufferSize ring actions := by
  obtain rfl := construct_fresh created
  constructor
  · intro delivers before action inside
    have positions := reached_positions positive area before
    apply not_leavesView_of_inView narrow positions
    intro address member
    have inView := delivers.inView _ inside address
    rw [reached, Runs.after_snoc] at inView
    rw [positions.inside.view]
    exact inView (List.mem_append_left _ member)
  · intro stays
    have refines {before : List Action} (inside : before <+: actions) :
        Refines bufferSize (reached bufferSize (create bufferSize area) before) := by
      obtain ⟨later, rfl⟩ := inside
      refine run_refines positive narrow area (fun event member => ?_)
        (Runs.guarded_front (List.prefix_append _ _) stays)
      exact room event ((trace_reached _ _ _ _).subset member)
    constructor
    · exact (refines (List.prefix_refl _)).orderedDelivery
    · rintro before during rfl undelivered
      simp only [reached, Runs.after_append] at undelivered ⊢
      exact ring_of_undelivered during _ _ rfl rfl undelivered
    · rintro before len during rfl idle enough
      refine read_returns idle enough (fun steps inside => ?_) ?_
      · apply (refines ?_).orderedDelivery
        exact List.prefix_append_right_inj _ |>.mpr (List.cons_prefix_cons.mpr ⟨rfl, inside⟩)
      · exact (refines (List.prefix_append _ _)).orderedDelivery.inOrder
    · rintro before data during rfl idle small enough
      refine write_returns idle small enough fun steps inside => refines ?_
      exact List.prefix_append_right_inj _ |>.mpr (List.cons_prefix_cons.mpr ⟨rfl, inside⟩)
    · rintro before inside address member
      obtain ⟨state, _, simulates⟩ := refines inside
      have positions := reached_positions positive area before
      have inView := simulates.inView address member
      rwa [positions.inside.view] at inView

-- A read that starts before the first message is published, one that is called with too little
-- room while the second message is half written, and one that then gets the first message.
def overlapping : List Action :=
  [.callWrite [1, 2, 3], .writer 0, .callRead 8, .writer 0, .reader 0, .writer 1, .writer 9,
    .reader 0, .writer 0, .callRead 2, .callWrite [4, 5], .reader 0, .writer 0, .reader 0,
    .writer 0, .writer 2, .reader 1, .reader 1, .reader 0, .callRead 8, .reader 0, .writer 5,
    .reader 0, .reader 3, .reader 0, .reader 1, .writer 0, .reader 1, .reader 0]

theorem interleaving_delivers_iff_overlapping :
    Delivers 16 (create 16 fun _ => 0) overlapping ↔
      StaysInView 16 (create 16 fun _ => 0) overlapping :=
  interleaving_delivers_iff (by decide) (by decide)
    (rfl : construct 16 true ⟨true, true⟩ (fun _ => 0) none = .ok (create 16 fun _ => 0))
    overlapping (by decide)

def onePage : List Action :=
  [.callWrite (List.replicate pageSize 0), .writer 0, .writer 0]

theorem interleaving_leaves_view :
    ∃ ring, construct 4294967295 true ⟨true, true⟩ (fun _ => 0) none = .ok ring ∧
      (∀ event ∈ (reached 4294967295 ring onePage).trace, event.fillsExactly = false) ∧
      ¬ Delivers 4294967295 ring onePage := by
  have length : (List.replicate pageSize (0 : UInt8)).length = pageSize :=
    List.length_replicate
  rw [onePage]
  generalize List.replicate pageSize (0 : UInt8) = data at length ⊢
  have small : tooLarge 4294967295 pageSize = false := by
    decide
  have room : available 4294967295 0 0 = 4294967295 := by
    decide
  have loaded : reached 4294967295 (create 4294967295 fun _ => 0) [.callWrite data, .writer 0] =
      { initial (create 4294967295 fun _ => 0) with writer := .loadedWritePos data 0 } := by
    simp [reached, Runs.after_cons, act, callWrite, length, small, writerStep, initial, create]
  have accepted : (reached 4294967295 (create 4294967295 fun _ => 0)
      [.callWrite data, .writer 0, .writer 0]).trace = [.writeAccepted pageSize 4294967295] := by
    change (act 4294967295 (reached 4294967295 (create 4294967295 fun _ => 0)
      [.callWrite data, .writer 0]) (.writer 0)).trace = _
    rw [loaded]
    simp [act, writerStep, initial, create, room, length, pageSize, sizeofMsgLen]
  refine ⟨create 4294967295 fun _ => 0, rfl, ?_, fun delivers => ?_⟩
  · rw [accepted]
    decide
  · have positions := @reached_positions 4294967295 (by decide) (fun _ => 0)
      [.callWrite data, .writer 0]
    refine @not_leavesView_of_inView 4294967295 _ (by decide) positions (.writer 0) ?_ ?_
    · intro address member
      rw [loaded]
      exact delivers.inView _ (List.prefix_refl _) address (List.mem_append_left _ member)
    · rw [loaded]
      simp only [LeavesView, Writer.EndsOutside, EndsOutside, initial, create, room, length]
      decide

end AdsRealtime.SharedMemoryRingBuffer.Concurrent
