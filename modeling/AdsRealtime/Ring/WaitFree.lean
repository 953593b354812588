import AdsRealtime.Ring.Concurrent
import AdsRealtime.Shared.WaitFree

set_option autoImplicit false

namespace AdsRealtime.SharedMemoryRingBuffer.Concurrent

def Action.stepsWriter : Action → Bool
  | .writer _ => true
  | .callWrite _ | .callRead _ | .reader _ => false

def Action.stepsReader : Action → Bool
  | .reader _ => true
  | .callWrite _ | .callRead _ | .writer _ => false

def writerWork : Writer → Nat
  | .idle => 0
  | .called data => data.length + sizeofMsgLen + 3
  | .loadedWritePos data _ => data.length + sizeofMsgLen + 2
  | .copying _ _ todo => todo.length + 1

def readerWork : Reader → Nat
  | .idle => 0
  | .called len => len + sizeofMsgLen + 4
  | .loadedWritePos len _ => len + sizeofMsgLen + 3
  | .copyingLength len _ todo _ => todo.length + len + 2
  | .copyingData _ _ todo _ => todo.length + 1

def Writing (data : List UInt8) : Writer → Prop
  | .idle => False
  | .called other => other = data
  | .loadedWritePos other _ => other = data
  | .copying other _ _ => other = data

def WriteReturned (data : List UInt8) (system : System) : Prop :=
  system.writer = .idle ∧
    ∃ earlier success, system.trace = earlier ++ [.writeReturned success data]

def ReadReturned (system : System) : Prop :=
  system.reader = .idle ∧ ∃ earlier result, system.trace = earlier ++ [.readReturned result]

section

variable {bufferSize : Nat} {system : System} {data : List UInt8}

theorem writing_positive (writing : Writing data system.writer) : 0 < writerWork system.writer := by
  cases at_ : system.writer with
  | idle =>
    rw [at_] at writing
    exact writing.elim
  | _ => simp [writerWork]

theorem writerStep_comesOn {writer : Writer} (writing : Writing data writer)
    (bufferSize chunk : Nat) (ring : Mapping) :
    (∃ ring' success,
        writerStep bufferSize chunk ring writer = (ring', .idle, [.writeReturned success data])) ∨
      ∃ ring' writer' events, writerStep bufferSize chunk ring writer = (ring', writer', events) ∧
        written events = [] ∧ Writing data writer' ∧ writerWork writer' < writerWork writer := by
  cases writer with
  | idle => exact writing.elim
  | called other =>
    exact .inr ⟨ring, .loadedWritePos other ring.writePos, [], rfl, rfl, writing,
      Nat.lt_succ_self _⟩
  | loadedWritePos other writePos =>
    obtain rfl : other = data := writing
    by_cases full : available bufferSize writePos ring.readPos < other.length + sizeofMsgLen
    · refine .inl ⟨ring, false, ?_⟩
      simp only [writerStep, if_pos full]
    · refine .inr ⟨ring, .copying other writePos (frameStores bufferSize other writePos),
        [.writeAccepted other.length (available bufferSize writePos ring.readPos)], ?_, rfl, rfl,
        ?_⟩
      · simp only [writerStep, if_neg full]
      · simp only [writerWork, length_frameStores]
        omega
  | copying other writePos todo =>
    obtain rfl : other = data := writing
    cases todo with
    | nil => exact .inl ⟨_, true, rfl⟩
    | cons store todo =>
      refine .inr ⟨_, _, _, rfl, rfl, rfl, ?_⟩
      simp only [writerWork, List.length_drop, List.length_cons]
      omega

theorem writer_comesOn (writing : Writing data system.writer) (chunk : Nat) :
    WriteReturned data (act bufferSize system (.writer chunk)) ∨
      Writing data (act bufferSize system (.writer chunk)).writer ∧
        writerWork (act bufferSize system (.writer chunk)).writer < writerWork system.writer := by
  simp only [act]
  rcases writerStep_comesOn writing bufferSize chunk system.ring with
    ⟨ring', success, step⟩ | ⟨ring', writer', events, step, _, onward⟩
  · rw [step]
    exact .inl ⟨rfl, system.trace, success, rfl⟩
  · rw [step]
    exact .inr onward

theorem writer_keeps (writing : Writing data system.writer) {action : Action}
    (other : action.stepsWriter = false) :
    (act bufferSize system action).writer = system.writer := by
  cases action with
  | callWrite more =>
    simp only [act]
    cases at_ : system.writer with
    | idle =>
      rw [at_] at writing
      exact writing.elim
    | _ => rfl
  | callRead len => rfl
  | writer chunk => cases other
  | reader chunk => rfl

theorem readerStep_comesOn {reader : Reader} (reading : reader ≠ .idle) (bufferSize chunk : Nat)
    (ring : Mapping) :
    (∃ ring' result,
        readerStep bufferSize chunk ring reader = (ring', .idle, [.readReturned result])) ∨
      ∃ reader', readerStep bufferSize chunk ring reader = (ring, reader', []) ∧
        reader' ≠ .idle ∧ readerWork reader' < readerWork reader := by
  cases reader with
  | idle => exact absurd rfl reading
  | called len => exact .inr ⟨_, rfl, by simp, Nat.lt_succ_self _⟩
  | loadedWritePos len writePos =>
    simp only [readerStep]
    split
    · exact .inl ⟨_, _, rfl⟩
    · refine .inr ⟨_, rfl, by simp, ?_⟩
      simp only [readerWork, length_readWrappedLoads]
      omega
  | copyingLength len readPos todo got =>
    cases todo with
    | nil =>
      simp only [readerStep]
      split
      · exact .inl ⟨_, _, rfl⟩
      · refine .inr ⟨_, rfl, by simp, ?_⟩
        simp only [readerWork, length_readWrappedLoads, List.length_nil]
        omega
    | cons address todo =>
      refine .inr ⟨_, rfl, by simp, ?_⟩
      simp only [readerWork, List.length_drop, List.length_cons]
      omega
  | copyingData dataPos msgLen todo got =>
    cases todo with
    | nil => exact .inl ⟨_, _, rfl⟩
    | cons address todo =>
      refine .inr ⟨_, rfl, by simp, ?_⟩
      simp only [readerWork, List.length_drop, List.length_cons]
      omega

theorem reader_comesOn (reading : system.reader ≠ .idle) (chunk : Nat) :
    ReadReturned (act bufferSize system (.reader chunk)) ∨
      (act bufferSize system (.reader chunk)).reader ≠ .idle ∧
        readerWork (act bufferSize system (.reader chunk)).reader < readerWork system.reader := by
  simp only [act]
  rcases readerStep_comesOn reading bufferSize chunk system.ring with
    ⟨ring', result, step⟩ | ⟨reader', step, onward⟩
  · rw [step]
    exact .inl ⟨rfl, system.trace, result, rfl⟩
  · rw [step]
    exact .inr onward

theorem reader_keeps (reading : system.reader ≠ .idle) {action : Action}
    (other : action.stepsReader = false) :
    (act bufferSize system action).reader = system.reader := by
  cases action with
  | callWrite more => rfl
  | callRead len =>
    simp only [act]
    cases at_ : system.reader with
    | idle => exact absurd at_ reading
    | _ => rfl
  | writer chunk => rfl
  | reader chunk => cases other

end

theorem calls_waitFree (bufferSize : Nat) (system : System) (later : List Action) :
    (∀ data, system.writer = .called data →
      data.length + 7 ≤ later.countP Action.stepsWriter →
        ∃ before, before <+: later ∧
          WriteReturned data (Runs.after (act bufferSize) system before)) ∧
    ∀ len, system.reader = .called len → len + 8 ≤ later.countP Action.stepsReader →
      ∃ before, before <+: later ∧ ReadReturned (Runs.after (act bufferSize) system before) := by
  constructor
  · intro data called enough
    refine @Runs.done_within _ _ (act bufferSize) Action.stepsWriter
      (fun state => Writing data state.writer) (WriteReturned data)
      (fun state => writerWork state.writer) (fun state writing => writing_positive writing) ?_ ?_
      system (by rw [called]; rfl) later (by rw [called]; exact enough)
    · intro state action writing mine
      cases action with
      | writer chunk => exact writer_comesOn writing chunk
      | _ => cases mine
    · intro state action writing other
      rw [writer_keeps writing other]
      exact ⟨writing, Nat.le_refl _⟩
  · intro len called enough
    refine @Runs.done_within _ _ (act bufferSize) Action.stepsReader
      (fun state => state.reader ≠ .idle) ReadReturned (fun state => readerWork state.reader) ?_ ?_
      ?_ system (by simp [called]) later (by rw [called]; exact enough)
    · intro state reading
      cases at_ : state.reader with
      | idle => exact absurd at_ reading
      | _ => simp [readerWork]
    · intro state action reading mine
      cases action with
      | reader chunk => exact reader_comesOn reading chunk
      | _ => cases mine
    · intro state action reading other
      rw [reader_keeps reading other]
      exact ⟨reading, Nat.le_refl _⟩

theorem calls_waitFree_three :
    ∃ before, before <+: .callRead 8 :: .reader 0 :: List.replicate 10 (.writer 0) ∧
      WriteReturned [1, 2, 3] (Runs.after (act 16)
        { initial (create 16 fun _ => 0) with writer := .called [1, 2, 3] } before) :=
  (calls_waitFree 16 { initial (create 16 fun _ => 0) with writer := .called [1, 2, 3] }
    (.callRead 8 :: .reader 0 :: List.replicate 10 (.writer 0))).1 [1, 2, 3] rfl (by decide)

end AdsRealtime.SharedMemoryRingBuffer.Concurrent
