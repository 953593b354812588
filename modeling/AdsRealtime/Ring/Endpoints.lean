import AdsRealtime.Ring.View
import Mathlib.Order.Nat

set_option autoImplicit false

namespace AdsRealtime.SharedMemoryRingBuffer

-- Attaching compares nothing: neither the stored size nor the positions play any part.
theorem construct_existing (bufferSize : Nat) (create : Bool) (granted : Granted)
    (area : Nat → UInt8) (ring : Mapping) :
    (construct bufferSize create granted area (some ring) = .ok ring ∧
        granted.handle = true ∧ granted.view = true ∧
        ¬ (create = true ∧ sectionSize bufferSize = 0)) ∨
      (∃ message, construct bufferSize create granted area (some ring) = .error message) ∧
        (granted.handle = false ∨ granted.view = false ∨
          create = true ∧ sectionSize bufferSize = 0) := by
  unfold construct
  by_cases none_ : sectionSize bufferSize = 0 <;> cases create <;>
    cases handle : granted.handle <;> cases view : granted.view <;> simp [none_]

-- By the writer's own reckoning, which is that of `availableWrite` if the sizes are equal.
def FillsRing (writerSize : Nat) (ring : Mapping) : Call → Prop
  | .write data =>
    data.length ≤ writerSize / 2 ∧
      available writerSize ring.writePos ring.readPos = data.length + sizeofMsgLen
  | .read _ => False

instance (writerSize : Nat) (ring : Mapping) (call : Call) :
    Decidable (FillsRing writerSize ring call) :=
  match call with
  | .write _ => inferInstanceAs (Decidable (_ ∧ _))
  | .read _ => inferInstanceAs (Decidable False)

def NeverFills (writerSize readerSize : Nat) (ring : Mapping) (calls : List Call) : Prop :=
  Runs.Guarded (exchange writerSize readerSize)
    (fun session call => ¬ FillsRing writerSize session.history.ring call) (Session.start ring)
    calls

/-- The second side reads exactly what the first has written, in that order. -/
structure Agrees (readerSize : Nat) (session : Session) : Prop where
  inView : session.outside = false
  inOrder : session.history.delivered <+: session.history.written
  nextRead : ∀ len,
    (read readerSize len session.history.ring).1 = answer len session.history.pending

section Equal

variable {bufferSize : Nat}

theorem agrees_of_equal (positive : 0 < bufferSize) (whole : sizeofHeader + bufferSize < 2 ^ 32)
    (area : Nat → UInt8) (calls : List Call)
    (leavesRoom : NeverFills bufferSize bufferSize (create bufferSize area) calls) :
    Agrees bufferSize (sessionAfter bufferSize bufferSize (create bufferSize area) calls) := by
  have narrow : bufferSize < 2 ^ 32 := Nat.lt_of_le_of_lt (Nat.le_add_left _ _) whole
  obtain ⟨inView, consistent⟩ := Runs.invariant_of_guarded
    (fun session => session.outside = false ∧ Consistent bufferSize session.history) (by
      rintro session call ⟨inView, consistent⟩ room
      refine exchange_consistent narrow inView consistent ?_ (not_leavesView whole _ call)
      intro fills
      cases call with
      | read len => exact fills
      | write data =>
        rw [FillsExactly, availableWrite_eq consistent.2.inside] at fills
        exact room fills)
    ⟨rfl, fresh_consistent positive area⟩ leavesRoom
  have fifo := consistent.fifo narrow
  exact { inView := inView, inOrder := fifo.inOrder, nextRead := fifo.nextRead }

theorem disagree_of_cut (narrow : bufferSize < 2 ^ 32)
    (cut : 2 ^ 32 ≤ sizeofHeader + bufferSize) (area : Nat → UInt8) :
    ¬ ∀ calls, NeverFills bufferSize bufferSize (create bufferSize area) calls →
      Agrees bufferSize (sessionAfter bufferSize bufferSize (create bufferSize area) calls) := by
  intro agree
  have page := viewSize_cut narrow cut
  have positive : 0 < bufferSize := by
    simp only [sizeofHeader] at cut
    omega
  have inside : Inside bufferSize (Session.start (create bufferSize area)).history.ring :=
    ⟨rfl, positive, positive⟩
  have room : available bufferSize 0 0 = bufferSize := by
    simp [available]
  have leavesRoom : NeverFills bufferSize bufferSize (create bufferSize area)
      [.write (List.replicate pageSize 0)] := by
    rw [NeverFills, Runs.guarded_cons]
    refine ⟨?_, Runs.guarded_nil _ _ _⟩
    rintro ⟨_, full⟩
    simp only [Session.start, create, room, List.length_replicate, sizeofMsgLen, sizeofHeader,
      pageSize] at full cut
    omega
  have leaves : LeavesView bufferSize (Session.start (create bufferSize area)).history
      (.write (List.replicate pageSize 0)) := by
    rw [LeavesView, availableWrite_eq inside]
    simp only [Session.start, create, room, List.length_replicate, EndsOutside, sizeofMsgLen,
      sizeofHeader, pageSize] at page cut ⊢
    omega
  have inView := (agree _ leavesRoom).inView
  rw [sessionAfter, Runs.after_cons, Runs.after_nil, outside_of_leavesView narrow inside leaves]
    at inView
  cases inView

end Equal

section Tiny

variable {writerSize readerSize : Nat}

theorem exchange_tiny (tiny : writerSize ≤ 4) (area : Nat → UInt8) (call : Call)
    (leavesRoom : ¬ FillsRing writerSize (create writerSize area) call) :
    exchange writerSize readerSize (Session.start (create writerSize area)) call =
      Session.start (create writerSize area) := by
  cases call with
  | write data =>
    have refused : write writerSize data (create writerSize area) =
        (false, create writerSize area) := by
      rcases write_cases writerSize data (create writerSize area) with
        ⟨small, fits, _⟩ | ⟨_, refused⟩
      · have room : available writerSize (create writerSize area).writePos
            (create writerSize area).readPos = writerSize := by
          simp [available, create]
        rw [room, sizeofMsgLen] at fits
        refine absurd ⟨small, room.trans ?_⟩ leavesRoom
        rw [sizeofMsgLen]
        omega
      · exact refused
    simp [exchange, touched, sizeOf, Session.start, perform, refused]
  | read len =>
    simp [exchange, touched, readLoads, Session.start, perform, read, create]

theorem agrees_of_tiny (tiny : writerSize ≤ 4) (area : Nat → UInt8) (calls : List Call)
    (leavesRoom : NeverFills writerSize readerSize (create writerSize area) calls) :
    Agrees readerSize (sessionAfter writerSize readerSize (create writerSize area) calls) := by
  have stays := Runs.invariant_of_guarded
    (fun session => session = Session.start (create writerSize area)) (by
      rintro _ call rfl room
      exact exchange_tiny tiny area call room) rfl leavesRoom
  rw [sessionAfter, stays]
  exact {
    inView := rfl
    inOrder := List.prefix_refl []
    nextRead := fun len => by simp [Session.start, create, read, History.pending, answer] }

end Tiny

section Different

variable {writerSize readerSize : Nat}

/-- After some rounds of an empty message written and read, as far as all has gone well. -/
structure Lockstep (writerSize readerSize rounds : Nat) (session : Session) : Prop where
  writePos : session.history.ring.writePos = sizeofMsgLen * rounds % writerSize
  readPos : session.history.ring.readPos = sizeofMsgLen * rounds % readerSize
  written : session.history.written = List.replicate rounds []
  delivered : session.history.delivered = List.replicate rounds []

def enough : Nat := 256 ^ sizeofMsgLen

theorem read_of_apart (bufferSize : Nat) {ring : Mapping} (apart : ring.readPos ≠ ring.writePos) :
    ∃ data, read bufferSize enough ring =
      ({ success := true, len := data.length, data := data }, { ring with
        readPos := ((ring.readPos + sizeofMsgLen) % bufferSize + data.length) % bufferSize }) := by
  have bounded := LittleEndian.decode_lt
    (readWrapped bufferSize ring.dataBuffer sizeofMsgLen ring.readPos)
  rw [length_readWrapped] at bounded
  simp only [read, if_neg apart]
  generalize LittleEndian.decode
    (readWrapped bufferSize ring.dataBuffer sizeofMsgLen ring.readPos) = msgLen at bounded ⊢
  have fits : ¬ msgLen > enough := Nat.not_lt.mpr (Nat.le_of_lt bounded)
  rw [if_neg fits]
  refine ⟨readWrapped bufferSize ring.dataBuffer msgLen
    ((ring.readPos + sizeofMsgLen) % bufferSize), ?_⟩
  rw [length_readWrapped]

theorem Agrees.history_eq {session : Session} {call : Call}
    (agrees : Agrees readerSize (exchange writerSize readerSize session call)) :
    (exchange writerSize readerSize session call).history =
      perform (sizeOf writerSize readerSize call) session.history call := by
  have inView := agrees.inView
  simp only [exchange] at inView ⊢
  split_ifs at inView ⊢
  rfl

theorem mod_next_ne {bufferSize pos : Nat} (wide : sizeofMsgLen < bufferSize)
    (inside : pos < bufferSize) : (pos + sizeofMsgLen) % bufferSize ≠ pos := by
  rcases mod_cases inside wide with ⟨_, landed⟩ | ⟨_, landed⟩ <;>
    rw [landed] <;> simp only [sizeofMsgLen] at * <;> omega

theorem Lockstep.write (wide : sizeofMsgLen < writerSize) {rounds : Nat} {session : Session}
    (lockstep : Lockstep writerSize readerSize rounds session)
    (level : sizeofMsgLen * rounds % writerSize = sizeofMsgLen * rounds % readerSize) :
    ¬ FillsRing writerSize session.history.ring (.write []) ∧
      perform writerSize session.history (.write []) =
        { ring := published writerSize [] session.history.ring
          written := List.replicate (rounds + 1) []
          delivered := List.replicate rounds [] } := by
  have same : session.history.ring.readPos = session.history.ring.writePos := by
    rw [lockstep.readPos, lockstep.writePos, level]
  have room : available writerSize session.history.ring.writePos session.history.ring.readPos =
      writerSize := by
    simp [available, same]
  constructor
  · rintro ⟨_, full⟩
    rw [room, List.length_nil] at full
    omega
  · rcases write_cases writerSize [] session.history.ring with
      ⟨_, _, accepted⟩ | ⟨large | full, _⟩
    · simp [perform, accepted, lockstep.written, lockstep.delivered, List.replicate_succ']
    · simp at large
    · rw [room, List.length_nil] at full
      omega

theorem Agrees.read_of_apart {session : Session}
    (apart : session.history.ring.readPos ≠ session.history.ring.writePos)
    (agrees : Agrees readerSize (exchange writerSize readerSize session (.read enough))) :
    ∃ data : List UInt8, session.history.delivered ++ [data] <+: session.history.written ∧
      (exchange writerSize readerSize session (.read enough)).history =
        { session.history with
          ring := { session.history.ring with
            readPos := ((session.history.ring.readPos + sizeofMsgLen) % readerSize + data.length) %
              readerSize }
          delivered := session.history.delivered ++ [data] } := by
  obtain ⟨data, result⟩ := SharedMemoryRingBuffer.read_of_apart readerSize apart
  have left : (exchange writerSize readerSize session (.read enough)).history =
      perform readerSize session.history (.read enough) := agrees.history_eq
  have inOrder := agrees.inOrder
  simp only [left, perform, result, if_true] at inOrder ⊢
  exact ⟨data, inOrder, rfl⟩

theorem Lockstep.round (wide : sizeofMsgLen < writerSize) {rounds : Nat} {session : Session}
    (lockstep : Lockstep writerSize readerSize rounds session)
    (level : sizeofMsgLen * rounds % writerSize = sizeofMsgLen * rounds % readerSize)
    (afterWrite : Agrees readerSize (exchange writerSize readerSize session (.write [])))
    (afterRead : Agrees readerSize
      (exchange writerSize readerSize
        (exchange writerSize readerSize session (.write [])) (.read enough))) :
    Lockstep writerSize readerSize (rounds + 1)
      (exchange writerSize readerSize
        (exchange writerSize readerSize session (.write [])) (.read enough)) := by
  have left : (exchange writerSize readerSize session (.write [])).history =
      perform writerSize session.history (.write []) := afterWrite.history_eq
  rw [(lockstep.write wide level).2] at left
  have writePos : (published writerSize [] session.history.ring).writePos =
      (session.history.ring.writePos + sizeofMsgLen) % writerSize := by
    simp [published]
  have readPos : (published writerSize [] session.history.ring).readPos =
      session.history.ring.writePos := by
    rw [lockstep.writePos, level, ← lockstep.readPos]
    rfl
  have apart : (exchange writerSize readerSize session (.write [])).history.ring.readPos ≠
      (exchange writerSize readerSize session (.write [])).history.ring.writePos := by
    rw [left, writePos, readPos]
    refine (mod_next_ne wide ?_).symm
    rw [lockstep.writePos]
    exact Nat.mod_lt _ (Nat.zero_lt_of_lt wide)
  obtain ⟨data, inOrder, history⟩ := afterRead.read_of_apart apart
  rw [left, List.replicate_succ'] at inOrder
  obtain rfl : data = [] := by
    have whole := inOrder.eq_of_length (by simp)
    simpa using whole
  rw [left] at history
  constructor
  · rw [history]
    simp only [writePos, lockstep.writePos, Nat.mod_add_mod, Nat.mul_succ]
  · rw [history]
    simp only [readPos, lockstep.writePos, level, Nat.mod_add_mod, Nat.mul_succ, List.length_nil,
      Nat.add_zero, Nat.mod_mod]
  · rw [history]
  · rw [history, List.replicate_succ']

theorem Lockstep.phantom {rounds : Nat} {session : Session}
    (lockstep : Lockstep writerSize readerSize rounds session)
    (apart : sizeofMsgLen * rounds % writerSize ≠ sizeofMsgLen * rounds % readerSize) :
    ¬ Agrees readerSize (exchange writerSize readerSize session (.read enough)) := by
  intro agrees
  have positions : session.history.ring.readPos ≠ session.history.ring.writePos := by
    rw [lockstep.readPos, lockstep.writePos]
    exact apart.symm
  obtain ⟨data, inOrder, _⟩ := agrees.read_of_apart positions
  have longer := inOrder.length_le
  rw [lockstep.written, lockstep.delivered] at longer
  simp at longer

-- The first multiple of four that reaches the smaller size leaves different remainders.
theorem first_multiple_apart {smaller larger : Nat} (positive : 0 < smaller)
    (less : smaller < larger) (wide : 4 < larger) :
    4 * ((smaller + 3) / 4) % smaller ≠ 4 * ((smaller + 3) / 4) % larger := by
  rcases Nat.lt_or_ge (4 * ((smaller + 3) / 4)) larger with below | beyond
  · rw [Nat.mod_eq_of_lt below]
    exact Nat.ne_of_lt (Nat.lt_of_lt_of_le (Nat.mod_lt _ positive) (by omega))
  · have reached : smaller ≤ 4 * ((smaller + 3) / 4) := by omega
    rw [Nat.mod_eq_sub_mod beyond, Nat.mod_eq_sub_mod reached, Nat.mod_eq_of_lt (by omega),
      Nat.mod_eq_of_lt (by omega)]
    omega

theorem exists_apart (wide : sizeofMsgLen < writerSize) (different : writerSize ≠ readerSize) :
    ∃ rounds, sizeofMsgLen * rounds % writerSize ≠ sizeofMsgLen * rounds % readerSize := by
  simp only [sizeofMsgLen] at *
  rcases Nat.lt_or_gt_of_ne different with smaller | larger
  · exact ⟨_, first_multiple_apart (by omega) smaller (by omega)⟩
  · rcases Nat.eq_zero_or_pos readerSize with rfl | positive
    · refine ⟨writerSize, ?_⟩
      rw [Nat.mul_mod_left, Nat.mod_zero]
      omega
    · exact ⟨_, (first_multiple_apart positive larger wide).symm⟩

def roundsOf (rounds : Nat) : List Call :=
  (List.replicate rounds [Call.write [], .read enough]).flatten

theorem lockstep_after (wide : sizeofMsgLen < writerSize) (area : Nat → UInt8)
    (agree : ∀ calls, NeverFills writerSize readerSize (create writerSize area) calls →
      Agrees readerSize (sessionAfter writerSize readerSize (create writerSize area) calls))
    {rounds : Nat} (level : ∀ earlier, earlier < rounds →
      sizeofMsgLen * earlier % writerSize = sizeofMsgLen * earlier % readerSize) :
    NeverFills writerSize readerSize (create writerSize area) (roundsOf rounds) ∧
      Lockstep writerSize readerSize rounds
        (sessionAfter writerSize readerSize (create writerSize area) (roundsOf rounds)) := by
  induction rounds with
  | zero =>
    refine ⟨Runs.guarded_nil _ _ _, ?_⟩
    constructor <;> simp [roundsOf, sessionAfter, Session.start, create]
  | succ rounds ih =>
    obtain ⟨guarded, lockstep⟩ := ih fun earlier below => level earlier (by omega)
    have here := level rounds (by omega)
    have more : roundsOf (rounds + 1) = (roundsOf rounds ++ [.write []]) ++ [.read enough] := by
      simp [roundsOf, List.replicate_succ']
    have written : NeverFills writerSize readerSize (create writerSize area)
        (roundsOf rounds ++ [.write []]) :=
      Runs.guarded_snoc guarded (lockstep.write wide here).1
    have read : NeverFills writerSize readerSize (create writerSize area)
        (roundsOf rounds ++ [.write []] ++ [.read enough]) :=
      Runs.guarded_snoc written not_false
    have afterWrite := agree _ written
    have afterRead := agree _ read
    rw [more]
    refine ⟨read, ?_⟩
    simp only [sessionAfter, Runs.after_snoc] at afterWrite afterRead ⊢
    exact lockstep.round wide here afterWrite afterRead

theorem disagree_of_different (wide : sizeofMsgLen < writerSize)
    (different : writerSize ≠ readerSize) (area : Nat → UInt8) :
    ¬ ∀ calls, NeverFills writerSize readerSize (create writerSize area) calls →
      Agrees readerSize (sessionAfter writerSize readerSize (create writerSize area) calls) := by
  intro agree
  have apart := exists_apart wide different
  have level : ∀ earlier, earlier < Nat.find apart →
      sizeofMsgLen * earlier % writerSize = sizeofMsgLen * earlier % readerSize :=
    fun earlier below => not_not.mp (Nat.find_min apart below)
  obtain ⟨guarded, lockstep⟩ := lockstep_after wide area agree level
  have read : NeverFills writerSize readerSize (create writerSize area)
      (roundsOf (Nat.find apart) ++ [.read enough]) :=
    Runs.guarded_snoc guarded not_false
  have agrees := agree _ read
  rw [sessionAfter, Runs.after_snoc] at agrees
  exact lockstep.phantom (Nat.find_spec apart) agrees

end Different

theorem attach_refused_or_agrees_iff {writerSize : Nat} (readerSize : Nat)
    (narrow : writerSize < 2 ^ 32) {area : Nat → UInt8} {creator : Granted} {ring : Mapping}
    (created : construct writerSize true creator area none = .ok ring) (create : Bool)
    (granted : Granted) :
    ((∃ message, construct readerSize create granted area (some ring) = .error message) ∨
        ∃ attached, construct readerSize create granted area (some ring) = .ok attached ∧
          ∀ calls, NeverFills writerSize readerSize attached calls →
            Agrees readerSize (sessionAfter writerSize readerSize attached calls)) ↔
      granted.handle = false ∨ granted.view = false ∨
        (create = true ∧ sectionSize readerSize = 0) ∨
        (writerSize = readerSize ∧ sizeofHeader + writerSize < 2 ^ 32) ∨
        writerSize ≤ sizeofMsgLen := by
  obtain rfl := construct_fresh created
  rcases construct_existing readerSize create granted area (SharedMemoryRingBuffer.create writerSize
    area) with ⟨attached, handle, view, some_⟩ | ⟨⟨message, refused⟩, reason⟩
  · simp only [attached, handle, view, some_, reduceCtorEq, exists_false, Except.ok.injEq,
      exists_eq_left', Bool.true_eq_false, false_or]
    constructor
    · intro agree
      by_contra condition
      obtain ⟨notSame, wide⟩ := not_or.mp condition
      by_cases different : writerSize = readerSize
      · subst different
        exact disagree_of_cut narrow (Nat.le_of_not_lt fun whole => notSame ⟨rfl, whole⟩) area
          agree
      · exact disagree_of_different (Nat.lt_of_not_le wide) different area agree
    · rintro condition calls leavesRoom
      rcases Nat.lt_or_ge sizeofMsgLen writerSize with wide | tiny
      · obtain ⟨rfl, whole⟩ := condition.resolve_right (Nat.not_le.mpr wide)
        exact agrees_of_equal (Nat.zero_lt_of_lt wide) whole area calls leavesRoom
      · exact agrees_of_tiny tiny area calls leavesRoom
  · refine iff_of_true (.inl ⟨message, refused⟩) ?_
    tauto

theorem attach_refused_or_agrees_iff_sixteen :
    ((∃ message, construct 16 false ⟨true, true⟩ (fun _ => 0) (some (create 16 fun _ => 0)) =
          .error message) ∨
        ∃ attached, construct 16 false ⟨true, true⟩ (fun _ => 0) (some (create 16 fun _ => 0)) =
            .ok attached ∧
          ∀ calls, NeverFills 16 16 attached calls →
            Agrees 16 (sessionAfter 16 16 attached calls)) ↔
      true = false ∨ true = false ∨ (false = true ∧ sectionSize 16 = 0) ∨
        (16 = 16 ∧ sizeofHeader + 16 < 2 ^ 32) ∨ 16 ≤ sizeofMsgLen :=
  attach_refused_or_agrees_iff 16 (by decide) (rfl : construct 16 true ⟨true, true⟩ _ none = _)
    false ⟨true, true⟩

-- A ring of sixteen bytes, read as one of eight: the third read finds a message after two writes.
theorem attached_reads_unwritten :
    ¬ ((∃ message, construct 8 false ⟨true, true⟩ (fun _ => 0) (some (create 16 fun _ => 0)) =
          .error message) ∨
        ∃ attached, construct 8 false ⟨true, true⟩ (fun _ => 0) (some (create 16 fun _ => 0)) =
            .ok attached ∧
          ∀ calls, NeverFills 16 8 attached calls →
            (sessionAfter 16 8 attached calls).history.delivered <+:
              (sessionAfter 16 8 attached calls).history.written) := by
  rintro (⟨message, refused⟩ | ⟨attached, same, inOrder⟩)
  · cases refused
  · cases same
    have leavesRoom : NeverFills 16 8 (create 16 fun _ => 0)
        [.write [], .read 8, .write [], .read 8, .read 8] := by
      simp only [NeverFills, Runs.guarded_cons, Runs.guarded_nil]
      decide
    have ordered := inOrder _ leavesRoom
    revert ordered
    decide

end AdsRealtime.SharedMemoryRingBuffer
