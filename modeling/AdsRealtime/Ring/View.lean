import AdsRealtime.Ring.History

set_option autoImplicit false

namespace AdsRealtime.SharedMemoryRingBuffer

open Circular (around)

/-- Both sides of one mapping, and whether a copy has gone beyond the view of it. -/
structure Session where
  history : History
  outside : Bool

def Session.start (ring : Mapping) : Session :=
  { history := { ring := ring, written := [], delivered := [] }, outside := false }

def readLoads (bufferSize len : Nat) (ring : Mapping) : List Nat :=
  if ring.readPos = ring.writePos then []
  else
    let msgLen :=
      LittleEndian.decode (readWrapped bufferSize ring.dataBuffer sizeofMsgLen ring.readPos)
    readWrappedLoads bufferSize sizeofMsgLen ring.readPos ++
      if msgLen > len then []
      else readWrappedLoads bufferSize msgLen ((ring.readPos + sizeofMsgLen) % bufferSize)

def touched (bufferSize : Nat) (ring : Mapping) : Call → List Nat
  | .write data =>
    if (write bufferSize data ring).1 then
      (frameStores bufferSize data ring.writePos).map Prod.fst
    else []
  | .read len => readLoads bufferSize len ring

-- The side that makes the call reckons with its own size.
def sizeOf (writerSize readerSize : Nat) : Call → Nat
  | .write _ => writerSize
  | .read _ => readerSize

-- What a copy beyond the view does is not followed any further.
def exchange (writerSize readerSize : Nat) (session : Session) (call : Call) : Session :=
  let bufferSize := sizeOf writerSize readerSize call
  let ring := session.history.ring
  if ∀ address ∈ touched bufferSize ring call, address < ring.viewSize then
    { session with history := perform bufferSize session.history call }
  else
    { session with outside := true }

def sessionAfter (writerSize readerSize : Nat) (ring : Mapping) (calls : List Call) : Session :=
  Runs.after (exchange writerSize readerSize) (Session.start ring) calls

theorem exchange_inside {writerSize readerSize : Nat} {session : Session} {call : Call}
    (inside : ∀ address ∈ touched (sizeOf writerSize readerSize call) session.history.ring call,
      address < session.history.ring.viewSize) :
    exchange writerSize readerSize session call =
      { session with
        history := perform (sizeOf writerSize readerSize call) session.history call } := by
  simp only [exchange]
  rw [if_pos inside]

theorem exchange_outside {writerSize readerSize : Nat} {session : Session} {call : Call}
    {address : Nat}
    (reached : address ∈ touched (sizeOf writerSize readerSize call) session.history.ring call)
    (beyond : session.history.ring.viewSize ≤ address) :
    exchange writerSize readerSize session call = { session with outside := true } := by
  simp only [exchange]
  rw [if_neg fun inside => absurd (inside address reached) (Nat.not_lt.mpr beyond)]

section

variable {bufferSize : Nat} {ring : Mapping} {queue : List (List UInt8)} {session : Session}

theorem sizeOf_self (call : Call) : sizeOf bufferSize bufferSize call = bufferSize := by
  cases call <;> rfl

theorem mem_touched_write {data : List UInt8} (accepted : (write bufferSize data ring).1 = true)
    (fits : (frame data).length ≤ bufferSize) {address : Nat} :
    address ∈ touched bufferSize ring (.write data) ↔
      address ∈ around bufferSize ring.writePos (frame data).length := by
  rw [touched, if_pos accepted, frameStores_eq fits, List.map_fst_zip (by simp)]

theorem Stored.mem_touched_read (narrow : bufferSize < 2 ^ 32)
    (stored : Stored bufferSize ring queue) {len address : Nat}
    (member : address ∈ touched bufferSize ring (.read len)) :
    address ∈ around bufferSize ring.readPos (frames queue).length := by
  simp only [touched, readLoads] at member
  cases queue with
  | nil => simp [stored.positions_eq.mpr rfl] at member
  | cons message rest =>
    have apart := stored.apart
    have fits := stored.head_fits
    have positive : 0 < bufferSize := by
      omega
    simp only [if_neg apart, stored.readWrapped_length,
      decode_length narrow (stored.small message (by simp))] at member
    rw [readWrappedLoads_eq positive (by omega), readWrappedLoads_eq positive (by omega),
      Circular.around_mod] at member
    rw [frames_cons, List.length_append, length_frame, Circular.around_append,
      Circular.around_append]
    apply List.mem_append_left
    rcases List.mem_append.mp member with length | data
    · exact List.mem_append_left _ length
    · split_ifs at data
      · simp at data
      · exact List.mem_append_right _ data

theorem exchange_consistent (narrow : bufferSize < 2 ^ 32) {call : Call}
    (inView : session.outside = false) (consistent : Consistent bufferSize session.history)
    (leavesRoom : ¬ FillsExactly bufferSize session.history call)
    (stays : ¬ LeavesView bufferSize session.history call) :
    (exchange bufferSize bufferSize session call).outside = false ∧
      Consistent bufferSize (exchange bufferSize bufferSize session call).history := by
  have stored := consistent.2
  have kept := perform_consistent narrow call consistent leavesRoom stays
  rw [exchange_inside, sizeOf_self]
  · exact ⟨inView, kept⟩
  · intro address member
    rw [sizeOf_self] at member
    cases call with
    | read len => exact stored.mapped address (stored.mem_touched_read narrow member)
    | write data =>
      rcases write_cases bufferSize data session.history.ring with
        ⟨small, fits, accepted⟩ | ⟨_, refused⟩
      · have room := stored.inside.available_le
        rw [mem_touched_write (by rw [accepted]) (by rw [length_frame]; omega),
          length_frame] at member
        rw [LeavesView, availableWrite_eq stored.inside] at stays
        rw [stored.view]
        refine (inView_iff narrow stored.writeInside).mpr ?_ address member
        exact fun outside => stays ⟨small, fits, outside⟩
      · simp [touched, refused] at member

theorem exchange_positions (call : Call) (inside : Inside bufferSize session.history.ring) :
    Inside bufferSize (exchange bufferSize bufferSize session call).history.ring := by
  simp only [exchange]
  split
  · rw [sizeOf_self]
    exact perform_inside call inside
  · exact inside

theorem outside_of_leavesView (narrow : bufferSize < 2 ^ 32)
    (inside : Inside bufferSize session.history.ring) {call : Call}
    (leaves : LeavesView bufferSize session.history call) :
    (exchange bufferSize bufferSize session call).outside = true := by
  cases call with
  | read len => exact leaves.elim
  | write data =>
    obtain ⟨small, fits, outside⟩ := leaves
    rw [availableWrite_eq inside] at fits
    have room := inside.available_le
    rcases write_cases bufferSize data session.history.ring with
      ⟨_, _, accepted⟩ | ⟨large | full, _⟩
    · have some_ := mt (inView_iff narrow inside.writePos).mp (not_not.mpr outside)
      obtain ⟨address, some_⟩ := not_forall.mp some_
      obtain ⟨reached, beyond⟩ := Classical.not_imp.mp some_
      rw [← length_frame, ← mem_touched_write (by rw [accepted])
        (by rw [length_frame]; omega)] at reached
      rw [exchange_outside (by rwa [sizeOf_self])]
      rw [inside.view]
      exact Nat.not_lt.mp beyond
    · omega
    · omega

end

theorem ringBuffer_fifo_iff {bufferSize : Nat} (positive : 0 < bufferSize)
    (narrow : bufferSize < 2 ^ 32) {granted : Granted} {area : Nat → UInt8} {ring : Mapping}
    (created : construct bufferSize true granted area none = .ok ring) (calls : List Call) :
    (∀ before, before <+: calls →
        (sessionAfter bufferSize bufferSize ring before).outside = false ∧
          Fifo bufferSize (sessionAfter bufferSize bufferSize ring before).history) ↔
      Runs.Guarded (exchange bufferSize bufferSize)
        (fun session call => ¬ FillsExactly bufferSize session.history call ∧
          ¬ LeavesView bufferSize session.history call) (Session.start ring) calls := by
  obtain rfl := construct_fresh created
  constructor
  · intro kept before call inside
    have positions : Inside bufferSize
        (sessionAfter bufferSize bufferSize (create bufferSize area) before).history.ring :=
      Runs.invariant_of_step (fun session : Session => Inside bufferSize session.history.ring)
        (fun _ call inside => exchange_positions call inside) ⟨rfl, positive, positive⟩ before
    have inOrder := (kept before ((List.prefix_append _ _).trans inside)).2.inOrder
    obtain ⟨inView, fifo⟩ := kept _ inside
    rw [sessionAfter, Runs.after_snoc, ← sessionAfter] at inView fifo
    have stays : ¬ LeavesView bufferSize
        (sessionAfter bufferSize bufferSize (create bufferSize area) before).history call := by
      intro leaves
      rw [outside_of_leavesView narrow positions leaves] at inView
      cases inView
    refine ⟨fun fills => ?_, stays⟩
    have taken : (exchange bufferSize bufferSize
        (sessionAfter bufferSize bufferSize (create bufferSize area) before) call).history =
          perform bufferSize
            (sessionAfter bufferSize bufferSize (create bufferSize area) before).history call := by
      simp only [exchange] at inView ⊢
      split_ifs at inView ⊢
      rw [sizeOf_self]
    rw [taken] at fifo
    exact not_fifo_of_fills positions inOrder fills fifo
  · intro guarded before inside
    have holds := Runs.invariant_of_guarded
      (fun session : Session => session.outside = false ∧ Consistent bufferSize session.history)
      (fun _ _ holds allowed =>
        exchange_consistent narrow holds.1 holds.2 allowed.1 allowed.2)
      ⟨rfl, fresh_consistent positive area⟩ (Runs.guarded_front inside guarded)
    exact ⟨holds.1, holds.2.fifo narrow⟩

theorem ringBuffer_fifo_iff_sixteen :
    (∀ before, before <+: [Call.write [1, 2], Call.read 8, Call.write [3, 4]] →
        (sessionAfter 16 16 (create 16 fun _ => 0) before).outside = false ∧
          Fifo 16 (sessionAfter 16 16 (create 16 fun _ => 0) before).history) ↔
      Runs.Guarded (exchange 16 16)
        (fun session call => ¬ FillsExactly 16 session.history call ∧
          ¬ LeavesView 16 session.history call) (Session.start (create 16 fun _ => 0))
        [Call.write [1, 2], Call.read 8, Call.write [3, 4]] :=
  ringBuffer_fifo_iff (by decide) (by decide)
    (rfl : construct 16 true ⟨true, true⟩ (fun _ => 0) none = .ok (create 16 fun _ => 0)) _

theorem ringBuffer_loses_full_ring :
    ¬ ((sessionAfter 8 8 (create 8 fun _ => 0) [Call.write [1, 2, 3, 4]]).outside = false ∧
      Fifo 8 (sessionAfter 8 8 (create 8 fun _ => 0) [Call.write [1, 2, 3, 4]]).history) := by
  rintro ⟨_, fifo⟩
  have looksEmpty := fifo.isEmpty
  revert looksEmpty
  decide

end AdsRealtime.SharedMemoryRingBuffer
