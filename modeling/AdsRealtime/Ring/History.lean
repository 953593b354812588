import AdsRealtime.Ring.Contents

set_option autoImplicit false

namespace AdsRealtime.SharedMemoryRingBuffer

open Circular (Holds around)

def published (bufferSize : Nat) (data : List UInt8) (ring : Mapping) : Mapping :=
  { ring with
    dataBuffer := Circular.storeAll ring.dataBuffer (frameStores bufferSize data ring.writePos)
    writePos := ((ring.writePos + sizeofMsgLen) % bufferSize + data.length) % bufferSize }

theorem write_cases (bufferSize : Nat) (data : List UInt8) (ring : Mapping) :
    (data.length ≤ bufferSize / 2 ∧
        data.length + sizeofMsgLen ≤ available bufferSize ring.writePos ring.readPos ∧
        write bufferSize data ring = (true, published bufferSize data ring)) ∨
      ((bufferSize / 2 < data.length ∨
          available bufferSize ring.writePos ring.readPos < data.length + sizeofMsgLen) ∧
        write bufferSize data ring = (false, ring)) := by
  by_cases large : data.length > bufferSize / 2
  · exact .inr ⟨.inl large, by simp [write, tooLarge, large]⟩
  · by_cases full : available bufferSize ring.writePos ring.readPos < data.length + sizeofMsgLen
    · exact .inr ⟨.inr full, by simp [write, tooLarge, large, full]⟩
    · refine .inl ⟨by omega, by omega, ?_⟩
      simp [write, tooLarge, large, full, published, frameStores, writeWrapped,
        Circular.storeAll_append]

theorem Stored.published {bufferSize : Nat} {ring : Mapping} {queue : List (List UInt8)}
    {data : List UInt8} (stored : Stored bufferSize ring queue)
    (small : data.length ≤ bufferSize / 2)
    (fits : (frames queue).length + (frame data).length < bufferSize)
    (inView : ∀ address ∈ around bufferSize ring.writePos (frame data).length,
      address < ring.viewSize) :
    Stored bufferSize (published bufferSize data ring) (queue ++ [data]) := by
  have room : (frame data).length ≤ bufferSize := by
    omega
  have stores := frameStores_eq room ring.writePos
  have behind : ∀ store ∈ frameStores bufferSize data ring.writePos,
      store.1 ∈ around bufferSize ring.writePos (frame data).length := by
    rw [stores]
    exact fun store member => (List.of_mem_zip member).1
  have kept := stored.storeAll (stored.untouched (Nat.le_of_lt fits) behind)
  apply kept.publish small fits inView
  rw [stores]
  exact Circular.holds_storeAll _ _ room

def answer (len : Nat) : List (List UInt8) → ReadResult
  | [] => { success := false, len := len, data := [] }
  | message :: _ =>
    if message.length ≤ len then { success := true, len := message.length, data := message }
    else { success := false, len := message.length, data := [] }

def remaining (len : Nat) : List (List UInt8) → List (List UInt8)
  | [] => []
  | message :: rest => if message.length ≤ len then rest else message :: rest

theorem Stored.read_eq {bufferSize : Nat} {ring : Mapping} {queue : List (List UInt8)}
    (narrow : bufferSize < 2 ^ 32) (stored : Stored bufferSize ring queue) (len : Nat) :
    (read bufferSize len ring).1 = answer len queue ∧
      Stored bufferSize (read bufferSize len ring).2 (remaining len queue) := by
  cases queue with
  | nil =>
    have same := stored.positions_eq.mpr rfl
    simp only [read, same, if_true, answer, remaining]
    exact ⟨trivial, stored⟩
  | cons message rest =>
    have apart := stored.apart
    have length := decode_length narrow (stored.small message (by simp))
    by_cases fits : message.length ≤ len
    · simp only [read, if_neg apart, stored.readWrapped_length, length, Nat.not_lt.mpr fits,
        if_false, stored.readWrapped_data, answer, remaining, if_pos fits]
      exact ⟨trivial, stored.consume⟩
    · simp only [read, if_neg apart, stored.readWrapped_length, length, Nat.lt_of_not_le fits,
        if_true, answer, remaining, if_neg fits]
      exact ⟨trivial, stored⟩

inductive Call where
  | write (data : List UInt8)
  | read (len : Nat)

structure History where
  ring : Mapping
  written : List (List UInt8)
  delivered : List (List UInt8)

def History.pending (history : History) : List (List UInt8) :=
  history.written.drop history.delivered.length

def History.fresh (bufferSize : Nat) (area : Nat → UInt8) : History :=
  { ring := create bufferSize area, written := [], delivered := [] }

def perform (bufferSize : Nat) (history : History) : Call → History
  | .write data =>
    let (accepted, ring) := write bufferSize data history.ring
    { history with
      ring := ring
      written := if accepted then history.written ++ [data] else history.written }
  | .read len =>
    let (result, ring) := read bufferSize len history.ring
    { history with
      ring := ring
      delivered :=
        if result.success then history.delivered ++ [result.data] else history.delivered }

/-- The ring is a first-in first-out queue of the written messages. -/
structure Fifo (bufferSize : Nat) (history : History) : Prop where
  inOrder : history.delivered <+: history.written
  nextRead : ∀ len, (read bufferSize len history.ring).1 = answer len history.pending
  availableRead : availableRead bufferSize history.ring =
    (history.pending.map fun message => sizeofMsgLen + message.length).sum
  isEmpty : isEmpty history.ring = true ↔ history.pending = []

def FillsExactly (bufferSize : Nat) (history : History) : Call → Prop
  | .write data =>
    data.length ≤ bufferSize / 2 ∧
      availableWrite bufferSize history.ring = data.length + sizeofMsgLen
  | .read _ => False

-- A view that the cut size leaves short does not reach to the end of the frame.
def EndsOutside (bufferSize writePos len : Nat) : Prop :=
  2 ^ 32 ≤ sizeofHeader + bufferSize ∧ viewSize bufferSize < writePos + sizeofMsgLen + len

instance (bufferSize writePos len : Nat) : Decidable (EndsOutside bufferSize writePos len) :=
  inferInstanceAs (Decidable (_ ∧ _))

def LeavesView (bufferSize : Nat) (history : History) : Call → Prop
  | .write data =>
    data.length ≤ bufferSize / 2 ∧
      data.length + sizeofMsgLen ≤ availableWrite bufferSize history.ring ∧
      EndsOutside bufferSize history.ring.writePos data.length
  | .read _ => False

theorem not_leavesView {bufferSize : Nat} (whole : sizeofHeader + bufferSize < 2 ^ 32)
    (history : History) (call : Call) : ¬ LeavesView bufferSize history call := by
  intro leaves
  cases call with
  | write data => exact absurd leaves.2.2.1 (Nat.not_le.mpr whole)
  | read len => exact leaves

theorem inView_iff {bufferSize writePos len : Nat} (narrow : bufferSize < 2 ^ 32)
    (inside : writePos < bufferSize) :
    (∀ address ∈ around bufferSize writePos (sizeofMsgLen + len), address < viewSize bufferSize) ↔
      ¬ EndsOutside bufferSize writePos len := by
  rw [EndsOutside, Nat.add_assoc]
  rcases Nat.lt_or_ge (sizeofHeader + bufferSize) (2 ^ 32) with whole | cut
  · have covers := viewSize_covers whole
    refine iff_of_true ?_ fun outside => absurd outside.1 (Nat.not_le.mpr whole)
    intro address member
    exact Nat.lt_of_lt_of_le (Circular.around_inside (Nat.zero_lt_of_lt inside) member) covers
  · have page := viewSize_cut narrow cut
    have short : viewSize bufferSize < bufferSize := by
      simp only [sizeofHeader, pageSize] at cut page
      omega
    constructor
    · rintro inView ⟨_, beyond⟩
      have last := max_lt short inside
      have reached : max (viewSize bufferSize) writePos ∈
          around bufferSize writePos (sizeofMsgLen + len) := by
        refine List.mem_map.mpr ⟨max (viewSize bufferSize) writePos - writePos, ?_, ?_⟩
        · rw [List.mem_range]
          simp only [sizeofMsgLen] at beyond ⊢
          omega
        · rw [Nat.add_sub_cancel' (Nat.le_max_right _ _), Nat.mod_eq_of_lt last]
      exact absurd (inView _ reached) (Nat.not_lt.mpr (Nat.le_max_left _ _))
    · intro notOutside address member
      obtain ⟨k, below, rfl⟩ := List.mem_map.mp member
      have ends : writePos + (sizeofMsgLen + len) ≤ viewSize bufferSize :=
        Nat.not_lt.mp fun beyond => notOutside ⟨cut, beyond⟩
      have before := List.mem_range.mp below
      rw [Nat.mod_eq_of_lt (by omega)]
      omega

def Consistent (bufferSize : Nat) (history : History) : Prop :=
  history.delivered <+: history.written ∧ Stored bufferSize history.ring history.pending

theorem create_stored {bufferSize : Nat} (positive : 0 < bufferSize) (area : Nat → UInt8) :
    Stored bufferSize (create bufferSize area) [] where
  view := rfl
  writeInside := positive
  readInside := positive
  notFull := positive
  distance := (Nat.zero_mod bufferSize).symm
  contents := Circular.holds_nil _ _ _
  small := by simp
  mapped := by simp [around]

theorem fresh_consistent {bufferSize : Nat} (positive : 0 < bufferSize) (area : Nat → UInt8) :
    Consistent bufferSize (History.fresh bufferSize area) :=
  ⟨List.prefix_refl [], create_stored positive area⟩

structure Inside (bufferSize : Nat) (ring : Mapping) : Prop where
  view : ring.viewSize = viewSize bufferSize
  writePos : ring.writePos < bufferSize
  readPos : ring.readPos < bufferSize

theorem Stored.inside {bufferSize : Nat} {ring : Mapping} {queue : List (List UInt8)}
    (stored : Stored bufferSize ring queue) : Inside bufferSize ring :=
  ⟨stored.view, stored.writeInside, stored.readInside⟩

section History

variable {bufferSize : Nat} {history : History}

theorem Consistent.fifo (narrow : bufferSize < 2 ^ 32)
    (consistent : Consistent bufferSize history) : Fifo bufferSize history where
  inOrder := consistent.1
  nextRead := fun len => (consistent.2.read_eq narrow len).1
  availableRead := by rw [consistent.2.availableRead_eq, length_frames]
  isEmpty := by
    rw [isEmpty, beq_iff_eq, eq_comm]
    exact consistent.2.positions_eq

theorem pending_write (inOrder : history.delivered <+: history.written) (data : List UInt8) :
    (history.written ++ [data]).drop history.delivered.length = history.pending ++ [data] :=
  List.drop_append_of_le_length inOrder.length_le

theorem Inside.available_le {ring : Mapping} (inside : Inside bufferSize ring) :
    available bufferSize ring.writePos ring.readPos ≤ bufferSize := by
  obtain ⟨_, _, readInside⟩ := inside
  unfold available
  split <;> omega

theorem availableWrite_eq {ring : Mapping} (inside : Inside bufferSize ring) :
    availableWrite bufferSize ring = available bufferSize ring.writePos ring.readPos := by
  obtain ⟨_, writeInside, readInside⟩ := inside
  unfold availableWrite availableRead available
  split <;> omega

theorem add_available_mod {ring : Mapping} (inside : Inside bufferSize ring) :
    (ring.writePos + available bufferSize ring.writePos ring.readPos) % bufferSize =
      ring.readPos := by
  obtain ⟨_, writeInside, readInside⟩ := inside
  unfold available
  split
  · have around : ring.writePos + (bufferSize - (ring.writePos - ring.readPos)) =
        ring.readPos + bufferSize := by
      omega
    rw [around, Nat.add_mod_right, Nat.mod_eq_of_lt readInside]
  · have reached : ring.writePos + (ring.readPos - ring.writePos) = ring.readPos := by
      omega
    rw [reached, Nat.mod_eq_of_lt readInside]

theorem perform_write_consistent (narrow : bufferSize < 2 ^ 32)
    (consistent : Consistent bufferSize history) (data : List UInt8)
    (leavesRoom : ¬ FillsExactly bufferSize history (.write data))
    (stays : ¬ LeavesView bufferSize history (.write data)) :
    Consistent bufferSize (perform bufferSize history (.write data)) := by
  obtain ⟨inOrder, stored⟩ := consistent
  have space := stored.available_eq
  rcases write_cases bufferSize data history.ring with
    ⟨small, fits, accepted⟩ | ⟨_, refused⟩
  · simp only [perform, accepted, if_true]
    refine ⟨inOrder.trans (List.prefix_append _ _), ?_⟩
    rw [History.pending, pending_write inOrder]
    have notExact : availableWrite bufferSize history.ring ≠ data.length + sizeofMsgLen :=
      fun exact' => leavesRoom ⟨small, exact'⟩
    rw [LeavesView, availableWrite_eq stored.inside] at stays
    rw [availableWrite_eq stored.inside] at notExact
    apply stored.published small
    · rw [length_frame]
      omega
    · rw [length_frame, stored.view, inView_iff narrow stored.writeInside]
      exact fun outside => stays ⟨small, fits, outside⟩
  · simp only [perform, refused]
    exact ⟨inOrder, stored⟩

theorem perform_read_consistent (narrow : bufferSize < 2 ^ 32)
    (consistent : Consistent bufferSize history) (len : Nat) :
    Consistent bufferSize (perform bufferSize history (.read len)) := by
  obtain ⟨inOrder, stored⟩ := consistent
  obtain ⟨result, left⟩ := stored.read_eq narrow len
  have whole := List.prefix_iff_eq_append.mp inOrder
  change history.delivered ++ history.pending = history.written at whole
  have kept (same : remaining len history.pending = history.pending) :
      Consistent bufferSize { history with ring := (read bufferSize len history.ring).2 } := by
    rw [same] at left
    exact ⟨inOrder, left⟩
  simp only [perform, result]
  cases queued : history.pending with
  | nil =>
    simp only [answer, Bool.false_eq_true, if_false]
    exact kept (by rw [queued, remaining])
  | cons message rest =>
    rw [queued] at whole left
    by_cases fits : message.length ≤ len
    · simp only [remaining, if_pos fits] at left
      have split : history.written = (history.delivered ++ [message]) ++ rest := by
        rw [← whole]
        simp
      simp only [answer, if_pos fits, if_true]
      refine ⟨⟨rest, split.symm⟩, ?_⟩
      simpa only [History.pending, split, List.drop_left'] using left
    · simp only [answer, if_neg fits, Bool.false_eq_true, if_false]
      exact kept (by rw [queued, remaining, if_neg fits])

theorem perform_consistent (narrow : bufferSize < 2 ^ 32) (call : Call)
    (consistent : Consistent bufferSize history)
    (leavesRoom : ¬ FillsExactly bufferSize history call)
    (stays : ¬ LeavesView bufferSize history call) :
    Consistent bufferSize (perform bufferSize history call) := by
  cases call with
  | write data => exact perform_write_consistent narrow consistent data leavesRoom stays
  | read len => exact perform_read_consistent narrow consistent len

theorem perform_inside (call : Call) (inside : Inside bufferSize history.ring) :
    Inside bufferSize (perform bufferSize history call).ring := by
  have positive : 0 < bufferSize := Nat.zero_lt_of_lt inside.writePos
  cases call with
  | write data =>
    rcases write_cases bufferSize data history.ring with
      ⟨_, _, accepted⟩ | ⟨_, refused⟩
    · simp only [perform, accepted]
      exact ⟨inside.view, Nat.mod_lt _ positive, inside.readPos⟩
    · simp only [perform, refused]
      exact inside
  | read len =>
    simp only [perform, read]
    split
    · exact inside
    · split
      · exact inside
      · exact ⟨inside.view, inside.writePos, Nat.mod_lt _ positive⟩

-- A message that fills the ring brings the two positions together: it can no longer be seen.
theorem not_fifo_of_fills (inside : Inside bufferSize history.ring) {call : Call}
    (inOrder : history.delivered <+: history.written)
    (fills : FillsExactly bufferSize history call) :
    ¬ Fifo bufferSize (perform bufferSize history call) := by
  cases call with
  | read len => exact fills.elim
  | write data =>
    obtain ⟨small, exact'⟩ := fills
    rw [availableWrite_eq inside] at exact'
    intro fifo
    rcases write_cases bufferSize data history.ring with
      ⟨_, _, accepted⟩ | ⟨large | full, _⟩
    · have met : (perform bufferSize history (.write data)).ring.writePos =
          history.ring.readPos := by
        simp only [perform, accepted, published, Nat.mod_add_mod, Nat.add_assoc,
          Nat.add_comm sizeofMsgLen, ← exact']
        exact add_available_mod inside
      have looksEmpty : isEmpty (perform bufferSize history (.write data)).ring = true := by
        rw [isEmpty, met]
        simp [perform, accepted, published]
      have pending := fifo.isEmpty.mp looksEmpty
      simp only [perform, accepted, if_true, History.pending] at pending
      rw [pending_write inOrder] at pending
      simp at pending
    · omega
    · omega

end History

end AdsRealtime.SharedMemoryRingBuffer
