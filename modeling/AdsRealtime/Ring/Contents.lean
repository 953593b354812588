import AdsRealtime.Ring.SharedMemory
import AdsRealtime.Shared.Runs

set_option autoImplicit false

namespace AdsRealtime.SharedMemoryRingBuffer

open Circular (Holds around)

def frame (message : List UInt8) : List UInt8 :=
  LittleEndian.encode sizeofMsgLen message.length ++ message

def frames (queue : List (List UInt8)) : List UInt8 :=
  queue.flatMap frame

@[simp] theorem length_frame (message : List UInt8) :
    (frame message).length = sizeofMsgLen + message.length := by
  simp [frame]

@[simp] theorem frames_nil : frames [] = [] :=
  rfl

@[simp] theorem frames_cons (message : List UInt8) (rest : List (List UInt8)) :
    frames (message :: rest) = frame message ++ frames rest := by
  simp [frames]

theorem frames_snoc (queue : List (List UInt8)) (message : List UInt8) :
    frames (queue ++ [message]) = frames queue ++ frame message := by
  simp [frames]

theorem length_frames (queue : List (List UInt8)) :
    (frames queue).length = (queue.map fun message => sizeofMsgLen + message.length).sum := by
  simp [frames, List.length_flatMap]

theorem frames_eq_nil {queue : List (List UInt8)} (none : (frames queue).length = 0) :
    queue = [] := by
  cases queue with
  | nil => rfl
  | cons message rest => simp [sizeofMsgLen] at none

def frameStores (bufferSize : Nat) (data : List UInt8) (writePos : Nat) : List (Nat × UInt8) :=
  writeWrappedStores bufferSize (LittleEndian.encode sizeofMsgLen data.length) writePos ++
    writeWrappedStores bufferSize data ((writePos + sizeofMsgLen) % bufferSize)

theorem frameStores_eq {bufferSize : Nat} {data : List UInt8}
    (fits : (frame data).length ≤ bufferSize) (writePos : Nat) :
    frameStores bufferSize data writePos =
      (around bufferSize writePos (frame data).length).zip (frame data) := by
  simp only [length_frame, sizeofMsgLen] at fits
  have prefixFits : (LittleEndian.encode sizeofMsgLen data.length).length ≤ bufferSize := by
    simp only [LittleEndian.length_encode, sizeofMsgLen]
    omega
  rw [frameStores, writeWrappedStores_eq (by omega) prefixFits,
    writeWrappedStores_eq (by omega) (by omega), Circular.around_mod, length_frame,
    Circular.around_append, frame, List.zip_append (by simp), LittleEndian.length_encode]

/--
The area between the two positions holds exactly the frames of the queued messages, all of them
inside the view, and at least one byte of it is free.
-/
structure Stored (bufferSize : Nat) (ring : Mapping) (queue : List (List UInt8)) : Prop where
  view : ring.viewSize = viewSize bufferSize
  writeInside : ring.writePos < bufferSize
  readInside : ring.readPos < bufferSize
  notFull : (frames queue).length < bufferSize
  distance : ring.writePos = (ring.readPos + (frames queue).length) % bufferSize
  contents : Holds ring.dataBuffer bufferSize ring.readPos (frames queue)
  small : ∀ message ∈ queue, message.length ≤ bufferSize / 2
  mapped : ∀ address ∈ around bufferSize ring.readPos (frames queue).length,
    address < ring.viewSize

theorem mod_cases {bufferSize readPos used : Nat} (inside : readPos < bufferSize)
    (notFull : used < bufferSize) :
    (readPos + used < bufferSize ∧ (readPos + used) % bufferSize = readPos + used) ∨
      (bufferSize ≤ readPos + used ∧
        (readPos + used) % bufferSize = readPos + used - bufferSize) := by
  rcases Nat.lt_or_ge (readPos + used) bufferSize with below | beyond
  · exact .inl ⟨below, Nat.mod_eq_of_lt below⟩
  · refine .inr ⟨beyond, ?_⟩
    rw [Nat.mod_eq_sub_mod beyond, Nat.mod_eq_of_lt (by omega)]

theorem available_mod {bufferSize readPos used : Nat} (inside : readPos < bufferSize)
    (notFull : used < bufferSize) :
    available bufferSize ((readPos + used) % bufferSize) readPos = bufferSize - used := by
  unfold available
  rcases mod_cases inside notFull with ⟨below, same⟩ | ⟨beyond, same⟩
  · rw [same, if_pos (by omega)]
    omega
  · rw [same, if_neg (by omega)]
    omega

section Queries

variable {bufferSize : Nat} {ring : Mapping} {queue : List (List UInt8)}

theorem Stored.available_eq (stored : Stored bufferSize ring queue) :
    available bufferSize ring.writePos ring.readPos = bufferSize - (frames queue).length := by
  rw [stored.distance]
  exact available_mod stored.readInside stored.notFull

theorem Stored.availableRead_eq (stored : Stored bufferSize ring queue) :
    availableRead bufferSize ring = (frames queue).length := by
  have inside := stored.readInside
  have notFull := stored.notFull
  unfold availableRead
  rcases mod_cases inside notFull with ⟨below, same⟩ | ⟨beyond, same⟩
  · rw [stored.distance, same, if_pos (by omega)]
    omega
  · rw [stored.distance, same, if_neg (by omega)]
    omega

theorem Stored.positions_eq (stored : Stored bufferSize ring queue) :
    ring.readPos = ring.writePos ↔ queue = [] := by
  have inside := stored.readInside
  have notFull := stored.notFull
  constructor
  · intro same
    apply frames_eq_nil
    have distance := stored.distance
    rcases mod_cases inside notFull with ⟨below, landed⟩ | ⟨beyond, landed⟩ <;> omega
  · intro empty
    rw [stored.distance, empty, frames_nil, List.length_nil, Nat.add_zero,
      Nat.mod_eq_of_lt inside]

theorem Stored.apart {message : List UInt8} {rest : List (List UInt8)}
    (stored : Stored bufferSize ring (message :: rest)) : ring.readPos ≠ ring.writePos :=
  fun same => List.cons_ne_nil message rest (stored.positions_eq.mp same)

theorem Stored.seen_eq_nil {seen later : List (List UInt8)}
    (stored : Stored bufferSize ring (seen ++ later))
    (reached : ring.readPos = (ring.readPos + (frames seen).length) % bufferSize) :
    seen = [] := by
  apply frames_eq_nil
  have notFull := stored.notFull
  rw [frames, List.flatMap_append, List.length_append] at notFull
  change (frames seen).length + _ < _ at notFull
  have used : (frames seen).length < bufferSize := by
    omega
  rcases mod_cases stored.readInside used with ⟨_, landed⟩ | ⟨_, landed⟩ <;> omega

end Queries

section Steps

variable {bufferSize : Nat} {ring : Mapping} {queue : List (List UInt8)} {data : List UInt8}

theorem Stored.untouched (stored : Stored bufferSize ring queue) {room : Nat}
    (fits : (frames queue).length + room ≤ bufferSize) {stores : List (Nat × UInt8)}
    (behind : ∀ store ∈ stores, store.1 ∈ around bufferSize ring.writePos room) :
    ∀ address ∈ around bufferSize ring.readPos (frames queue).length,
      address ∉ stores.map Prod.fst := by
  intro address queued member
  obtain ⟨store, listed, rfl⟩ := List.mem_map.mp member
  have free := behind store listed
  rw [stored.distance, Circular.around_mod] at free
  exact Circular.around_disjoint fits free queued

theorem Stored.storeAll (stored : Stored bufferSize ring queue) {stores : List (Nat × UInt8)}
    (untouched : ∀ address ∈ around bufferSize ring.readPos (frames queue).length,
      address ∉ stores.map Prod.fst) :
    Stored bufferSize { ring with dataBuffer := Circular.storeAll ring.dataBuffer stores } queue :=
  { stored with contents := Circular.holds_frame stored.contents stores untouched }

theorem Stored.publish (stored : Stored bufferSize ring queue)
    (small : data.length ≤ bufferSize / 2)
    (fits : (frames queue).length + (frame data).length < bufferSize)
    (inView : ∀ address ∈ around bufferSize ring.writePos (frame data).length,
      address < ring.viewSize)
    (written : Holds ring.dataBuffer bufferSize ring.writePos (frame data)) :
    Stored bufferSize
      { ring with
        writePos := ((ring.writePos + sizeofMsgLen) % bufferSize + data.length) % bufferSize }
      (queue ++ [data]) where
  view := stored.view
  writeInside := Nat.mod_lt _ (by omega)
  readInside := stored.readInside
  notFull := by
    rw [frames_snoc, List.length_append]
    exact fits
  distance := by
    simp only [stored.distance, frames_snoc, List.length_append, length_frame, Nat.mod_add_mod,
      Nat.add_assoc]
  contents := by
    rw [frames_snoc, Circular.holds_append]
    refine ⟨stored.contents, ?_⟩
    rwa [stored.distance, Circular.holds_mod] at written
  small := by
    intro message member
    rcases List.mem_append.mp member with queued | new
    · exact stored.small message queued
    · rw [List.mem_singleton.mp new]
      exact small
  mapped := by
    intro address member
    rw [frames_snoc, List.length_append, Circular.around_append] at member
    rcases List.mem_append.mp member with queued | new
    · exact stored.mapped address queued
    · apply inView
      rwa [stored.distance, Circular.around_mod]

theorem Stored.consume (stored : Stored bufferSize ring (data :: queue)) :
    Stored bufferSize
      { ring with
        readPos := ((ring.readPos + sizeofMsgLen) % bufferSize + data.length) % bufferSize }
      queue where
  view := stored.view
  writeInside := stored.writeInside
  readInside := Nat.mod_lt _ (by have := stored.notFull; omega)
  notFull := by
    have := stored.notFull
    rw [frames_cons, List.length_append] at this
    omega
  distance := by
    simp only [stored.distance, frames_cons, List.length_append, length_frame, Nat.mod_add_mod,
      Nat.add_assoc]
  contents := by
    have contents := stored.contents
    rw [frames_cons, Circular.holds_append, length_frame] at contents
    rw [Nat.mod_add_mod, Circular.holds_mod, Nat.add_assoc]
    exact contents.2
  small := fun message member => stored.small message (List.mem_cons_of_mem _ member)
  mapped := by
    intro address member
    apply stored.mapped
    rw [frames_cons, List.length_append, Circular.around_append, length_frame]
    apply List.mem_append_right
    rwa [Nat.mod_add_mod, Circular.around_mod, Nat.add_assoc] at member

theorem Stored.head_holds (stored : Stored bufferSize ring (data :: queue)) :
    Holds ring.dataBuffer bufferSize ring.readPos
        (LittleEndian.encode sizeofMsgLen data.length) ∧
      Holds ring.dataBuffer bufferSize ((ring.readPos + sizeofMsgLen) % bufferSize) data := by
  have contents := stored.contents
  rw [frames_cons, Circular.holds_append, frame, Circular.holds_append,
    LittleEndian.length_encode] at contents
  rw [Circular.holds_mod]
  exact contents.1

theorem Stored.head_fits (stored : Stored bufferSize ring (data :: queue)) :
    sizeofMsgLen + data.length < bufferSize := by
  have := stored.notFull
  rw [frames_cons, List.length_append, length_frame] at this
  omega

theorem decode_length (narrow : bufferSize < 2 ^ 32) (small : data.length ≤ bufferSize / 2) :
    LittleEndian.decode (LittleEndian.encode sizeofMsgLen data.length) = data.length := by
  apply LittleEndian.decode_encode_of_lt
  simp only [sizeofMsgLen]
  omega

theorem Stored.readWrapped_length (stored : Stored bufferSize ring (data :: queue)) :
    readWrapped bufferSize ring.dataBuffer sizeofMsgLen ring.readPos =
      LittleEndian.encode sizeofMsgLen data.length := by
  have fits := stored.head_fits
  have holds := stored.head_holds.1
  rw [readWrapped, readWrappedLoads_eq (by omega) (by omega)]
  rwa [Holds, LittleEndian.length_encode] at holds

theorem Stored.readWrapped_data (stored : Stored bufferSize ring (data :: queue)) :
    readWrapped bufferSize ring.dataBuffer data.length
      ((ring.readPos + sizeofMsgLen) % bufferSize) = data := by
  have fits := stored.head_fits
  rw [readWrapped, readWrappedLoads_eq (by omega) (by omega)]
  exact stored.head_holds.2

end Steps

end AdsRealtime.SharedMemoryRingBuffer
