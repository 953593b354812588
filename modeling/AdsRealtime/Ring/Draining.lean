import Mathlib.Data.List.TakeWhile
import AdsRealtime.Ring.History
import AdsRealtime.Shared.Looping

set_option autoImplicit false

namespace AdsRealtime.SharedMemoryRingBuffer

open Looping

structure Drain where
  ring : Mapping
  messages : List (List UInt8)

def drainTurn (bufferSize size : Nat) (drain : Drain) : Turn Drain (Drain × ReadResult) :=
  let (result, ring) := read bufferSize size drain.ring
  if result.success then
    .again { ring := ring, messages := drain.messages ++ [result.data] }
  else
    .exit ({ drain with ring := ring }, result)

def readable (size : Nat) (message : List UInt8) : Bool :=
  message.length ≤ size

/-- The loop has read the messages up to the first one that its buffer has no room for, and has
been told how long that one is. -/
structure Drained (bufferSize size : Nat) (queue : List (List UInt8)) (drain : Drain)
    (last : ReadResult) : Prop where
  messages : drain.messages = queue.takeWhile (readable size)
  left : Stored bufferSize drain.ring (queue.dropWhile (readable size))
  told : last = answer size (queue.dropWhile (readable size))
  whole : bufferSize / 2 ≤ size → queue.dropWhile (readable size) = []
  recovers : queue.dropWhile (readable size) = [] → ∀ data : List UInt8,
    data.length ≤ bufferSize / 2 → data.length + sizeofMsgLen < bufferSize →
      ∃ ring, write bufferSize data drain.ring = (true, ring) ∧ Stored bufferSize ring [data]

section

variable {bufferSize size : Nat}

theorem Stored.drains (narrow : bufferSize < 2 ^ 32) {queue : List (List UInt8)} {drain : Drain}
    (stored : Stored bufferSize drain.ring queue) :
    ∃ ring last, Looping.run (drainTurn bufferSize size) (queue.length + 1) drain =
        .returned ({ ring := ring, messages := drain.messages ++ queue.takeWhile (readable size) },
          last) ∧
      Stored bufferSize ring (queue.dropWhile (readable size)) ∧
      last = answer size (queue.dropWhile (readable size)) := by
  induction queue generalizing drain with
  | nil =>
    obtain ⟨result, left⟩ := stored.read_eq narrow size
    refine ⟨(read bufferSize size drain.ring).2, answer size [], ?_, left, rfl⟩
    apply run_exit
    simp [drainTurn, result, answer]
  | cons message rest ih =>
    obtain ⟨result, left⟩ := stored.read_eq narrow size
    by_cases fits : message.length ≤ size
    · have reads : readable size message = true := decide_eq_true fits
      have again : drainTurn bufferSize size drain =
          .again { ring := (read bufferSize size drain.ring).2
                   messages := drain.messages ++ [message] } := by
        simp [drainTurn, result, answer, fits]
      rw [remaining, if_pos fits] at left
      obtain ⟨ring, last, returned, kept, told⟩ := @ih
        { ring := (read bufferSize size drain.ring).2
          messages := drain.messages ++ [message] } left
      refine ⟨ring, last, ?_, ?_, ?_⟩
      · rw [List.length_cons, run_again again, returned, List.takeWhile_cons_of_pos reads,
          List.append_assoc, List.singleton_append]
      · rwa [List.dropWhile_cons_of_pos reads]
      · rwa [List.dropWhile_cons_of_pos reads]
    · have stops : ¬ readable size message = true := by simpa [readable] using fits
      rw [remaining, if_neg fits] at left
      refine ⟨(read bufferSize size drain.ring).2, answer size (message :: rest), ?_, ?_, ?_⟩
      · apply run_exit
        simp [drainTurn, result, answer, fits, stops]
      · rwa [List.dropWhile_cons_of_neg stops]
      · rw [List.dropWhile_cons_of_neg stops]

theorem Stored.accepts (whole : sizeofHeader + bufferSize < 2 ^ 32) {ring : Mapping}
    (stored : Stored bufferSize ring []) {data : List UInt8}
    (small : data.length ≤ bufferSize / 2) (room : data.length + sizeofMsgLen < bufferSize) :
    ∃ ring', write bufferSize data ring = (true, ring') ∧ Stored bufferSize ring' [data] := by
  have space := stored.available_eq
  rw [frames_nil, List.length_nil, Nat.sub_zero] at space
  rcases write_cases bufferSize data ring with ⟨_, _, accepted⟩ | ⟨large | full, _⟩
  · refine ⟨_, accepted, ?_⟩
    apply stored.published small
    · rw [frames_nil, List.length_nil, length_frame]
      omega
    · intro address member
      rw [stored.view]
      exact Nat.lt_of_lt_of_le (Circular.around_inside (by omega) member) (viewSize_covers whole)
  · omega
  · omega

theorem Stored.all_readable {ring : Mapping} {queue : List (List UInt8)}
    (stored : Stored bufferSize ring queue) (large : bufferSize / 2 ≤ size) :
    queue.dropWhile (readable size) = [] := by
  rw [List.dropWhile_eq_nil_iff]
  intro message member
  exact decide_eq_true ((stored.small message member).trans large)

end

theorem drain_exact {bufferSize : Nat} (positive : 0 < bufferSize)
    (whole : sizeofHeader + bufferSize < 2 ^ 32)
    (area : Nat → UInt8) {calls : List Call}
    (leavesRoom : Runs.Guarded (perform bufferSize)
      (fun history call => ¬ FillsExactly bufferSize history call)
      (History.fresh bufferSize area) calls) (size : Nat) :
    ∃ drain last,
      Looping.run (drainTurn bufferSize size)
          ((Runs.after (perform bufferSize) (History.fresh bufferSize area) calls).pending.length +
            1)
          { ring := (Runs.after (perform bufferSize) (History.fresh bufferSize area) calls).ring
            messages := [] } = .returned (drain, last) ∧
        Drained bufferSize size
          (Runs.after (perform bufferSize) (History.fresh bufferSize area) calls).pending drain
          last := by
  have narrow : bufferSize < 2 ^ 32 := Nat.lt_of_le_of_lt (Nat.le_add_left _ _) whole
  have consistent : Consistent bufferSize
      (Runs.after (perform bufferSize) (History.fresh bufferSize area) calls) :=
    Runs.invariant_of_guarded (Consistent bufferSize)
      (fun _ call consistent room =>
        perform_consistent narrow call consistent room (not_leavesView whole _ call))
      (fresh_consistent positive area) leavesRoom
  have stored := consistent.2
  obtain ⟨ring, last, returned, left, told⟩ := @Stored.drains bufferSize size narrow _
    { ring := (Runs.after (perform bufferSize) (History.fresh bufferSize area) calls).ring
      messages := [] } stored
  refine ⟨_, last, returned, ?_⟩
  constructor
  · exact List.nil_append _
  · exact left
  · exact told
  · exact stored.all_readable
  · intro empty data small room
    rw [empty] at left
    exact left.accepts whole small room

theorem drain_exact_sixteen :
    ∃ drain last,
      Looping.run (drainTurn 16 8)
          ((Runs.after (perform 16) (History.fresh 16 fun _ => 0)
            [Call.write [1, 2], Call.write [3]]).pending.length + 1)
          { ring := (Runs.after (perform 16) (History.fresh 16 fun _ => 0)
              [Call.write [1, 2], Call.write [3]]).ring
            messages := [] } = .returned (drain, last) ∧
        Drained 16 8
          (Runs.after (perform 16) (History.fresh 16 fun _ => 0)
            [Call.write [1, 2], Call.write [3]]).pending drain last := by
  refine drain_exact (by decide) (by decide) (fun _ => 0) ?_ 8
  refine Runs.guarded_cons.mpr ⟨?_, Runs.guarded_cons.mpr ⟨?_, Runs.guarded_nil _ _ _⟩⟩
  · rintro ⟨_, same⟩
    revert same
    decide
  · rintro ⟨_, same⟩
    revert same
    decide

end AdsRealtime.SharedMemoryRingBuffer
