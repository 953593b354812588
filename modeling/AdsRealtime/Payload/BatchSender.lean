import AdsRealtime.Payload.VariableBatch

set_option autoImplicit false

namespace AdsRealtime.VariableBatch

structure Sender where
  batch : VariableBatch
  sent : List (List UInt8)

-- One turn of the batching loop, which asks once more whether to flush.
def sendTurn (sender : Sender) (call : Call) : Sender :=
  let batch := (sender.batch.addVariable call.clock call.name call.data).2
  if batch.shouldFlush (call.clock 2) then
    { batch := batch.clear (call.clock 3), sent := sender.sent ++ [batch.serialize] }
  else
    { sender with batch := batch }

def batching (maxSize : Nat) (timeout now : Int) (calls : List Call) : Sender :=
  Runs.after sendTurn { batch := new maxSize timeout now, sent := [] } calls

-- What the clock shows from the construction on, up to the last reading of the last turn.
def readings (now : Int) (calls : List Call) : List Int :=
  now :: calls.flatMap fun call => [call.clock 0, call.clock 1, call.clock 2, call.clock 3]

def Clocked (now : Int) (calls : List Call) : Prop :=
  (readings now calls).Pairwise (· ≤ ·)

theorem readings_snoc (now : Int) (calls : List Call) (call : Call) :
    readings now (calls ++ [call]) =
      readings now calls ++ [call.clock 0, call.clock 1, call.clock 2, call.clock 3] := by
  simp [readings]

theorem Clocked.front {now : Int} {calls : List Call} {call : Call}
    (clocked : Clocked now (calls ++ [call])) : Clocked now calls := by
  rw [Clocked, readings_snoc] at clocked
  exact (List.pairwise_append.mp clocked).1

theorem Clocked.last {now : Int} {calls : List Call} {call : Call}
    (clocked : Clocked now (calls ++ [call])) {reading : Int}
    (earlier : reading ∈ readings now calls) : reading ≤ call.clock 0 := by
  rw [Clocked, readings_snoc] at clocked
  exact (List.pairwise_append.mp clocked).2.2 reading earlier _ List.mem_cons_self

theorem microseconds_mono {a b : Int} (le : a ≤ b) : microseconds a ≤ microseconds b :=
  Int.tdiv_le_tdiv (by decide) le

/-- The calls make up the batches that have been sent and the one that is being filled. -/
structure Batched (maxSize : Nat) (timeout now : Int) (calls : List Call) (sender : Sender)
    (batches : List (List Call)) (unsent : List Call) : Prop where
  whole : calls = batches.flatten ++ unsent
  received : sender.sent.map readRecords =
    batches.map fun batch => some (batch.map fun call => record call.entry, [])
  sizes : ∀ batch ∈ batches, 0 < batch.length ∧ batch.length ≤ max maxSize 1
  pending : sender.batch.entries = unsent.map Call.entry
  room : unsent.length < max maxSize 1
  young : Clocked now calls → ∀ last, calls.getLast? = some last → ∀ call ∈ unsent,
    microseconds (last.clock 2 - call.clock 0) < timeout

structure Timed (maxSize : Nat) (timeout now : Int) (calls : List Call) (sender : Sender)
    (unsent : List Call) : Prop where
  maxBatchSize : sender.batch.maxBatchSize = maxSize
  batchTimeout : sender.batch.batchTimeout = timeout
  flushed : sender.batch.lastFlush ∈ readings now calls
  since : Clocked now calls → ∀ call ∈ unsent, sender.batch.lastFlush ≤ call.clock 0

variable {maxSize : Nat} {timeout now : Int}

theorem batched_nil (maxSize : Nat) (timeout now : Int) :
    Batched maxSize timeout now [] (batching maxSize timeout now []) [] [] ∧
      Timed maxSize timeout now [] (batching maxSize timeout now []) [] := by
  refine ⟨⟨rfl, rfl, by simp, rfl, by simp, by simp⟩, ⟨rfl, rfl, ?_, by simp⟩⟩
  exact List.mem_singleton.mpr rfl

section

variable {calls : List Call} {call : Call} {sender : Sender} {batches : List (List Call)}
  {unsent : List Call}

def filled (sender : Sender) (call : Call) : VariableBatch :=
  (sender.batch.addVariable call.clock call.name call.data).2

theorem filled_entries (call : Call)
    (pending : sender.batch.entries = unsent.map Call.entry) :
    (filled sender call).entries = (unsent ++ [call]).map Call.entry := by
  rw [List.map_append, ← pending]
  rfl

theorem Timed.older (timed : Timed maxSize timeout now calls sender unsent) :
    sender.batch.lastFlush ∈ readings now (calls ++ [call]) := by
  rw [readings_snoc]
  exact List.mem_append_left _ timed.flushed

theorem Timed.sinceThen (timed : Timed maxSize timeout now calls sender unsent)
    (clocked : Clocked now (calls ++ [call])) :
    ∀ other ∈ unsent ++ [call], sender.batch.lastFlush ≤ other.clock 0 := by
  intro other member
  rcases List.mem_append.mp member with old | new
  · exact timed.since clocked.front other old
  · rw [List.mem_singleton.mp new]
    exact clocked.last timed.flushed

theorem batched_flush (count : max maxSize 1 < 2 ^ 32)
    (small : ∀ other ∈ calls ++ [call], (record other.entry).length < 2 ^ 32)
    (batched : Batched maxSize timeout now calls sender batches unsent)
    (timed : Timed maxSize timeout now calls sender unsent)
    (flush : (filled sender call).shouldFlush (call.clock 2) = true) :
    Batched maxSize timeout now (calls ++ [call]) (sendTurn sender call)
        (batches ++ [unsent ++ [call]]) [] ∧
      Timed maxSize timeout now (calls ++ [call]) (sendTurn sender call) [] := by
  have turned : sendTurn sender call =
      { batch := (filled sender call).clear (call.clock 3)
        sent := sender.sent ++ [(filled sender call).serialize] } := if_pos flush
  have entries := filled_entries call batched.pending
  have room := batched.room
  have whole : calls ++ [call] = (batches ++ [unsent ++ [call]]).flatten ++ [] := by
    rw [List.flatten_append, List.flatten_singleton, List.append_nil, ← List.append_assoc,
      ← batched.whole]
  have back : readRecords (filled sender call).serialize =
      some ((unsent ++ [call]).map fun other => record other.entry, []) := by
    rw [readRecords_serialize, entries, List.map_map]
    · rfl
    · rw [entries, List.length_map, List.length_append, List.length_singleton]
      omega
    · intro entry member
      rw [entries] at member
      obtain ⟨other, inside, rfl⟩ := List.mem_map.mp member
      apply small
      rw [batched.whole, List.append_assoc]
      exact List.mem_append_right _ inside
  rw [turned]
  constructor
  · refine ⟨whole, ?_, ?_, rfl, by simp, by simp⟩
    · simp only [List.map_append, batched.received, List.map_cons, List.map_nil, back]
    · intro batch member
      rcases List.mem_append.mp member with old | new
      · exact batched.sizes batch old
      · rw [List.mem_singleton.mp new, List.length_append, List.length_singleton]
        omega
  · refine ⟨timed.maxBatchSize, timed.batchTimeout, ?_, by simp⟩
    rw [readings_snoc]
    simp [clear]

theorem batched_keep (batched : Batched maxSize timeout now calls sender batches unsent)
    (timed : Timed maxSize timeout now calls sender unsent)
    (keep : (filled sender call).shouldFlush (call.clock 2) ≠ true) :
    Batched maxSize timeout now (calls ++ [call]) (sendTurn sender call) batches
        (unsent ++ [call]) ∧
      Timed maxSize timeout now (calls ++ [call]) (sendTurn sender call) (unsent ++ [call]) := by
  have turned : sendTurn sender call = { sender with batch := filled sender call } :=
    if_neg keep
  have entries := filled_entries call batched.pending
  obtain ⟨space, recent⟩ : (unsent ++ [call]).length < maxSize ∧
      microseconds (call.clock 2 - sender.batch.lastFlush) < timeout := by
    rw [shouldFlush, entries, List.length_map] at keep
    change ¬ (if (unsent ++ [call]).length ≥ sender.batch.maxBatchSize then true
      else decide (microseconds (call.clock 2 - sender.batch.lastFlush) ≥
        sender.batch.batchTimeout)) = true at keep
    rw [timed.maxBatchSize, timed.batchTimeout] at keep
    split at keep
    · exact absurd rfl keep
    next space =>
      exact ⟨not_le.mp space, by simpa using keep⟩
  rw [turned]
  constructor
  · refine ⟨?_, batched.received, batched.sizes, entries, ?_, ?_⟩
    · rw [← List.append_assoc, ← batched.whole]
    · exact Nat.lt_of_lt_of_le space (Nat.le_max_left _ _)
    · intro clocked last final other member
      obtain rfl : call = last := by simpa using final
      apply lt_of_le_of_lt (microseconds_mono _) recent
      have since := timed.sinceThen clocked other member
      omega
  · exact ⟨timed.maxBatchSize, timed.batchTimeout, timed.older, timed.sinceThen⟩

end

theorem batching_batched (maxSize : Nat) (timeout now : Int) (calls : List Call)
    (count : max maxSize 1 < 2 ^ 32)
    (small : ∀ call ∈ calls, (record call.entry).length < 2 ^ 32) :
    ∃ batches unsent,
      Batched maxSize timeout now calls (batching maxSize timeout now calls) batches unsent := by
  have timed : ∃ batches unsent,
      Batched maxSize timeout now calls (batching maxSize timeout now calls) batches unsent ∧
        Timed maxSize timeout now calls (batching maxSize timeout now calls) unsent := by
    induction calls using List.reverseRecOn with
    | nil => exact ⟨[], [], batched_nil maxSize timeout now⟩
    | append_singleton calls call ih =>
      obtain ⟨batches, unsent, batched, timed⟩ := ih fun other member =>
        small other (List.mem_append_left _ member)
      rw [batching, Runs.after_snoc]
      by_cases flush :
          (filled (batching maxSize timeout now calls) call).shouldFlush (call.clock 2) = true
      · exact ⟨_, _, batched_flush count small batched timed flush⟩
      · exact ⟨_, _, batched_keep batched timed flush⟩
  obtain ⟨batches, unsent, batched, _⟩ := timed
  exact ⟨batches, unsent, batched⟩

-- The loop of the benchmark adds the four bytes of 42 over and over.
def test (now : Int) : Call :=
  { clock := fun reading => now + reading, name := [0x54, 0x65, 0x73, 0x74], data := [42, 0, 0, 0] }

theorem batching_batched_test :
    ∃ batches unsent,
      Batched 2 10000 0 [test 0, test 10, test 20] (batching 2 10000 0 [test 0, test 10, test 20])
        batches unsent :=
  batching_batched 2 10000 0 [test 0, test 10, test 20] (by decide) (by decide)

end AdsRealtime.VariableBatch
