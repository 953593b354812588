import AdsRealtime.Realtime.PoolExhaustion
import AdsRealtime.Shared.Scan

set_option autoImplicit false

namespace AdsRealtime.RtssMemoryPool

structure Allocation where
  slot : Option Nat
  nextIndex : Nat
  probes : List Nat
  deriving DecidableEq

-- The second argument is PoolSize - i.
def allocateLoop (poolSize : Nat) (inUse : Nat → Bool) : Nat → Nat → Allocation
  | 0, nextIndex => { slot := none, nextIndex := nextIndex, probes := [] }
  | left + 1, nextIndex =>
    let idx := nextIndex % poolSize
    if inUse idx then
      let rest := allocateLoop poolSize inUse left (nextOf nextIndex)
      { rest with probes := idx :: rest.probes }
    else
      { slot := some idx, nextIndex := nextOf nextIndex, probes := [idx] }

def allocate (poolSize : Nat) (inUse : Nat → Bool) (nextIndex : Nat) : Allocation :=
  allocateLoop poolSize inUse poolSize nextIndex

theorem allocateLoop_used {poolSize left nextIndex : Nat} {inUse : Nat → Bool}
    (used : inUse (nextIndex % poolSize) = true) :
    allocateLoop poolSize inUse (left + 1) nextIndex =
      { allocateLoop poolSize inUse left (nextOf nextIndex) with
        probes := nextIndex % poolSize ::
          (allocateLoop poolSize inUse left (nextOf nextIndex)).probes } := by
  rw [allocateLoop]
  exact if_pos used

theorem allocateLoop_free {poolSize left nextIndex : Nat} {inUse : Nat → Bool}
    (free : inUse (nextIndex % poolSize) = false) :
    allocateLoop poolSize inUse (left + 1) nextIndex =
      { slot := some (nextIndex % poolSize), nextIndex := nextOf nextIndex,
        probes := [nextIndex % poolSize] } := by
  simp [allocateLoop, free]

section Uninterrupted

variable {ι : Type} [DecidableEq ι]

def Pool.finish (pool : Pool ι) (thread : ι) (allocation : Allocation) : Pool ι :=
  match allocation.slot with
  | none => { pool.goto thread .idle with nextIndex := allocation.nextIndex }
  | some idx => Pool.grant { pool with nextIndex := allocation.nextIndex } thread idx

-- What a step has done to the phase of the thread and to the counter is forgotten at the end.
theorem finish_goto (pool : Pool ι) (thread : ι) (phase : Phase) (nextIndex : Nat)
    (allocation : Allocation) :
    Pool.finish { pool.goto thread phase with nextIndex := nextIndex } thread allocation =
      pool.finish thread allocation := by
  unfold Pool.finish
  split <;> simp [Pool.grant, Pool.goto]

theorem after_idle {pool : Pool ι} {thread : ι} (poolSize count : Nat)
    (idle : pool.phase thread = .idle) :
    Runs.after (act poolSize) pool (List.replicate count (.step thread)) = pool := by
  induction count with
  | zero => rfl
  | succ count ih =>
    have stays : act poolSize pool (.step thread) = pool := by
      simp only [act, threadStep, idle]
    rw [List.replicate_succ, Runs.after_cons, stays, ih]

section Round

variable {poolSize i : Nat} {pool : Pool ι} {thread : ι}

theorem phase_drawn (phase : pool.phase thread = .probing i) (more : i < poolSize) :
    (act poolSize pool (.step thread)).phase thread =
      .drawn i (pool.nextIndex % poolSize) := by
  rw [step_draw phase more]
  exact phase_goto_self

theorem round_miss (phase : pool.phase thread = .probing i) (more : i < poolSize)
    (used : pool.inUse (pool.nextIndex % poolSize) = true) :
    act poolSize (act poolSize pool (.step thread)) (.step thread) =
      { pool.goto thread (.probing (i + 1)) with nextIndex := nextOf pool.nextIndex } := by
  rw [step_miss (phase_drawn phase more) (by rwa [step_draw phase more]), step_draw phase more]
  simp [Pool.goto]

theorem round_hit (phase : pool.phase thread = .probing i) (more : i < poolSize)
    (free : pool.inUse (pool.nextIndex % poolSize) = false) :
    act poolSize (act poolSize pool (.step thread)) (.step thread) =
      Pool.grant { pool with nextIndex := nextOf pool.nextIndex } thread
        (pool.nextIndex % poolSize) := by
  rw [step_hit (phase_drawn phase more) (by rwa [step_draw phase more]), step_draw phase more]
  simp [Pool.grant, Pool.goto]

end Round

theorem after_probing {poolSize i left : Nat} {pool : Pool ι} {thread : ι}
    (phase : pool.phase thread = .probing i) (rounds : i + left = poolSize) :
    Runs.after (act poolSize) pool (List.replicate (2 * left + 1) (.step thread)) =
      pool.finish thread (allocateLoop poolSize pool.inUse left pool.nextIndex) := by
  induction left generalizing i pool with
  | zero =>
    rw [Nat.mul_zero, List.replicate_succ, Runs.after_cons, step_over phase (by omega)]
    rfl
  | succ left ih =>
    have steps : 2 * (left + 1) + 1 = 2 * left + 1 + 1 + 1 := by
      omega
    rw [steps, List.replicate_succ, Runs.after_cons, List.replicate_succ, Runs.after_cons]
    cases used : pool.inUse (pool.nextIndex % poolSize) with
    | true =>
      rw [round_miss phase (by omega) used, allocateLoop_used used]
      have rest := @ih (i + 1) { pool.goto thread (.probing (i + 1)) with
        nextIndex := nextOf pool.nextIndex } phase_goto_self (by omega)
      rw [rest, finish_goto]
      rfl
    | false =>
      rw [round_hit phase (by omega) used, after_idle poolSize _ (Function.update_self ..),
        allocateLoop_free used]
      rfl

theorem allocate_uninterrupted {pool : Pool ι} {thread : ι} (poolSize : Nat)
    (idle : pool.phase thread = .idle) :
    Runs.after (act poolSize) pool
        (.callAllocate thread :: List.replicate (2 * poolSize + 1) (.step thread)) =
      pool.finish thread (allocate poolSize pool.inUse pool.nextIndex) := by
  have called : act poolSize pool (.callAllocate thread) = pool.goto thread (.probing 0) := by
    rw [act, if_pos idle]
  rw [Runs.after_cons, called, after_probing phase_goto_self (Nat.zero_add poolSize)]
  exact finish_goto pool thread _ pool.nextIndex _

end Uninterrupted

theorem allocateLoop_none_iff {poolSize : Nat} {inUse : Nat → Bool} (left nextIndex : Nat) :
    (allocateLoop poolSize inUse left nextIndex).slot = none ↔
      ∀ slot ∈ draws poolSize nextIndex left, inUse slot = true := by
  induction left generalizing nextIndex with
  | zero => simp [allocateLoop, draws]
  | succ left ih =>
    rw [draws, List.forall_mem_cons]
    cases used : inUse (nextIndex % poolSize) with
    | true => rw [allocateLoop_used used, ih, eq_self, true_and]
    | false => simp [allocateLoop_free used]

theorem allocateLoop_probes {poolSize : Nat} {inUse : Nat → Bool} (left nextIndex : Nat)
    (exhausted : (allocateLoop poolSize inUse left nextIndex).slot = none) :
    (allocateLoop poolSize inUse left nextIndex).probes = draws poolSize nextIndex left := by
  induction left generalizing nextIndex with
  | zero => rfl
  | succ left ih =>
    cases used : inUse (nextIndex % poolSize) with
    | true =>
      rw [allocateLoop_used used] at exhausted ⊢
      rw [draws, ih (nextOf nextIndex) exhausted]
    | false => simp [allocateLoop_free used] at exhausted

theorem draws_eq_visited {nextIndex : Nat} (word : nextIndex < UInt64.size)
    (poolSize count : Nat) :
    draws poolSize nextIndex count = Scan.visited UInt64.size poolSize nextIndex count := by
  induction count generalizing nextIndex with
  | zero => rfl
  | succ count ih =>
    have next : nextOf nextIndex < UInt64.size := Nat.mod_lt _ (Nat.zero_lt_of_lt word)
    rw [draws, Scan.visited_succ, Nat.mod_eq_of_lt word, ih next]
    rfl

/-- What a call that reports exhaustion owes: it has seen every slot once, and all are in use. -/
structure SeesAll (poolSize : Nat) (inUse : Nat → Bool) (nextIndex : Nat) : Prop where
  once : (allocate poolSize inUse nextIndex).probes.Perm (List.range poolSize)
  full : Full poolSize inUse

section Coverage

variable {poolSize nextIndex : Nat}

theorem once_iff (word : nextIndex < UInt64.size) :
    (∀ inUse, (allocate poolSize inUse nextIndex).slot = none →
        (allocate poolSize inUse nextIndex).probes.Perm (List.range poolSize)) ↔
      poolSize ∣ UInt64.size ∨ nextIndex + poolSize ≤ UInt64.size := by
  rw [← Scan.visited_perm_range_iff word, ← draws_eq_visited word]
  constructor
  · intro once
    have exhausted : (allocate poolSize (fun _ => true) nextIndex).slot = none :=
      (allocateLoop_none_iff poolSize nextIndex).mpr fun _ _ => rfl
    have seen := once (fun _ => true) exhausted
    rwa [allocate, allocateLoop_probes _ _ exhausted] at seen
  · intro once inUse exhausted
    rwa [allocate, allocateLoop_probes _ _ exhausted]

theorem full_iff (word : nextIndex < UInt64.size) :
    (∀ inUse, (allocate poolSize inUse nextIndex).slot = none → Full poolSize inUse) ↔
      poolSize ∣ UInt64.size ∨ nextIndex + poolSize ≤ UInt64.size := by
  rw [← Scan.visited_perm_range_iff word, ← Scan.visited_covers_iff, ← draws_eq_visited word]
  constructor
  · intro full slot below
    -- With exactly the drawn slots in use the call comes to no free one.
    have exhausted :
        (allocate poolSize (fun slot => slot ∈ draws poolSize nextIndex poolSize)
          nextIndex).slot = none :=
      (allocateLoop_none_iff poolSize nextIndex).mpr fun _ drawn => decide_eq_true drawn
    exact of_decide_eq_true (full _ exhausted slot below)
  · intro covers inUse exhausted slot below
    exact (allocateLoop_none_iff poolSize nextIndex).mp exhausted slot (covers slot below)

end Coverage

theorem allocate_seesAll_iff (poolSize : Nat) (nextIndex : UInt64) :
    (∀ inUse, (allocate poolSize inUse nextIndex.toNat).slot = none →
        SeesAll poolSize inUse nextIndex.toNat) ↔
      poolSize ∣ 2 ^ 64 ∨ nextIndex.toNat + poolSize ≤ 2 ^ 64 := by
  have word := nextIndex.toNat_lt_size
  constructor
  · intro sees
    exact (once_iff word).mp fun inUse exhausted => (sees inUse exhausted).once
  · intro even inUse exhausted
    exact ⟨(once_iff word).mpr even inUse exhausted, (full_iff word).mpr even inUse exhausted⟩

-- The last number of the counter and the first two behind it give the slots 0, 0 and 1.
theorem allocate_misses_free_slot :
    ¬ ∀ inUse, (allocate 3 inUse (0 - 1 : UInt64).toNat).slot = none →
        SeesAll 3 inUse (0 - 1 : UInt64).toNat := by
  intro sees
  have full := (sees (fun slot => slot ≠ 2) (by decide)).full
  revert full
  decide

end AdsRealtime.RtssMemoryPool
