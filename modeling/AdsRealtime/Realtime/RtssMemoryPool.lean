import AdsRealtime.Shared.Ownership
import Mathlib.Data.List.Nodup

set_option autoImplicit false

namespace AdsRealtime.RtssMemoryPool

open Ownership (ownerAfter)

inductive Phase where
  | idle
  | probing (i : Nat)
  | drawn (i idx : Nat)
  | releasing (entry : Option Nat)
  deriving DecidableEq

-- A pointer to the data of an entry is the number of the entry.
structure Pool (ι : Type) where
  inUse : Nat → Bool
  nextIndex : Nat
  phase : ι → Phase
  held : ι → List Nat
  trace : List (Ownership.Event ι Nat)

variable {ι : Type}

def Pool.new : Pool ι :=
  { inUse := fun _ => false
    nextIndex := 0
    phase := fun _ => .idle
    held := fun _ => []
    trace := [] }

-- The counter is a `size_t`.
def nextOf (nextIndex : Nat) : Nat :=
  (nextIndex + 1) % UInt64.size

-- The search of `deallocate`, which a null pointer does not reach.
def findEntry (poolSize : Nat) (ptr : Option Nat) : Option Nat :=
  ptr.bind fun slot => (List.range poolSize).find? fun i => i = slot

variable [DecidableEq ι]

def Pool.goto (pool : Pool ι) (thread : ι) (phase : Phase) : Pool ι :=
  { pool with phase := Function.update pool.phase thread phase }

def Pool.grant (pool : Pool ι) (thread : ι) (idx : Nat) : Pool ι :=
  { pool.goto thread .idle with
    inUse := Function.update pool.inUse idx true
    held := Function.update pool.held thread (idx :: pool.held thread)
    trace := pool.trace ++ [.granted thread idx] }

-- The store of false ends the life of the allocation.
def Pool.release (pool : Pool ι) (thread : ι) (entry : Nat) : Pool ι :=
  { pool.goto thread .idle with
    inUse := Function.update pool.inUse entry false
    held := Function.update pool.held thread ((pool.held thread).erase entry)
    trace := pool.trace ++ [.returned thread entry] }

-- One atomic step of a thread, or its return with nothing when the loop is over.
def threadStep (poolSize : Nat) (thread : ι) (pool : Pool ι) : Pool ι :=
  match pool.phase thread with
  | .idle => pool
  | .probing i =>
    if i < poolSize then
      { pool.goto thread (.drawn i (pool.nextIndex % poolSize)) with
        nextIndex := nextOf pool.nextIndex }
    else pool.goto thread .idle
  | .drawn i idx =>
    if pool.inUse idx then pool.goto thread (.probing (i + 1)) else pool.grant thread idx
  | .releasing none => pool.goto thread .idle
  | .releasing (some entry) => pool.release thread entry

inductive Action (ι : Type) where
  | callAllocate (thread : ι)
  | callDeallocate (thread : ι) (ptr : Option Nat)
  | step (thread : ι)
  deriving DecidableEq

def Action.thread : Action ι → ι
  | .callAllocate thread => thread
  | .callDeallocate thread _ => thread
  | .step thread => thread

-- A thread in a call does not make another one, and passes only what it holds.
def act (poolSize : Nat) (pool : Pool ι) : Action ι → Pool ι
  | .callAllocate thread =>
    if pool.phase thread = .idle then pool.goto thread (.probing 0) else pool
  | .callDeallocate thread ptr =>
    if pool.phase thread = .idle ∧ ptr.all fun slot => slot ∈ pool.held thread then
      pool.goto thread (.releasing (findEntry poolSize ptr))
    else pool
  | .step thread => threadStep poolSize thread pool

section Specification

variable {poolSize : Nat} {pool : Pool ι} {thread : ι}

@[simp] theorem phase_goto_self {phase : Phase} :
    (pool.goto thread phase).phase thread = phase :=
  Function.update_self ..

theorem phase_goto_of_ne {phase : Phase} {other : ι} (different : other ≠ thread) :
    (pool.goto thread phase).phase other = pool.phase other :=
  Function.update_of_ne different ..

theorem step_draw {i : Nat} (phase : pool.phase thread = .probing i) (more : i < poolSize) :
    act poolSize pool (.step thread) =
      { pool.goto thread (.drawn i (pool.nextIndex % poolSize)) with
        nextIndex := nextOf pool.nextIndex } := by
  simp only [act, threadStep, phase, if_pos more]

theorem step_over {i : Nat} (phase : pool.phase thread = .probing i) (past : ¬ i < poolSize) :
    act poolSize pool (.step thread) = pool.goto thread .idle := by
  simp only [act, threadStep, phase, if_neg past]

theorem step_miss {i idx : Nat} (phase : pool.phase thread = .drawn i idx)
    (used : pool.inUse idx = true) :
    act poolSize pool (.step thread) = pool.goto thread (.probing (i + 1)) := by
  simp only [act, threadStep, phase, if_pos used]

theorem step_hit {i idx : Nat} (phase : pool.phase thread = .drawn i idx)
    (free : pool.inUse idx = false) :
    act poolSize pool (.step thread) = pool.grant thread idx := by
  simp [act, threadStep, phase, free]

theorem phase_act_of_ne {action : Action ι} {other : ι} (different : other ≠ action.thread) :
    (act poolSize pool action).phase other = pool.phase other := by
  cases action with
  | callAllocate caller =>
    simp only [act]
    split_ifs
    · exact phase_goto_of_ne different
    · rfl
  | callDeallocate caller ptr =>
    simp only [act]
    split_ifs
    · exact phase_goto_of_ne different
    · rfl
  | step actor =>
    simp only [act, threadStep]
    split
    · rfl
    · split_ifs <;> exact phase_goto_of_ne different
    · split_ifs <;> exact phase_goto_of_ne different
    · exact phase_goto_of_ne different
    · exact phase_goto_of_ne different

end Specification

theorem findEntry_mem {poolSize slot : Nat} {ptr : Option Nat}
    (found : findEntry poolSize ptr = some slot) : ptr = some slot := by
  cases ptr with
  | none => simp [findEntry] at found
  | some other =>
    have same := List.find?_some (p := fun i => decide (i = other)) found
    rw [of_decide_eq_true same]

/-- Who holds a slot is who was granted it last, and the flags show what is held. -/
structure Exclusive (pool : Pool ι) : Prop where
  orderly : Ownership.Orderly pool.trace
  held : ∀ thread slot, slot ∈ pool.held thread ↔ ownerAfter pool.trace slot = some thread
  inUse : ∀ slot, pool.inUse slot = true ↔ ∃ thread, ownerAfter pool.trace slot = some thread
  nodup : ∀ thread, (pool.held thread).Nodup
  releasing : ∀ thread entry, pool.phase thread = .releasing (some entry) →
    entry ∈ pool.held thread

omit [DecidableEq ι] in
theorem new_exclusive : Exclusive (Pool.new : Pool ι) where
  orderly := Ownership.orderly_nil
  held := by simp [Pool.new, ownerAfter]
  inUse := by simp [Pool.new, ownerAfter]
  nodup := by simp [Pool.new]
  releasing := by simp [Pool.new]

theorem act_cases (poolSize : Nat) (pool : Pool ι) (action : Action ι) :
    act poolSize pool action = pool ∨
      (∃ thread phase nextIndex,
        act poolSize pool action = { pool.goto thread phase with nextIndex := nextIndex } ∧
          (∀ entry, phase = .releasing (some entry) → entry ∈ pool.held thread) ∧
            ∀ i idx, phase = .drawn i idx → idx < poolSize) ∨
      (∃ thread i idx, pool.phase thread = .drawn i idx ∧ pool.inUse idx = false ∧
        act poolSize pool action = pool.grant thread idx) ∨
      ∃ thread entry, pool.phase thread = .releasing (some entry) ∧
        act poolSize pool action = pool.release thread entry := by
  cases action with
  | callAllocate thread =>
    simp only [act]
    split_ifs
    · exact .inr (.inl ⟨thread, _, pool.nextIndex, rfl, by simp, by simp⟩)
    · exact .inl rfl
  | callDeallocate thread ptr =>
    simp only [act]
    split_ifs with allowed
    · refine .inr (.inl ⟨thread, _, pool.nextIndex, rfl, ?_, by simp⟩)
      intro entry same
      obtain rfl := findEntry_mem (Phase.releasing.inj same)
      simpa using allowed.2
    · exact .inl rfl
  | step thread =>
    cases phase : pool.phase thread with
    | idle => exact .inl (by simp only [act, threadStep, phase])
    | probing i =>
      by_cases more : i < poolSize
      · refine .inr (.inl ⟨thread, _, _, step_draw phase more, by simp, ?_⟩)
        intro i idx same
        rw [← (Phase.drawn.inj same).2]
        exact Nat.mod_lt _ (Nat.zero_lt_of_lt more)
      · exact .inr (.inl ⟨thread, _, pool.nextIndex, step_over phase more, by simp, by simp⟩)
    | drawn i idx =>
      cases used : pool.inUse idx with
      | true =>
        exact .inr (.inl ⟨thread, _, pool.nextIndex, step_miss phase used, by simp, by simp⟩)
      | false => exact .inr (.inr (.inl ⟨thread, i, idx, phase, used, step_hit phase used⟩))
    | releasing entry =>
      cases entry with
      | none =>
        refine .inr (.inl ⟨thread, .idle, pool.nextIndex, ?_, by simp, by simp⟩)
        simp only [act, threadStep, phase, Pool.goto]
      | some entry =>
        refine .inr (.inr (.inr ⟨thread, entry, phase, ?_⟩))
        simp only [act, threadStep, phase]

section Steps

variable {pool : Pool ι}

theorem Exclusive.goto (exclusive : Exclusive pool) {thread : ι} {phase : Phase}
    (held : ∀ entry, phase = .releasing (some entry) → entry ∈ pool.held thread)
    (nextIndex : Nat) : Exclusive { pool.goto thread phase with nextIndex := nextIndex } where
  orderly := exclusive.orderly
  held := exclusive.held
  inUse := exclusive.inUse
  nodup := exclusive.nodup
  releasing := by
    intro other entry releasing
    by_cases same : other = thread
    · subst same
      apply held entry
      simpa [Pool.goto] using releasing
    · apply exclusive.releasing other entry
      simpa [Pool.goto, same] using releasing

omit [DecidableEq ι] in
theorem Exclusive.unowned (exclusive : Exclusive pool) {slot : Nat}
    (free : pool.inUse slot = false) : ownerAfter pool.trace slot = none := by
  rw [Option.eq_none_iff_forall_ne_some]
  intro thread owned
  have used := (exclusive.inUse slot).mpr ⟨thread, owned⟩
  rw [free] at used
  exact Bool.false_ne_true used

theorem ownerAfter_grant (pool : Pool ι) (thread : ι) (idx : Nat) :
    ownerAfter (pool.grant thread idx).trace =
      Function.update (ownerAfter pool.trace) idx (some thread) :=
  Ownership.ownerAfter_snoc _ _

theorem ownerAfter_release (pool : Pool ι) (thread : ι) (entry : Nat) :
    ownerAfter (pool.release thread entry).trace =
      Function.update (ownerAfter pool.trace) entry none :=
  Ownership.ownerAfter_snoc _ _

theorem Exclusive.grant (exclusive : Exclusive pool) (thread : ι) {idx : Nat}
    (free : pool.inUse idx = false) : Exclusive (pool.grant thread idx) := by
  have unowned := exclusive.unowned free
  have unheld : ∀ other, idx ∉ pool.held other := by
    intro other member
    have owned := (exclusive.held other idx).mp member
    simp [unowned] at owned
  constructor
  · exact Ownership.orderly_snoc exclusive.orderly unowned
  · intro other slot
    rw [ownerAfter_grant]
    have before := exclusive.held other slot
    by_cases here : slot = idx <;> by_cases same : other = thread
    · simp [Pool.grant, here, same]
    · simp [Pool.grant, here, same, unheld other, Ne.symm same]
    · subst same
      simp [Pool.grant, here, before]
    · simp [Pool.grant, here, same, before]
  · intro slot
    rw [ownerAfter_grant]
    have before := exclusive.inUse slot
    by_cases here : slot = idx
    · simp [Pool.grant, here]
    · simpa [Pool.grant, here] using before
  · intro other
    have before := exclusive.nodup other
    by_cases same : other = thread
    · subst same
      simpa [Pool.grant] using ⟨unheld other, before⟩
    · simpa [Pool.grant, same] using before
  · intro other entry releasing
    by_cases same : other = thread
    · simp [Pool.grant, Pool.goto, same] at releasing
    · have before := exclusive.releasing other entry
      simp only [Pool.grant, Pool.goto, Function.update_of_ne same] at releasing ⊢
      exact before releasing

theorem Exclusive.release (exclusive : Exclusive pool) {thread : ι} {entry : Nat}
    (releasing : pool.phase thread = .releasing (some entry)) :
    Exclusive (pool.release thread entry) := by
  have owned := (exclusive.held thread entry).mp (exclusive.releasing thread entry releasing)
  constructor
  · exact Ownership.orderly_snoc exclusive.orderly owned
  · intro other slot
    rw [ownerAfter_release]
    have before := exclusive.held other slot
    by_cases here : slot = entry <;> by_cases same : other = thread
    · subst here same
      simp [Pool.release, (exclusive.nodup other).not_mem_erase]
    · subst here
      simp [Pool.release, same, before, owned, Ne.symm same]
    · subst same
      simp [Pool.release, here, List.mem_erase_of_ne here, before]
    · simp [Pool.release, here, same, before]
  · intro slot
    rw [ownerAfter_release]
    have before := exclusive.inUse slot
    by_cases here : slot = entry
    · simp [Pool.release, here]
    · simpa [Pool.release, here] using before
  · intro other
    have before := exclusive.nodup other
    by_cases same : other = thread
    · subst same
      simpa [Pool.release] using before.erase entry
    · simpa [Pool.release, same] using before
  · intro other slot otherReleasing
    by_cases same : other = thread
    · simp [Pool.release, Pool.goto, same] at otherReleasing
    · have before := exclusive.releasing other slot
      simp only [Pool.release, Pool.goto, Function.update_of_ne same] at otherReleasing ⊢
      exact before otherReleasing

theorem act_exclusive (poolSize : Nat) (pool : Pool ι) (action : Action ι)
    (exclusive : Exclusive pool) : Exclusive (act poolSize pool action) := by
  rcases act_cases poolSize pool action with
    same | ⟨thread, phase, nextIndex, moved, held, _⟩ | ⟨thread, i, idx, _, free, granted⟩ |
      ⟨thread, entry, releasing, released⟩
  · rwa [same]
  · rw [moved]
    exact exclusive.goto held nextIndex
  · rw [granted]
    exact exclusive.grant thread free
  · rw [released]
    exact exclusive.release releasing

end Steps

theorem run_exclusive (poolSize : Nat) (actions : List (Action ι)) :
    Exclusive (Runs.after (act poolSize) Pool.new actions) :=
  Runs.invariant_of_step Exclusive (act_exclusive poolSize) new_exclusive actions

def Placed (poolSize : Nat) (pool : Pool ι) : Prop :=
  (∀ thread i idx, pool.phase thread = .drawn i idx → idx < poolSize) ∧
    ∀ thread slot, slot ∈ pool.held thread → slot < poolSize

theorem Placed.goto {poolSize : Nat} {pool : Pool ι} (placed : Placed poolSize pool) {thread : ι}
    {phase : Phase} (drawn : ∀ i idx, phase = .drawn i idx → idx < poolSize) :
    Placed poolSize (pool.goto thread phase) := by
  refine ⟨?_, placed.2⟩
  intro other i idx at_
  by_cases same : other = thread
  · apply drawn i idx
    simpa [Pool.goto, same] using at_
  · apply placed.1 other i idx
    simpa [Pool.goto, same] using at_

theorem act_placed (poolSize : Nat) (pool : Pool ι) (action : Action ι)
    (placed : Placed poolSize pool) : Placed poolSize (act poolSize pool action) := by
  rcases act_cases poolSize pool action with
    same | ⟨thread, phase, nextIndex, moved, _, drawn⟩ | ⟨thread, i, idx, phase, _, granted⟩ |
      ⟨thread, entry, _, released⟩
  · rwa [same]
  · rw [moved]
    exact placed.goto drawn
  · have rests : Placed poolSize (pool.goto thread .idle) := placed.goto (by simp)
    rw [granted]
    refine ⟨rests.1, ?_⟩
    intro other slot member
    by_cases same : other = thread
    · rcases List.mem_cons.mp (by simpa [Pool.grant, same] using member) with rfl | old
      · exact placed.1 thread i _ phase
      · exact placed.2 thread slot old
    · exact placed.2 other slot (by simpa [Pool.grant, same] using member)
  · have rests : Placed poolSize (pool.goto thread .idle) := placed.goto (by simp)
    rw [released]
    refine ⟨rests.1, ?_⟩
    intro other slot member
    by_cases same : other = thread
    · simp only [Pool.release, same, Function.update_self] at member
      exact placed.2 thread slot (List.mem_of_mem_erase member)
    · exact placed.2 other slot (by simpa [Pool.release, same] using member)

theorem findEntry_held (poolSize : Nat) (actions : List (Action ι)) (thread : ι) (slot : Nat)
    (held : slot ∈ (Runs.after (act poolSize) Pool.new actions).held thread) :
    findEntry poolSize (some slot) = some slot := by
  have placed : Placed poolSize (Runs.after (act poolSize) (Pool.new : Pool ι) actions) :=
    Runs.invariant_of_step (Placed poolSize) (act_placed poolSize)
      ⟨by simp [Pool.new], by simp [Pool.new]⟩ actions
  have below := placed.2 thread slot held
  rw [findEntry, Option.bind_some, List.find?_range_eq_some]
  refine ⟨decide_eq_true rfl, List.mem_range.mpr below, ?_⟩
  intro other before
  simpa using Nat.ne_of_lt before

theorem allocations_exclusive (poolSize : Nat) (actions : List (Action ι)) :
    let pool := Runs.after (act poolSize) Pool.new actions
    (∀ thread, (pool.held thread).Nodup) ∧
      (∀ thread other slot, slot ∈ pool.held thread → slot ∈ pool.held other → thread = other) ∧
        (∀ thread slot, slot ∈ pool.held thread → pool.inUse slot = true) ∧
          ∀ before thread slot middle other later,
            pool.trace = before ++ .granted thread slot :: middle ++ .granted other slot :: later →
              .returned thread slot ∈ middle := by
  intro pool
  have exclusive := run_exclusive poolSize actions
  refine ⟨exclusive.nodup, ?_, ?_, ?_⟩
  · intro thread other slot mine theirs
    have owned := (exclusive.held thread slot).mp mine
    rw [(exclusive.held other slot).mp theirs] at owned
    exact (Option.some.inj owned).symm
  · intro thread slot mine
    exact (exclusive.inUse slot).mpr ⟨thread, (exclusive.held thread slot).mp mine⟩
  · intro before thread slot middle other later split
    have orderly := exclusive.orderly
    change Ownership.Orderly pool.trace at orderly
    rw [split] at orderly
    exact Ownership.returned_between orderly

end AdsRealtime.RtssMemoryPool
