import AdsRealtime.Shared.Runs
import Mathlib.Logic.Function.Basic

set_option autoImplicit false

namespace AdsRealtime

inductive RtPolicy where
  | fifo
  | rr
  | deadline
  deriving DecidableEq

structure RtConfig where
  policy : RtPolicy := .fifo
  priority : Int := 99
  cpuAffinity : UInt32 := 1
  lockMemory : Bool := true
  stackSizeKb : Nat := 8192
  deriving DecidableEq

-- The arguments of the pthread_attr_set calls for a new thread. Their results are ignored: what
-- the system refuses (the deadline policy, a priority out of range, a small stack) is not set.
structure PthreadAttr where
  stackSize : Nat
  schedPolicy : RtPolicy
  schedPriority : Int
  cpu : UInt32
  deriving DecidableEq

inductive Syscall where
  | mlockall (result : Int)
  | munlockall
  | pthreadCreate (attr : PthreadAttr) (result : Int)
  | pthreadJoin
  deriving DecidableEq

/-- The memory of the process is locked or not: the calls of its threads do not nest. -/
def Syscall.lockedAfter (locked : Bool) : Syscall → Bool
  | .mlockall result => if result = 0 then true else locked
  | .munlockall => false
  | .pthreadCreate _ _ => locked
  | .pthreadJoin => locked

structure RtThread (τ : Type) where
  config : RtConfig
  running : Bool
  task : Option τ

namespace RtThread

variable {τ : Type}

def new (config : RtConfig) : RtThread τ :=
  { config := config, running := false, task := none }

def attr (config : RtConfig) : PthreadAttr :=
  { stackSize := config.stackSizeKb * 1024
    schedPolicy := config.policy
    schedPriority := config.priority
    cpu := config.cpuAffinity }

-- The results of mlockall and of pthread_create are those they give if they are called.
def start (task : Option τ) (locked created : Int) (thread : RtThread τ) :
    Bool × RtThread τ × List Syscall :=
  if thread.running then
    (false, thread, [])
  else
    let thread := { thread with task := task }
    if thread.config.lockMemory ∧ locked ≠ 0 then
      (false, thread, [.mlockall locked])
    else
      let locks := if thread.config.lockMemory then [.mlockall locked] else []
      let calls := locks ++ [.pthreadCreate (attr thread.config) created]
      if created ≠ 0 then
        (false, { thread with running := false }, calls)
      else
        (true, { thread with running := true }, calls)

def stop (thread : RtThread τ) : RtThread τ × List Syscall :=
  if !thread.running then
    (thread, [])
  else
    let unlocks := if thread.config.lockMemory then [.munlockall] else []
    ({ thread with running := false }, .pthreadJoin :: unlocks)

theorem start_busy {thread : RtThread τ} (running : thread.running = true) (task : Option τ)
    (locked created : Int) : start task locked created thread = (false, thread, []) := by
  rw [start, if_pos running]

theorem start_idle {thread : RtThread τ} (idle : thread.running = false) (task : Option τ)
    (locked created : Int) :
    ((start task locked created thread).1 = true ↔
        (thread.config.lockMemory = true → locked = 0) ∧ created = 0) ∧
      (start task locked created thread).2.1 =
        { thread with task := task, running := (start task locked created thread).1 } := by
  have busy : ¬ thread.running = true := by simp [idle]
  rw [start, if_neg busy]
  by_cases denied : thread.config.lockMemory = true ∧ locked ≠ 0
  · simp [denied, idle]
  · have granted : thread.config.lockMemory = true → locked = 0 := by simpa using denied
    by_cases made : created = 0
    · simpa [denied, made] using granted
    · simp [denied, made]

theorem started_iff (task : Option τ) (locked created : Int) (thread : RtThread τ) :
    (start task locked created thread).1 = true ↔
      thread.running = false ∧ (thread.config.lockMemory = true → locked = 0) ∧ created = 0 := by
  cases running : thread.running with
  | true => simp [start_busy running]
  | false => simp [(start_idle running task locked created).1]

theorem start_keeps (task : Option τ) (locked created : Int) (thread : RtThread τ) :
    (start task locked created thread).2.1.config = thread.config ∧
      (start task locked created thread).2.1.running =
        (thread.running || (start task locked created thread).1) := by
  cases running : thread.running with
  | true => simp [start_busy running, running]
  | false => simp [(start_idle running task locked created).2]

theorem stop_keeps (thread : RtThread τ) :
    thread.stop.1.config = thread.config ∧ thread.stop.1.running = false := by
  by_cases running : thread.running = true
  · simp [stop, running]
  · simp [stop, running]

/-- All the objects of a process; `active` marks those started successfully and not yet stopped. -/
structure Process (ι τ : Type) where
  threads : ι → RtThread τ
  memoryLocked : Bool
  active : ι → Bool

variable {ι : Type} [DecidableEq ι]

def Process.launch (configs : ι → RtConfig) : Process ι τ :=
  { threads := fun object => new (configs object)
    memoryLocked := false
    active := fun _ => false }

inductive Call (ι τ : Type) where
  | start (object : ι) (task : Option τ) (locked created : Int)
  | stop (object : ι)

def perform (process : Process ι τ) : Call ι τ → Process ι τ
  | .start object task locked created =>
    let (started, thread, calls) := start task locked created (process.threads object)
    { threads := Function.update process.threads object thread
      memoryLocked := calls.foldl Syscall.lockedAfter process.memoryLocked
      active := if started then Function.update process.active object true else process.active }
  | .stop object =>
    let (thread, calls) := stop (process.threads object)
    { threads := Function.update process.threads object thread
      memoryLocked := calls.foldl Syscall.lockedAfter process.memoryLocked
      active := Function.update process.active object false }

def NeedsLock (process : Process ι τ) (object : ι) : Prop :=
  process.active object = true ∧ (process.threads object).config.lockMemory = true

instance (process : Process ι τ) (object : ι) : Decidable (NeedsLock process object) :=
  inferInstanceAs (Decidable (_ ∧ _))

def LockedAsNeeded (process : Process ι τ) : Prop :=
  process.memoryLocked = true ↔ ∃ object, NeedsLock process object

-- Nobody else needs the lock when it is given up, and somebody does when a start fails after it.
def KeepsLock (process : Process ι τ) : Call ι τ → Prop
  | .start object _ locked created =>
    process.active object = false → (process.threads object).config.lockMemory = true →
      locked = 0 → created ≠ 0 → ∃ other, NeedsLock process other
  | .stop object =>
    NeedsLock process object → ∀ other, NeedsLock process other → other = object

def Marked (process : Process ι τ) : Prop :=
  ∀ object, (process.threads object).running = process.active object

theorem perform_marked (process : Process ι τ) (call : Call ι τ) (marked : Marked process) :
    Marked (perform process call) := by
  intro object
  have before := marked object
  cases call with
  | start target task locked created =>
    by_cases same : object = target
    · subst same
      have keeps := (start_keeps task locked created (process.threads object)).2
      simp only [perform, Function.update_self, keeps, before]
      split
      next started => simp [started]
      next refused => simp [refused]
    · simp only [perform, Function.update_of_ne same, before]
      split
      next => rw [Function.update_of_ne same]
      next => rfl
  | stop target =>
    by_cases same : object = target
    · subst same
      simp only [perform, Function.update_self, stop_keeps]
    · simp only [perform, Function.update_of_ne same]
      exact before

theorem config_perform (process : Process ι τ) (call : Call ι τ) (object : ι) :
    ((perform process call).threads object).config = (process.threads object).config := by
  cases call with
  | start target task locked created =>
    by_cases same : object = target
    · subst same
      simp only [perform, Function.update_self, start_keeps]
    · simp only [perform, Function.update_of_ne same]
  | stop target =>
    by_cases same : object = target
    · subst same
      simp only [perform, Function.update_self, stop_keeps]
    · simp only [perform, Function.update_of_ne same]

theorem needsLock_perform (process : Process ι τ) (call : Call ι τ) (object : ι) :
    NeedsLock (perform process call) object ↔
      (perform process call).active object = true ∧
        (process.threads object).config.lockMemory = true := by
  rw [NeedsLock, config_perform]

def Starts (process : Process ι τ) (object : ι) (locked created : Int) : Prop :=
  process.active object = false ∧
    ((process.threads object).config.lockMemory = true → locked = 0) ∧ created = 0

instance (process : Process ι τ) (object : ι) (locked created : Int) :
    Decidable (Starts process object locked created) :=
  inferInstanceAs (Decidable (_ ∧ _ ∧ _))

theorem perform_start {process : Process ι τ} (marked : Marked process) (object : ι)
    (task : Option τ) (locked created : Int) :
    (perform process (.start object task locked created)).active =
        (if Starts process object locked created then Function.update process.active object true
          else process.active) ∧
      (perform process (.start object task locked created)).memoryLocked =
        (if process.active object = false ∧ (process.threads object).config.lockMemory = true ∧
            locked = 0 then true else process.memoryLocked) := by
  have running := marked object
  simp only [perform, start, Starts, ← running]
  by_cases busy : (process.threads object).running = true
  · simp [busy]
  · by_cases locks : (process.threads object).config.lockMemory = true <;>
      by_cases granted : locked = 0 <;> by_cases made : created = 0 <;>
        simp [busy, locks, granted, made, Syscall.lockedAfter]

theorem perform_stop {process : Process ι τ} (marked : Marked process) (object : ι) :
    (perform process (.stop object)).active = Function.update process.active object false ∧
      (perform process (.stop object)).memoryLocked =
        (if NeedsLock process object then false else process.memoryLocked) := by
  have running := marked object
  simp only [perform, stop, NeedsLock, ← running]
  by_cases busy : (process.threads object).running = true
  · by_cases locks : (process.threads object).config.lockMemory = true <;>
      simp [busy, locks, Syscall.lockedAfter]
  · simp [busy]

theorem start_lockedAsNeeded_iff {process : Process ι τ} (marked : Marked process)
    (needed : LockedAsNeeded process) (object : ι) (task : Option τ) (locked created : Int) :
    LockedAsNeeded (perform process (.start object task locked created)) ↔
      KeepsLock process (.start object task locked created) := by
  obtain ⟨active, memory⟩ := perform_start marked object task locked created
  unfold LockedAsNeeded KeepsLock
  simp only [needsLock_perform, active, memory]
  by_cases starts : Starts process object locked created
  · obtain ⟨rest, granted, made⟩ := id starts
    have allowed : ¬ created ≠ 0 := not_not.mpr made
    simp only [if_pos starts, rest, allowed, false_implies, implies_true, iff_true, true_and]
    by_cases locks : (process.threads object).config.lockMemory = true
    · rw [if_pos ⟨locks, granted locks⟩]
      exact iff_of_true rfl ⟨object, by simp [locks]⟩
    · rw [if_neg fun both => locks both.1]
      -- An object that does not ask for the lock changes nobody's need of it.
      refine needed.trans (exists_congr fun other => ?_)
      by_cases same : other = object
      · simp [same, NeedsLock, locks]
      · simp [Function.update_of_ne same, NeedsLock]
  · rw [if_neg starts]
    by_cases held : process.active object = false ∧
        (process.threads object).config.lockMemory = true ∧ locked = 0
    · obtain ⟨rest, locks, granted⟩ := id held
      have failed : created ≠ 0 := fun made => starts ⟨rest, fun _ => granted, made⟩
      rw [if_pos held]
      simp [rest, locks, granted, failed, NeedsLock]
    · rw [if_neg held]
      refine iff_of_true needed ?_
      intro rest locks granted
      exact absurd ⟨rest, locks, granted⟩ held

theorem stop_lockedAsNeeded_iff {process : Process ι τ} (marked : Marked process)
    (needed : LockedAsNeeded process) (object : ι) :
    LockedAsNeeded (perform process (.stop object : Call ι τ)) ↔
      KeepsLock process (.stop object : Call ι τ) := by
  obtain ⟨active, memory⟩ := perform_stop marked object
  unfold LockedAsNeeded KeepsLock
  simp only [needsLock_perform, active, memory]
  have others : ∀ other, (Function.update process.active object false other = true ∧
      (process.threads other).config.lockMemory = true) ↔
        NeedsLock process other ∧ other ≠ object := by
    intro other
    by_cases same : other = object
    · simp [same]
    · simp [NeedsLock, same]
  simp only [others]
  by_cases needs : NeedsLock process object
  · simp only [needs, if_true, Bool.false_eq_true, false_iff, true_implies, not_exists, not_and,
      not_not]
  · simp only [needs, if_false, false_implies, iff_true]
    refine needed.trans (exists_congr fun other => ?_)
    rw [iff_self_and]
    rintro other_ rfl
    exact needs other_

theorem perform_lockedAsNeeded_iff (process : Process ι τ) (call : Call ι τ)
    (marked : Marked process) (needed : LockedAsNeeded process) :
    LockedAsNeeded (perform process call) ↔ KeepsLock process call := by
  cases call with
  | start object task locked created =>
    exact start_lockedAsNeeded_iff marked needed object task locked created
  | stop object => exact stop_lockedAsNeeded_iff marked needed object

theorem lockedAsNeeded_iff (configs : ι → RtConfig) (calls : List (Call ι τ)) :
    (∀ before, before <+: calls →
        LockedAsNeeded (Runs.after perform (Process.launch configs) before)) ↔
      Runs.Guarded perform KeepsLock (Process.launch configs) calls :=
  Runs.always_iff_guarded Marked LockedAsNeeded perform_marked perform_lockedAsNeeded_iff
    (fun _ => rfl) (by simp [LockedAsNeeded, NeedsLock, Process.launch]) calls

theorem stop_unlocks_other :
    ¬ LockedAsNeeded (Runs.after perform (Process.launch fun _ => {})
      [Call.start true (some ()) 0 0, .start false (some ()) 0 0, .stop true]) := by
  intro needed
  have locked := needed.mpr ⟨false, by decide⟩
  revert locked
  decide

end RtThread

end AdsRealtime
