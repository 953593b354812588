import AdsRealtime.Shared.Runs

set_option autoImplicit false

namespace AdsRealtime

-- The priority of the configuration is for the SDK only.
structure RtssConfig where
  cpuAffinity : UInt32 := 1
  stackSizeKb : UInt32 := 256
  useDedicatedCore : Bool := true
  deriving DecidableEq

inductive WaitResult where
  | signaled
  | timeout
  deriving DecidableEq

inductive WinCall where
  | createThread (stackSize : UInt32) (handle : Option Nat)
  | setThreadPriority (handle : Nat)
  | setThreadAffinityMask (handle : Nat) (mask : UInt64)
  | resumeThread (handle : Nat)
  | waitForSingleObject (handle milliseconds : Nat) (result : WaitResult)
  | closeHandle (handle : Nat)
  deriving DecidableEq

-- `windows_thread_proc` begins when its thread is resumed; a signaled handle says it has ended.
def WinCall.executes {τ : Type} (task : Option τ) (executing : List Nat) :
    WinCall → List Nat
  | .resumeThread handle => if task.isSome then executing ++ [handle] else executing
  | .waitForSingleObject handle _ .signaled => executing.filter fun other => other ≠ handle
  | .waitForSingleObject _ _ .timeout => executing
  | .createThread _ _ => executing
  | .setThreadPriority _ => executing
  | .setThreadAffinityMask _ _ => executing
  | .closeHandle _ => executing

structure RtssThread (τ : Type) where
  config : RtssConfig
  threadHandle : Option Nat
  running : Bool
  task : Option τ

namespace RtssThread

variable {τ : Type}

def new (config : RtssConfig) : RtssThread τ :=
  { config := config, threadHandle := none, running := false, task := none }

-- The handle is what CreateThread gives back if it is called.
def start (task : Option τ) (handle : Option Nat) (thread : RtssThread τ) :
    Bool × RtssThread τ × List WinCall :=
  if thread.running then
    (false, thread, [])
  else
    let thread := { thread with task := task, threadHandle := handle }
    let creation := WinCall.createThread (thread.config.stackSizeKb * 1024) handle
    match handle with
    | none => (false, thread, [creation])
    | some handle =>
      let mask := 1 <<< thread.config.cpuAffinity.toUInt64
      let affinity :=
        if thread.config.useDedicatedCore then [.setThreadAffinityMask handle mask] else []
      (true, { thread with running := true },
        creation :: .setThreadPriority handle :: affinity ++ [.resumeThread handle])

-- What the wait gives back is of no interest to stop.
def stop (result : WaitResult) (thread : RtssThread τ) : RtssThread τ × List WinCall :=
  if !thread.running then
    (thread, [])
  else
    let thread := { thread with running := false }
    match thread.threadHandle with
    | none => (thread, [])
    | some handle =>
      ({ thread with threadHandle := none },
        [.waitForSingleObject handle 1000 result, .closeHandle handle])

theorem start_keeps (task : Option τ) (handle : Option Nat) (thread : RtssThread τ) :
    (start task handle thread).1 = (!thread.running && handle.isSome) ∧
      (start task handle thread).2.1.running = (thread.running || handle.isSome) := by
  cases running : thread.running <;> cases handle <;> simp [start, running]

theorem stop_rests (result : WaitResult) (thread : RtssThread τ) :
    (stop result thread).1.running = false := by
  cases running : thread.running <;> cases handle : thread.threadHandle <;>
    simp [stop, running, handle]

structure World (τ : Type) where
  object : RtssThread τ
  created : Nat
  executing : List Nat

def World.fresh (config : RtssConfig) : World τ :=
  { object := new config, created := 0, executing := [] }

-- The wait ends with the thread, at once if that has ended before, or with the timeout.
def waitResult (executing : List Nat) (handle : Option Nat) (inTime : Bool) : WaitResult :=
  match handle with
  | none => .signaled
  | some handle => if handle ∈ executing ∧ inTime = false then .timeout else .signaled

inductive Action (τ : Type) where
  | start (task : Option τ) (succeeds : Bool)
  | stop (inTime : Bool)
  | taskReturns (worker : Nat)

def perform (world : World τ) : Action τ → World τ
  | .start task succeeds =>
    let handle := if succeeds then some world.created else none
    let (_, object, calls) := start task handle world.object
    { object := object
      created := world.created + 1
      executing := calls.foldl (WinCall.executes object.task) world.executing }
  | .stop inTime =>
    let result := waitResult world.executing world.object.threadHandle inTime
    let (object, calls) := stop result world.object
    { world with
      object := object
      executing := calls.foldl (WinCall.executes object.task) world.executing }
  | .taskReturns worker =>
    { world with executing := world.executing.filter fun other => other ≠ worker }

-- A task that is still executing when stop is called ends within the 1000 ms of the wait.
def EndsInTime (world : World τ) : Action τ → Prop
  | .stop inTime => world.object.running = true → world.executing ≠ [] → inTime = true
  | .start _ _ => True
  | .taskReturns _ => True

/-- Nothing executes but, while the object is running, the thread of its handle. -/
def Settled (world : World τ) : Prop :=
  if world.object.running then
    ∃ handle, world.object.threadHandle = some handle ∧
      (world.executing = [] ∨ world.executing = [handle])
  else
    world.executing = []

theorem Settled.atMostOne {world : World τ} (settled : Settled world) :
    world.executing.length ≤ 1 := by
  unfold Settled at settled
  split_ifs at settled
  · obtain ⟨handle, _, none_ | one⟩ := settled
    · simp [none_]
    · simp [one]
  · simp [settled]

theorem start_settled {world : World τ} (settled : Settled world) (task : Option τ)
    (succeeds : Bool) : Settled (perform world (.start task succeeds)) := by
  unfold Settled at settled
  by_cases running : world.object.running = true
  · rw [if_pos running] at settled
    simpa [Settled, perform, start, running] using settled
  · rw [if_neg running] at settled
    cases succeeds with
    | false => simp [Settled, perform, start, running, settled, WinCall.executes]
    | true =>
      cases dedicated : world.object.config.useDedicatedCore <;> cases task <;>
        simp [Settled, perform, start, running, settled, dedicated, WinCall.executes]

theorem stop_settled_iff {world : World τ} (settled : Settled world) (inTime : Bool) :
    Settled (perform world (.stop inTime)) ↔
      (world.object.running = true → world.executing ≠ [] → inTime = true) := by
  unfold Settled at settled
  by_cases running : world.object.running = true
  · rw [if_pos running] at settled
    obtain ⟨handle, handles, none_ | one⟩ := settled
    · simp [Settled, perform, stop, running, handles, none_, WinCall.executes, waitResult]
    · cases inTime <;>
        simp [Settled, perform, stop, running, handles, one, WinCall.executes, waitResult]
  · rw [if_neg running] at settled
    simp [Settled, perform, stop, running, settled]

theorem taskReturns_settled {world : World τ} (settled : Settled world) (worker : Nat) :
    Settled (perform world (.taskReturns worker)) := by
  unfold Settled perform at *
  split_ifs at settled ⊢ with running
  · obtain ⟨handle, handles, none_ | one⟩ := settled
    · exact ⟨handle, handles, .inl (by simp [none_])⟩
    · by_cases same : handle = worker
      · exact ⟨handle, handles, .inl (by simp [one, same])⟩
      · exact ⟨handle, handles, .inr (by simp [one, same])⟩
  · simp [settled]

theorem perform_settled_iff (world : World τ) (action : Action τ) (settled : Settled world) :
    Settled (perform world action) ↔ EndsInTime world action := by
  cases action with
  | start task succeeds => exact iff_of_true (start_settled settled task succeeds) trivial
  | stop inTime => exact stop_settled_iff settled inTime
  | taskReturns worker => exact iff_of_true (taskReturns_settled settled worker) trivial

theorem executing_stop_iff (world : World τ) (inTime : Bool) :
    Settled (perform world (.stop inTime)) ↔ (perform world (.stop inTime)).executing = [] := by
  have rests : (perform world (.stop inTime)).object.running = false := stop_rests _ _
  simp [Settled, rests]

theorem executing_iff (config : RtssConfig) (actions : List (Action τ)) :
    ((∀ before, before <+: actions →
          (Runs.after perform (World.fresh config) before).executing.length ≤ 1) ∧
        ∀ before inTime, before ++ [.stop inTime] <+: actions →
          (Runs.after perform (World.fresh config) (before ++ [.stop inTime])).executing = []) ↔
      Runs.Guarded perform EndsInTime (World.fresh config) actions := by
  have fresh : Settled (World.fresh config : World τ) := rfl
  have settled_iff := Runs.always_iff_guarded (fun _ : World τ => True) Settled
    (fun _ _ _ => trivial) (fun world action _ => perform_settled_iff world action) trivial fresh
    actions
  constructor
  · rintro ⟨_, stopped⟩
    refine settled_iff.mp (Runs.always_of_next Settled fresh ?_)
    intro before action inside settled
    rw [Runs.after_snoc]
    cases action with
    | start task succeeds => exact start_settled settled task succeeds
    | taskReturns worker => exact taskReturns_settled settled worker
    | stop inTime =>
      have ended := stopped before inTime inside
      rw [Runs.after_snoc] at ended
      exact (executing_stop_iff _ inTime).mpr ended
  · intro guarded
    have always := settled_iff.mpr guarded
    refine ⟨fun before inside => (always before inside).atMostOne, ?_⟩
    intro before inTime inside
    have settled := always _ inside
    rw [Runs.after_snoc] at settled ⊢
    exact (executing_stop_iff _ inTime).mp settled

theorem executing_two :
    ¬ (Runs.after perform (World.fresh {})
      [Action.start (some ()) true, .stop false, .start (some ()) true]).executing.length ≤ 1 := by
  decide

end RtssThread

end AdsRealtime
