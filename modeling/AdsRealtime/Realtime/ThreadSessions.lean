import AdsRealtime.Realtime.RtThread
import AdsRealtime.Realtime.RtssThread
import AdsRealtime.Shared.Histories

set_option autoImplicit false

namespace AdsRealtime

open Histories Computability

namespace RtThread

variable {τ : Type}

-- The calls of one object, its destructor being a last stop.
inductive Request (τ : Type) where
  | start (task : Option τ) (locked created : Int)
  | stop

def serve (thread : RtThread τ) : Request τ → RtThread τ
  | .start task locked created => (start task locked created thread).2.1
  | .stop => (stop thread).1

def syscalls (thread : RtThread τ) : Request τ → List Syscall
  | .start task locked created => (start task locked created thread).2.2
  | .stop => (stop thread).2

def locking (config : RtConfig) : List Syscall :=
  if config.lockMemory then [.mlockall 0] else []

def unlocking (config : RtConfig) : List Syscall :=
  if config.lockMemory then [.munlockall] else []

/-- What a start leads to: a lock that is denied, a thread that is not created (nobody unlocks the
memory then), or a thread that is joined. -/
inductive Session (config : RtConfig) : List Syscall → Prop
  | denied (result : Int) (asks : config.lockMemory = true) (failed : result ≠ 0) :
    Session config [.mlockall result]
  | notCreated (result : Int) (failed : result ≠ 0) :
    Session config (locking config ++ [.pthreadCreate (attr config) result])
  | joined :
    Session config
      (locking config ++ [.pthreadCreate (attr config) 0, .pthreadJoin] ++ unlocking config)

def sessions (config : RtConfig) : Language Syscall :=
  {calls | Session config calls}

def begun (thread : RtThread τ) : List Syscall :=
  if thread.running then
    locking thread.config ++ [.pthreadCreate (attr thread.config) 0]
  else
    []

theorem config_serve (thread : RtThread τ) (request : Request τ) :
    (serve thread request).config = thread.config := by
  cases request with
  | start task locked created => exact (start_keeps task locked created thread).1
  | stop => exact (stop_keeps thread).1

theorem begun_idle {thread : RtThread τ} (idle : thread.running = false) : begun thread = [] := by
  simp [begun, idle]

theorem locks_granted {config : RtConfig} {locked : Int}
    (granted : config.lockMemory = true → locked = 0) :
    (if config.lockMemory then [Syscall.mlockall locked] else []) = locking config := by
  rw [locking]
  split
  next asks => rw [granted asks]
  next => rfl

theorem start_goesOn {thread : RtThread τ} (idle : thread.running = false) (task : Option τ)
    (locked created : Int) :
    ∃ whole ∈ (sessions thread.config)∗, syscalls thread (.start task locked created) =
      whole ++ begun (serve thread (.start task locked created)) := by
  by_cases denied : thread.config.lockMemory = true ∧ locked ≠ 0
  · refine ⟨_, mem_kstar_of_mem (Session.denied locked denied.1 denied.2), ?_⟩
    simp [syscalls, serve, begun, start, idle, denied]
  · have locks := @locks_granted thread.config locked (by simpa using denied)
    by_cases made : created = 0
    · subst made
      refine ⟨[], Language.nil_mem_kstar _, ?_⟩
      simp [syscalls, serve, begun, start, idle, denied, locks]
    · refine ⟨_, mem_kstar_of_mem (Session.notCreated created made), ?_⟩
      simp [syscalls, serve, begun, start, idle, denied, locks, made]

theorem stop_session {thread : RtThread τ} (running : thread.running = true) :
    begun thread ++ syscalls thread .stop ∈ sessions thread.config := by
  have calls : begun thread ++ syscalls thread .stop =
      locking thread.config ++ [.pthreadCreate (attr thread.config) 0, .pthreadJoin] ++
        unlocking thread.config := by
    simp [begun, syscalls, stop, running, unlocking]
  rw [calls]
  exact Session.joined

theorem serve_goesOn (thread : RtThread τ) (request : Request τ) :
    ∃ whole ∈ (sessions thread.config)∗,
      begun thread ++ syscalls thread request = whole ++ begun (serve thread request) := by
  cases request with
  | start task locked created =>
    cases running : thread.running with
    | true =>
      refine ⟨[], Language.nil_mem_kstar _, ?_⟩
      simp [syscalls, serve, start_busy running]
    | false =>
      rw [begun_idle running]
      exact start_goesOn running task locked created
  | stop =>
    have rests : (serve thread .stop).running = false := (stop_keeps thread).2
    rw [begun_idle rests]
    cases running : thread.running with
    | true => exact ⟨_, mem_kstar_of_mem (stop_session running), (List.append_nil _).symm⟩
    | false =>
      refine ⟨[], Language.nil_mem_kstar _, ?_⟩
      simp [begun, syscalls, stop, running]

theorem session_played {thread : RtThread τ} (idle : thread.running = false) {word : List Syscall}
    (session : Session thread.config word) :
    ∃ requests, history serve syscalls thread requests = word ∧
      (Runs.after serve thread requests).running = false := by
  cases session with
  | denied result asks failed =>
    refine ⟨[.start none result 0], ?_, ?_⟩
    · simp [history, syscalls, start, idle, asks, failed]
    · simp [Runs.after, serve, start, idle, asks, failed]
  | notCreated result failed =>
    refine ⟨[.start none 0 result], ?_, ?_⟩
    · simp [history, syscalls, start, idle, failed, locking]
    · simp [Runs.after, serve, start, idle, failed]
  | joined =>
    refine ⟨[.start none 0 0, .stop], ?_, ?_⟩
    · simp [history, syscalls, serve, start, stop, idle, locking, unlocking]
    · simp [Runs.after, serve, start, stop, idle]

theorem syscalls_mem_sessions_iff (config : RtConfig) (calls : List Syscall) :
    (∃ requests : List (Request τ),
        history serve syscalls (new config) (requests ++ [.stop]) = calls) ↔
      calls ∈ (sessions config)∗ := by
  have same := @histories_eq_kstar _ _ _ serve syscalls (sessions config) begun
    (fun thread : RtThread τ => thread.config = config)
    (fun thread => thread.config = config ∧ thread.running = false) (new config) .stop
    (fun thread request kept => (config_serve thread request).trans kept)
    (fun thread request kept => kept ▸ serve_goesOn thread request)
    ?_ (fun thread _ => begun_idle (stop_keeps thread).2) ?_ rfl ⟨rfl, rfl⟩ rfl
  · exact Set.ext_iff.mp same calls
  · rintro thread word ⟨kept, idle⟩ session
    subst kept
    obtain ⟨requests, made, stops⟩ := session_played idle session
    refine ⟨requests, made, ?_, stops⟩
    exact Runs.invariant_of_step (fun other : RtThread τ => other.config = thread.config)
      (fun other request kept => (config_serve other request).trans kept) rfl requests
  · rintro thread ⟨_, idle⟩
    simp [syscalls, stop, idle]

end RtThread

namespace RtssThread

variable {τ : Type}

inductive Request (τ : Type) where
  | start (task : Option τ) (handle : Option Nat)
  | stop (result : WaitResult)

def serve (thread : RtssThread τ) : Request τ → RtssThread τ
  | .start task handle => (start task handle thread).2.1
  | .stop result => (stop result thread).1

def winCalls (thread : RtssThread τ) : Request τ → List WinCall
  | .start task handle => (start task handle thread).2.2
  | .stop result => (stop result thread).2

def starting (config : RtssConfig) (handle : Nat) : List WinCall :=
  let affinity :=
    if config.useDedicatedCore then
      [.setThreadAffinityMask handle (1 <<< config.cpuAffinity.toUInt64)]
    else
      []
  .createThread (config.stackSizeKb * 1024) (some handle) :: .setThreadPriority handle ::
    affinity ++ [.resumeThread handle]

/-- What a start leads to: no thread at all, or one whose handle is waited for and then closed,
the wait over in time or not. -/
inductive Session (config : RtssConfig) : List WinCall → Prop
  | notCreated : Session config [.createThread (config.stackSizeKb * 1024) none]
  | closed (handle : Nat) (result : WaitResult) :
    Session config
      (starting config handle ++ [.waitForSingleObject handle 1000 result, .closeHandle handle])

def sessions (config : RtssConfig) : Language WinCall :=
  {calls | Session config calls}

def begun (thread : RtssThread τ) : List WinCall :=
  match thread.threadHandle with
  | none => []
  | some handle => starting thread.config handle

def Holding (thread : RtssThread τ) : Prop :=
  thread.threadHandle.isSome = thread.running

theorem serve_keeps {thread : RtssThread τ} (holding : Holding thread) (request : Request τ) :
    (serve thread request).config = thread.config ∧ Holding (serve thread request) := by
  cases request with
  | start task handle =>
    cases running : thread.running <;> cases handle <;> simp_all [serve, start, Holding]
  | stop result =>
    cases running : thread.running <;> cases held : thread.threadHandle <;>
      simp_all [serve, stop, Holding]

theorem serve_goesOn {thread : RtssThread τ} (holding : Holding thread) (request : Request τ) :
    ∃ whole ∈ (sessions thread.config)∗,
      begun thread ++ winCalls thread request = whole ++ begun (serve thread request) := by
  cases running : thread.running with
  | true =>
    obtain ⟨held, owns⟩ := Option.isSome_iff_exists.mp (holding.trans running)
    cases request with
    | start task handle =>
      refine ⟨[], Language.nil_mem_kstar _, ?_⟩
      simp [begun, winCalls, serve, start, running]
    | stop result =>
      refine ⟨_, mem_kstar_of_mem (Session.closed held result), ?_⟩
      simp [begun, winCalls, serve, stop, running, owns]
  | false =>
    have none_ : thread.threadHandle = none := by
      rwa [Holding, running, Option.isSome_eq_false_iff, Option.isNone_iff_eq_none] at holding
    cases request with
    | start task handle =>
      cases handle with
      | none =>
        refine ⟨_, mem_kstar_of_mem Session.notCreated, ?_⟩
        simp [begun, winCalls, serve, start, running, none_]
      | some handle =>
        refine ⟨[], Language.nil_mem_kstar _, ?_⟩
        simp [begun, winCalls, serve, start, running, none_, starting]
    | stop result =>
      refine ⟨[], Language.nil_mem_kstar _, ?_⟩
      simp [begun, winCalls, serve, stop, running, none_]

theorem session_played {thread : RtssThread τ} (idle : thread.running = false)
    {word : List WinCall} (session : Session thread.config word) :
    ∃ requests, history serve winCalls thread requests = word ∧
      (Runs.after serve thread requests).running = false := by
  cases session with
  | notCreated =>
    refine ⟨[.start none none], ?_, ?_⟩
    · simp [history, winCalls, start, idle]
    · simp [Runs.after, serve, start, idle]
  | closed handle result =>
    refine ⟨[.start none (some handle), .stop result], ?_, ?_⟩
    · simp [history, winCalls, serve, start, stop, idle, starting]
    · simp [Runs.after, serve, start, stop, idle]

theorem winCalls_mem_sessions_iff (config : RtssConfig) (last : WaitResult) (calls : List WinCall) :
    (∃ requests : List (Request τ),
        history serve winCalls (new config) (requests ++ [.stop last]) = calls) ↔
      calls ∈ (sessions config)∗ := by
  have same := @histories_eq_kstar _ _ _ serve winCalls (sessions config) begun
    (fun thread : RtssThread τ => thread.config = config ∧ Holding thread)
    (fun thread => (thread.config = config ∧ Holding thread) ∧ thread.running = false)
    (new config) (.stop last) ?_ ?_ ?_ ?_ ?_ ⟨rfl, rfl⟩ ⟨⟨rfl, rfl⟩, rfl⟩ rfl
  · exact Set.ext_iff.mp same calls
  · rintro thread request ⟨kept, holding⟩
    obtain ⟨same, still⟩ := serve_keeps holding request
    exact ⟨same.trans kept, still⟩
  · rintro thread request ⟨kept, holding⟩
    exact kept ▸ serve_goesOn holding request
  · rintro thread word ⟨⟨kept, holding⟩, idle⟩ session
    subst kept
    obtain ⟨requests, made, stops⟩ := session_played idle session
    refine ⟨requests, made, ?_, stops⟩
    refine Runs.invariant_of_step
      (fun other : RtssThread τ => other.config = thread.config ∧ Holding other) ?_
      ⟨rfl, holding⟩ requests
    rintro other request ⟨kept, held⟩
    obtain ⟨same, still⟩ := serve_keeps held request
    exact ⟨same.trans kept, still⟩
  · rintro thread ⟨_, holding⟩
    have rests : (serve thread (.stop last)).running = false := stop_rests last thread
    have held := (serve_keeps holding (.stop last)).2
    rw [Holding, rests, Option.isSome_eq_false_iff, Option.isNone_iff_eq_none] at held
    rw [begun, held]
  · rintro thread ⟨_, idle⟩
    simp [winCalls, stop, idle]

end RtssThread

end AdsRealtime
