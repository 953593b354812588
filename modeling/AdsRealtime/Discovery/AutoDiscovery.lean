import AdsRealtime.Discovery.PlcDiscovery
import AdsRealtime.Shared.Quiescence

set_option autoImplicit false

namespace AdsRealtime.PlcDiscovery

open InFlight (advance)

def heldSockets : LoopAt → List Int
  | .pinging _ (.connecting sock) _ _ | .pinging _ (.closing sock _) _ _ => [sock]
  | .pinging _ .starting _ _ | .pinging _ .creating _ _ | .pinging _ (.cleaning _) _ _
  | .checking | .scanning _ _ | .adding _ | .waiting _ | .ended => []

def heldStartups : LoopAt → Nat
  | .pinging _ .creating _ _ | .pinging _ (.connecting _) _ _ | .pinging _ (.closing _ _) _ _
  | .pinging _ (.cleaning _) _ _ => 1
  | .pinging _ .starting _ _ | .checking | .scanning _ _ | .adding _ | .waiting _ | .ended => 0

theorem loopStep_sockets (reply : Reply) (running : Bool) (thread : Thread) (sock : Int) :
    (loopStep reply running thread).2.count (.opened sock) +
        (heldSockets thread.position).count sock =
      (loopStep reply running thread).2.count (.closed sock) +
        (heldSockets (loopStep reply running thread).1).count sock := by
  obtain ⟨interval, position⟩ := thread
  cases position with
  | checking => cases running <;> simp [loopStep, heldSockets]
  | scanning ips found => cases ips <;> simp [loopStep, heldSockets]
  | pinging ip ping ips found =>
    cases ping with
    | starting => cases success : reply.success <;> simp [loopStep, pingStep, heldSockets, success]
    | creating =>
      by_cases failed : reply.sock < 0 <;>
        simp [loopStep, pingStep, heldSockets, failed, List.count_singleton]
    | connecting other => simp [loopStep, pingStep, heldSockets]
    | closing other result => simp [loopStep, pingStep, heldSockets, List.count_singleton]
    | cleaning result => cases result <;> simp [loopStep, pingStep, heldSockets]
  | adding found => cases found <;> simp [loopStep, heldSockets]
  | waiting i => simp only [loopStep]; split <;> simp [heldSockets]
  | ended => simp [loopStep, heldSockets]

theorem loopStep_startups (reply : Reply) (running : Bool) (thread : Thread) :
    (loopStep reply running thread).2.count .startup + heldStartups thread.position =
      (loopStep reply running thread).2.count .cleanup +
        heldStartups (loopStep reply running thread).1 := by
  obtain ⟨interval, position⟩ := thread
  cases position with
  | checking => cases running <;> simp [loopStep, heldStartups]
  | scanning ips found => cases ips <;> simp [loopStep, heldStartups]
  | pinging ip ping ips found =>
    cases ping with
    | starting => cases success : reply.success <;> simp [loopStep, pingStep, heldStartups, success]
    | creating =>
      by_cases failed : reply.sock < 0 <;> simp [loopStep, pingStep, heldStartups, failed]
    | connecting other => simp [loopStep, pingStep, heldStartups]
    | closing other result => simp [loopStep, pingStep, heldStartups]
    | cleaning result => cases result <;> simp [loopStep, pingStep, heldStartups]
  | adding found => cases found <;> simp [loopStep, heldStartups]
  | waiting i => simp only [loopStep]; split <;> simp [heldStartups]
  | ended => simp [loopStep, heldStartups]

theorem loopStep_threads (reply : Reply) (running : Bool) (thread : Thread) {event : Event}
    (member : event ∈ (loopStep reply running thread).2) :
    event ≠ .spawned ∧ event ≠ .joined ∧ event ≠ .terminated := by
  obtain ⟨interval, position⟩ := thread
  cases position with
  | pinging ip ping ips found =>
    cases ping with
    | starting => cases success : reply.success <;> simp_all [loopStep, pingStep]
    | creating => by_cases failed : reply.sock < 0 <;> simp_all [loopStep, pingStep]
    | connecting other => simp_all [loopStep, pingStep]
    | closing other result => simp_all [loopStep, pingStep]
    | cleaning result => cases result <;> simp_all [loopStep, pingStep]
  | scanning ips found => cases ips <;> simp [loopStep] at member
  | adding found => cases found <;> simp [loopStep] at member
  | checking => simp [loopStep] at member
  | waiting i => simp [loopStep] at member
  | ended => simp [loopStep] at member

def Fits : List CallAt → Bool → Bool → Prop
  | [], running, present => running = present
  | [.startChecking _], running, present => running = present
  | [.startSetting _], running, present => running = false ∧ present = false
  | [.startSpawning _], running, present => running = true ∧ present = false
  | [.stopChecking], running, present => running = present
  | [.stopClearing], running, present => running = true ∧ present = true
  | [.stopJoining], running, present => running = false ∧ present = true
  | _ :: _ :: _, _, _ => False

def heldBy {ο : Type} (held : LoopAt → ο) (none_ : ο) (thread : Option Thread) : ο :=
  match thread with
  | none => none_
  | some thread => held thread.position

/-- There is a thread exactly while discovery is on, none is ever abandoned, and what the thread
takes from the system it gives back. -/
structure Disciplined (discovery : Discovery) : Prop where
  fits : Fits discovery.calls discovery.autoDiscoveryRunning
    discovery.autoDiscoveryThread.isSome
  neverTerminated : .terminated ∉ discovery.log
  threads : discovery.log.count .spawned =
    discovery.log.count .joined + discovery.autoDiscoveryThread.isSome.toNat
  sockets : ∀ sock, discovery.log.count (.opened sock) = discovery.log.count (.closed sock) +
    (heldBy heldSockets [] discovery.autoDiscoveryThread).count sock
  startups : discovery.log.count .startup =
    discovery.log.count .cleanup + heldBy heldStartups 0 discovery.autoDiscoveryThread

theorem new_disciplined : Disciplined .new := by
  constructor <;> simp [Discovery.new, Fits, heldBy]

theorem Disciplined.call {discovery next : Discovery} (disciplined : Disciplined discovery)
    (log : next.log = discovery.log)
    (thread : next.autoDiscoveryThread = discovery.autoDiscoveryThread)
    (fits : Fits next.calls next.autoDiscoveryRunning discovery.autoDiscoveryThread.isSome) :
    Disciplined next := by
  obtain ⟨_, neverTerminated, threads, sockets, startups⟩ := disciplined
  constructor
  · rwa [thread]
  · rwa [log]
  · rwa [log, thread]
  · rwa [log, thread]
  · rwa [log, thread]

theorem threadStep_disciplined {discovery : Discovery} (disciplined : Disciplined discovery)
    (reply : Reply) : Disciplined (threadStep reply discovery) := by
  obtain ⟨fits, neverTerminated, threads, sockets, startups⟩ := id disciplined
  unfold threadStep
  cases present : discovery.autoDiscoveryThread with
  | none => exact disciplined
  | some thread =>
    rw [present] at fits threads sockets startups
    have quiet {event : Event} :=
      @loopStep_threads reply discovery.autoDiscoveryRunning thread event
    have none_ {event : Event} (about : event = .spawned ∨ event = .joined) :
        (loopStep reply discovery.autoDiscoveryRunning thread).2.count event = 0 := by
      rw [List.count_eq_zero]
      intro member
      rcases about with rfl | rfl
      · exact (quiet member).1 rfl
      · exact (quiet member).2.1 rfl
    constructor
    · exact fits
    · intro member
      rcases List.mem_append.mp member with old | new
      · exact neverTerminated old
      · exact (quiet new).2.2 rfl
    · simpa [none_] using threads
    · intro sock
      have moved := loopStep_sockets reply discovery.autoDiscoveryRunning thread sock
      have before := sockets sock
      simp only [heldBy, List.count_append] at before ⊢
      omega
    · have moved := loopStep_startups reply discovery.autoDiscoveryRunning thread
      simp only [heldBy, List.count_append] at startups ⊢
      omega

theorem spawn_disciplined {discovery : Discovery} (disciplined : Disciplined discovery)
    {intervalSeconds : UInt32} (only : discovery.calls = [.startSpawning intervalSeconds]) :
    Disciplined (callStep 0 discovery) := by
  obtain ⟨fits, neverTerminated, threads, sockets, startups⟩ := disciplined
  rw [only] at fits
  obtain ⟨running, absent⟩ := fits
  have none_ : discovery.autoDiscoveryThread = none := by simpa using absent
  rw [none_] at threads sockets startups
  simp only [callStep, only, List.getElem?_cons_zero, none_, goOn]
  constructor
  · simpa [advance, Fits] using running
  · simpa using neverTerminated
  · simpa using threads
  · intro sock
    simpa [heldBy, heldSockets] using sockets sock
  · simpa [heldBy, heldStartups] using startups

theorem join_disciplined {discovery : Discovery} (disciplined : Disciplined discovery)
    {thread : Thread} (present : discovery.autoDiscoveryThread = some thread)
    (ended : thread.position = .ended) (only : discovery.calls = [.stopJoining]) :
    Disciplined (callStep 0 discovery) := by
  obtain ⟨fits, neverTerminated, threads, sockets, startups⟩ := disciplined
  rw [only] at fits
  rw [present] at threads sockets startups
  simp only [callStep, only, List.getElem?_cons_zero, present, if_pos ended, goOn]
  constructor
  · simpa [advance, Fits] using fits.1
  · simpa using neverTerminated
  · simpa using threads
  · intro sock
    simpa [heldBy, heldSockets, ended] using sockets sock
  · simpa [heldBy, heldStartups, ended] using startups

theorem callStep_disciplined {discovery : Discovery} (disciplined : Disciplined discovery)
    (place : Nat) : Disciplined (callStep place discovery) := by
  have fits := disciplined.fits
  cases calls : discovery.calls with
  | nil => simpa [callStep, calls] using disciplined
  | cons call more =>
    cases more with
    | cons other rest =>
      rw [calls] at fits
      cases call <;> exact False.elim fits
    | nil =>
      cases place with
      | succ place => simpa [callStep, calls] using disciplined
      | zero =>
        rw [calls] at fits
        cases call with
        | startChecking intervalSeconds =>
          simp only [callStep, calls, List.getElem?_cons_zero]
          refine disciplined.call rfl rfl ?_
          cases running : discovery.autoDiscoveryRunning <;>
            simp_all [goOn, advance, Fits]
        | startSetting intervalSeconds =>
          simp only [callStep, calls, List.getElem?_cons_zero]
          refine disciplined.call rfl rfl ?_
          simp_all [goOn, advance, Fits]
        | startSpawning intervalSeconds => exact spawn_disciplined disciplined calls
        | stopChecking =>
          simp only [callStep, calls, List.getElem?_cons_zero]
          refine disciplined.call rfl rfl ?_
          cases running : discovery.autoDiscoveryRunning <;>
            simp_all [goOn, advance, Fits]
        | stopClearing =>
          simp only [callStep, calls, List.getElem?_cons_zero]
          refine disciplined.call rfl rfl ?_
          simp_all [goOn, advance, Fits]
        | stopJoining =>
          obtain ⟨_, present⟩ := fits
          obtain ⟨thread, present⟩ := Option.isSome_iff_exists.mp present
          by_cases ended : thread.position = .ended
          · exact join_disciplined disciplined present ended calls
          · simpa [callStep, calls, present, ended] using disciplined

theorem perform_disciplined {discovery : Discovery} (disciplined : Disciplined discovery)
    {action : Action} (alone : OneAtATime discovery action) :
    Disciplined (perform discovery action) := by
  have fits := disciplined.fits
  cases action with
  | start intervalSeconds =>
    rw [show discovery.calls = [] from alone] at fits
    refine disciplined.call rfl rfl ?_
    rw [perform, show discovery.calls = [] from alone]
    exact fits
  | stop =>
    rw [show discovery.calls = [] from alone] at fits
    refine disciplined.call rfl rfl ?_
    rw [perform, show discovery.calls = [] from alone]
    exact fits
  | call place => exact callStep_disciplined disciplined place
  | thread reply => exact threadStep_disciplined disciplined reply

theorem autoDiscovery_disciplined {actions : List Action}
    (alone : Runs.Guarded perform OneAtATime .new actions) :
    Disciplined (Runs.after perform .new actions) :=
  Runs.invariant_of_guarded Disciplined
    (fun _ _ disciplined alone => perform_disciplined disciplined alone) new_disciplined alone

def startedAndStopped : List Action :=
  [.start 30, .call 0, .call 0, .call 0, .thread ⟨true, 0, 0⟩, .thread ⟨true, 0, 0⟩,
    .thread ⟨true, 0, 0⟩, .thread ⟨true, 5, 0⟩, .thread ⟨true, 0, 0⟩, .stop, .call 0, .call 0]

theorem autoDiscovery_disciplined_once :
    Disciplined (Runs.after perform .new startedAndStopped) := by
  apply autoDiscovery_disciplined
  simp only [startedAndStopped]
  repeat refine Runs.guarded_cons.mpr ⟨by decide, ?_⟩
  exact Runs.guarded_nil _ _ _

-- Two starts at the same time both find discovery off.
theorem autoDiscovery_overlapping :
    .terminated ∈ (Runs.after perform .new
      [.start 30, .start 30, .call 0, .call 1, .call 1, .call 1, .call 0, .call 0]).log := by
  decide

def pingWork : PingAt → Nat
  | .starting => 7
  | .creating => 6
  | .connecting _ => 5
  | .closing _ _ => 4
  | .cleaning _ => 3

def loopWork : LoopAt → Nat
  | .pinging _ ping ips found => 4 + found.length + 8 * ips.length + pingWork ping
  | .scanning ips found => 4 + found.length + 8 * ips.length
  | .adding found => 3 + found.length
  | .waiting _ => 2
  | .checking => 1
  | .ended => 0

def work (discovery : Discovery) : Nat :=
  heldBy loopWork 0 discovery.autoDiscoveryThread + discovery.calls.length

theorem loopStep_work (reply : Reply) (thread : Thread) :
    thread.position = .ended ∨
      loopWork (loopStep reply false thread).1 < loopWork thread.position := by
  obtain ⟨interval, position⟩ := thread
  cases position with
  | checking => exact .inr (by simp [loopStep, loopWork])
  | scanning ips found =>
    right
    cases ips with
    | nil => simp [loopStep, loopWork]
    | cons ip ips =>
      simp only [loopStep, loopWork, pingWork, List.length_cons]
      omega
  | pinging ip ping ips found =>
    right
    cases ping with
    | starting =>
      cases success : reply.success <;> simp [loopStep, pingStep, loopWork, pingWork, success]
    | creating =>
      by_cases failed : reply.sock < 0 <;>
        simp [loopStep, pingStep, loopWork, pingWork, failed]
    | connecting sock => simp [loopStep, pingStep, loopWork, pingWork]
    | closing sock result => simp [loopStep, pingStep, loopWork, pingWork]
    | cleaning result =>
      cases result <;> simp [loopStep, pingStep, loopWork, pingWork]
      omega
  | adding found => cases found <;> exact .inr (by simp [loopStep, loopWork])
  | waiting i => exact .inr (by simp [loopStep, loopWork])
  | ended => exact .inl rfl

def Own : Action → Prop
  | .start _ | .stop => False
  | .call _ | .thread _ => True

structure Stopping (discovery : Discovery) : Prop where
  disciplined : Disciplined discovery
  off : discovery.autoDiscoveryRunning = false
  joining : discovery.calls = [.stopJoining] ∨ discovery.calls = []

theorem Stopping.gone {discovery : Discovery} (stopping : Stopping discovery)
    (returned : discovery.calls = []) : discovery.autoDiscoveryThread = none := by
  have fits := stopping.disciplined.fits
  rw [returned, stopping.off] at fits
  simpa [Fits] using fits.symm

theorem threadStep_ended {discovery : Discovery} {thread : Thread}
    (present : discovery.autoDiscoveryThread = some thread) (ended : thread.position = .ended)
    (reply : Reply) : threadStep reply discovery = discovery := by
  obtain ⟨tables, running, _, calls, log⟩ := discovery
  obtain ⟨interval, _⟩ := thread
  cases present
  cases ended
  simp [threadStep, loopStep, loopTables]

theorem threadStep_stopping {discovery : Discovery} (stopping : Stopping discovery)
    (reply : Reply) :
    Stopping (threadStep reply discovery) ∧
      (threadStep reply discovery = discovery ∨
        work (threadStep reply discovery) < work discovery) := by
  have disciplined := threadStep_disciplined stopping.disciplined reply
  cases present : discovery.autoDiscoveryThread with
  | none =>
    have same : threadStep reply discovery = discovery := by rw [threadStep, present]
    rw [same]
    exact ⟨stopping, .inl rfl⟩
  | some thread =>
    rcases loopStep_work reply thread with ended | less
    · rw [threadStep_ended present ended]
      exact ⟨stopping, .inl rfl⟩
    · unfold threadStep at disciplined ⊢
      simp only [present] at disciplined ⊢
      refine ⟨⟨disciplined, stopping.off, stopping.joining⟩, .inr ?_⟩
      rw [stopping.off]
      simp only [work, present, heldBy]
      omega

theorem callStep_stopping {discovery : Discovery} (stopping : Stopping discovery) (place : Nat) :
    Stopping (callStep place discovery) ∧
      (callStep place discovery = discovery ∨
        work (callStep place discovery) < work discovery) := by
  have disciplined := callStep_disciplined stopping.disciplined place
  have unchanged (same : callStep place discovery = discovery) :
      Stopping (callStep place discovery) ∧
        (callStep place discovery = discovery ∨
          work (callStep place discovery) < work discovery) := by
    rw [same]
    exact ⟨stopping, .inl rfl⟩
  rcases stopping.joining with joining | returned
  · cases place with
    | succ place => exact unchanged (by simp [callStep, joining])
    | zero =>
      cases present : discovery.autoDiscoveryThread with
      | none =>
        have fits := stopping.disciplined.fits
        simp [joining, present, Fits] at fits
      | some thread =>
        by_cases ended : thread.position = .ended
        · refine ⟨⟨disciplined, ?_, .inr ?_⟩, .inr ?_⟩
          · simpa [callStep, joining, present, ended, goOn] using stopping.off
          · simp [callStep, joining, present, ended, goOn, advance]
          · simp [callStep, joining, present, ended, goOn, advance, work, heldBy, loopWork]
        · exact unchanged (by simp [callStep, joining, present, ended])
  · exact unchanged (by simp [callStep, returned])

theorem Stopping.step {discovery : Discovery} (stopping : Stopping discovery) {action : Action}
    (own : Own action) :
    Stopping (perform discovery action) ∧
      (perform discovery action = discovery ∨
        work (perform discovery action) < work discovery) := by
  cases action with
  | start intervalSeconds => exact own.elim
  | stop => exact own.elim
  | call place => exact callStep_stopping stopping place
  | thread reply => exact threadStep_stopping stopping reply

-- The call waits for the thread only, and the thread for nothing.
theorem Stopping.returned {discovery : Discovery} (stopping : Stopping discovery)
    (quiet : Runs.Quiet perform Own discovery) : discovery.calls = [] := by
  refine stopping.joining.resolve_left fun joining => ?_
  have fits := stopping.disciplined.fits
  rw [joining] at fits
  obtain ⟨thread, present⟩ := Option.isSome_iff_exists.mp fits.2
  by_cases ended : thread.position = .ended
  · have still : (callStep 0 discovery).calls = discovery.calls :=
      congrArg Discovery.calls (quiet (.call 0) trivial)
    simp [callStep, joining, present, ended, goOn, advance] at still
  · have less := (loopStep_work ⟨true, 0, 0⟩ thread).resolve_left ended
    have still : (threadStep ⟨true, 0, 0⟩ discovery).autoDiscoveryThread =
        discovery.autoDiscoveryThread :=
      congrArg Discovery.autoDiscoveryThread (quiet (.thread ⟨true, 0, 0⟩) trivial)
    simp only [threadStep, present, stopping.off, Option.some.injEq] at still
    have same : (loopStep ⟨true, 0, 0⟩ false thread).1 = thread.position :=
      congrArg Thread.position still
    rw [same] at less
    exact Nat.lt_irrefl _ less

/-- Once the flag is cleared the call returns, however many routes the thread is still adding, and
leaves no thread behind. -/
structure Stops (discovery : Discovery) : Prop where
  bounded : ∀ later, (∀ action ∈ later, Own action) → Runs.Effective perform discovery later →
    later.length ≤ work discovery
  finished : ∀ later, (∀ action ∈ later, Own action) →
    Runs.Quiet perform Own (Runs.after perform discovery later) →
      (Runs.after perform discovery later).calls = [] ∧
        (Runs.after perform discovery later).autoDiscoveryThread = none
  reachable : ∃ later, (∀ action ∈ later, Own action) ∧
    (Runs.after perform discovery later).calls = [] ∧
      (Runs.after perform discovery later).autoDiscoveryThread = none

theorem stopAutoDiscovery_stops {actions : List Action}
    (alone : Runs.Guarded perform OneAtATime .new actions)
    (joining : (Runs.after perform .new actions).calls = [.stopJoining]) :
    Stops (Runs.after perform .new actions) := by
  have disciplined := autoDiscovery_disciplined alone
  have fits := disciplined.fits
  rw [joining] at fits
  have initial : Stopping (Runs.after perform .new actions) :=
    ⟨disciplined, fits.1, .inl joining⟩
  have preserved (discovery : Discovery) (action : Action) (own : Own action)
      (stopping : Stopping discovery) : Stopping (perform discovery action) :=
    (stopping.step own).1
  have descends (discovery : Discovery) (action : Action) (own : Own action)
      (stopping : Stopping discovery) (changes : perform discovery action ≠ discovery) :
      work (perform discovery action) < work discovery :=
    (stopping.step own).2.resolve_left changes
  constructor
  · intro later own effective
    have bound := Runs.length_le_of_effective preserved descends initial own effective
    omega
  · intro later own quiet
    have stopping := Runs.invariant_of_allowed preserved initial own
    exact ⟨stopping.returned quiet, stopping.gone (stopping.returned quiet)⟩
  · obtain ⟨later, own, stopping, quiet⟩ := Runs.exists_quiet preserved descends _ initial
    exact ⟨later, own, stopping.returned quiet, stopping.gone (stopping.returned quiet)⟩

theorem stopAutoDiscovery_stops_once :
    Stops (Runs.after perform .new startedAndStopped) := by
  apply stopAutoDiscovery_stops
  · simp only [startedAndStopped]
    repeat refine Runs.guarded_cons.mpr ⟨by decide, ?_⟩
    exact Runs.guarded_nil _ _ _
  · decide

end AdsRealtime.PlcDiscovery
