import AdsRealtime.Bridge.Stages
import AdsRealtime.Bridge.Lifetimes
import AdsRealtime.Shared.Quiescence

set_option autoImplicit false

namespace AdsRealtime.MainProgram

open AdsRealtimeEngine
open InFlight (total advance total_advance)

def mainWork (env : Environment) (bridge : Bridge) : Nat :=
  let registered := bridge.engine.variables_.length
  match bridge.main with
  | .connectEngine => 12 + 2 * env.registrations.length + registered
  | .connectPublisher => 11 + 2 * env.registrations.length + registered
  | .registering rest => 10 + 2 * rest.length + registered
  | .starting => 9 + registered
  | .spawning => 8 + registered
  | .waiting => 7 + registered
  | .stopping => 6 + registered
  | .deleting rest => 5 + rest.length
  | .disconnecting => 4
  | .joining => 3
  | .destroyingPublisher _ => 2
  | .destroyingEngine _ => 1
  | .returned _ => 0

def monitorWork : MonitorAt → Nat
  | .notStarted => 4
  | .sleeping => 3
  | .reading => 2
  | .checking => 1
  | .ended => 0

def deliveryWork (delivery : Delivery) : Nat :=
  match delivery.position with
  | .entered => 3
  | .publishing => 2
  | .sending => 1

def work (env : Environment) (bridge : Bridge) : Nat :=
  mainWork env bridge + monitorWork bridge.monitor + total deliveryWork bridge.deliveries

theorem length_assign (key : UInt32) (varHandle : VariableHandle Unit)
    (variables_ : List (UInt32 × VariableHandle Unit)) :
    (assign key varHandle variables_).1.length ≤ variables_.length + 1 := by
  induction variables_ with
  | nil => simp [assign]
  | cons entry rest ih =>
    obtain ⟨other, held⟩ := entry
    rw [assign]
    split
    · simp
    · simpa using ih

theorem length_addVariable (name : String) (callback : Option Unit) (replies : AdsReplies)
    (address : UInt64) (engine : Engine Unit) :
    (addVariable name callback replies address engine).2.variables_.length ≤
      engine.variables_.length + 1 := by
  rcases addVariable_cases name callback replies address engine with
    same | ⟨log, freed, _⟩ | ⟨log, varHandle, registered, _⟩
  · rw [same]
    omega
  · rw [freed]
    exact Nat.le_succ _
  · rw [registered]
    exact length_assign _ _ _

theorem length_connect (opened : Int) (engine : Engine Unit) :
    (connect opened engine).2.variables_ = engine.variables_ := by
  rw [connect]
  split <;> rfl

theorem mainStep_work {env : Environment} {bridge : Bridge} (staged : Staged env bridge)
    (signalled : bridge.gRunning = false) :
    mainStep env bridge = bridge ∨ work env (mainStep env bridge) < work env bridge := by
  obtain ⟨main, gRunning, monitor, engine, publisher, deliveries, delivered, client⟩ := bridge
  cases main with
  | connectEngine =>
    right
    have kept := length_connect env.opened engine
    simp only [mainStep, work, mainWork]
    split_ifs <;> simp only [kept] <;> omega
  | connectPublisher =>
    right
    simp only [mainStep, work, mainWork]
    split_ifs <;> simp only <;> omega
  | registering rest =>
    right
    cases rest with
    | nil =>
      simp only [mainStep, work, mainWork, List.length_nil]
      omega
    | cons next rest =>
      have more := length_addVariable next.name (some ()) next.replies next.address engine
      simp only [mainStep, work, mainWork, List.length_cons]
      omega
  | starting =>
    right
    simp only [mainStep, work, mainWork, start]
    omega
  | spawning =>
    right
    obtain rfl : monitor = .notStarted := staged.monitor
    simp only [mainStep, work, mainWork, monitorWork]
    omega
  | waiting =>
    right
    obtain rfl : gRunning = false := signalled
    simp only [mainStep, work, mainWork, Bool.false_eq_true, if_false]
    omega
  | stopping =>
    right
    have running : engine.running = true := staged.running
    simp only [mainStep, work, mainWork, if_pos running]
    omega
  | deleting rest =>
    cases rest with
    | nil =>
      right
      simp only [mainStep, work, mainWork]
      omega
    | cons entry rest =>
      simp only [mainStep]
      split
      · exact .inl rfl
      · right
        simp only [work, mainWork, List.length_cons]
        omega
  | disconnecting =>
    right
    simp only [mainStep, work, mainWork]
    omega
  | joining =>
    simp only [mainStep]
    split
    · right
      simp only [work, mainWork]
      omega
    · exact .inl rfl
  | destroyingPublisher code =>
    right
    simp only [mainStep, work, mainWork]
    omega
  | destroyingEngine code =>
    right
    simp only [mainStep, work, mainWork]
    omega
  | returned code => exact .inl rfl

theorem monitorStep_work (env : Environment) {bridge : Bridge}
    (signalled : bridge.gRunning = false) :
    monitorStep bridge = bridge ∨ work env (monitorStep bridge) < work env bridge := by
  obtain ⟨main, gRunning, monitor, engine, publisher, deliveries, delivered, client⟩ := bridge
  obtain rfl : gRunning = false := signalled
  cases monitor with
  | notStarted => exact .inl rfl
  | checking =>
    right
    simp only [monitorStep, work, mainWork, monitorWork, Bool.false_eq_true, if_false]
    omega
  | sleeping =>
    right
    simp only [monitorStep, work, mainWork, monitorWork]
    omega
  | reading =>
    right
    simp only [monitorStep, work, mainWork, monitorWork]
    omega
  | ended => exact .inl rfl

theorem callbackStep_work (env : Environment) {bridge : Bridge} {place : Nat}
    {delivery : Delivery} (found : bridge.deliveries[place]? = some delivery) :
    work env (callbackStep place bridge) < work env bridge := by
  have passed := total_advance deliveryWork found
  unfold callbackStep
  simp only [found]
  cases at_ : delivery.position with
  | entered =>
    have less := passed (some { delivery with position := .publishing })
    simp only [deliveryWork, at_, Option.map_some, Option.getD_some] at less
    simp only [work, mainWork, goOn]
    omega
  | publishing =>
    by_cases connected : bridge.publisher.connected
    · have less := passed (some { delivery with position := .sending })
      simp only [deliveryWork, at_, Option.map_some, Option.getD_some] at less
      simp only [work, mainWork, goOn, if_pos connected]
      omega
    · have less := passed none
      simp only [deliveryWork, at_, Option.map_none, Option.getD_none] at less
      simp only [work, mainWork, goOn, if_neg connected]
      omega
  | sending =>
    have less := passed none
    simp only [deliveryWork, at_, Option.map_none, Option.getD_none] at less
    simp only [work, mainWork, goOn]
    omega

def Own (action : Action) : Prop :=
  ∀ notification memory pNotification, action ≠ .deliver notification memory pNotification

theorem perform_work {env : Environment} {bridge : Bridge} (staged : Staged env bridge)
    (signalled : bridge.gRunning = false) {action : Action} (own : Own action)
    (changes : perform env bridge action ≠ bridge) :
    work env (perform env bridge action) < work env bridge := by
  cases action with
  | main => exact (mainStep_work staged signalled).resolve_left changes
  | signal =>
    apply absurd _ changes
    rw [perform, ← signalled]
  | monitor => exact (monitorStep_work env signalled).resolve_left changes
  | deliver notification memory pNotification => exact absurd rfl (own _ _ _)
  | callback place =>
    cases found : bridge.deliveries[place]? with
    | none =>
      apply absurd _ changes
      rw [perform, callbackStep, found]
    | some delivery => exact callbackStep_work env found

theorem perform_signalled {env : Environment} {bridge : Bridge}
    (signalled : bridge.gRunning = false) (action : Action) :
    (perform env bridge action).gRunning = false := by
  cases action with
  | main =>
    rw [perform, ← signalled]
    unfold mainStep
    split <;> first | rfl | (split <;> rfl)
  | signal => rfl
  | monitor =>
    rw [perform, ← signalled]
    unfold monitorStep
    split <;> rfl
  | deliver notification memory pNotification =>
    rw [perform, ← signalled]
    unfold deliver
    simp only
    split
    · rfl
    · split <;> rfl
  | callback place =>
    rw [perform, ← signalled]
    unfold callbackStep
    split
    · rfl
    · split <;> rfl

theorem quiet_of_callbacks {env : Environment} {bridge : Bridge}
    (quiet : Runs.Quiet (perform env) Own bridge) : bridge.deliveries = [] := by
  apply List.eq_nil_iff_forall_not_mem.mpr
  intro delivery member
  obtain ⟨place, found⟩ := List.mem_iff_getElem?.mp member
  have less := callbackStep_work env found
  rw [show callbackStep place bridge = bridge from quiet (.callback place) (by simp [Own])] at less
  exact Nat.lt_irrefl _ less

theorem quiet_of_monitor {env : Environment} {bridge : Bridge}
    (quiet : Runs.Quiet (perform env) Own bridge) :
    bridge.monitor = .notStarted ∨ bridge.monitor = .ended := by
  have still : (monitorStep bridge).monitor = bridge.monitor :=
    congrArg Bridge.monitor (quiet .monitor (by simp [Own]))
  unfold monitorStep at still
  cases at_ : bridge.monitor with
  | notStarted => exact .inl rfl
  | checking =>
    simp only [at_] at still
    split at still <;> cases still
  | sleeping => simp [at_] at still
  | reading => simp [at_] at still
  | ended => exact .inr rfl

-- Where nothing moves any more, main has returned: it waits for the monitor and for callbacks
-- only, and these wait for nothing.
theorem returned_of_quiet {env : Environment} {bridge : Bridge} (staged : Staged env bridge)
    (signalled : bridge.gRunning = false) (quiet : Runs.Quiet (perform env) Own bridge) :
    bridge.main = .returned (exitCode env) := by
  have still : (mainStep env bridge).main = bridge.main :=
    congrArg Bridge.main (quiet .main (by simp [Own]))
  have noCallbacks := quiet_of_callbacks quiet
  have monitor_ := quiet_of_monitor quiet
  obtain ⟨_, running, _, _, _, fits, code⟩ := staged
  unfold mainStep at still
  cases at_ : bridge.main with
  | connectEngine =>
    simp only [at_] at still
    split at still <;> cases still
  | connectPublisher =>
    simp only [at_] at still
    split at still <;> cases still
  | registering rest => cases rest <;> simp [at_] at still
  | starting => simp [at_] at still
  | spawning => simp [at_] at still
  | waiting => simp [at_, signalled] at still
  | stopping =>
    rw [at_] at running
    simp [at_, show bridge.engine.running = true from running] at still
  | deleting rest =>
    cases rest with
    | nil => simp [at_] at still
    | cons entry rest =>
      have free : ¬ Blocked env bridge entry := by
        rintro ⟨_, delivery, member, _⟩
        rw [noCallbacks] at member
        cases member
      simp [at_, free] at still
  | disconnecting => simp [at_] at still
  | joining =>
    rw [at_] at fits
    have ended := monitor_.resolve_left fits
    simp [at_, ended] at still
  | destroyingPublisher code_ => simp [at_] at still
  | destroyingEngine code_ => simp [at_] at still
  | returned code_ =>
    rw [at_] at code
    rw [show code_ = exitCode env from code]

/-- Without new samples the threads can take so many steps only, and main has returned once none of
them can take a step. -/
structure Completes (env : Environment) (bridge : Bridge) : Prop where
  bounded : ∀ later, (∀ action ∈ later, Own action) →
    Runs.Effective (perform env) bridge later → later.length ≤ work env bridge
  finished : ∀ later,
    Runs.Quiet (perform env) Own (Runs.after (perform env) bridge later) →
      (Runs.after (perform env) bridge later).main = .returned (exitCode env)
  reachable : ∃ later, (∀ action ∈ later, Own action) ∧
    (Runs.after (perform env) bridge later).main = .returned (exitCode env)

theorem shutdown_completes (env : Environment) (actions : List Action)
    (signalled : (run env actions).gRunning = false) : Completes env (run env actions) := by
  have preserved (bridge : Bridge) (action : Action) (_ : Own action)
      (both : Staged env bridge ∧ bridge.gRunning = false) :
      Staged env (perform env bridge action) ∧ (perform env bridge action).gRunning = false :=
    ⟨perform_staged both.1 action, perform_signalled both.2 action⟩
  have descends (bridge : Bridge) (action : Action) (own : Own action)
      (both : Staged env bridge ∧ bridge.gRunning = false)
      (changes : perform env bridge action ≠ bridge) :
      work env (perform env bridge action) < work env bridge :=
    perform_work both.1 both.2 own changes
  have initial : Staged env (run env actions) ∧ (run env actions).gRunning = false :=
    ⟨run_staged env actions, signalled⟩
  constructor
  · intro later own effective
    have bound := Runs.length_le_of_effective preserved descends initial own effective
    omega
  · intro later quiet
    obtain ⟨staged, still⟩ := Runs.invariant_of_step
      (fun bridge => Staged env bridge ∧ bridge.gRunning = false)
      (fun bridge action both =>
        ⟨perform_staged both.1 action, perform_signalled both.2 action⟩) initial later
    exact returned_of_quiet staged still quiet
  · obtain ⟨later, own, ⟨staged, still⟩, quiet⟩ := Runs.exists_quiet preserved descends _ initial
    exact ⟨later, own, returned_of_quiet staged still quiet⟩

def signalledRun : List Action :=
  [.main, .main, .main, .main, .main, .main, .monitor, .deliver 7 oneSample 0, .callback 0, .signal]

theorem shutdown_completes_bridging :
    Completes (bridging true) (run (bridging true) signalledRun) :=
  shutdown_completes (bridging true) signalledRun rfl

end AdsRealtime.MainProgram
