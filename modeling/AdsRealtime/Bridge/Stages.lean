import AdsRealtime.Bridge.MainProgram
import AdsRealtime.Engine.Logging

set_option autoImplicit false

namespace AdsRealtime.MainProgram

open AdsRealtimeEngine

def exitCode (env : Environment) : Nat :=
  if env.opened ≠ 0 ∧ env.brokerAccepts = true then 0 else 1

@[simp] def connectedAt : MainAt → Bool
  | .registering _ | .starting | .spawning | .waiting | .stopping | .deleting _
  | .disconnecting => true
  | .connectEngine | .connectPublisher | .joining | .destroyingPublisher _
  | .destroyingEngine _ | .returned _ => false

@[simp] def runningAt : MainAt → Bool
  | .spawning | .waiting | .stopping => true
  | .connectEngine | .connectPublisher | .registering _ | .starting | .deleting _
  | .disconnecting | .joining | .destroyingPublisher _ | .destroyingEngine _
  | .returned _ => false

def session (client : List ClientCall) : List ClientCall :=
  client.filter fun call =>
    match call with
    | .connect _ | .disconnect => true
    | .publish _ => false

def wholeSession (env : Environment) : List ClientCall :=
  if env.opened = 0 then []
  else if env.brokerAccepts then [.connect true, .disconnect]
  else [.connect false]

@[simp] def sessionAt (env : Environment) : MainAt → List ClientCall
  | .connectEngine | .connectPublisher => []
  | .registering _ | .starting | .spawning | .waiting | .stopping | .deleting _
  | .disconnecting => [.connect true]
  | .joining | .destroyingPublisher _ | .destroyingEngine _ | .returned _ => wholeSession env

def portEvents (log : List Event) : List Event :=
  log.filter fun event =>
    match event with
    | .portOpened _ | .portClosed _ => true
    | .symbolHandleAcquired _ _ | .notificationAdded _ _ _ | .notificationDeleted _ _ _
    | .variableFreed _ => false

@[simp] def portsAt (env : Environment) : MainAt → List Event
  | .connectEngine => []
  | .connectPublisher | .registering _ | .starting | .spawning | .waiting | .stopping
  | .deleting _ | .disconnecting | .joining | .destroyingPublisher _ | .destroyingEngine _ =>
    if env.opened = 0 then [] else [.portOpened env.opened]
  | .returned _ =>
    if env.opened = 0 then [] else [.portOpened env.opened, .portClosed env.opened]

@[simp] def portAt (env : Environment) : MainAt → Int
  | .connectEngine => 0
  | _ => env.opened

-- Main waits for the thread before it leaves the scope that started it.
@[simp] def MonitorFits : MainAt → MonitorAt → Prop
  | .connectEngine, monitor | .connectPublisher, monitor | .registering _, monitor
  | .starting, monitor | .spawning, monitor => monitor = .notStarted
  | .waiting, monitor | .stopping, monitor | .deleting _, monitor | .disconnecting, monitor
  | .joining, monitor => monitor ≠ .notStarted
  | .destroyingPublisher code, monitor | .destroyingEngine code, monitor
  | .returned code, monitor => if code = 0 then monitor = .ended else monitor = .notStarted

@[simp] def CodeFits (env : Environment) : MainAt → Prop
  | .connectEngine => True
  | .connectPublisher => env.opened ≠ 0
  | .registering _ | .starting | .spawning | .waiting | .stopping | .deleting _
  | .disconnecting | .joining => env.opened ≠ 0 ∧ env.brokerAccepts = true
  | .destroyingPublisher code => env.opened ≠ 0 ∧ code = exitCode env
  | .destroyingEngine code | .returned code => code = exitCode env

structure Staged (env : Environment) (bridge : Bridge) : Prop where
  connected : bridge.publisher.connected = connectedAt bridge.main
  running : bridge.engine.running = runningAt bridge.main
  port : bridge.engine.adsPort = portAt env bridge.main
  ports : portEvents bridge.engine.log = portsAt env bridge.main
  session : session bridge.client = sessionAt env bridge.main
  monitor : MonitorFits bridge.main bridge.monitor
  code : CodeFits env bridge.main

theorem portEvents_append (xs ys : List Event) :
    portEvents (xs ++ ys) = portEvents xs ++ portEvents ys :=
  List.filter_append ..

theorem session_append (xs ys : List ClientCall) :
    session (xs ++ ys) = session xs ++ session ys :=
  List.filter_append ..

theorem portEvents_eq_nil {events : List Event}
    (quiet : ∀ event ∈ events, portEvents [event] = []) : portEvents events = [] :=
  List.filter_eq_nil_iff.mpr fun event member =>
    List.filter_eq_nil_iff.mp (quiet event member) event List.mem_cons_self

theorem portEvents_frees (engine : Engine Unit) : portEvents (frees engine) = [] :=
  portEvents_eq_nil (mem_frees fun _ => rfl)

theorem portEvents_deletionOf (engine : Engine Unit) (entry : UInt32 × VariableHandle Unit) :
    portEvents (deletionOf engine entry) = [] := by
  unfold deletionOf
  split <;> rfl

theorem addVariable_ports (name : String) (callback : Option Unit) (replies : AdsReplies)
    (address : UInt64) (engine : Engine Unit) :
    (addVariable name callback replies address engine).2.running = engine.running ∧
      (addVariable name callback replies address engine).2.adsPort = engine.adsPort ∧
      portEvents (addVariable name callback replies address engine).2.log =
        portEvents engine.log := by
  obtain ⟨running, port⟩ := addVariable_same name callback replies address engine
  obtain ⟨events, logged, quiet⟩ := @addVariable_logged Unit (fun event => portEvents [event] = [])
    name callback replies address engine rfl rfl fun _ => rfl
  refine ⟨running, port, ?_⟩
  rw [logged, portEvents_append, portEvents_eq_nil quiet, List.append_nil]

theorem destroy_ports {engine : Engine Unit} (stopped : engine.running = false) :
    (destroy engine).running = false ∧
      (destroy engine).adsPort = engine.adsPort ∧
      portEvents (destroy engine).log =
        portEvents engine.log ++
          if engine.adsPort ≠ 0 then [.portClosed engine.adsPort] else [] := by
  have same : stop engine = engine := by rw [stop, stopped, if_neg Bool.false_ne_true]
  rw [destroy, same]
  split
  · refine ⟨stopped, rfl, ?_⟩
    simp only [record, portEvents_append, portEvents_frees, List.append_nil]
    rfl
  · refine ⟨stopped, rfl, ?_⟩
    simp only [record, portEvents_append, portEvents_frees]

theorem launch_staged (env : Environment) : Staged env (.launch env.config) :=
  ⟨rfl, rfl, rfl, rfl, rfl, rfl, trivial⟩

theorem mainStep_staged {env : Environment} {bridge : Bridge} (staged : Staged env bridge) :
    Staged env (mainStep env bridge) := by
  obtain ⟨connected, running, port, ports, session_, monitor_, code⟩ := id staged
  unfold mainStep
  cases at_ : bridge.main with
  | connectEngine =>
    simp only [at_] at *
    by_cases failed : env.opened = 0
    · constructor <;> simp_all [connect, wholeSession, exitCode]
    · constructor <;> simp_all [connect, record, portEvents_append]
      rfl
  | connectPublisher =>
    simp only [at_] at *
    cases accepts : env.brokerAccepts with
    | false =>
      constructor <;> simp_all [MqttPublisher.connect, session_append, wholeSession, exitCode]
      rfl
    | true =>
      constructor <;> simp_all [MqttPublisher.connect, session_append]
      rfl
  | registering rest =>
    simp only [at_] at *
    cases rest with
    | nil => constructor <;> simp_all
    | cons next rest =>
      obtain ⟨runs, portSame, portsSame⟩ :=
        addVariable_ports next.name (some ()) next.replies next.address bridge.engine
      constructor <;> simp_all
  | starting =>
    simp only [at_] at *
    constructor <;> simp_all [start]
  | spawning =>
    simp only [at_] at *
    constructor <;> simp_all
  | waiting =>
    simp only
    split
    · exact staged
    · simp only [at_] at *
      constructor <;> simp_all
  | stopping =>
    simp only [at_] at *
    have runs : bridge.engine.running = true := running
    rw [if_pos runs]
    constructor <;> simp_all
  | deleting rest =>
    cases rest with
    | nil =>
      simp only [at_] at *
      constructor <;> simp_all [record, portEvents_append, portEvents_frees]
    | cons entry rest =>
      simp only
      split
      · exact staged
      · simp only [at_] at *
        constructor <;> simp_all [record, portEvents_append, portEvents_deletionOf]
  | disconnecting =>
    simp only [at_] at *
    constructor <;> simp_all [MqttPublisher.disconnect, session_append, wholeSession]
    rfl
  | joining =>
    simp only
    split
    · simp only [at_] at *
      constructor <;> simp_all [exitCode]
    · exact staged
  | destroyingPublisher code_ =>
    simp only [at_] at *
    constructor <;> simp_all [MqttPublisher.disconnect]
  | destroyingEngine code_ =>
    simp only [at_] at *
    obtain ⟨stopped, portSame, closed⟩ := destroy_ports running
    constructor
    · exact connected
    · exact stopped
    · exact portSame.trans port
    · rw [closed, ports, port]
      by_cases failed : env.opened = 0 <;> simp [failed]
    · exact session_
    · exact monitor_
    · exact code
  | returned code_ => exact staged

theorem Staged.aside {env : Environment} {bridge next : Bridge} (staged : Staged env bridge)
    (main : next.main = bridge.main) (engine : next.engine = bridge.engine)
    (publisher : next.publisher = bridge.publisher) (monitor : next.monitor = bridge.monitor)
    (asked : MainProgram.session next.client = MainProgram.session bridge.client) :
    Staged env next := by
  constructor
  · rw [publisher, main, staged.connected]
  · rw [engine, main, staged.running]
  · rw [engine, main, staged.port]
  · rw [engine, main, staged.ports]
  · rw [asked, main, staged.session]
  · rw [monitor, main]
    exact staged.monitor
  · rw [main]
    exact staged.code

theorem monitorStep_fits {main : MainAt} {monitor : MonitorAt} (fits : MonitorFits main monitor) :
    (monitor = .checking → MonitorFits main .sleeping ∧ MonitorFits main .ended) ∧
      (monitor = .sleeping → MonitorFits main .reading) ∧
      (monitor = .reading → MonitorFits main .checking) := by
  cases main <;> cases monitor <;> simp_all

theorem monitorStep_staged {env : Environment} {bridge : Bridge} (staged : Staged env bridge) :
    Staged env (monitorStep bridge) := by
  obtain ⟨connected, running, port, ports, session_, monitor_, code⟩ := id staged
  obtain ⟨checked, slept, read⟩ := monitorStep_fits monitor_
  unfold monitorStep
  cases at_ : bridge.monitor with
  | notStarted => exact staged
  | checking =>
    refine ⟨connected, running, port, ports, session_, ?_, code⟩
    simp only
    split
    · exact (checked at_).1
    · exact (checked at_).2
  | sleeping => exact ⟨connected, running, port, ports, session_, slept at_, code⟩
  | reading => exact ⟨connected, running, port, ports, session_, read at_, code⟩
  | ended => exact staged

theorem deliver_staged {env : Environment} {bridge : Bridge} (staged : Staged env bridge)
    (notification : UInt32) (memory : Nat → UInt8) (pNotification : Nat) :
    Staged env (deliver notification memory pNotification bridge) := by
  unfold deliver
  simp only
  split
  · exact staged
  · split <;> exact staged.aside rfl rfl rfl rfl rfl

theorem callbackStep_staged {env : Environment} {bridge : Bridge} (staged : Staged env bridge)
    (place : Nat) : Staged env (callbackStep place bridge) := by
  unfold callbackStep
  split
  · exact staged
  next delivery _ =>
    split
    · exact staged.aside rfl rfl rfl rfl rfl
    · exact staged.aside rfl rfl rfl rfl rfl
    · refine staged.aside rfl rfl rfl rfl ?_
      rw [session_append]
      exact List.append_nil _

theorem perform_staged {env : Environment} {bridge : Bridge} (staged : Staged env bridge)
    (action : Action) : Staged env (perform env bridge action) := by
  cases action with
  | main => exact mainStep_staged staged
  | signal => exact staged.aside rfl rfl rfl rfl rfl
  | monitor => exact monitorStep_staged staged
  | deliver notification memory pNotification =>
    exact deliver_staged staged notification memory pNotification
  | callback place => exact callbackStep_staged staged place

theorem run_staged (env : Environment) (actions : List Action) : Staged env (run env actions) :=
  Runs.invariant_of_step (Staged env) (fun _ action staged => perform_staged staged action)
    (launch_staged env) actions

end AdsRealtime.MainProgram
