import AdsRealtime.Bridge.MqttPublisher
import AdsRealtime.Engine.Dispatch

set_option autoImplicit false

namespace AdsRealtime.MainProgram

open AdsRealtimeEngine
open InFlight (advance)
open Subscription (live)

structure Registration where
  name : String
  replies : AdsReplies
  address : UInt64

/--
What the calls of main meet with. The variables that it registers are a list, of which the program
has one. Deletion requests succeed; whether one waits for the callbacks of its notification is up
to ADS. The thread of the monitor is always granted: its constructor does not throw.
-/
structure Environment where
  config : RealtimeConfig
  opened : Int
  brokerAccepts : Bool
  registrations : List Registration
  deletionWaits : Bool

-- The next thing that the main thread does, in the order of the source. The two destructors run
-- on every way out, and know the exit code.
inductive MainAt where
  | connectEngine
  | connectPublisher
  | registering (rest : List Registration)
  | starting
  | spawning
  | waiting
  | stopping
  | deleting (rest : List (UInt32 × VariableHandle Unit))
  | disconnecting
  | joining
  | destroyingPublisher (code : Nat)
  | destroyingEngine (code : Nat)
  | returned (code : Nat)

inductive MonitorAt where
  | notStarted
  | checking
  | sleeping
  | reading
  | ended
  deriving DecidableEq

inductive CallbackAt where
  | entered
  | publishing
  | sending
  deriving DecidableEq

structure Delivery where
  notification : UInt32
  object : Nat
  message : Message
  position : CallbackAt

structure Bridge where
  main : MainAt
  gRunning : Bool
  monitor : MonitorAt
  engine : Engine Unit
  publisher : MqttPublisher
  deliveries : List Delivery
  delivered : List Message
  client : List ClientCall

def Bridge.launch (config : RealtimeConfig) : Bridge :=
  { main := .connectEngine
    gRunning := true
    monitor := .notStarted
    engine := construct config
    publisher := .new
    deliveries := []
    delivered := []
    client := [] }

def messageOf (memory : Nat → UInt8) (arguments : CallbackArguments) : Message :=
  { topic := "ads/" ++ arguments.variableName
    payload := toString (int32At memory arguments.data)
    qos := 0
    retained := false }

theorem mainCallback_messageOf (connected : Bool) (memory : Nat → UInt8)
    (arguments : CallbackArguments) :
    mainCallback connected memory arguments =
      if connected then [messageOf memory arguments] else [] :=
  rfl

def deletionOf (engine : Engine Unit) (entry : UInt32 × VariableHandle Unit) : List Event :=
  if entry.2.notificationHandle ≠ 0 then
    [.notificationDeleted engine.adsPort engine.amsAddr entry.2.notificationHandle]
  else
    []

-- A deletion request that waits is made again and again until nothing is in its way.
def Blocked (env : Environment) (bridge : Bridge) (entry : UInt32 × VariableHandle Unit) : Prop :=
  env.deletionWaits = true ∧
    ∃ delivery ∈ bridge.deliveries, delivery.notification = entry.2.notificationHandle

instance (env : Environment) (bridge : Bridge) (entry : UInt32 × VariableHandle Unit) :
    Decidable (Blocked env bridge entry) :=
  inferInstanceAs (Decidable (_ ∧ _))

-- The exchange of stop, its loop over the variables and the end of that loop are steps of their
-- own, since the callbacks go on meanwhile.
def mainStep (env : Environment) (bridge : Bridge) : Bridge :=
  match bridge.main with
  | .connectEngine =>
    let (opened, engine) := connect env.opened bridge.engine
    { bridge with
      engine := engine
      main := if opened then .connectPublisher else .destroyingEngine 1 }
  | .connectPublisher =>
    let (accepted, publisher, calls) := bridge.publisher.connect env.brokerAccepts
    { bridge with
      publisher := publisher
      client := bridge.client ++ calls
      main := if accepted then .registering env.registrations else .destroyingPublisher 1 }
  | .registering [] => { bridge with main := .starting }
  | .registering (next :: rest) =>
    { bridge with
      engine := (addVariable next.name (some ()) next.replies next.address bridge.engine).2
      main := .registering rest }
  | .starting => { bridge with engine := start bridge.engine, main := .spawning }
  | .spawning => { bridge with monitor := .checking, main := .waiting }
  | .waiting => if bridge.gRunning then bridge else { bridge with main := .stopping }
  | .stopping =>
    if bridge.engine.running then
      { bridge with
        engine := { bridge.engine with running := false }
        main := .deleting bridge.engine.variables_ }
    else
      { bridge with main := .disconnecting }
  | .deleting [] =>
    { bridge with
      engine := { record (frees bridge.engine) bridge.engine with variables_ := [] }
      main := .disconnecting }
  | .deleting (entry :: rest) =>
    if Blocked env bridge entry then
      bridge
    else
      { bridge with
        engine := record (deletionOf bridge.engine entry) bridge.engine
        main := .deleting rest }
  | .disconnecting =>
    let (publisher, calls) := bridge.publisher.disconnect
    { bridge with publisher := publisher, client := bridge.client ++ calls, main := .joining }
  | .joining =>
    if bridge.monitor = .ended then { bridge with main := .destroyingPublisher 0 } else bridge
  | .destroyingPublisher code =>
    let (publisher, calls) := bridge.publisher.disconnect
    { bridge with
      publisher := publisher
      client := bridge.client ++ calls
      main := .destroyingEngine code }
  | .destroyingEngine code =>
    { bridge with engine := destroy bridge.engine, main := .returned code }
  | .returned _ => bridge

def monitorStep (bridge : Bridge) : Bridge :=
  match bridge.monitor with
  | .notStarted => bridge
  | .checking => { bridge with monitor := if bridge.gRunning then .sleeping else .ended }
  | .sleeping => { bridge with monitor := .reading }
  | .reading => { bridge with monitor := .checking }
  | .ended => bridge

def liveEntry (notification : UInt32) (bridge : Bridge) :
    Option (UInt32 × VariableHandle Unit) :=
  if notification ∈ (live (subscriptions bridge.engine.log)).map Prod.fst then
    bridge.engine.variables_.find? fun entry => entry.1 = notification
  else
    none

def sampleMessage (varHandle : VariableHandle Unit) (memory : Nat → UInt8) (pNotification : Nat) :
    Message :=
  messageOf memory
    { variableName := varHandle.name
      data := pNotification + sizeofAdsNotificationHeader
      dataSize := cbSampleSize memory pNotification
      timestampNs := nTimeStamp memory pNotification }

-- ADS calls back for a live notification, with the user handle that it was added with. What is
-- called through one that leads to no handle object is not followed any further: see `uses`.
def deliver (notification : UInt32) (memory : Nat → UInt8) (pNotification : Nat)
    (bridge : Bridge) : Bridge :=
  match liveEntry notification bridge with
  | none => bridge
  | some entry =>
    let heap := heapOf bridge.engine.variables_
    let hUser := entry.2.address.toUInt32
    let bridge := { bridge with
      delivered := bridge.delivered ++ [sampleMessage entry.2 memory pNotification] }
    match heap hUser.toUInt64, adsNotificationCallback heap memory pNotification hUser with
    | some varHandle, .called _ arguments =>
      let delivery : Delivery :=
        { notification := notification
          object := varHandle.object
          message := messageOf memory arguments
          position := .entered }
      { bridge with deliveries := delivery :: bridge.deliveries }
    | _, _ => bridge

def goOn (place : Nat) (next : Option Delivery) (bridge : Bridge) : Bridge :=
  { bridge with deliveries := advance bridge.deliveries place next }

-- The load of connected_ and the call of the client are the two steps of publish.
def callbackStep (place : Nat) (bridge : Bridge) : Bridge :=
  match bridge.deliveries[place]? with
  | none => bridge
  | some delivery =>
    match delivery.position with
    | .entered => goOn place (some { delivery with position := .publishing }) bridge
    | .publishing =>
      goOn place
        (if bridge.publisher.connected then some { delivery with position := .sending } else none)
        bridge
    | .sending =>
      { goOn place none bridge with client := bridge.client ++ [.publish delivery.message] }

inductive Action where
  | main
  | signal
  | monitor
  | deliver (notification : UInt32) (memory : Nat → UInt8) (pNotification : Nat)
  | callback (place : Nat)

def perform (env : Environment) (bridge : Bridge) : Action → Bridge
  | .main => mainStep env bridge
  | .signal => { bridge with gRunning := false }
  | .monitor => monitorStep bridge
  | .deliver notification memory pNotification => deliver notification memory pNotification bridge
  | .callback place => callbackStep place bridge

def run (env : Environment) (actions : List Action) : Bridge :=
  Runs.after (perform env) (.launch env.config) actions

theorem deletions_eq (engine : Engine Unit) :
    deletions engine = (engine.variables_.map (deletionOf engine)).flatten := by
  rw [deletions]
  induction engine.variables_ with
  | nil => rfl
  | cons entry rest ih =>
    rw [List.map_cons, List.flatten_cons, deletionOf, List.filter_cons]
    split
    next asked =>
      rw [if_pos (by simpa using asked), List.map_cons, ih]
      rfl
    next skipped =>
      rw [if_neg (by simpa using skipped), ih]
      rfl

theorem deleting_uninterrupted (env : Environment) {bridge : Bridge}
    (quiet : bridge.deliveries = []) (rest : List (UInt32 × VariableHandle Unit)) :
    Runs.after (perform env) { bridge with main := .deleting rest }
        (List.replicate rest.length .main) =
      { bridge with
        engine := record (rest.map (deletionOf bridge.engine)).flatten bridge.engine
        main := .deleting [] } := by
  induction rest generalizing bridge with
  | nil =>
    rw [List.map_nil, List.flatten_nil, record, List.append_nil]
    rfl
  | cons entry rest ih =>
    have free : ¬ Blocked env { bridge with main := .deleting (entry :: rest) } entry := by
      rintro ⟨_, delivery, member, _⟩
      rw [quiet] at member
      cases member
    have first : mainStep env { bridge with main := .deleting (entry :: rest) } =
        { bridge with
          engine := record (deletionOf bridge.engine entry) bridge.engine
          main := .deleting rest } := by
      simp only [mainStep, if_neg free]
    have later := @ih { bridge with
      engine := record (deletionOf bridge.engine entry) bridge.engine } quiet
    rw [List.length_cons, List.replicate_succ, Runs.after_cons, perform, first, later,
      List.map_cons, List.flatten_cons]
    simp only [record, List.append_assoc]
    rfl

theorem stop_uninterrupted (env : Environment) {bridge : Bridge} (at_ : bridge.main = .stopping)
    (running : bridge.engine.running = true) (quiet : bridge.deliveries = []) :
    Runs.after (perform env) bridge
        (.main :: List.replicate bridge.engine.variables_.length .main ++ [.main]) =
      { bridge with engine := stop bridge.engine, main := .disconnecting } := by
  have first : mainStep env bridge =
      { bridge with
        engine := { bridge.engine with running := false }
        main := .deleting bridge.engine.variables_ } := by
    simp only [mainStep, at_, if_pos running]
  have requests := @deleting_uninterrupted env
    { bridge with engine := { bridge.engine with running := false } } quiet
    bridge.engine.variables_
  rw [List.cons_append, Runs.after_cons, perform, first, Runs.after_snoc, requests]
  simp only [perform, mainStep, stop, if_pos running, deletions_eq, record, List.append_assoc]
  rfl

-- The one registration of main, which the PLC grants.
def gvlAbc : Registration :=
  { name := "GVL.abc", replies := granted 1 7, address := 0x1000 }

def bridging (deletionWaits : Bool) : Environment :=
  { config := {}
    opened := 30000
    brokerAccepts := true
    registrations := [gvlAbc]
    deletionWaits := deletionWaits }

inductive Object where
  | engine
  | publisher
  | handle (object : Nat)
  | elsewhere

-- The engine and the publisher are locals of main, in this order.
def Alive (bridge : Bridge) : Object → Prop
  | .engine =>
    match bridge.main with
    | .returned _ => False
    | _ => True
  | .publisher =>
    match bridge.main with
    | .connectEngine | .connectPublisher | .destroyingEngine _ | .returned _ => False
    | _ => True
  | .handle object => .variableFreed object ∉ bridge.engine.log
  | .elsewhere => False

def mainUses (bridge : Bridge) : List Object :=
  match bridge.main with
  | .connectEngine => [.engine]
  | .connectPublisher => []
  | .registering _ => [.engine]
  | .starting => [.engine]
  | .spawning => []
  | .waiting => []
  | .stopping => [.engine]
  | .deleting [] => [.engine]
  | .deleting (entry :: _) => [.engine, .handle entry.2.object]
  | .disconnecting => [.publisher]
  | .joining => []
  | .destroyingPublisher _ => [.publisher]
  | .destroyingEngine _ => [.engine]
  | .returned _ => []

-- The closure that is being called lies in the handle object, and refers to the publisher.
def deliveryUses (delivery : Delivery) : List Object :=
  match delivery.position with
  | .entered => [.handle delivery.object]
  | .publishing => [.handle delivery.object, .publisher]
  | .sending => [.handle delivery.object, .publisher]

-- The callback takes any user handle but null for the address of a handle object.
def userUses (bridge : Bridge) (hUser : UInt32) : List Object :=
  if hUser = 0 then []
  else
    match heapOf bridge.engine.variables_ hUser.toUInt64 with
    | none => [.elsewhere]
    | some varHandle => [.handle varHandle.object]

def uses (bridge : Bridge) : Action → List Object
  | .main => mainUses bridge
  | .signal => []
  | .monitor => if bridge.monitor = .reading then [.engine] else []
  | .deliver notification _ _ =>
    match liveEntry notification bridge with
    | none => []
    | some entry => userUses bridge entry.2.address.toUInt32
  | .callback place =>
    match bridge.deliveries[place]? with
    | none => []
    | some delivery => deliveryUses delivery

end AdsRealtime.MainProgram
