import AdsRealtime.Engine.Notification
import AdsRealtime.Shared.InFlight
import AdsRealtime.Shared.Runs

set_option autoImplicit false

namespace AdsRealtime

open AdsRealtimeEngine (Message)

inductive ClientCall where
  | connect (accepted : Bool)
  | disconnect
  | publish (message : Message)
  deriving DecidableEq

structure MqttPublisher where
  connected : Bool
  deriving DecidableEq

namespace MqttPublisher

open InFlight (total advance total_cons total_advance mem_advance)

def new : MqttPublisher :=
  { connected := false }

def connect (accepted : Bool) (publisher : MqttPublisher) :
    Bool × MqttPublisher × List ClientCall :=
  if accepted then
    (true, { publisher with connected := true }, [.connect true])
  else
    (false, publisher, [.connect false])

-- What the client throws while it disconnects is ignored.
def disconnect (publisher : MqttPublisher) : MqttPublisher × List ClientCall :=
  if !publisher.connected then
    (publisher, [])
  else
    ({ publisher with connected := false }, [.disconnect])

def publish (topic payload : String) (publisher : MqttPublisher) : List ClientCall :=
  (AdsRealtimeEngine.publish publisher.connected topic payload).map .publish

def publishString (topic value : String) (publisher : MqttPublisher) : List ClientCall :=
  publisher.publish topic value

inductive Operation where
  | connecting
  | accepted
  | disconnecting
  | exchanged
  | publishing (message : Message)
  | loaded (message : Message)
  deriving DecidableEq

structure Threads where
  publisher : MqttPublisher
  inFlight : List Operation
  client : List ClientCall
  called : List Message

def Threads.fresh : Threads :=
  { publisher := new, inFlight := [], client := [], called := [] }

def Threads.goOn (threads : Threads) (place : Nat) (next : Option Operation) : Threads :=
  { threads with inFlight := advance threads.inFlight place next }

def Threads.ask (threads : Threads) (call : ClientCall) : Threads :=
  { threads with client := threads.client ++ [call] }

-- One atomic step: a call of the client, or the store, exchange or load of connected_.
def operationStep (threads : Threads) (place : Nat) (accepts : Bool) : Operation → Threads
  | .connecting =>
    (threads.goOn place (if accepts then some .accepted else none)).ask (.connect accepts)
  | .accepted => { threads.goOn place none with publisher := { connected := true } }
  | .disconnecting =>
    if threads.publisher.connected then
      { threads.goOn place (some .exchanged) with publisher := { connected := false } }
    else
      threads.goOn place none
  | .exchanged => (threads.goOn place none).ask .disconnect
  | .publishing message =>
    threads.goOn place (if threads.publisher.connected then some (.loaded message) else none)
  | .loaded message => (threads.goOn place none).ask (.publish message)

inductive Action where
  | connect
  | disconnect
  | publish (message : Message)
  | step (place : Nat) (accepts : Bool)

def act (threads : Threads) : Action → Threads
  | .connect => { threads with inFlight := .connecting :: threads.inFlight }
  | .disconnect => { threads with inFlight := .disconnecting :: threads.inFlight }
  | .publish message =>
    { threads with
      inFlight := .publishing message :: threads.inFlight
      called := threads.called ++ [message] }
  | .step place accepts =>
    match threads.inFlight[place]? with
    | some operation => operationStep threads place accepts operation
    | none => threads

section Uninterrupted

variable (threads : Threads)

theorem connect_uninterrupted :
    act (act (act threads .connect) (.step 0 true)) (.step 0 true) =
        { threads with
          publisher := (connect true threads.publisher).2.1
          client := threads.client ++ (connect true threads.publisher).2.2 } ∧
      act (act threads .connect) (.step 0 false) =
        { threads with
          publisher := (connect false threads.publisher).2.1
          client := threads.client ++ (connect false threads.publisher).2.2 } :=
  ⟨rfl, rfl⟩

theorem disconnect_uninterrupted (accepts : Bool) :
    (if threads.publisher.connected then
        act (act (act threads .disconnect) (.step 0 accepts)) (.step 0 accepts)
      else
        act (act threads .disconnect) (.step 0 accepts)) =
      { threads with
        publisher := (disconnect threads.publisher).1
        client := threads.client ++ (disconnect threads.publisher).2 } := by
  obtain ⟨⟨connected⟩, inFlight, client, called⟩ := threads
  cases connected <;>
    simp [act, operationStep, Threads.goOn, Threads.ask, advance, disconnect]

theorem publish_uninterrupted (topic payload : String) (accepts : Bool) :
    (if threads.publisher.connected then
        act (act (act threads (.publish ⟨topic, payload, 0, false⟩)) (.step 0 accepts))
          (.step 0 accepts)
      else
        act (act threads (.publish ⟨topic, payload, 0, false⟩)) (.step 0 accepts)) =
      { threads with
        client := threads.client ++ publish topic payload threads.publisher
        called := threads.called ++ [⟨topic, payload, 0, false⟩] } := by
  obtain ⟨⟨connected⟩, inFlight, client, called⟩ := threads
  cases connected <;>
    simp [act, operationStep, Threads.goOn, Threads.ask, advance, publish,
      AdsRealtimeEngine.publish]

end Uninterrupted

-- A connection that has been accepted and not been given up yet is with one of the calls in
-- flight or in the flag.
def Operation.connection : Operation → Nat
  | .connecting => 0
  | .accepted => 1
  | .disconnecting => 0
  | .exchanged => 1
  | .publishing _ => 0
  | .loaded _ => 0

def Operation.carries (message : Message) : Operation → Nat
  | .connecting => 0
  | .accepted => 0
  | .disconnecting => 0
  | .exchanged => 0
  | .publishing other => if other = message then 1 else 0
  | .loaded other => if other = message then 1 else 0

/-- The client is told to disconnect at most once for each connection it has accepted, and it is
given each message at most once for each call, and none before there was a connection. -/
structure Accounted (threads : Threads) : Prop where
  connections : threads.client.count .disconnect +
      (total Operation.connection threads.inFlight + threads.publisher.connected.toNat) ≤
    threads.client.count (.connect true)
  messages : ∀ message, threads.client.count (.publish message) +
      total (Operation.carries message) threads.inFlight ≤ threads.called.count message
  connectedBefore : ∀ message,
    .publish message ∈ threads.client ∨ .loaded message ∈ threads.inFlight →
      0 < threads.client.count (.connect true)

theorem fresh_accounted : Accounted .fresh where
  connections := by decide
  messages := by simp [Threads.fresh]
  connectedBefore := by simp [Threads.fresh]

theorem Accounted.call {threads : Threads} (accounted : Accounted threads) {action : Action}
    (called : ∀ place accepts, action ≠ .step place accepts) : Accounted (act threads action) := by
  obtain ⟨connections, messages, connectedBefore⟩ := accounted
  cases action with
  | connect =>
    refine ⟨by simpa [act, Operation.connection] using connections,
      by simpa [act, Operation.carries] using messages, ?_⟩
    simpa [act] using connectedBefore
  | disconnect =>
    refine ⟨by simpa [act, Operation.connection] using connections,
      by simpa [act, Operation.carries] using messages, ?_⟩
    simpa [act] using connectedBefore
  | publish message =>
    refine ⟨by simpa [act, Operation.connection] using connections, ?_, ?_⟩
    · intro other
      have before := messages other
      simp only [act, total_cons, Operation.carries, List.count_append, List.count_singleton,
        beq_iff_eq]
      split <;> omega
    · simpa [act] using connectedBefore
  | step place accepts => exact absurd rfl (called place accepts)

theorem Accounted.goOn {threads : Threads} (accounted : Accounted threads) {place : Nat}
    {operation : Operation} (found : threads.inFlight[place]? = some operation)
    {next : Option Operation} {publisher : MqttPublisher} {asked : List ClientCall}
    (connection : asked.count .disconnect +
        ((next.map Operation.connection).getD 0 + publisher.connected.toNat) ≤
      asked.count (.connect true) +
        (operation.connection + threads.publisher.connected.toNat))
    (carried : ∀ message, asked.count (.publish message) +
        (next.map (Operation.carries message)).getD 0 ≤ operation.carries message)
    (seen : ∀ message, .publish message ∈ asked ∨ next = some (.loaded message) →
      threads.publisher.connected = true ∨ operation = .loaded message) :
    Accounted
      { threads with
        publisher := publisher
        inFlight := advance threads.inFlight place next
        client := threads.client ++ asked } where
  connections := by
    have before := accounted.connections
    have passed := total_advance Operation.connection found next
    simp only [List.count_append]
    omega
  messages := by
    intro message
    have before := accounted.messages message
    have passed := total_advance (Operation.carries message) found next
    have kept := carried message
    simp only [List.count_append]
    omega
  connectedBefore := by
    intro message handed
    have before : threads.publisher.connected = true ∨
        (.publish message ∈ threads.client ∨ .loaded message ∈ threads.inFlight) := by
      rcases handed with sent | loaded
      · rcases List.mem_append.mp sent with old | new
        · exact .inr (.inl old)
        · refine (seen message (.inl new)).imp_right fun same => .inr ?_
          exact same ▸ List.mem_of_getElem? found
      · rcases mem_advance loaded with old | new
        · exact .inr (.inr old)
        · refine (seen message (.inr new)).imp_right fun same => .inr ?_
          exact same ▸ List.mem_of_getElem? found
    rw [List.count_append]
    rcases before with connected | earlier
    · have some_ := accounted.connections
      rw [connected, Bool.toNat_true] at some_
      omega
    · exact Nat.add_pos_left (accounted.connectedBefore message earlier) _

theorem operationStep_accounted {threads : Threads} (accounted : Accounted threads) {place : Nat}
    {operation : Operation} (found : threads.inFlight[place]? = some operation)
    (accepts : Bool) : Accounted (operationStep threads place accepts operation) := by
  have silent {next : Option Operation} (publisher : MqttPublisher)
      (accounted' : Accounted
        { threads with
          publisher := publisher
          inFlight := advance threads.inFlight place next
          client := threads.client ++ [] }) :
      Accounted { threads.goOn place next with publisher := publisher } := by
    rw [List.append_nil] at accounted'
    exact accounted'
  cases operation with
  | connecting =>
    apply accounted.goOn found
    · cases accepts <;> simp [Operation.connection, Threads.goOn]
    · cases accepts <;> simp [Operation.carries]
    · cases accepts <;> simp
  | accepted =>
    refine silent _ ?_
    apply accounted.goOn found
    · simp [Operation.connection]
    · simp [Operation.carries]
    · simp
  | disconnecting =>
    rw [operationStep]
    split
    next connected =>
      refine silent _ ?_
      apply accounted.goOn found
      · simp [Operation.connection, connected]
      · simp [Operation.carries]
      · simp
    next =>
      refine silent threads.publisher ?_
      apply accounted.goOn found
      · simp
      · simp
      · simp
  | exchanged =>
    apply accounted.goOn found
    · simp [Operation.connection, Threads.goOn]
    · simp
    · simp
  | publishing message =>
    refine silent threads.publisher ?_
    apply accounted.goOn found
    · split <;> simp [Operation.connection]
    · split <;> simp [Operation.carries]
    · split <;> simp [*]
  | loaded message =>
    apply accounted.goOn found
    · simp [Threads.goOn]
    · intro other
      simp [Operation.carries, List.count_singleton]
    · simp

theorem publisher_accounted (actions : List Action) :
    Accounted (Runs.after act .fresh actions) := by
  refine Runs.invariant_of_step Accounted ?_ fresh_accounted actions
  intro threads action accounted
  cases action with
  | step place accepts =>
    simp only [act]
    split
    next operation found => exact operationStep_accounted accounted found accepts
    next => exact accounted
  | connect => exact accounted.call (by simp)
  | disconnect => exact accounted.call (by simp)
  | publish message => exact accounted.call (by simp)

end MqttPublisher

end AdsRealtime
