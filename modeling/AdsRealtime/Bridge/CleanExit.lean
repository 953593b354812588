import AdsRealtime.Bridge.Dangling

set_option autoImplicit false

namespace AdsRealtime.MainProgram

open AdsRealtimeEngine
open InFlight (advance perm_of_getElem?)
open Subscription (Released)

def publishedBy : ClientCall → Option Message
  | .connect _ => none
  | .disconnect => none
  | .publish message => some message

def published (client : List ClientCall) : List Message :=
  client.filterMap publishedBy

theorem published_append (xs ys : List ClientCall) :
    published (xs ++ ys) = published xs ++ published ys :=
  List.filterMap_append

-- Every sample that came has been published, or its callback is still on the way.
def Relayed (bridge : Bridge) : Prop :=
  (published bridge.client ++ bridge.deliveries.map Delivery.message).Perm bridge.delivered

theorem connected_of_delivery {env : Environment} {bridge : Bridge} (staged : Staged env bridge)
    (sheltered : Sheltered bridge) {delivery : Delivery} (member : delivery ∈ bridge.deliveries) :
    bridge.publisher.connected = true := by
  obtain ⟨entry, listed, _⟩ := (sheltered.attended delivery member).kept
  have serving := sheltered.serving (List.ne_nil_of_mem listed)
  rw [staged.connected]
  cases at_ : bridge.main <;> simp_all

theorem mainStep_relays (env : Environment) (bridge : Bridge) :
    published (mainStep env bridge).client = published bridge.client ∧
      (mainStep env bridge).delivered = bridge.delivered := by
  unfold mainStep
  split
  · exact ⟨rfl, rfl⟩
  · refine ⟨?_, rfl⟩
    simp only [MqttPublisher.connect]
    split <;> simp [published, publishedBy]
  · exact ⟨rfl, rfl⟩
  · exact ⟨rfl, rfl⟩
  · exact ⟨rfl, rfl⟩
  · exact ⟨rfl, rfl⟩
  · split <;> exact ⟨rfl, rfl⟩
  · split <;> exact ⟨rfl, rfl⟩
  · exact ⟨rfl, rfl⟩
  · split <;> exact ⟨rfl, rfl⟩
  · refine ⟨?_, rfl⟩
    simp only [MqttPublisher.disconnect]
    split <;> simp [published, publishedBy]
  · split <;> exact ⟨rfl, rfl⟩
  · refine ⟨?_, rfl⟩
    simp only [MqttPublisher.disconnect]
    split <;> simp [published, publishedBy]
  · exact ⟨rfl, rfl⟩
  · exact ⟨rfl, rfl⟩

theorem deliver_relayed {env : Environment} {bridge : Bridge} (located : Located env bridge)
    (addressable : Addressable env.registrations) (relayed : Relayed bridge)
    (notification : UInt32) (memory : Nat → UInt8) (pNotification : Nat) :
    Relayed (deliver notification memory pNotification bridge) := by
  cases found : liveEntry notification bridge with
  | none => simpa only [deliver, found] using relayed
  | some entry =>
    rw [deliver_follows located addressable found]
    have more := relayed.append_right [sampleMessage entry.2 memory pNotification]
    refine List.Perm.trans ?_ more
    simp only [List.map_cons, List.append_assoc]
    exact List.Perm.append_left _ (List.perm_append_singleton _ _).symm

theorem Relayed.carry {bridge : Bridge} (relayed : Relayed bridge) {place : Nat}
    {delivery : Delivery} (found : bridge.deliveries[place]? = some delivery)
    {next : Option Delivery} {asked : List ClientCall}
    (passed : published asked ++ (next.toList.map Delivery.message) = [delivery.message]) :
    Relayed { goOn place next bridge with client := bridge.client ++ asked } := by
  refine List.Perm.trans ?_ relayed
  simp only [goOn, advance, published_append, List.map_append, List.append_assoc]
  apply List.Perm.append_left
  rw [← List.append_assoc, passed]
  exact ((perm_of_getElem? found).map Delivery.message).symm

theorem callbackStep_relayed {env : Environment} {bridge : Bridge} (staged : Staged env bridge)
    (sheltered : Sheltered bridge) (relayed : Relayed bridge) (place : Nat) :
    Relayed (callbackStep place bridge) := by
  unfold callbackStep
  split
  · exact relayed
  next delivery found =>
    have connected := connected_of_delivery staged sheltered (List.mem_of_getElem? found)
    have silent {next : Option Delivery}
        (carried : Relayed { goOn place next bridge with client := bridge.client ++ [] }) :
        Relayed (goOn place next bridge) := by
      rw [List.append_nil] at carried
      exact carried
    split
    · exact silent (relayed.carry found rfl)
    · rw [if_pos connected]
      exact silent (relayed.carry found rfl)
    · exact relayed.carry found rfl

theorem perform_relayed {env : Environment} {bridge : Bridge} (staged : Staged env bridge)
    (sheltered : Sheltered bridge) (located : Located env bridge)
    (addressable : Addressable env.registrations) (relayed : Relayed bridge) (action : Action) :
    Relayed (perform env bridge action) := by
  cases action with
  | main =>
    obtain ⟨asked, came⟩ := mainStep_relays env bridge
    rw [perform, Relayed, asked, came, mainStep_deliveries]
    exact relayed
  | signal => exact relayed
  | monitor =>
    rw [perform]
    unfold monitorStep
    split <;> exact relayed
  | deliver notification memory pNotification =>
    exact deliver_relayed located addressable relayed notification memory pNotification
  | callback place => exact callbackStep_relayed staged sheltered relayed place

theorem run_relayed {env : Environment} (waits : env.deletionWaits = true)
    (distinct : Distinct env.registrations) (addressable : Addressable env.registrations)
    (actions : List Action) : Relayed (run env actions) := by
  refine Runs.always_of_next Relayed ?_ ?_ actions (List.prefix_refl _)
  · exact List.Perm.refl _
  · intro before action _ relayed
    rw [Runs.after_snoc]
    exact perform_relayed (run_staged env before)
      (run_sheltered before (.inl waits) (run_fresh distinct before)) (run_located env before)
      addressable relayed action

/-- What main leaves behind when it returns. -/
structure CleanExit (env : Environment) (bridge : Bridge) (code : Nat) : Prop where
  result : code = exitCode env
  notifications : Released (subscriptions bridge.engine.log)
  handles : ∀ object, bridge.engine.log.count (.variableFreed object) =
    if object < bridge.engine.allocated then 1 else 0
  ports : portEvents bridge.engine.log =
    if env.opened = 0 then [] else [.portOpened env.opened, .portClosed env.opened]
  session : session bridge.client = wholeSession env
  callbacks : bridge.deliveries = []
  messages : (published bridge.client).Perm bridge.delivered
  monitor : bridge.monitor = if code = 0 then .ended else .notStarted

theorem returns_cleanly {env : Environment} (waits : env.deletionWaits = true)
    (distinct : Distinct env.registrations) (addressable : Addressable env.registrations)
    {actions : List Action} {code : Nat}
    (returned : (run env actions).main = .returned code) :
    CleanExit env (run env actions) code := by
  have staged := run_staged env actions
  have sheltered := run_sheltered actions (.inl waits) (run_fresh distinct actions)
  have relayed := run_relayed waits distinct addressable actions
  obtain ⟨none_, quiet⟩ := sheltered.idle (by simp [returned])
  have tracked := sheltered.tracked (by simp [returned])
  obtain ⟨_, _, _, ports, session_, monitor_, code_⟩ := staged
  rw [returned] at ports session_ monitor_ code_
  constructor
  · exact code_
  · refine { tracked.safe with settled := ?_ }
    rw [tracked.listed, none_]
    rfl
  · intro object
    have once := (run_traced env actions).once object
    rw [none_] at once
    exact once
  · exact ports
  · exact session_
  · exact quiet
  · rw [Relayed, quiet, List.map_nil, List.append_nil] at relayed
    exact relayed
  · simp only [MonitorFits] at monitor_
    split
    next zero => rwa [if_pos zero] at monitor_
    next other => rwa [if_neg other] at monitor_

def oneSampleRun : List Action :=
  [.main, .main, .main, .main, .main, .main, .deliver 7 oneSample 0, .callback 0, .callback 0,
    .callback 0, .signal, .main, .main, .main, .main, .main, .monitor, .main, .main, .main]

theorem returns_cleanly_oneSample :
    CleanExit (bridging true) (run (bridging true) oneSampleRun) 0 :=
  returns_cleanly rfl (by decide) addressable_gvlAbc rfl

end AdsRealtime.MainProgram
