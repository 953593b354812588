import AdsRealtime.Bridge.Stages

set_option autoImplicit false

namespace AdsRealtime.MainProgram

open AdsRealtimeEngine
open InFlight (advance mem_advance)
open Subscription (live Safe FreshHandles)

def Bridge.remaining (bridge : Bridge) : List (UInt32 × VariableHandle Unit) :=
  match bridge.main with
  | .deleting rest => rest
  | _ => bridge.engine.variables_

-- An engine in the middle of stop: the live notifications are those of the remaining variables,
-- and none of the handle objects has been freed.
structure Draining (engine : Engine Unit) (rest : List (UInt32 × VariableHandle Unit)) : Prop where
  within : rest <:+ engine.variables_
  listed : live (subscriptions engine.log) = owners rest
  keyed : ∀ entry ∈ engine.variables_, entry.2.notificationHandle = entry.1 ∧ entry.1 ≠ 0
  distinct : (engine.variables_.map Prod.fst).Nodup
  owned : ∀ entry ∈ engine.variables_, entry.2.object < engine.allocated
  freed : ∀ object, .freed object ∈ subscriptions engine.log → object < engine.allocated
  kept : ∀ entry ∈ engine.variables_, .freed entry.2.object ∉ subscriptions engine.log
  safe : Safe (subscriptions engine.log)

theorem draining_of_tracked {engine : Engine Unit} (tracked : Tracked engine) :
    Draining engine engine.variables_ where
  within := List.suffix_refl _
  listed := tracked.listed
  keyed := tracked.keyed
  distinct := tracked.distinct
  owned := tracked.owned
  freed := tracked.freed
  kept := by
    intro entry member
    apply tracked.safe.neverDangling _ (List.prefix_refl _) entry.1
    rw [tracked.listed]
    exact List.mem_map.mpr ⟨entry, member, rfl⟩
  safe := tracked.safe

theorem Draining.tracked {engine : Engine Unit} (draining : Draining engine engine.variables_) :
    Tracked engine :=
  ⟨draining.listed, draining.keyed, draining.distinct, draining.owned, draining.freed,
    draining.safe⟩

theorem subscriptions_deletionOf {engine : Engine Unit} {entry : UInt32 × VariableHandle Unit}
    (keyed : entry.2.notificationHandle = entry.1 ∧ entry.1 ≠ 0) :
    subscriptions (deletionOf engine entry) = [.removed entry.1] := by
  obtain ⟨same, notNull⟩ := keyed
  rw [deletionOf, if_pos (same ▸ notNull), same]
  rfl

theorem Draining.delete {engine : Engine Unit} {entry : UInt32 × VariableHandle Unit}
    {rest : List (UInt32 × VariableHandle Unit)} (draining : Draining engine (entry :: rest)) :
    Draining (record (deletionOf engine entry) engine) rest := by
  obtain ⟨within, listed, keyed, distinct, owned, freed, kept, safe⟩ := draining
  have member : entry ∈ engine.variables_ := within.subset List.mem_cons_self
  have logged : subscriptions (record (deletionOf engine entry) engine).log =
      subscriptions engine.log ++ [.removed entry.1] := by
    rw [record, subscriptions_append, subscriptions_deletionOf (keyed entry member)]
  have others : ∀ other ∈ owners rest, other.1 ≠ entry.1 := by
    intro other later same
    have once := (within.sublist.map Prod.fst).nodup distinct
    obtain ⟨absent, _⟩ := List.nodup_cons.mp once
    apply absent
    rw [← map_fst_owners]
    exact List.mem_map.mpr ⟨other, later, same⟩
  constructor
  · exact (List.suffix_cons _ _).trans within
  · rw [logged, Subscription.live_snoc, Subscription.update, listed]
    change List.filter _ ((entry.1, entry.2.object) :: owners rest) = _
    rw [List.filter_cons_of_neg (by simp), List.filter_eq_self]
    simpa using others
  · exact keyed
  · exact distinct
  · exact owned
  · intro object gone
    rw [logged] at gone
    exact freed object (by simpa using gone)
  · intro other later gone
    rw [logged] at gone
    exact kept other later (by simpa using gone)
  · rw [logged]
    apply Subscription.safe_removed safe
    rw [listed]
    change List.filter _ ((entry.1, entry.2.object) :: owners rest) = _
    rw [List.filter_cons_of_pos (by simp), List.filter_eq_nil_iff.mpr]
    simpa using others

theorem Draining.clear {engine : Engine Unit} (draining : Draining engine []) :
    Tracked ({ record (frees engine) engine with variables_ := [] } : Engine Unit) where
  listed := by
    simp only [record, subscriptions_append, subscriptions_frees]
    exact (Subscription.live_freeAll _ _).trans draining.listed
  keyed := by simp
  distinct := by simp
  owned := by simp
  freed := by
    intro object gone
    simp only [record, subscriptions_append, subscriptions_frees] at gone
    rcases List.mem_append.mp gone with old | new
    · exact draining.freed object old
    · obtain ⟨freed, member, same⟩ := List.mem_map.mp new
      obtain ⟨entry, listed, rfl⟩ := List.mem_map.mp member
      cases same
      exact draining.owned entry listed
  safe := by
    simp only [record, subscriptions_append, subscriptions_frees]
    have released : Subscription.Released (subscriptions engine.log) :=
      { draining.safe with settled := draining.listed }
    exact (Subscription.released_freeAll released _).toSafe

@[simp] def Serving : MainAt → Prop
  | .registering _ | .starting | .spawning | .waiting | .stopping | .deleting _ => True
  | .connectEngine | .connectPublisher | .disconnecting | .joining | .destroyingPublisher _
  | .destroyingEngine _ | .returned _ => False

structure Attended (bridge : Bridge) (delivery : Delivery) : Prop where
  pending : ∃ entry ∈ bridge.remaining, entry.1 = delivery.notification
  kept : ∃ entry ∈ bridge.engine.variables_, entry.2.object = delivery.object

structure Sheltered (bridge : Bridge) : Prop where
  draining : Draining bridge.engine bridge.remaining
  serving : bridge.engine.variables_ ≠ [] → Serving bridge.main
  attended : ∀ delivery ∈ bridge.deliveries, Attended bridge delivery

theorem launch_sheltered (config : RealtimeConfig) : Sheltered (.launch config) where
  draining := draining_of_tracked (construct_tracked config)
  serving := fun some_ => absurd rfl some_
  attended := by simp [Bridge.launch]

section

variable {bridge next : Bridge}

theorem Sheltered.idle (sheltered : Sheltered bridge) (idle : ¬ Serving bridge.main) :
    bridge.engine.variables_ = [] ∧ bridge.deliveries = [] := by
  have none_ : bridge.engine.variables_ = [] := by
    by_contra some_
    exact idle (sheltered.serving some_)
  refine ⟨none_, List.eq_nil_iff_forall_not_mem.mpr ?_⟩
  intro delivery member
  obtain ⟨entry, listed, _⟩ := (sheltered.attended delivery member).kept
  rw [none_] at listed
  cases listed

theorem remaining_elsewhere (elsewhere : ∀ rest, bridge.main ≠ .deleting rest) :
    bridge.remaining = bridge.engine.variables_ := by
  unfold Bridge.remaining
  split
  next rest at_ => exact absurd at_ (elsewhere rest)
  next => rfl

theorem Sheltered.tracked (sheltered : Sheltered bridge)
    (elsewhere : ∀ rest, bridge.main ≠ .deleting rest) : Tracked bridge.engine := by
  have draining := sheltered.draining
  rw [remaining_elsewhere elsewhere] at draining
  exact draining.tracked

theorem sheltered_of_empty (tracked : Tracked next.engine) (none_ : next.engine.variables_ = [])
    (quiet : next.deliveries = []) (elsewhere : ∀ rest, next.main ≠ .deleting rest) :
    Sheltered next where
  draining := by
    rw [remaining_elsewhere elsewhere]
    exact draining_of_tracked tracked
  serving := fun some_ => absurd none_ some_
  attended := by simp [quiet]

theorem Sheltered.serve (sheltered : Sheltered bridge)
    (elsewhere : ∀ rest, bridge.main ≠ .deleting rest) (tracked : Tracked next.engine)
    (remaining : next.remaining = next.engine.variables_) (serving : Serving next.main)
    (deliveries : next.deliveries = bridge.deliveries)
    (kept : ∀ entry ∈ bridge.engine.variables_, entry ∈ next.engine.variables_) :
    Sheltered next where
  draining := by
    rw [remaining]
    exact draining_of_tracked tracked
  serving := fun _ => serving
  attended := by
    intro delivery member
    rw [deliveries] at member
    obtain ⟨⟨entry, pending, named⟩, ⟨holder, listed, same⟩⟩ :=
      sheltered.attended delivery member
    rw [remaining_elsewhere elsewhere] at pending
    refine ⟨⟨entry, ?_, named⟩, ⟨holder, kept holder listed, same⟩⟩
    rw [remaining]
    exact kept entry pending

end

theorem addVariable_keeps {engine : Engine Unit} {name : String} {callback : Option Unit}
    {replies : AdsReplies} {address : UInt64} (tracked : Tracked engine)
    (contract : FreshHandles 0
      (subscriptions (addVariable name callback replies address engine).2.log)) :
    ∀ entry ∈ engine.variables_,
      entry ∈ (addVariable name callback replies address engine).2.variables_ := by
  intro entry member
  rcases addVariable_cases name callback replies address engine with
    same | ⟨log, freed, _⟩ | ⟨log, varHandle, registered, _, _, logged⟩
  · rw [same]
    exact member
  · rw [freed]
    exact member
  · rw [registered] at contract ⊢
    rw [logged] at contract
    have last := (contract.front (List.prefix_append _ _)).last
    rw [tracked.listed, map_fst_owners] at last
    rw [assign_fresh last.2]
    exact List.mem_append_left _ member

theorem destroy_tracked {engine : Engine Unit} (tracked : Tracked engine)
    (stopped : engine.running = false) (none_ : engine.variables_ = []) :
    Tracked (destroy engine) ∧ (destroy engine).variables_ = [] := by
  have same : stop engine = engine := by rw [stop, stopped, if_neg Bool.false_ne_true]
  have logged : subscriptions (destroy engine).log = subscriptions engine.log := by
    rw [subscriptions_destroy, same, objects, none_, List.map_nil, List.map_nil, List.append_nil]
  have allocated : (destroy engine).allocated = engine.allocated := by
    rw [destroy, same]
    split <;> rfl
  obtain ⟨listed, _, _, _, freed, safe⟩ := tracked
  refine ⟨⟨?_, by simp [destroy], by simp [destroy], by simp [destroy], ?_, ?_⟩, rfl⟩
  · rw [logged, listed, none_]
    rfl
  · intro object gone
    rw [logged] at gone
    rw [allocated]
    exact freed object gone
  · rw [logged]
    exact safe

theorem mainStep_sheltered {env : Environment} {bridge : Bridge}
    (unharmed : env.deletionWaits = true ∨ bridge.deliveries = [])
    (staged : Staged env bridge) (sheltered : Sheltered bridge)
    (contract : FreshHandles 0 (subscriptions (mainStep env bridge).engine.log)) :
    Sheltered (mainStep env bridge) := by
  unfold mainStep at contract ⊢
  cases at_ : bridge.main with
  | connectEngine =>
    have tracked := sheltered.tracked (by simp [at_])
    obtain ⟨none_, quiet⟩ := sheltered.idle (by simp [at_])
    refine sheltered_of_empty (connect_tracked env.opened tracked) ?_ quiet ?_
    · simp only [connect]
      split_ifs <;> exact none_
    · simp only
      split_ifs <;> simp
  | connectPublisher =>
    have tracked := sheltered.tracked (by simp [at_])
    obtain ⟨none_, quiet⟩ := sheltered.idle (by simp [at_])
    refine sheltered_of_empty tracked none_ quiet ?_
    simp only
    split_ifs <;> simp
  | registering rest =>
    have tracked := sheltered.tracked (by simp [at_])
    cases rest with
    | nil => exact sheltered.serve (by simp [at_]) tracked rfl trivial rfl fun _ member => member
    | cons next rest =>
      simp only [at_] at contract ⊢
      exact sheltered.serve (by simp [at_]) (addVariable_tracked _ _ _ _ tracked contract) rfl
        trivial rfl (addVariable_keeps tracked contract)
  | starting =>
    have tracked := sheltered.tracked (by simp [at_])
    exact sheltered.serve (by simp [at_]) (start_tracked tracked) rfl trivial rfl
      fun _ member => member
  | spawning =>
    have tracked := sheltered.tracked (by simp [at_])
    exact sheltered.serve (by simp [at_]) tracked rfl trivial rfl fun _ member => member
  | waiting =>
    have tracked := sheltered.tracked (by simp [at_])
    simp only
    split
    · exact sheltered
    · exact sheltered.serve (by simp [at_]) tracked rfl trivial rfl fun _ member => member
  | stopping =>
    have tracked := sheltered.tracked (by simp [at_])
    have running : bridge.engine.running = true := by rw [staged.running, at_]; rfl
    simp only [if_pos running]
    exact sheltered.serve (by simp [at_])
      ⟨tracked.listed, tracked.keyed, tracked.distinct, tracked.owned, tracked.freed,
        tracked.safe⟩ rfl trivial rfl fun _ member => member
  | deleting rest =>
    have draining := sheltered.draining
    have here : bridge.remaining = rest := by rw [Bridge.remaining, at_]
    rw [here] at draining
    cases rest with
    | nil =>
      have quiet : bridge.deliveries = [] := by
        apply List.eq_nil_iff_forall_not_mem.mpr
        intro delivery member
        obtain ⟨entry, pending, _⟩ := (sheltered.attended delivery member).pending
        rw [here] at pending
        cases pending
      exact sheltered_of_empty draining.clear rfl quiet (by simp)
    | cons entry rest =>
      simp only
      split
      · exact sheltered
      next free =>
        refine ⟨draining.delete, fun _ => trivial, ?_⟩
        intro delivery member
        obtain ⟨⟨other, pending, named⟩, kept⟩ := sheltered.attended delivery member
        refine ⟨⟨other, ?_, named⟩, kept⟩
        rw [here] at pending
        rcases List.mem_cons.mp pending with rfl | later
        · have keyed := draining.keyed other (draining.within.subset List.mem_cons_self)
          have waits := unharmed.resolve_right (List.ne_nil_of_mem member)
          exact absurd ⟨waits, delivery, member, named.symm.trans keyed.1.symm⟩ free
        · exact later
  | disconnecting =>
    obtain ⟨none_, quiet⟩ := sheltered.idle (by simp [at_])
    exact sheltered_of_empty (sheltered.tracked (by simp [at_])) none_ quiet (by simp)
  | joining =>
    obtain ⟨none_, quiet⟩ := sheltered.idle (by simp [at_])
    simp only
    split
    · exact sheltered_of_empty (sheltered.tracked (by simp [at_])) none_ quiet (by simp)
    · exact sheltered
  | destroyingPublisher code =>
    obtain ⟨none_, quiet⟩ := sheltered.idle (by simp [at_])
    exact sheltered_of_empty (sheltered.tracked (by simp [at_])) none_ quiet (by simp)
  | destroyingEngine code =>
    obtain ⟨none_, quiet⟩ := sheltered.idle (by simp [at_])
    have stopped : bridge.engine.running = false := by rw [staged.running, at_]; rfl
    obtain ⟨tracked, nothing⟩ :=
      destroy_tracked (sheltered.tracked (by simp [at_])) stopped none_
    exact sheltered_of_empty tracked nothing quiet (by simp)
  | returned code => exact sheltered

theorem deliver_aside (notification : UInt32) (memory : Nat → UInt8) (pNotification : Nat)
    (bridge : Bridge) :
    (deliver notification memory pNotification bridge).main = bridge.main ∧
      (deliver notification memory pNotification bridge).engine = bridge.engine := by
  unfold deliver
  simp only
  split
  · exact ⟨rfl, rfl⟩
  · split <;> exact ⟨rfl, rfl⟩

theorem liveEntry_eq_some {notification : UInt32} {bridge : Bridge}
    {entry : UInt32 × VariableHandle Unit} (found : liveEntry notification bridge = some entry) :
    notification ∈ (live (subscriptions bridge.engine.log)).map Prod.fst ∧
      entry ∈ bridge.engine.variables_ ∧ entry.1 = notification := by
  unfold liveEntry at found
  split at found
  next live_ =>
    exact ⟨live_, List.mem_of_find?_eq_some found, by simpa using List.find?_some found⟩
  next => cases found

theorem callbackStep_aside (place : Nat) (bridge : Bridge) :
    (callbackStep place bridge).main = bridge.main ∧
      (callbackStep place bridge).engine = bridge.engine := by
  unfold callbackStep
  split
  · exact ⟨rfl, rfl⟩
  · split <;> exact ⟨rfl, rfl⟩

theorem monitorStep_aside (bridge : Bridge) :
    (monitorStep bridge).main = bridge.main ∧ (monitorStep bridge).engine = bridge.engine := by
  unfold monitorStep
  split <;> exact ⟨rfl, rfl⟩

theorem perform_aside (env : Environment) (bridge : Bridge) {action : Action}
    (other : action ≠ .main) :
    (perform env bridge action).main = bridge.main ∧
      (perform env bridge action).engine = bridge.engine := by
  cases action with
  | main => exact absurd rfl other
  | signal => exact ⟨rfl, rfl⟩
  | monitor => exact monitorStep_aside bridge
  | deliver notification memory pNotification => exact deliver_aside _ _ _ bridge
  | callback place => exact callbackStep_aside place bridge

structure Called (bridge : Bridge) (delivery : Delivery) : Prop where
  live : delivery.notification ∈ (live (subscriptions bridge.engine.log)).map Prod.fst
  found : ∃ entry ∈ bridge.engine.variables_, entry.2.object = delivery.object

def Continued (bridge : Bridge) (delivery : Delivery) : Prop :=
  ∃ earlier ∈ bridge.deliveries,
    earlier.notification = delivery.notification ∧ earlier.object = delivery.object

theorem mem_of_heapOf {variables_ : List (UInt32 × VariableHandle Unit)} {address : UInt64}
    {varHandle : VariableHandle Unit} (found : heapOf variables_ address = some varHandle) :
    ∃ entry ∈ variables_, entry.2 = varHandle :=
  List.mem_map.mp (List.mem_of_find?_eq_some found)

theorem deliver_deliveries {notification : UInt32} {memory : Nat → UInt8} {pNotification : Nat}
    {bridge : Bridge} {delivery : Delivery}
    (member : delivery ∈ (deliver notification memory pNotification bridge).deliveries) :
    Continued bridge delivery ∨ Called bridge delivery := by
  have same (old : delivery ∈ bridge.deliveries) : Continued bridge delivery :=
    ⟨delivery, old, rfl, rfl⟩
  unfold deliver at member
  simp only at member
  split at member
  · exact .inl (same member)
  next entry live_ =>
    split at member
    next found _ =>
      rcases List.mem_cons.mp member with rfl | old
      · obtain ⟨holder, listed, rfl⟩ := mem_of_heapOf found
        exact .inr ⟨(liveEntry_eq_some live_).1, holder, listed, rfl⟩
      · exact .inl (same old)
    · exact .inl (same member)

theorem callbackStep_deliveries {place : Nat} {bridge : Bridge} {delivery : Delivery}
    (member : delivery ∈ (callbackStep place bridge).deliveries) : Continued bridge delivery := by
  unfold callbackStep at member
  split at member
  · exact ⟨delivery, member, rfl, rfl⟩
  next going found =>
    have going_ := List.mem_of_getElem? found
    split at member
    · rcases mem_advance member with old | new
      · exact ⟨delivery, old, rfl, rfl⟩
      · cases new
        exact ⟨going, going_, rfl, rfl⟩
    · rcases mem_advance member with old | new
      · exact ⟨delivery, old, rfl, rfl⟩
      · split at new
        · cases new
          exact ⟨going, going_, rfl, rfl⟩
        · cases new
    · rcases mem_advance member with old | new
      · exact ⟨delivery, old, rfl, rfl⟩
      · cases new

theorem perform_deliveries {env : Environment} {bridge : Bridge} {action : Action}
    (other : action ≠ .main) {delivery : Delivery}
    (member : delivery ∈ (perform env bridge action).deliveries) :
    Continued bridge delivery ∨ Called bridge delivery := by
  cases action with
  | main => exact absurd rfl other
  | signal => exact .inl ⟨delivery, member, rfl, rfl⟩
  | monitor =>
    refine .inl ⟨delivery, ?_, rfl, rfl⟩
    rw [perform] at member
    unfold monitorStep at member
    split at member <;> exact member
  | deliver notification memory pNotification => exact deliver_deliveries member
  | callback place => exact .inl (callbackStep_deliveries member)

theorem Sheltered.aside {env : Environment} {bridge : Bridge} (sheltered : Sheltered bridge)
    {action : Action} (other : action ≠ .main) : Sheltered (perform env bridge action) := by
  obtain ⟨main, engine⟩ := perform_aside env bridge other
  have remaining : (perform env bridge action).remaining = bridge.remaining := by
    rw [Bridge.remaining, Bridge.remaining, main, engine]
  constructor
  · rw [engine, remaining]
    exact sheltered.draining
  · rw [engine, main]
    exact sheltered.serving
  · intro delivery member
    rcases perform_deliveries other member with ⟨earlier, old, named, same⟩ | called
    · obtain ⟨⟨entry, pending, named'⟩, ⟨holder, listed, same'⟩⟩ := sheltered.attended earlier old
      refine ⟨⟨entry, ?_, named'.trans named⟩, ⟨holder, ?_, same'.trans same⟩⟩
      · rw [remaining]
        exact pending
      · rw [engine]
        exact listed
    · obtain ⟨live_, holder, listed, same⟩ := called
      rw [sheltered.draining.listed, map_fst_owners] at live_
      constructor
      · rw [remaining]
        exact List.mem_map.mp live_
      · rw [engine]
        exact ⟨holder, listed, same⟩

theorem perform_sheltered {env : Environment} {bridge : Bridge}
    (unharmed : env.deletionWaits = true ∨ bridge.deliveries = [])
    (staged : Staged env bridge) (sheltered : Sheltered bridge) (action : Action)
    (contract : FreshHandles 0 (subscriptions (perform env bridge action).engine.log)) :
    Sheltered (perform env bridge action) := by
  by_cases main : action = .main
  · subst main
    exact mainStep_sheltered unharmed staged sheltered contract
  · exact sheltered.aside main

theorem mainStep_log (env : Environment) (bridge : Bridge) :
    subscriptions bridge.engine.log <+: subscriptions (mainStep env bridge).engine.log := by
  have recorded (events : List Event) : subscriptions bridge.engine.log <+:
      subscriptions (record events bridge.engine).log := by
    rw [record, subscriptions_append]
    exact List.prefix_append _ _
  unfold mainStep
  split
  · exact log_perform bridge.engine (.connect env.opened)
  · exact List.prefix_refl _
  · exact List.prefix_refl _
  next next_ rest _ =>
    exact log_perform bridge.engine (.addVariable next_.name (some ()) next_.replies next_.address)
  · exact List.prefix_refl _
  · exact List.prefix_refl _
  · split <;> exact List.prefix_refl _
  · split <;> exact List.prefix_refl _
  · exact recorded _
  · split
    · exact List.prefix_refl _
    · exact recorded _
  · exact List.prefix_refl _
  · split <;> exact List.prefix_refl _
  · exact List.prefix_refl _
  · simp only
    rw [subscriptions_destroy]
    exact (log_perform bridge.engine .stop).trans (List.prefix_append _ _)
  · exact List.prefix_refl _

theorem perform_log (env : Environment) (bridge : Bridge) (action : Action) :
    subscriptions bridge.engine.log <+:
      subscriptions (perform env bridge action).engine.log := by
  by_cases main : action = .main
  · rw [main]
    exact mainStep_log env bridge
  · rw [(perform_aside env bridge main).2]

theorem run_sheltered {env : Environment} (actions : List Action)
    (unharmed : env.deletionWaits = true ∨
      ∀ before, before <+: actions → (run env before).deliveries = [])
    (contract : FreshHandles 0 (subscriptions (run env actions).engine.log)) :
    Sheltered (run env actions) := by
  induction actions using List.reverseRecOn with
  | nil => exact launch_sheltered env.config
  | append_singleton actions action ih =>
    have earlier : env.deletionWaits = true ∨
        ∀ before, before <+: actions → (run env before).deliveries = [] :=
      unharmed.imp_right fun none_ before inside =>
        none_ before (inside.trans (List.prefix_append _ _))
    rw [run, Runs.after_snoc] at contract ⊢
    exact perform_sheltered (earlier.imp_right fun none_ => none_ _ (List.prefix_refl _))
      (run_staged env actions) (ih earlier (contract.front (perform_log env _ action))) action
      contract

theorem Sheltered.handle_alive {bridge : Bridge} (sheltered : Sheltered bridge)
    {entry : UInt32 × VariableHandle Unit} (member : entry ∈ bridge.engine.variables_) :
    Alive bridge (.handle entry.2.object) := by
  intro gone
  apply sheltered.draining.kept entry member
  exact List.mem_filterMap.mpr ⟨_, gone, rfl⟩

theorem mainUses_alive {bridge : Bridge} (sheltered : Sheltered bridge) :
    ∀ object ∈ mainUses bridge, Alive bridge object := by
  intro object used
  cases at_ : bridge.main with
  | deleting rest =>
    cases rest with
    | nil =>
      obtain rfl : object = .engine := by simpa [mainUses, at_] using used
      simp [Alive, at_]
    | cons entry rest =>
      have draining := sheltered.draining
      have here : bridge.remaining = entry :: rest := by rw [Bridge.remaining, at_]
      rw [here] at draining
      obtain rfl | rfl : object = .engine ∨ object = .handle entry.2.object := by
        simpa [mainUses, at_] using used
      · simp [Alive, at_]
      · exact sheltered.handle_alive (draining.within.subset List.mem_cons_self)
  | _ => simp_all [mainUses, Alive]

theorem deliveryUses_alive {bridge : Bridge} (sheltered : Sheltered bridge) {delivery : Delivery}
    (member : delivery ∈ bridge.deliveries) :
    ∀ object ∈ deliveryUses delivery, Alive bridge object := by
  obtain ⟨entry, listed, same⟩ := (sheltered.attended delivery member).kept
  have handle : Alive bridge (.handle delivery.object) := by
    rw [← same]
    exact sheltered.handle_alive listed
  have publisher : Alive bridge .publisher := by
    have serving := sheltered.serving (List.ne_nil_of_mem listed)
    cases at_ : bridge.main <;> simp_all [Alive]
  intro object used
  cases at_ : delivery.position <;>
    simp only [deliveryUses, at_, List.mem_cons, List.not_mem_nil, or_false] at used
  · exact used ▸ handle
  · exact used.elim (· ▸ handle) (· ▸ publisher)
  · exact used.elim (· ▸ handle) (· ▸ publisher)

theorem monitor_alive {env : Environment} {bridge : Bridge} (staged : Staged env bridge)
    (reading : bridge.monitor = .reading) : Alive bridge .engine := by
  have fits := staged.monitor
  rw [reading] at fits
  cases at_ : bridge.main <;> simp_all [Alive]

end AdsRealtime.MainProgram
