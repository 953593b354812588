import AdsRealtime.Engine.AdsRealtimeEngine
import AdsRealtime.Shared.Subscription

set_option autoImplicit false

namespace AdsRealtime.AdsRealtimeEngine

open Subscription (live Safe Released FreshHandles)

variable {κ : Type}

-- A notification is a subscription that the PLC holds on behalf of a `VariableHandle`.
-- A request to delete it is taken to succeed, and then to remove the notification of that
-- handle whatever port it names; `deletions_addressed` says which ports the requests name.
def observe : Event → Option (Subscription.Event UInt32 Nat)
  | .notificationAdded _ object notification => some (.created notification object)
  | .notificationDeleted _ _ notification => some (.removed notification)
  | .variableFreed object => some (.freed object)
  | .portOpened _ => none
  | .portClosed _ => none
  | .symbolHandleAcquired _ _ => none

def subscriptions (log : List Event) : List (Subscription.Event UInt32 Nat) :=
  log.filterMap observe

theorem subscriptions_append (xs ys : List Event) :
    subscriptions (xs ++ ys) = subscriptions xs ++ subscriptions ys :=
  List.filterMap_append

@[simp] theorem subscriptions_nil : subscriptions [] = [] :=
  rfl

def owners (variables_ : List (UInt32 × VariableHandle κ)) : List (UInt32 × Nat) :=
  variables_.map fun entry => (entry.1, entry.2.object)

structure Tracked (engine : Engine κ) : Prop where
  listed : live (subscriptions engine.log) = owners engine.variables_
  keyed : ∀ entry ∈ engine.variables_, entry.2.notificationHandle = entry.1 ∧ entry.1 ≠ 0
  distinct : (engine.variables_.map Prod.fst).Nodup
  owned : ∀ entry ∈ engine.variables_, entry.2.object < engine.allocated
  freed : ∀ object, .freed object ∈ subscriptions engine.log → object < engine.allocated
  safe : Safe (subscriptions engine.log)

theorem map_fst_owners (variables_ : List (UInt32 × VariableHandle κ)) :
    (owners variables_).map Prod.fst = variables_.map Prod.fst := by
  simp [owners]

theorem construct_tracked (config : RealtimeConfig) : Tracked (construct config : Engine κ) where
  listed := rfl
  keyed := by simp [construct]
  distinct := by simp [construct]
  owned := by simp [construct]
  freed := by simp [construct, subscriptions]
  safe := Subscription.safe_nil

theorem assign_fresh {key : UInt32} {varHandle : VariableHandle κ}
    {variables_ : List (UInt32 × VariableHandle κ)} (fresh : key ∉ variables_.map Prod.fst) :
    assign key varHandle variables_ = (variables_ ++ [(key, varHandle)], []) := by
  induction variables_ with
  | nil => rfl
  | cons entry rest ih =>
    obtain ⟨other, held⟩ := entry
    simp only [List.map_cons, List.mem_cons, not_or] at fresh
    rw [assign, if_neg (Ne.symm fresh.1), ih fresh.2]
    rfl

theorem connect_tracked {engine : Engine κ} (opened : Int) (tracked : Tracked engine) :
    Tracked (connect opened engine).2 := by
  obtain ⟨listed, keyed, distinct, owned, freed, safe⟩ := tracked
  unfold connect
  by_cases failed : opened = 0
  · simp only [if_pos failed]
    exact ⟨listed, keyed, distinct, owned, freed, safe⟩
  · simp only [if_neg failed]
    have silent :
        subscriptions (engine.log ++ [.portOpened opened]) = subscriptions engine.log := by
      simp [subscriptions, observe, List.filterMap_cons]
    constructor <;> simp only [record, silent] <;> assumption

theorem addVariable_cases (name : String) (callback : Option κ) (replies : AdsReplies)
    (address : UInt64) (engine : Engine κ) :
    (addVariable name callback replies address engine).2 = engine ∨
      (∃ log, (addVariable name callback replies address engine).2 =
          { engine with allocated := engine.allocated + 1, log := log } ∧
        subscriptions log = subscriptions engine.log ++ [.freed engine.allocated]) ∨
      (∃ log varHandle, (addVariable name callback replies address engine).2 =
          { engine with
            allocated := engine.allocated + 1
            variables_ := (assign replies.notificationHandle varHandle engine.variables_).1
            log := log } ∧
        varHandle.object = engine.allocated ∧
        varHandle.notificationHandle = replies.notificationHandle ∧
        subscriptions log =
          subscriptions engine.log ++ [.created replies.notificationHandle engine.allocated] ++
            subscriptions (assign replies.notificationHandle varHandle engine.variables_).2) := by
  by_cases invalid : callback.isNone
  · exact .inl (by simp only [addVariable, if_pos invalid])
  · by_cases noSymbol : replies.symbolResult ≠ 0
    · refine .inr (.inl ⟨engine.log ++ [.variableFreed engine.allocated], ?_, ?_⟩)
      · simp only [addVariable, if_neg invalid, if_pos noSymbol, record]
      · rw [subscriptions_append]
        rfl
    · by_cases refused : replies.notificationResult ≠ 0
      · refine .inr (.inl ⟨engine.log ++ [.symbolHandleAcquired name replies.symbolHandle,
          .variableFreed engine.allocated], ?_, ?_⟩)
        · simp only [addVariable, if_neg invalid, if_neg noSymbol, if_pos refused, record]
        · rw [subscriptions_append]
          rfl
      · refine .inr (.inr ⟨(addVariable name callback replies address engine).2.log,
          makeVarHandle name callback replies address engine, ?_, rfl, rfl, ?_⟩)
        · simp only [addVariable, if_neg invalid, if_neg noSymbol, if_neg refused, record]
        · simp only [addVariable, if_neg invalid, if_neg noSymbol, if_neg refused, record]
          rw [subscriptions_append, List.append_assoc]
          rfl

theorem Tracked.freeNew {engine : Engine κ} (tracked : Tracked engine) {log : List Event}
    (logged : subscriptions log = subscriptions engine.log ++ [.freed engine.allocated]) :
    Tracked { engine with allocated := engine.allocated + 1, log := log } where
  listed := by
    rw [logged, Subscription.live_snoc, Subscription.update]
    exact tracked.listed
  keyed := tracked.keyed
  distinct := tracked.distinct
  owned := fun entry member => Nat.lt_succ_of_lt (tracked.owned entry member)
  freed := by
    intro object member
    rw [logged, List.mem_append] at member
    rcases member with old | new
    · exact Nat.lt_succ_of_lt (tracked.freed object old)
    · obtain rfl : object = engine.allocated := by simpa using new
      exact Nat.lt_succ_self _
  safe := by
    rw [logged]
    apply Subscription.safe_freed tracked.safe
    intro handle member
    rw [tracked.listed, owners, List.mem_map] at member
    obtain ⟨entry, listed, same⟩ := member
    have older := tracked.owned entry listed
    simp only [Prod.mk.injEq] at same
    omega

theorem Tracked.register {engine : Engine κ} (tracked : Tracked engine) {log : List Event}
    {varHandle : VariableHandle κ} {notification : UInt32}
    (object : varHandle.object = engine.allocated)
    (keyed : varHandle.notificationHandle = notification)
    (logged : subscriptions log =
      subscriptions engine.log ++ [.created notification engine.allocated] ++
        subscriptions (assign notification varHandle engine.variables_).2)
    (contract : FreshHandles 0 (subscriptions log)) :
    Tracked
      { engine with
        allocated := engine.allocated + 1
        variables_ := (assign notification varHandle engine.variables_).1
        log := log } := by
  obtain ⟨notNull, unused⟩ : notification ≠ 0 ∧ notification ∉ engine.variables_.map Prod.fst := by
    rw [logged] at contract
    have last := (contract.front (List.prefix_append _ _)).last
    rwa [tracked.listed, map_fst_owners] at last
  rw [assign_fresh unused] at logged ⊢
  rw [subscriptions_nil, List.append_nil] at logged
  constructor
  · rw [logged, Subscription.live_snoc, Subscription.update, tracked.listed]
    simp [owners, object]
  · intro entry member
    rcases List.mem_append.mp member with old | new
    · exact tracked.keyed entry old
    · rw [List.mem_singleton.mp new]
      exact ⟨keyed, notNull⟩
  · simp only [List.map_append, List.map_cons, List.map_nil]
    rw [List.nodup_append_comm, List.singleton_append, List.nodup_cons]
    exact ⟨unused, tracked.distinct⟩
  · intro entry member
    rcases List.mem_append.mp member with old | new
    · exact Nat.lt_succ_of_lt (tracked.owned entry old)
    · rw [List.mem_singleton.mp new, object]
      exact Nat.lt_succ_self _
  · intro freed member
    rw [logged] at member
    exact Nat.lt_succ_of_lt (tracked.freed freed (by simpa using member))
  · rw [logged]
    apply Subscription.safe_created tracked.safe
    exact fun member => Nat.lt_irrefl _ (tracked.freed _ member)

theorem addVariable_tracked {engine : Engine κ} (name : String) (callback : Option κ)
    (replies : AdsReplies) (address : UInt64) (tracked : Tracked engine)
    (contract : FreshHandles 0
      (subscriptions (addVariable name callback replies address engine).2.log)) :
    Tracked (addVariable name callback replies address engine).2 := by
  rcases addVariable_cases name callback replies address engine with
    same | ⟨log, freed, logged⟩ | ⟨log, varHandle, registered, object, keyed, logged⟩
  · rw [same]
    exact tracked
  · rw [freed]
    exact tracked.freeNew logged
  · rw [registered] at contract ⊢
    exact tracked.register object keyed logged contract

theorem start_tracked {engine : Engine κ} (tracked : Tracked engine) : Tracked (start engine) :=
  ⟨tracked.listed, tracked.keyed, tracked.distinct, tracked.owned, tracked.freed, tracked.safe⟩

def objects (engine : Engine κ) : List Nat :=
  engine.variables_.map fun entry => entry.2.object

theorem subscriptions_frees (engine : Engine κ) :
    subscriptions (frees engine) = (objects engine).map .freed := by
  rw [frees, objects, subscriptions, List.filterMap_map, List.map_map, ← List.filterMap_eq_map]
  rfl

theorem subscriptions_stopped {engine : Engine κ} (tracked : Tracked engine) :
    subscriptions (engine.log ++ (deletions engine ++ frees engine)) =
      subscriptions engine.log ++
        ((live (subscriptions engine.log)).map Prod.fst).map .removed ++
        (objects engine).map .freed := by
  have all : (engine.variables_.filter fun entry => entry.2.notificationHandle ≠ 0) =
      engine.variables_ := by
    rw [List.filter_eq_self]
    intro entry member
    obtain ⟨keyed, notNull⟩ := tracked.keyed entry member
    simpa [keyed] using notNull
  have removals : subscriptions (deletions engine) =
      ((live (subscriptions engine.log)).map Prod.fst).map .removed := by
    rw [deletions, all, tracked.listed, owners, subscriptions, List.filterMap_map, List.map_map,
      List.map_map, ← List.filterMap_eq_map]
    apply List.filterMap_congr
    intro entry member
    simp [observe, (tracked.keyed entry member).1]
  rw [subscriptions_append, subscriptions_append, removals, subscriptions_frees,
    List.append_assoc]

theorem stop_released {engine : Engine κ} (tracked : Tracked engine) :
    Released (subscriptions (engine.log ++ (deletions engine ++ frees engine))) := by
  have distinct : ((live (subscriptions engine.log)).map Prod.fst).Nodup := by
    rw [tracked.listed, map_fst_owners]
    exact tracked.distinct
  rw [subscriptions_stopped tracked]
  exact Subscription.released_freeAll
    (Subscription.released_of_removeAll tracked.safe distinct) _

theorem stop_tracked {engine : Engine κ} (tracked : Tracked engine) : Tracked (stop engine) := by
  unfold stop
  by_cases running : engine.running
  · rw [if_pos running]
    have released := stop_released tracked
    refine ⟨released.settled, by simp, by simp, by simp, ?_, released.toSafe⟩
    intro object member
    change _ ∈ subscriptions (engine.log ++ (deletions engine ++ frees engine)) at member
    rw [subscriptions_stopped tracked] at member
    simp only [List.mem_append, List.mem_map, reduceCtorEq, and_false, exists_false, or_false,
      Subscription.Event.freed.injEq] at member
    rcases member with old | ⟨freed, member, rfl⟩
    · exact tracked.freed object old
    · obtain ⟨entry, listed, rfl⟩ := List.mem_map.mp member
      exact tracked.owned entry listed
  · rw [if_neg running]
    exact tracked

theorem perform_tracked {engine : Engine κ} (call : Call κ) (tracked : Tracked engine)
    (contract : FreshHandles 0 (subscriptions (perform engine call).log)) :
    Tracked (perform engine call) := by
  cases call with
  | connect opened => exact connect_tracked opened tracked
  | addVariable name callback replies address =>
    exact addVariable_tracked name callback replies address tracked contract
  | start => exact start_tracked tracked
  | stop => exact stop_tracked tracked

theorem log_perform (engine : Engine κ) (call : Call κ) :
    subscriptions engine.log <+: subscriptions (perform engine call).log := by
  cases call with
  | connect opened =>
    by_cases failed : opened = 0
    · simp [perform, connect, failed]
    · simp [perform, connect, failed, record, subscriptions_append]
  | addVariable name callback replies address =>
    simp only [perform]
    rcases addVariable_cases name callback replies address engine with
      same | ⟨log, freed, logged⟩ | ⟨log, varHandle, registered, _, _, logged⟩
    · rw [same]
    · rw [freed, logged]
      exact List.prefix_append _ _
    · rw [registered, logged, List.append_assoc]
      exact List.prefix_append _ _
  | start => exact List.prefix_refl _
  | stop =>
    by_cases running : engine.running
    · simp [perform, stop, running, record, subscriptions_append]
    · simp [perform, stop, running]

theorem run_tracked (config : RealtimeConfig) (calls : List (Call κ))
    (contract : FreshHandles 0 (subscriptions (Runs.after perform (construct config) calls).log)) :
    Tracked (Runs.after perform (construct config) calls) := by
  revert contract
  refine Runs.invariant_of_step
    (fun engine : Engine κ => FreshHandles 0 (subscriptions engine.log) → Tracked engine)
    ?_ ?_ calls
  · intro engine call tracked contract
    exact perform_tracked call (tracked (contract.front (log_perform engine call))) contract
  · intro _
    exact construct_tracked config

theorem subscriptions_destroy (engine : Engine κ) :
    subscriptions (destroy engine).log =
      subscriptions (stop engine).log ++ (objects (stop engine)).map .freed := by
  have silent : ∀ port, subscriptions [.portClosed port] = [] := fun _ => rfl
  by_cases closed : (stop engine).adsPort ≠ 0
  · simp only [destroy, if_pos closed, record, subscriptions_append, subscriptions_frees, silent,
      List.append_nil]
    rfl
  · simp only [destroy, if_neg closed, record, subscriptions_append, subscriptions_frees]

theorem destroy_released_iff {engine : Engine κ} (tracked : Tracked engine) :
    Released (subscriptions (destroy engine).log) ↔
      engine.running = true ∨ engine.variables_ = [] := by
  rw [subscriptions_destroy]
  by_cases running : engine.running = true
  · simp only [running, true_or, iff_true]
    apply Subscription.released_freeAll
    rw [stop, if_pos running]
    exact stop_released tracked
  · rw [stop, if_neg running]
    simp only [running, Bool.false_eq_true, false_or]
    constructor
    · intro released
      have settled := released.settled
      rw [Subscription.live_freeAll, tracked.listed] at settled
      exact List.map_eq_nil_iff.mp settled
    · intro empty
      apply Subscription.released_freeAll
      refine { tracked.safe with settled := ?_ }
      rw [tracked.listed, empty]
      rfl

theorem notifications_released_iff (config : RealtimeConfig) (calls : List (Call κ))
    (contract : FreshHandles 0 (subscriptions (Runs.after perform (construct config) calls).log)) :
    Released (subscriptions (destroy (Runs.after perform (construct config) calls)).log) ↔
      (Runs.after perform (construct config) calls).running = true ∨
        (Runs.after perform (construct config) calls).variables_ = [] :=
  destroy_released_iff (run_tracked config calls contract)

def granted (symbol notification : UInt32) : AdsReplies :=
  { symbolResult := 0
    symbolHandle := symbol
    infoResult := 0
    symbolSize := 4
    notificationResult := 0
    notificationHandle := notification }

def restarted : List (Call Unit) :=
  [.connect 30000, .addVariable "GVL.abc" (some ()) (granted 1 7) 0x1000, .start, .stop,
    .addVariable "GVL.abc" (some ()) (granted 1 7) 0x1000, .start]

theorem notifications_released_restarted :
    Released (subscriptions (destroy (Runs.after perform (construct {}) restarted)).log) ↔
      (Runs.after perform (construct {}) restarted).running = true ∨
        (Runs.after perform (construct {}) restarted).variables_ = [] := by
  apply notifications_released_iff
  have log : subscriptions (Runs.after perform (construct {}) restarted).log =
      [.created 7 0, .removed 7, .freed 0, .created 7 1] := rfl
  rw [log]
  rintro before handle owner ⟨later, split⟩
  rcases before with _ | ⟨_, _ | ⟨_, _ | ⟨_, _ | ⟨_, before⟩⟩⟩⟩ <;>
    simp_all [live, Subscription.update]

theorem notification_outlives_engine :
    ¬ Released (subscriptions (destroy (Runs.after perform (construct {})
      [.connect 30000, .addVariable "GVL.abc" (some ()) (granted 1 7) 0x1000])).log) := by
  intro released
  have settled := released.settled
  revert settled
  decide

end AdsRealtime.AdsRealtimeEngine
