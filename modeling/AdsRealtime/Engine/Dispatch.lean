import AdsRealtime.Engine.Lifecycle
import AdsRealtime.Engine.Notification

set_option autoImplicit false

namespace AdsRealtime.AdsRealtimeEngine

variable {κ : Type}

def heapOf (variables_ : List (UInt32 × VariableHandle κ)) (address : UInt64) :
    Option (VariableHandle κ) :=
  (variables_.map Prod.snd).find? fun varHandle => varHandle.address = address

/-- The objects lie apart, and none of them at the null address. -/
structure Placed (variables_ : List (UInt32 × VariableHandle κ)) : Prop where
  apart : (variables_.map fun entry => entry.2.address).Nodup
  notNull : ∀ entry ∈ variables_, entry.2.address ≠ 0

/-- The user handle leads the callback to this very object. -/
structure Reaches (variables_ : List (UInt32 × VariableHandle κ)) (memory : Nat → UInt8)
    (pNotification : Nat) (hUser : UInt32) (varHandle : VariableHandle κ) : Prop where
  uses : heapOf variables_ hUser.toUInt64 = some varHandle
  calls : ∃ callback arguments, varHandle.callback = some callback ∧
    adsNotificationCallback (heapOf variables_) memory pNotification hUser =
      .called callback arguments ∧
    arguments.variableName = varHandle.name

def registrations (log : List Event) : List (NotificationRequest × Nat) :=
  log.filterMap fun event =>
    match event with
    | .notificationAdded request object _ => some (request, object)
    | _ => none

theorem registrations_append (xs ys : List Event) :
    registrations (xs ++ ys) = registrations xs ++ registrations ys :=
  List.filterMap_append

theorem mem_registrations {log : List Event} {request : NotificationRequest} {object : Nat} :
    (request, object) ∈ registrations log ↔
      ∃ notification, .notificationAdded request object notification ∈ log := by
  rw [registrations, List.mem_filterMap]
  constructor
  · rintro ⟨event, member, seen⟩
    cases event with
    | notificationAdded request' object' notification =>
      simp only [Option.some.injEq, Prod.mk.injEq] at seen
      obtain ⟨rfl, rfl⟩ := seen
      exact ⟨notification, member⟩
    | _ => cases seen
  · rintro ⟨notification, member⟩
    exact ⟨_, member, rfl⟩

structure Registered (engine : Engine κ) : Prop where
  callable : ∀ entry ∈ engine.variables_, entry.2.callback.isSome
  requested : ∀ entry ∈ engine.variables_, ∃ request,
    (request, entry.2.object) ∈ registrations engine.log ∧
      request.hUser = entry.2.address.toUInt32
  once : ((registrations engine.log).map Prod.snd).Nodup
  recent : ∀ object ∈ (registrations engine.log).map Prod.snd, object < engine.allocated

theorem mem_assign {key : UInt32} {varHandle : VariableHandle κ}
    {variables_ : List (UInt32 × VariableHandle κ)} {entry : UInt32 × VariableHandle κ}
    (member : entry ∈ (assign key varHandle variables_).1) :
    entry ∈ variables_ ∨ entry.2 = varHandle := by
  induction variables_ with
  | nil =>
    obtain rfl : entry = (key, varHandle) := by simpa [assign] using member
    exact .inr rfl
  | cons first rest ih =>
    obtain ⟨other, held⟩ := first
    rw [assign] at member
    split at member
    · rcases List.mem_cons.mp member with rfl | later
      · exact .inr rfl
      · exact .inl (List.mem_cons_of_mem _ later)
    · rcases List.mem_cons.mp member with rfl | later
      · exact .inl (by simp)
      · rcases ih later with old | new
        · exact .inl (List.mem_cons_of_mem _ old)
        · exact .inr new

theorem registrations_assign (key : UInt32) (varHandle : VariableHandle κ)
    (variables_ : List (UInt32 × VariableHandle κ)) :
    registrations (assign key varHandle variables_).2 = [] := by
  induction variables_ with
  | nil => rfl
  | cons first rest ih =>
    obtain ⟨other, held⟩ := first
    rw [assign]
    split
    · rfl
    · exact ih

theorem addVariable_registers (name : String) (callback : Option κ) (replies : AdsReplies)
    (address : UInt64) (engine : Engine κ) :
    ((addVariable name callback replies address engine).2.variables_ = engine.variables_ ∧
        registrations (addVariable name callback replies address engine).2.log =
          registrations engine.log ∧
        engine.allocated ≤ (addVariable name callback replies address engine).2.allocated) ∨
      (callback.isSome ∧
        (addVariable name callback replies address engine).2.variables_ =
          (assign replies.notificationHandle
            (makeVarHandle name callback replies address engine) engine.variables_).1 ∧
        registrations (addVariable name callback replies address engine).2.log =
          registrations engine.log ++
            [(notificationRequest replies address engine, engine.allocated)] ∧
        (addVariable name callback replies address engine).2.allocated =
          engine.allocated + 1) := by
  unfold addVariable
  split_ifs with invalid noSymbol refused
  · exact .inl ⟨rfl, rfl, Nat.le_refl _⟩
  · refine .inl ⟨rfl, ?_, Nat.le_succ _⟩
    simp [record, registrations]
  · refine .inl ⟨rfl, ?_, Nat.le_succ _⟩
    simp [record, registrations]
  · refine .inr ⟨by simpa [Option.isSome_iff_ne_none] using invalid, rfl, ?_, rfl⟩
    have freed := registrations_assign replies.notificationHandle
      (makeVarHandle name callback replies address engine) engine.variables_
    simp only [record, registrations_append]
    congr 1
    change (notificationRequest replies address engine, engine.allocated) ::
      registrations (assign _ _ _).2 = _
    rw [freed]

theorem construct_registered (config : RealtimeConfig) :
    Registered (construct config : Engine κ) := by
  constructor <;> simp [construct, registrations]

theorem Registered.keep {engine next : Engine κ} (registered : Registered engine)
    (variables_ : ∀ entry ∈ next.variables_, entry ∈ engine.variables_)
    (log : registrations next.log = registrations engine.log)
    (allocated : engine.allocated ≤ next.allocated) : Registered next where
  callable := fun entry member => registered.callable entry (variables_ entry member)
  requested := by
    intro entry member
    rw [log]
    exact registered.requested entry (variables_ entry member)
  once := by
    rw [log]
    exact registered.once
  recent := by
    intro object member
    rw [log] at member
    exact Nat.lt_of_lt_of_le (registered.recent object member) allocated

theorem addVariable_registered {engine : Engine κ} (registered : Registered engine)
    (name : String) (callback : Option κ) (replies : AdsReplies) (address : UInt64) :
    Registered (addVariable name callback replies address engine).2 := by
  rcases addVariable_registers name callback replies address engine with
    ⟨variables_, log, allocated⟩ | ⟨present, variables_, log, allocated⟩
  · exact registered.keep (fun entry member => variables_ ▸ member) log allocated
  · constructor
    · intro entry member
      rw [variables_] at member
      rcases mem_assign member with old | new
      · exact registered.callable entry old
      · rw [new]
        exact present
    · intro entry member
      rw [variables_] at member
      rw [log]
      rcases mem_assign member with old | new
      · obtain ⟨request, logged, hUser⟩ := registered.requested entry old
        exact ⟨request, List.mem_append_left _ logged, hUser⟩
      · rw [new]
        exact ⟨_, List.mem_append_right _ (List.mem_singleton_self _), rfl⟩
    · rw [log, List.map_append, List.nodup_append]
      refine ⟨registered.once, by simp, ?_⟩
      intro object old other new
      have below := registered.recent object old
      obtain rfl : other = engine.allocated := by simpa using new
      omega
    · intro object member
      rw [log, List.map_append, List.mem_append] at member
      rw [allocated]
      rcases member with old | new
      · exact Nat.lt_succ_of_lt (registered.recent object old)
      · obtain rfl : object = engine.allocated := by simpa using new
        exact Nat.lt_succ_self _

theorem perform_registered (engine : Engine κ) (call : Call κ) (registered : Registered engine) :
    Registered (perform engine call) := by
  cases call with
  | connect opened =>
    by_cases failed : opened = 0
    · refine registered.keep ?_ ?_ ?_ <;> simp [perform, connect, failed]
    · refine registered.keep ?_ ?_ ?_ <;>
        simp [perform, connect, failed, record, registrations]
  | addVariable name callback replies address =>
    exact addVariable_registered registered name callback replies address
  | start => exact registered.keep (fun entry member => member) rfl (Nat.le_refl _)
  | stop =>
    by_cases running : engine.running
    · have silent : registrations (deletions engine ++ frees engine) = [] := by
        simp [registrations, deletions, frees]
      refine registered.keep ?_ ?_ ?_ <;>
        simp [perform, stop, running, record, registrations_append, silent]
    · refine registered.keep ?_ ?_ ?_ <;> simp [perform, stop, running]

theorem run_registered (config : RealtimeConfig) (calls : List (Call κ)) :
    Registered (Runs.after perform (construct config) calls) :=
  Runs.invariant_of_step Registered (fun engine call => perform_registered engine call)
    (construct_registered config) calls

theorem Registered.hUser_eq {engine : Engine κ} (registered : Registered engine)
    {entry : UInt32 × VariableHandle κ} (member : entry ∈ engine.variables_)
    {request : NotificationRequest}
    (logged : (request, entry.2.object) ∈ registrations engine.log) :
    request.hUser = entry.2.address.toUInt32 := by
  obtain ⟨own, present, hUser⟩ := registered.requested entry member
  have same : (request, entry.2.object) = (own, entry.2.object) :=
    List.inj_on_of_nodup_map registered.once logged present rfl
  rw [(Prod.mk.inj same).1, hUser]

theorem heapOf_address {variables_ : List (UInt32 × VariableHandle κ)}
    (apart : (variables_.map fun entry => entry.2.address).Nodup)
    {entry : UInt32 × VariableHandle κ} (member : entry ∈ variables_) :
    heapOf variables_ entry.2.address = some entry.2 := by
  induction variables_ with
  | nil => simp at member
  | cons first rest ih =>
    rw [List.map_cons, List.nodup_cons] at apart
    rw [heapOf, List.map_cons]
    rcases List.mem_cons.mp member with rfl | later
    · rw [List.find?_cons_of_pos (by simp)]
    · have other : first.2.address ≠ entry.2.address := fun same =>
        apart.1 (same ▸ List.mem_map_of_mem later)
      rw [List.find?_cons_of_neg (by simpa using other)]
      exact ih apart.2 later

theorem address_of_heapOf {variables_ : List (UInt32 × VariableHandle κ)} {address : UInt64}
    {varHandle : VariableHandle κ} (found : heapOf variables_ address = some varHandle) :
    varHandle.address = address := by
  simpa using List.find?_some found

theorem toUInt32_toUInt64_eq_iff (address : UInt64) :
    address.toUInt32.toUInt64 = address ↔ address.toNat < 2 ^ 32 := by
  rw [← UInt64.toNat_inj, UInt32.toNat_toUInt64, UInt64.toNat_toUInt32]
  omega

theorem reaches_iff {engine : Engine κ} (registered : Registered engine)
    (placed : Placed engine.variables_) (memory : Nat → UInt8) (pNotification : Nat)
    {entry : UInt32 × VariableHandle κ} (member : entry ∈ engine.variables_) :
    Reaches engine.variables_ memory pNotification entry.2.address.toUInt32 entry.2 ↔
      entry.2.address.toNat < 2 ^ 32 := by
  rw [← toUInt32_toUInt64_eq_iff]
  constructor
  · intro reaches
    exact (address_of_heapOf reaches.uses).symm
  · intro whole
    have uses : heapOf engine.variables_ entry.2.address.toUInt32.toUInt64 = some entry.2 := by
      rw [whole]
      exact heapOf_address placed.apart member
    have notNull : entry.2.address.toUInt32 ≠ 0 := by
      intro null
      apply placed.notNull entry member
      rw [← whole, null]
      rfl
    obtain ⟨callback, present⟩ := Option.isSome_iff_exists.mp (registered.callable entry member)
    exact ⟨uses, callback, _, present,
      adsNotificationCallback_called notNull uses present memory pNotification, rfl⟩

theorem notification_reaches_iff (config : RealtimeConfig) (calls : List (Call κ))
    (placed : Placed (Runs.after perform (construct config) calls).variables_)
    (memory : Nat → UInt8) (pNotification : Nat) :
    ∀ entry ∈ (Runs.after perform (construct config) calls).variables_,
      (∀ request notification, Event.notificationAdded request entry.2.object notification ∈
          (Runs.after perform (construct config) calls).log →
        Reaches (Runs.after perform (construct config) calls).variables_ memory pNotification
          request.hUser entry.2) ↔
        entry.2.address.toNat < 2 ^ 32 := by
  intro entry member
  have registered := run_registered config calls
  rw [← reaches_iff registered placed memory pNotification member]
  constructor
  · intro reaches
    obtain ⟨request, logged, hUser⟩ := registered.requested entry member
    obtain ⟨notification, added⟩ := mem_registrations.mp logged
    rw [← hUser]
    exact reaches request notification added
  · intro reaches request notification added
    rw [registered.hUser_eq member (mem_registrations.mpr ⟨notification, added⟩)]
    exact reaches

def twoHandles : List (Call Nat) :=
  [.connect 30000, .addVariable "GVL.abc" (some 0) (granted 1 7) 0x1000,
    .addVariable "GVL.def" (some 1) (granted 2 8) 0x100001000]

theorem twoHandles_placed :
    Placed (Runs.after perform (construct {}) twoHandles).variables_ where
  apart := by decide
  notNull := by decide

def secondHandle : UInt32 × VariableHandle Nat :=
  (Runs.after perform (construct {}) twoHandles).variables_.get ⟨1, by decide⟩

theorem notification_reaches_iff_twoHandles :
    (∀ request notification, Event.notificationAdded request secondHandle.2.object notification ∈
        (Runs.after perform (construct {}) twoHandles).log →
      Reaches (Runs.after perform (construct {}) twoHandles).variables_ (fun _ => 0) 0
        request.hUser secondHandle.2) ↔
      secondHandle.2.address.toNat < 2 ^ 32 :=
  notification_reaches_iff {} twoHandles twoHandles_placed (fun _ => 0) 0 secondHandle
    (List.get_mem _ _)

theorem notification_reaches_other_handle :
    ∃ entry ∈ (Runs.after perform (construct {}) twoHandles).variables_,
      ∃ request notification, Event.notificationAdded request entry.2.object notification ∈
          (Runs.after perform (construct {}) twoHandles).log ∧
        ¬ Reaches (Runs.after perform (construct {}) twoHandles).variables_ (fun _ => 0) 0
          request.hUser entry.2 ∧
        entry.2.name = "GVL.def" ∧
        ∃ arguments,
          adsNotificationCallback
              (heapOf (Runs.after perform (construct {}) twoHandles).variables_) (fun _ => 0) 0
              request.hUser = .called 0 arguments ∧
            arguments.variableName = "GVL.abc" := by
  refine ⟨_, List.mem_cons_of_mem _ (List.mem_singleton_self _), _, 8,
    List.getElem_mem (n := 4) (by decide), ?_, rfl, _, rfl, rfl⟩
  intro reaches
  have uses := congrArg (Option.map VariableHandle.name) reaches.uses
  revert uses
  decide

end AdsRealtime.AdsRealtimeEngine
