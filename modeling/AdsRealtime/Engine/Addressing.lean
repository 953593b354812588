import AdsRealtime.Engine.Dispatch
import AdsRealtime.Engine.Logging

set_option autoImplicit false

namespace AdsRealtime.AdsRealtimeEngine

variable {κ : Type}

def registersAt (notification : UInt32) : Event → Option (Int × AmsAddr)
  | .notificationAdded request _ added =>
    if added = notification then some (request.port, request.addr) else none
  | .portOpened _ | .portClosed _ | .symbolHandleAcquired _ _ | .notificationDeleted _ _ _
  | .variableFreed _ => none

-- The last registration counts: the PLC may hand out a handle again.
def home (log : List Event) (notification : UInt32) : Option (Int × AmsAddr) :=
  (log.filterMap (registersAt notification)).getLast?

def Rightly (log : List Event) : Event → Prop
  | .notificationDeleted port addr notification => home log notification = some (port, addr)
  | .portOpened _ | .portClosed _ | .symbolHandleAcquired _ _ | .notificationAdded _ _ _
  | .variableFreed _ => True

instance (log : List Event) (event : Event) : Decidable (Rightly log event) :=
  match event with
  | .notificationDeleted port addr notification =>
    inferInstanceAs (Decidable (home log notification = some (port, addr)))
  | .portOpened _ | .portClosed _ | .symbolHandleAcquired _ _ | .notificationAdded _ _ _
  | .variableFreed _ => inferInstanceAs (Decidable True)

/-- Every deletion request goes to the port and the address that the notification was registered
with. -/
def Addressed (log : List Event) : Prop :=
  ∀ before event, before ++ [event] <+: log → Rightly before event

def Silent (event : Event) : Prop :=
  ∀ notification, registersAt notification event = none

section

variable {xs ys : List Event}

theorem home_append (silent : ∀ event ∈ ys, Silent event) (notification : UInt32) :
    home (xs ++ ys) notification = home xs notification := by
  have none_ : ys.filterMap (registersAt notification) = [] :=
    List.filterMap_eq_nil_iff.mpr fun event member => silent event member notification
  rw [home, home, List.filterMap_append, none_, List.append_nil]

theorem addressed_snoc (addressed : Addressed xs) {event : Event} (rightly : Rightly xs event) :
    Addressed (xs ++ [event]) := by
  intro before other inside
  rcases List.prefix_concat_iff.mp inside with whole | shorter
  · obtain ⟨rfl, same⟩ := List.append_inj' whole rfl
    rw [List.singleton_inj.mp same]
    exact rightly
  · exact addressed before other shorter

theorem addressed_append (addressed : Addressed xs) (silent : ∀ event ∈ ys, Silent event)
    (rightly : ∀ event ∈ ys, Rightly xs event) : Addressed (xs ++ ys) := by
  induction ys using List.reverseRecOn with
  | nil => rwa [List.append_nil]
  | append_singleton ys event ih =>
    have before := fun other member => silent other (List.mem_append_left [event] member)
    have rest := ih before fun other member => rightly other (List.mem_append_left [event] member)
    have last := rightly event (List.mem_append_right ys List.mem_cons_self)
    rw [← List.append_assoc]
    apply addressed_snoc rest
    cases event with
    | notificationDeleted port addr notification => exact (home_append before _).trans last
    | _ => trivial

end

structure Homed (engine : Engine κ) : Prop where
  addressed : Addressed engine.log
  here : ∀ entry ∈ engine.variables_,
    home engine.log entry.2.notificationHandle = some (engine.adsPort, engine.amsAddr)

def ConnectsEmpty (engine : Engine κ) : Call κ → Prop
  | .connect _ => engine.variables_ = []
  | .addVariable _ _ _ _ | .start | .stop => True

section

variable {engine next : Engine κ} {events : List Event}

theorem Homed.quiet (homed : Homed engine) (logged : next.log = engine.log ++ events)
    (silent : ∀ event ∈ events, Silent event)
    (rightly : ∀ event ∈ events, Rightly engine.log event)
    (kept : ∀ entry ∈ next.variables_, entry ∈ engine.variables_ ∧
      next.adsPort = engine.adsPort ∧ next.amsAddr = engine.amsAddr) : Homed next where
  addressed := logged ▸ addressed_append homed.addressed silent rightly
  here := by
    intro entry member
    obtain ⟨old, port, addr⟩ := kept entry member
    rw [logged, home_append silent, port, addr]
    exact homed.here entry old

theorem home_added (log : List Event) (request : NotificationRequest) (object : Nat)
    (added notification : UInt32) :
    home (log ++ [.notificationAdded request object added]) notification =
      if added = notification then some (request.port, request.addr)
      else home log notification := by
  rw [home, List.filterMap_append]
  split
  next same => simp [registersAt, same]
  next other => simp [registersAt, other, home]

theorem deletions_rightly (homed : Homed engine) :
    ∀ event ∈ deletions engine, Rightly engine.log event := by
  rw [deletions, List.forall_mem_map]
  intro entry member
  exact homed.here entry (List.mem_of_mem_filter member)

theorem stop_homed (homed : Homed engine) : Homed (stop engine) := by
  rw [stop]
  split
  · refine homed.quiet rfl ?_ ?_ (by simp)
    · rw [List.forall_mem_append]
      exact ⟨mem_deletions fun _ _ _ _ => rfl, mem_frees fun _ _ => rfl⟩
    · rw [List.forall_mem_append]
      exact ⟨deletions_rightly homed, mem_frees fun _ => trivial⟩
  · exact homed

theorem destroy_homed (homed : Homed engine) : Homed (destroy engine) := by
  have stopped := stop_homed homed
  rw [destroy]
  split
  · refine stopped.quiet (List.append_assoc _ _ _) ?_ ?_ (by simp)
    · rw [List.forall_mem_append]
      exact ⟨by simp [Silent, registersAt], mem_frees fun _ _ => rfl⟩
    · rw [List.forall_mem_append]
      exact ⟨by simp [Rightly], mem_frees fun _ => trivial⟩
  · exact stopped.quiet rfl (mem_frees fun _ _ => rfl) (mem_frees fun _ => trivial) (by simp)

theorem addVariable_homed (homed : Homed engine) (name : String) (callback : Option κ)
    (replies : AdsReplies) (address : UInt64) :
    Homed (addVariable name callback replies address engine).2 := by
  have same (entry : UInt32 × VariableHandle κ) (member : entry ∈ engine.variables_) :
      entry ∈ engine.variables_ ∧ engine.adsPort = engine.adsPort ∧
        engine.amsAddr = engine.amsAddr :=
    ⟨member, rfl, rfl⟩
  unfold addVariable
  split_ifs
  · exact homed
  · exact @Homed.quiet κ engine _ [.variableFreed engine.allocated] homed rfl
      (by simp [Silent, registersAt]) (by simp [Rightly]) same
  · exact @Homed.quiet κ engine _ [.symbolHandleAcquired name replies.symbolHandle,
      .variableFreed engine.allocated] homed rfl (by simp [Silent, registersAt])
      (by simp [Rightly]) same
  · have split_ (freed : List Event) : engine.log ++ (.symbolHandleAcquired name
        replies.symbolHandle :: .notificationAdded (notificationRequest replies address engine)
          engine.allocated replies.notificationHandle :: freed) =
        engine.log ++ [.symbolHandleAcquired name replies.symbolHandle] ++
          [.notificationAdded (notificationRequest replies address engine) engine.allocated
            replies.notificationHandle] ++ freed := by
      simp
    constructor
    · simp only [record]
      rw [split_]
      refine addressed_append ?_ (mem_displaced fun _ _ => rfl) (mem_displaced fun _ => trivial)
      refine addressed_snoc ?_ (by simp [Rightly])
      exact addressed_snoc homed.addressed (by simp [Rightly])
    · intro entry member
      simp only [record]
      rw [split_, home_append (mem_displaced fun _ _ => rfl), home_added]
      split
      next recent => rfl
      next other =>
        rw [home_append (by simp [Silent, registersAt])]
        rcases mem_assign member with old | new
        · exact homed.here entry old
        · exact absurd (congrArg VariableHandle.notificationHandle new).symm other

theorem perform_homed (homed : Homed engine) {call : Call κ} (empty : ConnectsEmpty engine call) :
    Homed (perform engine call) := by
  cases call with
  | connect opened =>
    have none_ : engine.variables_ = [] := empty
    simp only [perform, connect]
    split
    · exact @Homed.quiet κ engine _ [] homed (List.append_nil _).symm (by simp) (by simp)
        (by simp [none_])
    · exact @Homed.quiet κ engine _ [.portOpened opened] homed rfl
        (by simp [Silent, registersAt]) (by simp [Rightly]) (by simp [record, none_])
  | addVariable name callback replies address =>
    exact addVariable_homed homed name callback replies address
  | start => exact ⟨homed.addressed, homed.here⟩
  | stop => exact stop_homed homed

end

theorem deletions_addressed (config : RealtimeConfig) {calls : List (Call κ)}
    (empty : Runs.Guarded perform ConnectsEmpty (construct config) calls) :
    Addressed (destroy (Runs.after perform (construct config) calls)).log := by
  have initial : Homed (construct config : Engine κ) := by
    refine ⟨?_, by simp [construct]⟩
    intro before event inside
    simp [construct] at inside
  exact (destroy_homed (Runs.invariant_of_guarded Homed
    (fun _ _ homed empty => perform_homed homed empty) initial empty)).addressed

def counterVariable : Call Unit :=
  .addVariable "MAIN.counter" (some ()) ⟨0, 1, 0, 4, 0, 7⟩ 4096

theorem deletions_addressed_again :
    Addressed (destroy (Runs.after perform (construct {})
      [.connect 30001, counterVariable, .start, .stop, .connect 30002])).log := by
  apply deletions_addressed
  refine Runs.guarded_cons.mpr ⟨rfl, Runs.guarded_cons.mpr ⟨trivial, ?_⟩⟩
  refine Runs.guarded_cons.mpr ⟨trivial, Runs.guarded_cons.mpr ⟨trivial, ?_⟩⟩
  exact Runs.guarded_cons.mpr ⟨rfl, Runs.guarded_nil _ _ _⟩

theorem misaddressed_of_reconnect :
    ¬ Addressed (destroy (Runs.after perform (construct {})
      [.connect 30001, counterVariable, .connect 30002, .start])).log := by
  intro addressed
  have wrong := addressed
    ((Runs.after perform (construct {})
      [.connect 30001, counterVariable, .connect 30002, .start]).log)
    (.notificationDeleted 30002 { netId := [127, 0, 0, 1, 1, 1], port := 851 } 7)
    (List.isPrefixOf_iff_prefix.mp (by decide))
  revert wrong
  decide

end AdsRealtime.AdsRealtimeEngine
