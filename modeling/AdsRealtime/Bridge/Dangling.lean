import AdsRealtime.Bridge.Addresses
import AdsRealtime.Bridge.Shutdown
import AdsRealtime.Engine.Handles

set_option autoImplicit false

namespace AdsRealtime.MainProgram

open AdsRealtimeEngine

structure Traced (bridge : Bridge) : Prop where
  once : HeldOrFreed bridge.engine
  allocated : ∀ delivery ∈ bridge.deliveries, delivery.object < bridge.engine.allocated
  serving : bridge.engine.variables_ ≠ [] → Serving bridge.main

theorem Traced.freed {bridge : Bridge} (traced : Traced bridge) {delivery : Delivery}
    (member : delivery ∈ bridge.deliveries) (none_ : bridge.engine.variables_ = []) :
    .variableFreed delivery.object ∈ bridge.engine.log := by
  have once := traced.once delivery.object
  rw [if_pos (traced.allocated delivery member), none_] at once
  apply List.count_pos_iff.mp
  simp [heldObjects] at once
  omega

theorem launch_traced (config : RealtimeConfig) : Traced (.launch config) where
  once := construct_heldOrFreed config
  allocated := by simp [Bridge.launch]
  serving := fun some_ => absurd rfl some_

theorem Traced.go {bridge next : Bridge} (traced : Traced bridge) (once : HeldOrFreed next.engine)
    (grows : bridge.engine.allocated ≤ next.engine.allocated)
    (deliveries : next.deliveries = bridge.deliveries)
    (serving : next.engine.variables_ ≠ [] → Serving next.main) : Traced next where
  once := once
  allocated := by
    intro delivery member
    rw [deliveries] at member
    exact Nat.lt_of_lt_of_le (traced.allocated delivery member) grows
  serving := serving

theorem clear_heldOrFreed {engine : Engine Unit} (once : HeldOrFreed engine) :
    HeldOrFreed ({ record (frees engine) engine with variables_ := [] } : Engine Unit) := by
  intro object
  refine Eq.trans ?_ (once object)
  simp only [record, List.count_append, count_frees]
  simp [heldObjects]

theorem delete_heldOrFreed {engine : Engine Unit} (once : HeldOrFreed engine)
    (entry : UInt32 × VariableHandle Unit) :
    HeldOrFreed (record (deletionOf engine entry) engine) := by
  intro object
  refine Eq.trans ?_ (once object)
  have none_ : (deletionOf engine entry).count (.variableFreed object) = 0 := by
    rw [List.count_eq_zero, deletionOf]
    split <;> simp
  simp only [record, List.count_append, none_]
  rfl

theorem allocated_addVariable (name : String) (callback : Option Unit) (replies : AdsReplies)
    (address : UInt64) (engine : Engine Unit) :
    engine.allocated ≤ (addVariable name callback replies address engine).2.allocated := by
  rcases addVariable_cases name callback replies address engine with
    same | ⟨_, freed, _⟩ | ⟨_, _, registered, _⟩
  · rw [same]
  · rw [freed]
    exact Nat.le_succ _
  · rw [registered]
    exact Nat.le_succ _

theorem mainStep_traced {env : Environment} {bridge : Bridge} (staged : Staged env bridge)
    (traced : Traced bridge) : Traced (mainStep env bridge) := by
  have idle (place : ¬ Serving bridge.main) (some_ : bridge.engine.variables_ ≠ []) : False :=
    place (traced.serving some_)
  unfold mainStep
  cases at_ : bridge.main with
  | connectEngine =>
    have kept := length_connect env.opened bridge.engine
    refine traced.go (connect_heldOrFreed traced.once env.opened) ?_ rfl ?_
    · simp only [connect]
      split <;> exact Nat.le_refl _
    · intro some_
      simp only [kept] at some_
      exact (idle (by simp [at_]) some_).elim
  | connectPublisher =>
    exact traced.go traced.once (Nat.le_refl _) rfl
      fun some_ => (idle (by simp [at_]) some_).elim
  | registering rest =>
    cases rest with
    | nil => exact traced.go traced.once (Nat.le_refl _) rfl fun _ => trivial
    | cons next rest =>
      exact traced.go (addVariable_heldOrFreed traced.once _ _ _ _)
        (allocated_addVariable _ _ _ _ _) rfl fun _ => trivial
  | starting => exact traced.go traced.once (Nat.le_refl _) rfl fun _ => trivial
  | spawning => exact traced.go traced.once (Nat.le_refl _) rfl fun _ => trivial
  | waiting =>
    simp only
    split
    · exact traced
    · exact traced.go traced.once (Nat.le_refl _) rfl fun _ => trivial
  | stopping =>
    have running : bridge.engine.running = true := by rw [staged.running, at_]; rfl
    simp only [if_pos running]
    exact traced.go traced.once (Nat.le_refl _) rfl fun _ => trivial
  | deleting rest =>
    cases rest with
    | nil =>
      exact traced.go (clear_heldOrFreed traced.once) (Nat.le_refl _) rfl
        fun some_ => absurd rfl some_
    | cons entry rest =>
      simp only
      split
      · exact traced
      · exact traced.go (delete_heldOrFreed traced.once entry) (Nat.le_refl _) rfl
          fun _ => trivial
  | disconnecting =>
    exact traced.go traced.once (Nat.le_refl _) rfl
      fun some_ => (idle (by simp [at_]) some_).elim
  | joining =>
    simp only
    split
    · exact traced.go traced.once (Nat.le_refl _) rfl
        fun some_ => (idle (by simp [at_]) some_).elim
    · exact traced
  | destroyingPublisher code =>
    exact traced.go traced.once (Nat.le_refl _) rfl
      fun some_ => (idle (by simp [at_]) some_).elim
  | destroyingEngine code =>
    refine traced.go (destroy_heldOrFreed traced.once) ?_ rfl fun some_ => ?_
    · exact (allocated_destroy bridge.engine).ge
    · exact absurd rfl some_
  | returned code => exact traced

theorem Traced.held {bridge : Bridge} (traced : Traced bridge)
    {entry : UInt32 × VariableHandle Unit} (member : entry ∈ bridge.engine.variables_) :
    entry.2.object < bridge.engine.allocated := by
  by_contra beyond
  have once := traced.once entry.2.object
  rw [if_neg beyond] at once
  have held : 0 < (heldObjects bridge.engine.variables_).count entry.2.object :=
    List.count_pos_iff.mpr (List.mem_map.mpr ⟨entry, member, rfl⟩)
  omega

theorem perform_traced {env : Environment} {bridge : Bridge} (staged : Staged env bridge)
    (traced : Traced bridge) (action : Action) : Traced (perform env bridge action) := by
  by_cases main : action = .main
  · subst main
    exact mainStep_traced staged traced
  · obtain ⟨sameMain, sameEngine⟩ := perform_aside env bridge main
    constructor
    · rw [sameEngine]
      exact traced.once
    · intro delivery member
      rw [sameEngine]
      rcases perform_deliveries main member with ⟨earlier, old, _, same⟩ | called
      · rw [← same]
        exact traced.allocated earlier old
      · obtain ⟨holder, listed, same⟩ := called.found
        rw [← same]
        exact traced.held listed
    · rw [sameEngine, sameMain]
      exact traced.serving

theorem run_traced (env : Environment) (actions : List Action) : Traced (run env actions) := by
  have both := Runs.invariant_of_step (fun bridge => Staged env bridge ∧ Traced bridge)
    (fun _ action both => ⟨perform_staged both.1 action, perform_traced both.1 both.2 action⟩)
    ⟨launch_staged env, launch_traced env.config⟩ actions
  exact both.2

theorem mainStep_deliveries (env : Environment) (bridge : Bridge) :
    (mainStep env bridge).deliveries = bridge.deliveries := by
  unfold mainStep
  split <;> first | rfl | (split <;> rfl)

theorem idle_of_stuck {env : Environment} {bridge : Bridge} (staged : Staged env bridge)
    (signalled : bridge.gRunning = false) (rushes : env.deletionWaits ≠ true)
    (stuck : mainStep env bridge = bridge) : ¬ Serving bridge.main := by
  have still := congrArg Bridge.main stuck
  unfold mainStep at still
  intro serving
  cases at_ : bridge.main with
  | registering rest => cases rest <;> simp [at_] at still
  | starting => simp [at_] at still
  | spawning => simp [at_] at still
  | waiting => simp [at_, signalled] at still
  | stopping =>
    have running : bridge.engine.running = true := by rw [staged.running, at_]; rfl
    simp [at_, running] at still
  | deleting rest =>
    cases rest with
    | nil => simp [at_] at still
    | cons entry rest =>
      have free : ¬ Blocked env bridge entry := fun blocked => rushes blocked.1
      simp [at_, free] at still
  | _ => simp [at_] at serving

theorem freed_of_delivery {env : Environment} (rushes : env.deletionWaits ≠ true)
    {actions : List Action} {delivery : Delivery}
    (member : delivery ∈ (run env actions).deliveries) :
    ∃ later, delivery ∈ (run env later).deliveries ∧
      ¬ Alive (run env later) (.handle delivery.object) := by
  have preserved (bridge : Bridge) (action : Action) (main : action = .main)
      (holds : Staged env bridge ∧ bridge.gRunning = false ∧ delivery ∈ bridge.deliveries) :
      Staged env (perform env bridge action) ∧ (perform env bridge action).gRunning = false ∧
        delivery ∈ (perform env bridge action).deliveries := by
    subst main
    refine ⟨perform_staged holds.1 _, perform_signalled holds.2.1 _, ?_⟩
    rw [perform, mainStep_deliveries]
    exact holds.2.2
  have descends (bridge : Bridge) (action : Action) (main : action = .main)
      (holds : Staged env bridge ∧ bridge.gRunning = false ∧ delivery ∈ bridge.deliveries)
      (changes : perform env bridge action ≠ bridge) :
      work env (perform env bridge action) < work env bridge :=
    perform_work holds.1 holds.2.1 (by simp [main, Own]) changes
  have signalled : run env (actions ++ [.signal]) =
      { run env actions with gRunning := false } := Runs.after_snoc _ _ _ _
  have initial : Staged env (run env (actions ++ [.signal])) ∧
      (run env (actions ++ [.signal])).gRunning = false ∧
        delivery ∈ (run env (actions ++ [.signal])).deliveries := by
    refine ⟨run_staged env _, ?_, ?_⟩ <;> rw [signalled]
    exact member
  obtain ⟨steps, main, ⟨staged, still, kept⟩, quiet⟩ :=
    Runs.exists_quiet preserved descends _ initial
  have whole : run env (actions ++ [.signal] ++ steps) =
      Runs.after (perform env) (run env (actions ++ [.signal])) steps :=
    Runs.after_append _ _ _ _
  rw [← whole] at staged still kept quiet
  have traced := run_traced env (actions ++ [.signal] ++ steps)
  have idle := idle_of_stuck staged still rushes (quiet .main rfl)
  have none_ : (run env (actions ++ [.signal] ++ steps)).engine.variables_ = [] := by
    by_contra some_
    exact idle (traced.serving some_)
  exact ⟨_, kept, fun alive => alive (traced.freed kept none_)⟩

theorem neverDangling_iff {env : Environment} (distinct : Distinct env.registrations)
    (addressable : Addressable env.registrations) :
    (∀ actions next, ∀ object ∈ uses (run env actions) next, Alive (run env actions) object) ↔
      env.deletionWaits = true ∨ ∀ actions, (run env actions).deliveries = [] := by
  constructor
  · intro safe
    by_contra neither
    obtain ⟨rushes, some_⟩ := not_or.mp neither
    obtain ⟨actions, some_⟩ := not_forall.mp some_
    obtain ⟨delivery, member⟩ := List.exists_mem_of_ne_nil _ some_
    obtain ⟨later, still, gone⟩ := freed_of_delivery rushes member
    obtain ⟨place, found⟩ := List.mem_iff_getElem?.mp still
    apply gone
    apply safe later (.callback place)
    simp only [uses, found, deliveryUses]
    split <;> exact List.mem_cons_self
  · intro unharmed actions next
    have sheltered := run_sheltered actions
      (unharmed.imp_right fun none_ before _ => none_ before) (run_fresh distinct actions)
    exact uses_alive (run_staged env actions) sheltered (run_located env actions) addressable next

theorem neverDangling_bridging :
    (∀ actions next, ∀ object ∈ uses (run (bridging true) actions) next,
        Alive (run (bridging true) actions) object) ↔
      (bridging true).deletionWaits = true ∨
        ∀ actions, (run (bridging true) actions).deliveries = [] :=
  neverDangling_iff (by decide) addressable_gvlAbc

end AdsRealtime.MainProgram
