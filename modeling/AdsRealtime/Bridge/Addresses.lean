import Mathlib.Data.List.Perm.Subperm
import AdsRealtime.Bridge.Registrations

set_option autoImplicit false

namespace AdsRealtime.MainProgram

open AdsRealtimeEngine

def grantedAddresses (registrations : List Registration) : List UInt64 :=
  (registrations.filter fun next => Granted next.replies).map Registration.address

-- The handle objects that main keeps lie apart, none of them at the null address, and below four
-- gigabytes, where a user handle of 32 bits can lead.
structure Addressable (registrations : List Registration) : Prop where
  apart : (grantedAddresses registrations).Nodup
  notNull : 0 ∉ grantedAddresses registrations
  low : ∀ address ∈ grantedAddresses registrations, address.toNat < 2 ^ 32

theorem addressable_gvlAbc : Addressable [gvlAbc] where
  apart := by decide
  notNull := by decide
  low := by
    intro address member
    obtain rfl : address = 0x1000 := List.mem_singleton.mp member
    decide

def addresses (variables_ : List (UInt32 × VariableHandle Unit)) : List UInt64 :=
  variables_.map fun entry => entry.2.address

structure Located (env : Environment) (bridge : Bridge) : Prop where
  placed : (addresses bridge.engine.variables_ ++
    grantedAddresses (upcoming env bridge.main)).Subperm (grantedAddresses env.registrations)
  callable : ∀ entry ∈ bridge.engine.variables_, entry.2.callback.isSome

theorem addresses_assign (key : UInt32) (varHandle : VariableHandle Unit)
    (variables_ : List (UInt32 × VariableHandle Unit)) :
    (addresses (assign key varHandle variables_).1).Subperm
      (addresses variables_ ++ [varHandle.address]) := by
  induction variables_ with
  | nil => exact List.Subperm.refl _
  | cons first rest ih =>
    obtain ⟨other, held⟩ := first
    rw [assign]
    split
    · have moved := (List.perm_append_singleton varHandle.address (addresses rest)).symm
      exact moved.subperm.trans (List.sublist_cons_self _ _).subperm
    · exact (List.subperm_cons held.address).mpr ih

theorem launch_located (env : Environment) : Located env (.launch env.config) where
  placed := List.Subperm.refl _
  callable := by simp [Bridge.launch, construct]

section

variable {env : Environment} {bridge next : Bridge}

theorem Located.go (located : Located env bridge)
    (variables_ : next.engine.variables_ = bridge.engine.variables_)
    (later : (upcoming env next.main).Sublist (upcoming env bridge.main)) :
    Located env next where
  placed := by
    rw [variables_]
    have fewer : (grantedAddresses (upcoming env next.main)).Sublist
        (grantedAddresses (upcoming env bridge.main)) := (later.filter _).map _
    exact (fewer.append_left _).subperm.trans located.placed
  callable := by
    rw [variables_]
    exact located.callable

theorem Located.clear (located : Located env bridge)
    (variables_ : next.engine.variables_ = [])
    (later : (upcoming env next.main).Sublist (upcoming env bridge.main)) :
    Located env next where
  placed := by
    rw [variables_]
    have fewer : (grantedAddresses (upcoming env next.main)).Sublist
        (grantedAddresses (upcoming env bridge.main)) := (later.filter _).map _
    exact (fewer.trans (List.sublist_append_right _ _)).subperm.trans located.placed
  callable := by simp [variables_]

theorem addVariable_located {registration : Registration} {rest : List Registration}
    (located : Located env bridge) (at_ : bridge.main = .registering (registration :: rest)) :
    Located env { bridge with
      engine := (addVariable registration.name (some ()) registration.replies registration.address
        bridge.engine).2
      main := .registering rest } := by
  have later : (upcoming env (.registering rest)).Sublist (upcoming env bridge.main) := by
    rw [at_]
    exact List.sublist_cons_self _ _
  obtain ⟨placed, callable⟩ := located
  unfold addVariable
  split_ifs with invalid noSymbol refused
  · exact Located.go ⟨placed, callable⟩ rfl later
  · exact Located.go ⟨placed, callable⟩ rfl later
  · exact Located.go ⟨placed, callable⟩ rfl later
  · have granted : Granted registration.replies := ⟨not_not.mp noSymbol, not_not.mp refused⟩
    have next_ : grantedAddresses (registration :: rest) =
        registration.address :: grantedAddresses rest := by
      rw [grantedAddresses, List.filter_cons_of_pos (by simpa using granted)]
      rfl
    rw [at_, upcoming, next_] at placed
    constructor
    · refine List.Subperm.trans ?_ placed
      rw [← List.singleton_append, ← List.append_assoc]
      exact (addresses_assign _ _ _).append (List.Subperm.refl _)
    · intro entry member
      rcases mem_assign member with old | new
      · exact callable entry old
      · rw [new]
        rfl

theorem mainStep_located (located : Located env bridge) : Located env (mainStep env bridge) := by
  unfold mainStep
  cases at_ : bridge.main with
  | connectEngine =>
    refine located.go ?_ ?_
    · simp only [connect]
      split <;> rfl
    · rw [at_]
      simp only
      split <;> simp
  | connectPublisher =>
    refine located.go rfl ?_
    rw [at_]
    simp only
    split <;> simp
  | registering rest =>
    cases rest with
    | nil => exact located.go rfl (List.nil_sublist _)
    | cons registration rest => exact addVariable_located located at_
  | starting => exact located.go rfl (List.nil_sublist _)
  | spawning => exact located.go rfl (List.nil_sublist _)
  | waiting =>
    simp only
    split
    · exact located
    · exact located.go rfl (List.nil_sublist _)
  | stopping =>
    simp only
    split <;> exact located.go rfl (List.nil_sublist _)
  | deleting rest =>
    cases rest with
    | nil => exact located.clear rfl (List.nil_sublist _)
    | cons entry rest =>
      simp only
      split
      · exact located
      · exact located.go rfl (List.nil_sublist _)
  | disconnecting => exact located.go rfl (List.nil_sublist _)
  | joining =>
    simp only
    split
    · exact located.go rfl (List.nil_sublist _)
    · exact located
  | destroyingPublisher code => exact located.go rfl (List.nil_sublist _)
  | destroyingEngine code => exact located.clear rfl (List.nil_sublist _)
  | returned code => exact located

theorem run_located (env : Environment) (actions : List Action) :
    Located env (run env actions) := by
  apply Runs.invariant_of_step (Located env)
  · intro bridge action located
    by_cases main : action = .main
    · rw [main]
      exact mainStep_located located
    · obtain ⟨sameMain, sameEngine⟩ := perform_aside env bridge main
      refine located.go (by rw [sameEngine]) ?_
      rw [sameMain]
  · exact launch_located env

theorem Located.reached (located : Located env bridge) (addressable : Addressable env.registrations)
    {entry : UInt32 × VariableHandle Unit} (member : entry ∈ bridge.engine.variables_) :
    entry.2.address.toUInt32 ≠ 0 ∧
      heapOf bridge.engine.variables_ entry.2.address.toUInt32.toUInt64 = some entry.2 := by
  have kept : (addresses bridge.engine.variables_).Subperm (grantedAddresses env.registrations) :=
    (List.sublist_append_left _ _).subperm.trans located.placed
  have placed : entry.2.address ∈ grantedAddresses env.registrations :=
    kept.subset (List.mem_map_of_mem member)
  have whole := (toUInt32_toUInt64_eq_iff entry.2.address).mpr (addressable.low _ placed)
  constructor
  · intro null
    rw [null] at whole
    rw [← whole] at placed
    exact addressable.notNull placed
  · obtain ⟨listed, same, sublist⟩ := kept
    rw [whole]
    exact heapOf_address (same.nodup_iff.mp (sublist.nodup addressable.apart)) member

theorem deliver_follows (located : Located env bridge)
    (addressable : Addressable env.registrations) {notification : UInt32}
    {entry : UInt32 × VariableHandle Unit} (found : liveEntry notification bridge = some entry)
    (memory : Nat → UInt8) (pNotification : Nat) :
    deliver notification memory pNotification bridge =
      { bridge with
        deliveries :=
          { notification := notification
            object := entry.2.object
            message := sampleMessage entry.2 memory pNotification
            position := .entered } :: bridge.deliveries
        delivered := bridge.delivered ++ [sampleMessage entry.2 memory pNotification] } := by
  obtain ⟨_, member, _⟩ := liveEntry_eq_some found
  obtain ⟨notNull, reached⟩ := located.reached addressable member
  obtain ⟨callback, present⟩ := Option.isSome_iff_exists.mp (located.callable entry member)
  have called := adsNotificationCallback_called notNull reached present memory pNotification
  simp only [deliver, found, reached, called]
  rfl

end

theorem uses_alive {env : Environment} {bridge : Bridge} (staged : Staged env bridge)
    (sheltered : Sheltered bridge) (located : Located env bridge)
    (addressable : Addressable env.registrations) (next : Action) :
    ∀ object ∈ uses bridge next, Alive bridge object := by
  intro object used
  cases next with
  | main => exact mainUses_alive sheltered object used
  | signal => cases used
  | monitor =>
    rw [uses] at used
    split at used
    next reading =>
      rw [List.mem_singleton.mp used]
      exact monitor_alive staged reading
    next => cases used
  | deliver notification memory pNotification =>
    rw [uses] at used
    split at used
    · cases used
    next entry found =>
      obtain ⟨_, member, _⟩ := liveEntry_eq_some found
      obtain ⟨notNull, reached⟩ := located.reached addressable member
      rw [userUses, if_neg notNull, reached] at used
      rw [List.mem_singleton.mp used]
      exact sheltered.handle_alive member
  | callback place =>
    rw [uses] at used
    split at used
    · cases used
    next delivery found =>
      exact deliveryUses_alive sheltered (List.mem_of_getElem? found) object used

end AdsRealtime.MainProgram
