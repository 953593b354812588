import Mathlib.Data.List.Induction
import Mathlib.Data.List.Nodup
import Mathlib.Data.List.Infix

set_option autoImplicit false

namespace Subscription

variable {H O : Type} [DecidableEq H]

/-- What happens to subscriptions that a service holds on behalf of owners in memory. -/
inductive Event (H O : Type) where
  | created (handle : H) (owner : O)
  | removed (handle : H)
  | freed (owner : O)

def update (live : List (H × O)) : Event H O → List (H × O)
  | .created handle owner => live ++ [(handle, owner)]
  | .removed handle => live.filter fun entry => entry.1 ≠ handle
  | .freed _ => live

def live (log : List (Event H O)) : List (H × O) :=
  log.foldl update []

@[simp] theorem live_nil : live ([] : List (Event H O)) = [] :=
  rfl

@[simp] theorem live_snoc (log : List (Event H O)) (event : Event H O) :
    live (log ++ [event]) = update (live log) event := by
  rw [live, List.foldl_append]
  rfl

/-- No subscription outlives its owner, and what is removed is one live subscription. -/
structure Safe (log : List (Event H O)) : Prop where
  neverDangling : ∀ before, before <+: log → ∀ handle owner, (handle, owner) ∈ live before →
    .freed owner ∉ before
  removedOnce : ∀ before handle, before ++ [.removed handle] <+: log →
    ∃ owner, (live before).filter (fun entry => entry.1 = handle) = [(handle, owner)]

/-- Moreover, nothing is live any more: every subscription has been removed exactly once. -/
structure Released (log : List (Event H O)) : Prop extends Safe log where
  settled : live log = []

/-- The service never hands out the null handle or the handle of a live subscription. -/
def FreshHandles (null : H) (log : List (Event H O)) : Prop :=
  ∀ before handle owner, before ++ [.created handle owner] <+: log →
    handle ≠ null ∧ handle ∉ (live before).map Prod.fst

theorem FreshHandles.front {null : H} {before log : List (Event H O)}
    (inside : before <+: log) (fresh : FreshHandles null log) : FreshHandles null before :=
  fun earlier handle owner front => fresh earlier handle owner (front.trans inside)

theorem FreshHandles.last {null handle : H} {owner : O} {log : List (Event H O)}
    (fresh : FreshHandles null (log ++ [.created handle owner])) :
    handle ≠ null ∧ handle ∉ (live log).map Prod.fst :=
  fresh log handle owner (List.prefix_refl _)

theorem freshHandles_nil (null : H) : FreshHandles null ([] : List (Event H O)) := by
  intro before handle owner inside
  simp at inside

theorem freshHandles_snoc {null : H} {log : List (Event H O)} {event : Event H O}
    (fresh : FreshHandles null log)
    (last : ∀ handle owner, event = .created handle owner →
      handle ≠ null ∧ handle ∉ (live log).map Prod.fst) : FreshHandles null (log ++ [event]) := by
  intro before handle owner inside
  rcases List.prefix_concat_iff.mp inside with same | earlier
  · obtain ⟨rfl, created⟩ := List.append_inj' same rfl
    exact last handle owner (List.singleton_inj.mp created).symm
  · exact fresh before handle owner earlier

theorem freshHandles_append {null : H} {log events : List (Event H O)}
    (fresh : FreshHandles null log)
    (none_ : ∀ handle owner, .created handle owner ∉ events) :
    FreshHandles null (log ++ events) ∧
      ∀ handle ∈ (live (log ++ events)).map Prod.fst, handle ∈ (live log).map Prod.fst := by
  induction events using List.reverseRecOn with
  | nil =>
    rw [List.append_nil]
    exact ⟨fresh, fun _ member => member⟩
  | append_singleton events event ih =>
    obtain ⟨before, fewer⟩ := ih fun handle owner member =>
      none_ handle owner (List.mem_append_left _ member)
    rw [← List.append_assoc]
    have other : ∀ handle owner, event ≠ .created handle owner := by
      rintro handle owner rfl
      exact none_ handle owner (by simp)
    refine ⟨freshHandles_snoc before fun handle owner same => absurd same (other handle owner), ?_⟩
    intro handle member
    apply fewer
    rw [live_snoc] at member
    cases event with
    | created handle owner => exact absurd rfl (other handle owner)
    | removed removed =>
      obtain ⟨entry, kept, rfl⟩ := List.mem_map.mp member
      exact List.mem_map.mpr ⟨entry, List.mem_of_mem_filter kept, rfl⟩
    | freed owner => exact member

theorem safe_nil : Safe ([] : List (Event H O)) where
  neverDangling := by
    intro before inside handle owner member
    rw [List.prefix_nil.mp inside] at member
    simp at member
  removedOnce := by
    intro before handle inside
    simp at inside

theorem safe_snoc {log : List (Event H O)} {event : Event H O} (safe : Safe log)
    (attached : ∀ handle owner, (handle, owner) ∈ update (live log) event →
      .freed owner ∉ log ++ [event])
    (once : ∀ handle, event = .removed handle →
      ∃ owner, (live log).filter (fun entry => entry.1 = handle) = [(handle, owner)]) :
    Safe (log ++ [event]) where
  neverDangling := by
    intro before inside handle owner member
    rcases List.prefix_concat_iff.mp inside with rfl | earlier
    · exact attached handle owner (by simpa using member)
    · exact safe.neverDangling before earlier handle owner member
  removedOnce := by
    intro before handle inside
    rcases List.prefix_concat_iff.mp inside with same | earlier
    · obtain ⟨rfl, last⟩ := List.append_inj' same rfl
      obtain rfl : .removed handle = event := by simpa using last
      exact once handle rfl
    · exact safe.removedOnce before handle earlier

theorem safe_created {log : List (Event H O)} {handle : H} {owner : O} (safe : Safe log)
    (alive : .freed owner ∉ log) : Safe (log ++ [.created handle owner]) := by
  apply safe_snoc safe
  · intro other holder member
    rcases List.mem_append.mp member with old | new
    · simpa using safe.neverDangling log (List.prefix_refl _) other holder old
    · obtain ⟨_, rfl⟩ : other = handle ∧ holder = owner := by simpa using new
      simpa using alive
  · intro other removed
    cases removed

theorem safe_removed {log : List (Event H O)} {handle : H} {owner : O} (safe : Safe log)
    (once : (live log).filter (fun entry => entry.1 = handle) = [(handle, owner)]) :
    Safe (log ++ [.removed handle]) := by
  apply safe_snoc safe
  · intro other holder member
    have old := List.mem_of_mem_filter member
    simpa using safe.neverDangling log (List.prefix_refl _) other holder old
  · intro other removed
    cases removed
    exact ⟨owner, once⟩

theorem safe_freed {log : List (Event H O)} {owner : O} (safe : Safe log)
    (detached : ∀ handle, (handle, owner) ∉ live log) : Safe (log ++ [.freed owner]) := by
  apply safe_snoc safe
  · intro handle holder member
    have kept := safe.neverDangling log (List.prefix_refl _) handle holder member
    have other : holder ≠ owner := fun same => detached handle (same ▸ member)
    simpa [other] using kept
  · intro handle removed
    cases removed

theorem released_of_removeAll {log : List (Event H O)} (safe : Safe log)
    (distinct : ((live log).map Prod.fst).Nodup) :
    Released (log ++ ((live log).map Prod.fst).map .removed) := by
  generalize entries : live log = remaining at distinct
  induction remaining generalizing log with
  | nil =>
    rw [List.map_nil, List.map_nil, List.append_nil]
    exact { safe with settled := entries }
  | cons entry rest ih =>
    obtain ⟨handle, owner⟩ := entry
    obtain ⟨absent, distinct⟩ := List.nodup_cons.mp distinct
    have others : ∀ entry ∈ rest, entry.1 ≠ handle :=
      fun entry member same => absent (List.mem_map.mpr ⟨entry, member, same⟩)
    have once : (live log).filter (fun entry => entry.1 = handle) = [(handle, owner)] := by
      rw [entries, List.filter_cons_of_pos (by simp), List.filter_eq_nil_iff.mpr]
      simpa using others
    have left : live (log ++ [.removed handle]) = rest := by
      rw [live_snoc, update, entries, List.filter_cons_of_neg (by simp), List.filter_eq_self]
      simpa using others
    have done := ih (safe_removed safe once) left distinct
    simpa using done

theorem live_freeAll (log : List (Event H O)) (owners : List O) :
    live (log ++ owners.map .freed) = live log := by
  induction owners generalizing log with
  | nil => simp
  | cons owner owners ih =>
    have rest := ih (log ++ [.freed owner])
    rw [live_snoc, update] at rest
    simpa using rest

theorem released_freeAll {log : List (Event H O)} (released : Released log) (owners : List O) :
    Released (log ++ owners.map .freed) := by
  induction owners generalizing log with
  | nil => simpa using released
  | cons owner owners ih =>
    have detached : ∀ handle, (handle, owner) ∉ live log := by
      simp [released.settled]
    have next : Released (log ++ [.freed owner]) :=
      { safe_freed released.toSafe detached with
        settled := by rw [live_snoc, update, released.settled] }
    simpa using ih next

end Subscription
