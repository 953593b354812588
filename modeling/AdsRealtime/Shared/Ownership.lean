import AdsRealtime.Shared.Runs
import Mathlib.Logic.Function.Basic

set_option autoImplicit false

namespace Ownership

variable {ι ρ : Type} [DecidableEq ρ]

inductive Event (ι ρ : Type) where
  | granted (owner : ι) (resource : ρ)
  | returned (owner : ι) (resource : ρ)
  deriving DecidableEq

def transfer (owner : ρ → Option ι) : Event ι ρ → ρ → Option ι
  | .granted receiver resource => Function.update owner resource (some receiver)
  | .returned _ resource => Function.update owner resource none

def Lawful (owner : ρ → Option ι) : Event ι ρ → Prop
  | .granted _ resource => owner resource = none
  | .returned giver resource => owner resource = some giver

def ownerAfter (events : List (Event ι ρ)) : ρ → Option ι :=
  Runs.after transfer (fun _ => none) events

/-- Only what nobody owns is granted, and only its owner returns it. -/
def Orderly (events : List (Event ι ρ)) : Prop :=
  Runs.Guarded transfer Lawful (fun _ => none) events

theorem ownerAfter_snoc (events : List (Event ι ρ)) (event : Event ι ρ) :
    ownerAfter (events ++ [event]) = transfer (ownerAfter events) event :=
  Runs.after_snoc _ _ _ _

theorem orderly_snoc {events : List (Event ι ρ)} {event : Event ι ρ} (orderly : Orderly events)
    (lawful : Lawful (ownerAfter events) event) : Orderly (events ++ [event]) :=
  Runs.guarded_snoc orderly lawful

theorem orderly_nil : Orderly ([] : List (Event ι ρ)) :=
  Runs.guarded_nil _ _ _

theorem transfer_keeps {owner : ρ → Option ι} {event : Event ι ρ} {holder : ι} {resource : ρ}
    (owned : owner resource = some holder) (lawful : Lawful owner event)
    (kept : event ≠ .returned holder resource) : transfer owner event resource = some holder := by
  cases event with
  | granted receiver other =>
    by_cases same : resource = other
    · subst same
      exact absurd (owned.symm.trans lawful) (Option.some_ne_none _)
    · rw [transfer, Function.update_of_ne same]
      exact owned
  | returned giver other =>
    by_cases same : resource = other
    · subst same
      obtain rfl := Option.some.inj (owned.symm.trans lawful)
      exact absurd rfl kept
    · rw [transfer, Function.update_of_ne same]
      exact owned

theorem ownerAfter_keeps {before middle : List (Event ι ρ)} {holder : ι} {resource : ρ}
    (orderly : Orderly (before ++ middle)) (owned : ownerAfter before resource = some holder)
    (kept : .returned holder resource ∉ middle) :
    ownerAfter (before ++ middle) resource = some holder := by
  induction middle using List.reverseRecOn with
  | nil => rwa [List.append_nil]
  | append_singleton middle event ih =>
    rw [List.mem_append, not_or, List.mem_singleton] at kept
    rw [← List.append_assoc] at orderly ⊢
    have earlier := Runs.guarded_front (List.prefix_append _ _) orderly
    rw [ownerAfter_snoc]
    apply transfer_keeps (ih earlier kept.1)
    · exact orderly _ event (List.prefix_refl _)
    · exact fun same => kept.2 same.symm

theorem returned_between {before middle later : List (Event ι ρ)} {first second : ι}
    {resource : ρ}
    (orderly : Orderly
      (before ++ .granted first resource :: middle ++ .granted second resource :: later)) :
    .returned first resource ∈ middle := by
  by_contra kept
  have granted : ownerAfter (before ++ [.granted first resource]) resource = some first := by
    rw [ownerAfter_snoc, transfer, Function.update_self]
  have split : before ++ .granted first resource :: middle ++ .granted second resource :: later =
      (before ++ [.granted first resource] ++ middle ++ [.granted second resource]) ++ later := by
    simp
  rw [split] at orderly
  have again := Runs.guarded_front (List.prefix_append _ _) orderly
  have still := ownerAfter_keeps (Runs.guarded_front (List.prefix_append _ _) again) granted kept
  have free : ownerAfter (before ++ [.granted first resource] ++ middle) resource = none :=
    again _ (.granted second resource) (List.prefix_refl _)
  rw [free] at still
  exact Option.some_ne_none _ still.symm

end Ownership
