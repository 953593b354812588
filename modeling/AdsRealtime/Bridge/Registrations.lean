import AdsRealtime.Bridge.Lifetimes

set_option autoImplicit false

namespace AdsRealtime.MainProgram

open AdsRealtimeEngine
open Subscription (live FreshHandles)

def Granted (replies : AdsReplies) : Prop :=
  replies.symbolResult = 0 ∧ replies.notificationResult = 0

instance (replies : AdsReplies) : Decidable (Granted replies) :=
  inferInstanceAs (Decidable (_ ∧ _))

def grantedHandles (registrations : List Registration) : List UInt32 :=
  (registrations.filter fun next => Granted next.replies).map fun next =>
    next.replies.notificationHandle

def Distinct (registrations : List Registration) : Prop :=
  (grantedHandles registrations).Nodup ∧ 0 ∉ grantedHandles registrations

instance (registrations : List Registration) : Decidable (Distinct registrations) :=
  inferInstanceAs (Decidable (_ ∧ _))

@[simp] def upcoming (env : Environment) : MainAt → List Registration
  | .connectEngine | .connectPublisher => env.registrations
  | .registering rest => rest
  | .starting | .spawning | .waiting | .stopping | .deleting _ | .disconnecting | .joining
  | .destroyingPublisher _ | .destroyingEngine _ | .returned _ => []

structure Fresh (log : List Event) (registrations : List Registration) : Prop where
  contract : FreshHandles 0 (subscriptions log)
  notNull : 0 ∉ grantedHandles registrations
  distinct : (grantedHandles registrations).Nodup
  apart : ∀ handle ∈ grantedHandles registrations,
    handle ∉ (live (subscriptions log)).map Prod.fst

theorem Fresh.quiet {log later : List Event} {registrations : List Registration}
    {events : List (Subscription.Event UInt32 Nat)} (fresh : Fresh log registrations)
    (logged : subscriptions later = subscriptions log ++ events)
    (none_ : ∀ handle owner, .created handle owner ∉ events) : Fresh later registrations := by
  obtain ⟨contract, fewer⟩ := Subscription.freshHandles_append fresh.contract none_
  rw [← logged] at contract fewer
  exact ⟨contract, fresh.notNull, fresh.distinct,
    fun handle granted live_ => fresh.apart handle granted (fewer handle live_)⟩

theorem Fresh.finish {log : List Event} {registrations : List Registration}
    (fresh : Fresh log registrations) : Fresh log [] :=
  ⟨fresh.contract, by simp [grantedHandles], by simp [grantedHandles], by simp [grantedHandles]⟩

theorem Fresh.skip {log : List Event} {next : Registration} {rest : List Registration}
    (fresh : Fresh log (next :: rest)) : Fresh log rest := by
  have fewer : (grantedHandles rest).Sublist (grantedHandles (next :: rest)) :=
    ((List.sublist_cons_self _ _).filter _).map _
  exact ⟨fresh.contract, fun null => fresh.notNull (fewer.subset null),
    fewer.nodup fresh.distinct, fun handle granted => fresh.apart handle (fewer.subset granted)⟩

theorem Fresh.grant {log later : List Event} {next : Registration} {rest : List Registration}
    {owner : Nat} (fresh : Fresh log (next :: rest)) (granted : Granted next.replies)
    (logged : subscriptions later =
      subscriptions log ++ [.created next.replies.notificationHandle owner]) :
    Fresh later rest := by
  have handles : grantedHandles (next :: rest) =
      next.replies.notificationHandle :: grantedHandles rest := by
    rw [grantedHandles, List.filter_cons_of_pos (by simpa using granted)]
    rfl
  obtain ⟨contract, notNull, distinct, apart⟩ := fresh
  rw [handles] at notNull distinct apart
  obtain ⟨absent, distinct⟩ := List.nodup_cons.mp distinct
  refine ⟨?_, fun null => notNull (List.mem_cons_of_mem _ null), distinct, ?_⟩
  · rw [logged]
    apply Subscription.freshHandles_snoc contract
    rintro handle holder ⟨⟩
    exact ⟨fun null => notNull (null ▸ List.mem_cons_self),
      apart _ List.mem_cons_self⟩
  · intro handle member live_
    rw [logged, Subscription.live_snoc, Subscription.update, List.map_append,
      List.mem_append] at live_
    rcases live_ with old | new
    · exact apart handle (List.mem_cons_of_mem _ member) old
    · obtain rfl : handle = next.replies.notificationHandle := by simpa using new
      exact absent member

theorem no_creation {events : List Event}
    (quiet : ∀ event ∈ events, ∀ handle owner, observe event ≠ some (.created handle owner))
    (handle : UInt32) (owner : Nat) : .created handle owner ∉ subscriptions events := by
  rw [subscriptions, List.mem_filterMap]
  rintro ⟨event, member, created⟩
  exact quiet event member handle owner created

theorem addVariable_fresh {engine : Engine Unit} {next : Registration} {rest : List Registration}
    (fresh : Fresh engine.log (next :: rest)) :
    Fresh (addVariable next.name (some ()) next.replies next.address engine).2.log rest := by
  have freedOnly (log : List Event) (logged : subscriptions log =
      subscriptions engine.log ++ [.freed engine.allocated]) : Fresh log rest :=
    fresh.skip.quiet logged (by simp)
  unfold addVariable
  split_ifs with invalid noSymbol refused
  · exact fresh.skip
  · apply freedOnly
    simp only [record, subscriptions_append]
    rfl
  · apply freedOnly
    simp only [record, subscriptions_append]
    rfl
  · have granted : Granted next.replies := ⟨not_not.mp noSymbol, not_not.mp refused⟩
    simp only [record]
    have added := fresh.grant granted
      (show subscriptions (engine.log ++ [.symbolHandleAcquired next.name
          next.replies.symbolHandle, .notificationAdded
            (notificationRequest next.replies next.address engine) engine.allocated
            next.replies.notificationHandle]) =
          subscriptions engine.log ++
            [.created next.replies.notificationHandle engine.allocated] by
        rw [subscriptions_append]
        rfl)
    apply added.quiet
    · rw [← subscriptions_append, List.append_assoc]
      rfl
    · exact no_creation (mem_displaced fun _ _ _ => by simp [observe])

theorem no_creation_deletionOf (engine : Engine Unit) (entry : UInt32 × VariableHandle Unit) :
    ∀ event ∈ deletionOf engine entry, ∀ handle owner,
      observe event ≠ some (.created handle owner) := by
  unfold deletionOf
  split <;> simp [observe]

theorem mainStep_fresh {env : Environment} {bridge : Bridge} (staged : Staged env bridge)
    (fresh : Fresh bridge.engine.log (upcoming env bridge.main)) :
    Fresh (mainStep env bridge).engine.log (upcoming env (mainStep env bridge).main) := by
  unfold mainStep
  cases at_ : bridge.main with
  | connectEngine =>
    rw [at_] at fresh
    simp only [connect]
    split
    · exact fresh.finish
    · exact fresh.quiet (subscriptions_append _ _) (by simp [subscriptions, observe])
  | connectPublisher =>
    rw [at_] at fresh
    simp only
    split
    · exact fresh
    · exact fresh.finish
  | registering rest =>
    rw [at_] at fresh
    cases rest with
    | nil => exact fresh
    | cons next rest => exact addVariable_fresh fresh
  | starting =>
    rw [at_] at fresh
    exact fresh
  | spawning =>
    rw [at_] at fresh
    exact fresh
  | waiting =>
    rw [at_] at fresh
    simp only
    split
    · rw [at_]
      exact fresh
    · exact fresh
  | stopping =>
    rw [at_] at fresh
    simp only
    split <;> exact fresh
  | deleting rest =>
    rw [at_] at fresh
    cases rest with
    | nil =>
      exact fresh.quiet (subscriptions_append _ _)
        (no_creation (mem_frees fun _ _ _ => by simp [observe]))
    | cons entry rest =>
      simp only
      split
      · rw [at_]
        exact fresh
      · exact fresh.quiet (subscriptions_append _ _) (no_creation (no_creation_deletionOf _ _))
  | disconnecting =>
    rw [at_] at fresh
    exact fresh
  | joining =>
    rw [at_] at fresh
    simp only
    split
    · exact fresh
    · rw [at_]
      exact fresh
  | destroyingPublisher code =>
    rw [at_] at fresh
    exact fresh
  | destroyingEngine code =>
    rw [at_] at fresh
    have stopped : bridge.engine.running = false := by rw [staged.running, at_]; rfl
    have same : stop bridge.engine = bridge.engine := by
      rw [stop, stopped, if_neg Bool.false_ne_true]
    apply fresh.quiet (subscriptions_destroy _ |>.trans (by rw [same]))
    simp
  | returned code =>
    rw [at_] at fresh ⊢
    exact fresh

theorem perform_fresh {env : Environment} {bridge : Bridge} (staged : Staged env bridge)
    (fresh : Fresh bridge.engine.log (upcoming env bridge.main)) (action : Action) :
    Fresh (perform env bridge action).engine.log
      (upcoming env (perform env bridge action).main) := by
  by_cases main : action = .main
  · rw [main]
    exact mainStep_fresh staged fresh
  · obtain ⟨sameMain, sameEngine⟩ := perform_aside env bridge main
    rw [sameMain, sameEngine]
    exact fresh

theorem run_fresh {env : Environment} (distinct : Distinct env.registrations)
    (actions : List Action) : FreshHandles 0 (subscriptions (run env actions).engine.log) := by
  have initial : Fresh (Bridge.launch env.config).engine.log env.registrations :=
    ⟨Subscription.freshHandles_nil 0, distinct.2, distinct.1, by simp [Bridge.launch, construct]⟩
  have invariant := Runs.invariant_of_step
    (fun bridge => Staged env bridge ∧ Fresh bridge.engine.log (upcoming env bridge.main))
    (fun _ action both =>
      ⟨perform_staged both.1 action, perform_fresh both.1 both.2 action⟩)
    ⟨launch_staged env, initial⟩ actions
  exact invariant.2.contract

end AdsRealtime.MainProgram
