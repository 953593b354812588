import AdsRealtime.Engine.AdsRealtimeEngine

set_option autoImplicit false

namespace AdsRealtime.AdsRealtimeEngine

variable {κ : Type} {P : Event → Prop}

section

variable (freed : ∀ object, P (.variableFreed object))

include freed

theorem mem_frees {engine : Engine κ} : ∀ event ∈ frees engine, P event := by
  rw [frees, List.forall_mem_map]
  exact fun entry _ => freed _

theorem mem_displaced {key : UInt32} {varHandle : VariableHandle κ}
    {variables_ : List (UInt32 × VariableHandle κ)} :
    ∀ event ∈ (assign key varHandle variables_).2, P event := by
  induction variables_ with
  | nil => simp [assign]
  | cons entry rest ih =>
    obtain ⟨other, held⟩ := entry
    rw [assign]
    split
    · exact List.forall_mem_singleton.mpr (freed _)
    · exact ih

end

theorem mem_deletions {engine : Engine κ}
    (deleted : ∀ port addr notification, P (.notificationDeleted port addr notification)) :
    ∀ event ∈ deletions engine, P event := by
  rw [deletions, List.forall_mem_map]
  exact fun entry _ => deleted _ _ _

theorem addVariable_logged (name : String) (callback : Option κ) (replies : AdsReplies)
    (address : UInt64) (engine : Engine κ)
    (acquired : P (.symbolHandleAcquired name replies.symbolHandle))
    (added : P (.notificationAdded (notificationRequest replies address engine) engine.allocated
      replies.notificationHandle))
    (freed : ∀ object, P (.variableFreed object)) :
    ∃ events, (addVariable name callback replies address engine).2.log = engine.log ++ events ∧
      ∀ event ∈ events, P event := by
  unfold addVariable
  split_ifs
  · exact ⟨[], (List.append_nil _).symm, by simp⟩
  · exact ⟨_, rfl, List.forall_mem_singleton.mpr (freed _)⟩
  · refine ⟨_, rfl, ?_⟩
    rw [List.forall_mem_cons, List.forall_mem_singleton]
    exact ⟨acquired, freed _⟩
  · refine ⟨_, rfl, ?_⟩
    rw [List.forall_mem_cons, List.forall_mem_cons]
    exact ⟨acquired, added, mem_displaced freed⟩

theorem addVariable_same (name : String) (callback : Option κ) (replies : AdsReplies)
    (address : UInt64) (engine : Engine κ) :
    (addVariable name callback replies address engine).2.running = engine.running ∧
      (addVariable name callback replies address engine).2.adsPort = engine.adsPort := by
  unfold addVariable
  split_ifs <;> exact ⟨rfl, rfl⟩

end AdsRealtime.AdsRealtimeEngine
