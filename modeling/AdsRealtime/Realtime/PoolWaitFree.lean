import AdsRealtime.Realtime.RtssMemoryPool
import AdsRealtime.Shared.WaitFree

set_option autoImplicit false

namespace AdsRealtime.RtssMemoryPool

variable {ι : Type} [DecidableEq ι]

-- The most steps of its own that a thread needs until it returns: two for each turn of the loop,
-- and one to leave it.
def phaseWork (poolSize : Nat) : Phase → Nat
  | .idle => 0
  | .probing i => 2 * (poolSize - i) + 1
  | .drawn i _ => 2 * (poolSize - (i + 1)) + 2
  | .releasing _ => 1

def Action.stepsThread (thread : ι) (action : Action ι) : Bool :=
  action = .step thread

section

variable {poolSize : Nat} {pool : Pool ι} {thread : ι}

theorem phase_grant (idx : Nat) : (pool.grant thread idx).phase thread = .idle :=
  phase_goto_self

theorem phase_release (entry : Nat) : (pool.release thread entry).phase thread = .idle :=
  phase_goto_self

theorem step_comesOn (calling : pool.phase thread ≠ .idle) :
    (act poolSize pool (.step thread)).phase thread = .idle ∨
      (act poolSize pool (.step thread)).phase thread ≠ .idle ∧
        phaseWork poolSize ((act poolSize pool (.step thread)).phase thread) <
          phaseWork poolSize (pool.phase thread) := by
  cases at_ : pool.phase thread with
  | idle => exact absurd at_ calling
  | probing i =>
    by_cases more : i < poolSize
    · rw [step_draw at_ more]
      have drawn : (pool.goto thread (.drawn i (pool.nextIndex % poolSize))).phase thread = _ :=
        phase_goto_self
      refine .inr ⟨?_, ?_⟩
      · simp only [drawn]
        exact Phase.noConfusion
      · simp only [drawn, phaseWork]
        omega
    · rw [step_over at_ more]
      exact .inl phase_goto_self
  | drawn i idx =>
    by_cases used : pool.inUse idx = true
    · rw [step_miss at_ used, phase_goto_self]
      refine .inr ⟨Phase.noConfusion, ?_⟩
      simp only [phaseWork]
      omega
    · rw [step_hit at_ (by simpa using used)]
      exact .inl (phase_grant idx)
  | releasing entry =>
    simp only [act, threadStep, at_]
    cases entry with
    | none => exact .inl phase_goto_self
    | some entry => exact .inl (phase_release entry)

theorem phase_kept (calling : pool.phase thread ≠ .idle) {action : Action ι}
    (other : action.stepsThread thread = false) :
    (act poolSize pool action).phase thread = pool.phase thread := by
  by_cases mine : thread = action.thread
  · cases action with
    | callAllocate caller =>
      obtain rfl : thread = caller := mine
      simp only [act, if_neg calling]
    | callDeallocate caller ptr =>
      obtain rfl : thread = caller := mine
      simp only [act]
      rw [if_neg fun both => calling both.1]
    | step caller =>
      obtain rfl : thread = caller := mine
      simp [Action.stepsThread] at other
  · exact phase_act_of_ne mine

end

theorem calls_return_within (poolSize : Nat) (pool : Pool ι) (thread : ι)
    (later : List (Action ι)) (calling : pool.phase thread ≠ .idle)
    (enough : phaseWork poolSize (pool.phase thread) ≤
      later.countP (Action.stepsThread thread)) :
    ∃ before, before <+: later ∧
      (Runs.after (act poolSize) pool before).phase thread = .idle := by
  refine @Runs.done_within _ _ (act poolSize) (Action.stepsThread thread)
    (fun state => state.phase thread ≠ .idle) (fun state => state.phase thread = .idle)
    (fun state => phaseWork poolSize (state.phase thread)) ?_ ?_ ?_ pool calling later enough
  · intro state busy
    cases at_ : state.phase thread with
    | idle => exact absurd at_ busy
    | _ => simp [phaseWork]
  · intro state action busy mine
    obtain rfl : action = .step thread := by simpa [Action.stepsThread] using mine
    exact step_comesOn busy
  · intro state action busy other
    rw [phase_kept busy other]
    exact ⟨busy, Nat.le_refl _⟩

theorem calls_return_within_two :
    ∃ before, before <+: [.callAllocate false, .step true, .step false, .step false, .step true,
        .step true, .step true, .step true] ∧
      (Runs.after (act 2) (act 2 .new (.callAllocate true)) before).phase true = .idle :=
  calls_return_within 2 (act 2 .new (.callAllocate true)) true _ (by decide) (by decide)

end AdsRealtime.RtssMemoryPool
