import AdsRealtime.Realtime.RtssMemoryPool
import AdsRealtime.Shared.Circular
import Mathlib.Data.List.Infix

set_option autoImplicit false

namespace AdsRealtime.RtssMemoryPool

def Full (poolSize : Nat) (inUse : Nat → Bool) : Prop :=
  ∀ slot, slot < poolSize → inUse slot = true

instance (poolSize : Nat) (inUse : Nat → Bool) : Decidable (Full poolSize inUse) :=
  inferInstanceAs (Decidable (∀ slot, slot < poolSize → inUse slot = true))

def Phase.allocating : Phase → Bool
  | .idle => false
  | .probing _ => true
  | .drawn _ _ => true
  | .releasing _ => false

def draws (poolSize nextIndex : Nat) : Nat → List Nat
  | 0 => []
  | count + 1 => nextIndex % poolSize :: draws poolSize (nextOf nextIndex) count

def tries (poolSize nextIndex : Nat) : Phase → List Nat
  | .idle => []
  | .probing i => draws poolSize nextIndex (poolSize - i)
  | .drawn i idx => idx :: draws poolSize nextIndex (poolSize - (i + 1))
  | .releasing _ => []

def Finds (inUse : Nat → Bool) (slots : List Nat) : Prop :=
  ∃ slot ∈ slots, inUse slot = false

instance (inUse : Nat → Bool) (slots : List Nat) : Decidable (Finds inUse slots) :=
  inferInstanceAs (Decidable (∃ slot ∈ slots, inUse slot = false))

variable {ι : Type} [DecidableEq ι]

def ReturnsNull (poolSize : Nat) (pool : Pool ι) (thread : ι) : Prop :=
  ∃ i, pool.phase thread = .probing i ∧ ¬ i < poolSize

/-- Whoever is told that the pool is exhausted was in the call when every slot was in use. -/
def Truthful (poolSize : Nat) (actions : List (Action ι)) : Prop :=
  ∀ before during thread,
    before ++ .callAllocate thread :: during ++ [.step thread] <+: actions →
      (Runs.after (act poolSize) Pool.new before).phase thread = .idle →
        (∀ middle, middle <+: during →
          ((Runs.after (act poolSize) Pool.new
            (before ++ .callAllocate thread :: middle)).phase thread).allocating = true) →
          ReturnsNull poolSize
            (Runs.after (act poolSize) Pool.new (before ++ .callAllocate thread :: during)) thread →
            ∃ middle, middle <+: during ∧
              Full poolSize (Runs.after (act poolSize) Pool.new
                (before ++ .callAllocate thread :: middle)).inUse

-- Beside the pool: which calls under way have met an instant at which every slot was in use.
structure Watched (ι : Type) where
  pool : Pool ι
  metFull : ι → Bool

def Watched.new : Watched ι :=
  { pool := Pool.new, metFull := fun _ => false }

def watch (poolSize : Nat) (watched : Watched ι) (action : Action ι) : Watched ι :=
  let pool := act poolSize watched.pool action
  { pool := pool
    metFull := fun thread =>
      Full poolSize pool.inUse ||
        (watched.pool.phase thread).allocating && watched.metFull thread }

def Counting (watched : Watched ι) (thread : ι) : Prop :=
  (watched.pool.phase thread).allocating = true ∧ watched.metFull thread = false

/--
The step leaves every call that has not met a full pool a free slot to come to. Only a call's
first draws, another thread's draw and another thread's taking of a slot can fail to.
-/
def Spares (poolSize : Nat) (watched : Watched ι) : Action ι → Prop
  | .callAllocate thread =>
    watched.pool.phase thread = .idle → Full poolSize watched.pool.inUse ∨
      Finds watched.pool.inUse (tries poolSize watched.pool.nextIndex (.probing 0))
  | .callDeallocate _ _ => True
  | .step thread =>
    match watched.pool.phase thread with
    | .idle => True
    | .probing i => i < poolSize → ∀ other, other ≠ thread → Counting watched other →
      Finds watched.pool.inUse
        (tries poolSize (nextOf watched.pool.nextIndex) (watched.pool.phase other))
    | .drawn _ idx => watched.pool.inUse idx = false →
      ∀ other, other ≠ thread → Counting watched other →
        let inUse := Function.update watched.pool.inUse idx true
        Full poolSize inUse ∨
          Finds inUse (tries poolSize watched.pool.nextIndex (watched.pool.phase other))
    | .releasing _ => True

def Hopeful (poolSize : Nat) (watched : Watched ι) : Prop :=
  ∀ thread, Counting watched thread → Finds watched.pool.inUse
    (tries poolSize watched.pool.nextIndex (watched.pool.phase thread))

theorem Finds.mono {inUse later : Nat → Bool} {slots : List Nat} (finds : Finds inUse slots)
    (released : ∀ slot, inUse slot = false → later slot = false) : Finds later slots := by
  obtain ⟨slot, member, free⟩ := finds
  exact ⟨slot, member, released slot free⟩

theorem tries_draw {poolSize nextIndex i : Nat} (more : i < poolSize) :
    tries poolSize nextIndex (.probing i) =
      tries poolSize (nextOf nextIndex) (.drawn i (nextIndex % poolSize)) := by
  obtain ⟨rest, split⟩ : ∃ rest, poolSize - i = rest + 1 := ⟨poolSize - (i + 1), by omega⟩
  have left : poolSize - (i + 1) = rest := by omega
  rw [tries, tries, split, left, draws]

theorem counting_watch {poolSize : Nat} {watched : Watched ι} {action : Action ι} {thread : ι} :
    Counting (watch poolSize watched action) thread ↔
      ((act poolSize watched.pool action).phase thread).allocating = true ∧
        ¬ Full poolSize (act poolSize watched.pool action).inUse ∧
          ((watched.pool.phase thread).allocating = true → watched.metFull thread = false) := by
  simp [Counting, watch]

theorem counting_before {poolSize : Nat} {watched : Watched ι} {action : Action ι} {thread : ι}
    (counting : Counting (watch poolSize watched action) thread)
    (stays : (act poolSize watched.pool action).phase thread = watched.pool.phase thread) :
    Counting watched thread := by
  obtain ⟨allocating, _, unmet⟩ := counting_watch.mp counting
  rw [stays] at allocating
  exact ⟨allocating, unmet allocating⟩

section Steps

variable {poolSize : Nat} {watched : Watched ι}

theorem callAllocate_hopeful (hopeful : Hopeful poolSize watched) {caller : ι}
    (spares : Spares poolSize watched (.callAllocate caller)) :
    Hopeful poolSize (watch poolSize watched (.callAllocate caller)) := by
  intro thread counting
  have before := counting_before counting
  obtain ⟨_, notFull, _⟩ := counting_watch.mp counting
  simp only [watch, act] at before notFull ⊢
  by_cases idle : watched.pool.phase caller = .idle
  · rw [if_pos idle] at before notFull ⊢
    by_cases same : thread = caller
    · subst same
      rw [phase_goto_self]
      exact (spares idle).resolve_left notFull
    · rw [phase_goto_of_ne same] at before ⊢
      exact hopeful thread (before rfl)
  · rw [if_neg idle] at before ⊢
    exact hopeful thread (before rfl)

theorem callDeallocate_hopeful (hopeful : Hopeful poolSize watched) (caller : ι)
    (ptr : Option Nat) :
    Hopeful poolSize (watch poolSize watched (.callDeallocate caller ptr)) := by
  intro thread counting
  have before := counting_before counting
  obtain ⟨allocating, _⟩ := counting_watch.mp counting
  simp only [watch, act] at before allocating ⊢
  split_ifs at before allocating ⊢
  · by_cases same : thread = caller
    · subst same
      simp [Phase.allocating] at allocating
    · rw [phase_goto_of_ne same] at before ⊢
      exact hopeful thread (before rfl)
  · exact hopeful thread (before rfl)

theorem step_finds {thread : ι} (hopeful : Hopeful poolSize watched)
    (counting : Counting (watch poolSize watched (.step thread)) thread) :
    Finds (act poolSize watched.pool (.step thread)).inUse
      (tries poolSize (act poolSize watched.pool (.step thread)).nextIndex
        ((act poolSize watched.pool (.step thread)).phase thread)) := by
  obtain ⟨allocating, _, unmet⟩ := counting_watch.mp counting
  have here := hopeful thread
  cases phase : watched.pool.phase thread with
  | idle => simp [act, threadStep, phase, Phase.allocating] at allocating
  | releasing entry =>
    cases entry <;> simp [act, threadStep, phase, Pool.release, Phase.allocating] at allocating
  | probing i =>
    replace here := here ⟨by rw [phase]; rfl, unmet (by rw [phase]; rfl)⟩
    by_cases more : i < poolSize
    · rw [phase, tries_draw more] at here
      rw [step_draw phase more, phase_goto_self]
      exact here
    · rw [step_over phase more, phase_goto_self] at allocating
      exact absurd allocating Bool.false_ne_true
  | drawn i idx =>
    replace here := here ⟨by rw [phase]; rfl, unmet (by rw [phase]; rfl)⟩
    rw [phase] at here
    obtain ⟨slot, member, free⟩ := here
    cases used : watched.pool.inUse idx with
    | true =>
      rw [step_miss phase used, phase_goto_self]
      rcases List.mem_cons.mp member with rfl | rest
      · rw [used] at free
        exact absurd free Bool.true_eq_false.mp
      · exact ⟨slot, rest, free⟩
    | false =>
      rw [step_hit phase used] at allocating
      simp [Pool.grant, Phase.allocating] at allocating

theorem step_finds_other {actor thread : ι} (hopeful : Hopeful poolSize watched)
    (spares : Spares poolSize watched (.step actor)) (different : thread ≠ actor)
    (counting : Counting (watch poolSize watched (.step actor)) thread) :
    Finds (act poolSize watched.pool (.step actor)).inUse
      (tries poolSize (act poolSize watched.pool (.step actor)).nextIndex
        (watched.pool.phase thread)) := by
  have before := counting_before counting (phase_act_of_ne different)
  obtain ⟨_, notFull, _⟩ := counting_watch.mp counting
  have here := hopeful thread before
  cases phase : watched.pool.phase actor with
  | idle => simpa [act, threadStep, phase] using here
  | probing i =>
    simp only [Spares, phase] at spares
    by_cases more : i < poolSize
    · rw [step_draw phase more]
      exact spares more thread different before
    · rw [step_over phase more]
      exact here
  | drawn i idx =>
    simp only [Spares, phase] at spares
    cases used : watched.pool.inUse idx with
    | true =>
      rw [step_miss phase used]
      exact here
    | false =>
      rw [step_hit phase used] at notFull ⊢
      exact (spares used thread different before).resolve_left notFull
  | releasing entry =>
    cases entry with
    | none => simpa [act, threadStep, phase, Pool.goto] using here
    | some entry =>
      simp only [act, threadStep, phase, Pool.release]
      apply here.mono
      intro slot free
      by_cases same : slot = entry
      · rw [same, Function.update_self]
      · rw [Function.update_of_ne same]
        exact free

theorem step_hopeful (hopeful : Hopeful poolSize watched) {actor : ι}
    (spares : Spares poolSize watched (.step actor)) :
    Hopeful poolSize (watch poolSize watched (.step actor)) := by
  intro thread counting
  by_cases same : thread = actor
  · subst same
    exact step_finds hopeful counting
  · have finds := step_finds_other hopeful spares same counting
    have stays : (act poolSize watched.pool (.step actor)).phase thread =
        watched.pool.phase thread := phase_act_of_ne same
    rw [← stays] at finds
    exact finds

theorem watch_hopeful (action : Action ι) (hopeful : Hopeful poolSize watched)
    (spares : Spares poolSize watched action) :
    Hopeful poolSize (watch poolSize watched action) := by
  cases action with
  | callAllocate caller => exact callAllocate_hopeful hopeful spares
  | callDeallocate caller ptr => exact callDeallocate_hopeful hopeful caller ptr
  | step actor => exact step_hopeful hopeful spares

end Steps

omit [DecidableEq ι] in
theorem new_hopeful (poolSize : Nat) : Hopeful poolSize (Watched.new : Watched ι) := by
  intro thread counting
  simp [Counting, Watched.new, Pool.new, Phase.allocating] at counting

theorem pool_after_watch (poolSize : Nat) (actions : List (Action ι)) :
    (Runs.after (watch poolSize) Watched.new actions).pool =
      Runs.after (act poolSize) Pool.new actions :=
  Runs.project_after Watched.pool (fun _ _ => rfl) Watched.new actions

theorem full_of_met (poolSize : Nat) {before during : List (Action ι)} {thread : ι}
    (idle : (Runs.after (act poolSize) Pool.new before).phase thread = .idle)
    (met : (Runs.after (watch poolSize) Watched.new
      (before ++ .callAllocate thread :: during)).metFull thread = true) :
    ∃ middle, middle <+: during ∧
      Full poolSize
        (Runs.after (act poolSize) Pool.new (before ++ .callAllocate thread :: middle)).inUse := by
  induction during using List.reverseRecOn with
  | nil =>
    rw [Runs.after_snoc] at met
    simp only [watch, pool_after_watch, idle, Phase.allocating, Bool.false_and, Bool.or_false,
      decide_eq_true_eq] at met
    refine ⟨[], List.prefix_refl _, ?_⟩
    rwa [Runs.after_snoc]
  | append_singleton during action ih =>
    rw [← List.cons_append, ← List.append_assoc, Runs.after_snoc] at met
    simp only [watch, Bool.or_eq_true, decide_eq_true_eq, Bool.and_eq_true, pool_after_watch] at met
    rcases met with full | ⟨_, earlier⟩
    · refine ⟨during ++ [action], List.prefix_refl _, ?_⟩
      rwa [← List.cons_append, ← List.append_assoc, Runs.after_snoc]
    · obtain ⟨middle, inside, full⟩ := ih earlier
      exact ⟨middle, inside.trans (List.prefix_append _ _), full⟩

omit [DecidableEq ι] in
theorem met_of_returnsNull {poolSize : Nat} {watched : Watched ι} {thread : ι}
    (hopeful : Hopeful poolSize watched) (returns : ReturnsNull poolSize watched.pool thread) :
    watched.metFull thread = true := by
  obtain ⟨i, phase, past⟩ := returns
  by_contra unmet
  have nothing : poolSize - i = 0 := by
    omega
  have finds := hopeful thread ⟨by rw [phase]; rfl, by simpa using unmet⟩
  simp [phase, tries, nothing, draws, Finds] at finds

theorem truthful_of_spared (poolSize : Nat) (actions : List (Action ι))
    (spared : Runs.Guarded (watch poolSize) (Spares poolSize) Watched.new actions) :
    Truthful poolSize actions := by
  intro before during thread inside idle _ returns
  have front := Runs.guarded_front ((List.prefix_append _ _).trans inside) spared
  have hopeful := Runs.invariant_of_guarded (Hopeful poolSize)
    (fun _ action hopeful spares => watch_hopeful action hopeful spares)
    (new_hopeful poolSize) front
  apply full_of_met poolSize idle
  apply met_of_returnsNull hopeful
  rwa [pool_after_watch]

theorem draws_eq_around {poolSize : Nat} (divides : poolSize ∣ UInt64.size)
    (nextIndex count : Nat) :
    draws poolSize nextIndex count = Circular.around poolSize nextIndex count := by
  induction count generalizing nextIndex with
  | zero => rfl
  | succ count ih =>
    have wrapped : Circular.around poolSize (nextOf nextIndex) count =
        Circular.around poolSize (nextIndex + 1) count := by
      rw [← Circular.around_mod, nextOf, Nat.mod_mod_of_dvd _ divides, Circular.around_mod]
    rw [draws, ih, wrapped, Nat.add_comm count 1, Circular.around_append]
    rfl

omit [DecidableEq ι] in
theorem callAllocate_spares {poolSize : Nat} (divides : poolSize ∣ UInt64.size)
    (watched : Watched ι) (caller : ι) : Spares poolSize watched (.callAllocate caller) := by
  intro _
  by_cases full : Full poolSize watched.pool.inUse
  · exact .inl full
  · obtain ⟨slot, free⟩ := not_forall.mp full
    obtain ⟨inside, free⟩ := Classical.not_imp.mp free
    refine .inr ⟨slot, ?_, by simpa using free⟩
    rw [tries, Nat.sub_zero, draws_eq_around divides]
    exact Circular.mem_around_self _ inside

def Alone (pool : Pool ι) : Action ι → Prop
  | .callAllocate _ => True
  | .callDeallocate _ _ => True
  | .step thread => ∀ other, other ≠ thread → (pool.phase other).allocating = false

omit [DecidableEq ι] in
theorem step_spares {poolSize : Nat} {watched : Watched ι} {thread : ι}
    (alone : Alone watched.pool (.step thread)) : Spares poolSize watched (.step thread) := by
  have uncounted : ∀ other, other ≠ thread → ¬ Counting watched other := by
    rintro other different ⟨allocating, _⟩
    rw [alone other different] at allocating
    exact Bool.false_ne_true allocating
  cases phase : watched.pool.phase thread with
  | idle => simp [Spares, phase]
  | probing i =>
    simp only [Spares, phase]
    exact fun _ other different counting => absurd counting (uncounted other different)
  | drawn i idx =>
    simp only [Spares, phase]
    exact fun _ other different counting => absurd counting (uncounted other different)
  | releasing entry => simp [Spares, phase]

-- A size such as the default one divides the range of the counter.
theorem spared_of_serial {poolSize : Nat} (divides : poolSize ∣ UInt64.size)
    {actions : List (Action ι)} (serial : Runs.Guarded (act poolSize) Alone Pool.new actions) :
    Runs.Guarded (watch poolSize) (Spares poolSize) Watched.new actions := by
  intro before action inside
  have alone := serial before action inside
  rw [← pool_after_watch] at alone
  cases action with
  | callAllocate caller => exact callAllocate_spares divides _ caller
  | callDeallocate caller ptr => trivial
  | step thread => exact step_spares alone

theorem truthful_of_serial {poolSize : Nat} (divides : poolSize ∣ UInt64.size)
    {actions : List (Action ι)} (serial : Runs.Guarded (act poolSize) Alone Pool.new actions) :
    Truthful poolSize actions :=
  truthful_of_spared poolSize actions (spared_of_serial divides serial)

section Doomed

variable {poolSize : Nat} {watched : Watched ι} {thread : ι}

/-- A call that will report exhaustion falsely if nobody else interferes. -/
structure Doomed (poolSize : Nat) (watched : Watched ι) (thread : ι) : Prop where
  counting : Counting watched thread
  notFull : ¬ Full poolSize watched.pool.inUse
  findsNone : ¬ Finds watched.pool.inUse
    (tries poolSize watched.pool.nextIndex (watched.pool.phase thread))

def stepsLeft (poolSize : Nat) : Phase → Nat
  | .idle => 0
  | .probing i => 2 * (poolSize - i)
  | .drawn i _ => 2 * (poolSize - (i + 1)) + 1
  | .releasing _ => 0

theorem Doomed.step (doomed : Doomed poolSize watched thread) :
    ReturnsNull poolSize watched.pool thread ∨
      Doomed poolSize (watch poolSize watched (.step thread)) thread ∧
        stepsLeft poolSize ((watch poolSize watched (.step thread)).pool.phase thread) <
          stepsLeft poolSize (watched.pool.phase thread) := by
  obtain ⟨⟨allocating, unmet⟩, notFull, findsNone⟩ := doomed
  cases phase : watched.pool.phase thread with
  | idle => simp [phase, Phase.allocating] at allocating
  | releasing entry => simp [phase, Phase.allocating] at allocating
  | probing i =>
    by_cases more : i < poolSize
    · rw [phase, tries_draw more] at findsNone
      refine .inr ⟨⟨counting_watch.mpr ?_, ?_, ?_⟩, ?_⟩
      · rw [step_draw phase more]
        exact ⟨by rw [phase_goto_self]; rfl, notFull, fun _ => unmet⟩
      · simp only [watch, step_draw phase more]
        exact notFull
      · simp only [watch, step_draw phase more, phase_goto_self]
        exact findsNone
      · simp only [watch, step_draw phase more, phase_goto_self, stepsLeft]
        omega
    · exact .inl ⟨i, phase, more⟩
  | drawn i idx =>
    rw [phase] at findsNone
    have used : watched.pool.inUse idx = true := by
      by_contra free
      exact findsNone ⟨idx, List.mem_cons_self, by simpa using free⟩
    refine .inr ⟨⟨counting_watch.mpr ?_, ?_, ?_⟩, ?_⟩
    · rw [step_miss phase used]
      exact ⟨by rw [phase_goto_self]; rfl, notFull, fun _ => unmet⟩
    · simp only [watch, step_miss phase used]
      exact notFull
    · simp only [watch, step_miss phase used, phase_goto_self]
      rintro ⟨slot, member, free⟩
      exact findsNone ⟨slot, List.mem_cons_of_mem _ member, free⟩
    · simp only [watch, step_miss phase used, phase_goto_self, stepsLeft]
      omega

theorem Doomed.misreports (doomed : Doomed poolSize watched thread) :
    ∃ steps,
      let last := Runs.after (watch poolSize) watched (List.replicate steps (.step thread))
      ReturnsNull poolSize last.pool thread ∧ last.metFull thread = false := by
  induction left : stepsLeft poolSize (watched.pool.phase thread) using Nat.strongRecOn
    generalizing watched with
  | ind left' ih =>
    subst left
    rcases doomed.step with returns | ⟨still, fewer⟩
    · exact ⟨0, returns, doomed.counting.2⟩
    · obtain ⟨steps, misreports⟩ := ih _ fewer still rfl
      exact ⟨steps + 1, misreports⟩

theorem Counting.doomed (counting : Counting watched thread) {action : Action ι}
    (different : thread ≠ action.thread)
    (notFull : ¬ Full poolSize (act poolSize watched.pool action).inUse)
    (findsNone : ¬ Finds (act poolSize watched.pool action).inUse
      (tries poolSize (act poolSize watched.pool action).nextIndex (watched.pool.phase thread))) :
    Doomed poolSize (watch poolSize watched action) thread := by
  have stays : (act poolSize watched.pool action).phase thread = watched.pool.phase thread :=
    phase_act_of_ne different
  refine ⟨counting_watch.mpr ⟨?_, notFull, fun _ => counting.2⟩, notFull, ?_⟩
  · rw [stays]
    exact counting.1
  · simp only [watch, stays]
    exact findsNone

theorem doomed_of_not_spares {action : Action ι} (cuts : ¬ Spares poolSize watched action)
    (observant : ∀ thread, Counting watched thread → ¬ Full poolSize watched.pool.inUse) :
    ∃ thread, Doomed poolSize (watch poolSize watched action) thread := by
  cases action with
  | callDeallocate caller ptr => exact absurd trivial cuts
  | callAllocate caller =>
    obtain ⟨idle, neither⟩ := Classical.not_imp.mp cuts
    obtain ⟨notFull, findsNone⟩ := not_or.mp neither
    have next : act poolSize watched.pool (.callAllocate caller) =
        watched.pool.goto caller (.probing 0) := by
      rw [act, if_pos idle]
    refine ⟨caller, counting_watch.mpr ?_, ?_, ?_⟩
    · rw [next, phase_goto_self, idle]
      exact ⟨rfl, notFull, by simp [Phase.allocating]⟩
    · simp only [watch, next]
      exact notFull
    · simp only [watch, next, phase_goto_self]
      exact findsNone
  | step actor =>
    cases phase : watched.pool.phase actor with
    | idle => simp [Spares, phase] at cuts
    | releasing entry => simp [Spares, phase] at cuts
    | probing i =>
      simp only [Spares, phase, Classical.not_imp, not_forall] at cuts
      obtain ⟨more, other, different, counting, findsNone⟩ := cuts
      refine ⟨other, counting.doomed different ?_ ?_⟩ <;> rw [step_draw phase more]
      · exact observant other counting
      · exact findsNone
    | drawn i idx =>
      simp only [Spares, phase, Classical.not_imp, not_forall, not_or] at cuts
      obtain ⟨free, other, different, counting, notFull, findsNone⟩ := cuts
      refine ⟨other, counting.doomed different ?_ ?_⟩ <;> rw [step_hit phase free]
      · exact notFull
      · exact findsNone

end Doomed

theorem act_begins {poolSize : Nat} {pool : Pool ι} {action : Action ι} {thread : ι}
    (resting : (pool.phase thread).allocating = false)
    (allocating : ((act poolSize pool action).phase thread).allocating = true) :
    action = .callAllocate thread ∧ pool.phase thread = .idle := by
  obtain rfl : thread = action.thread := by
    by_contra different
    rw [phase_act_of_ne different, resting] at allocating
    exact Bool.false_ne_true allocating
  cases action with
  | callAllocate caller =>
    by_cases idle : pool.phase caller = .idle
    · exact ⟨rfl, idle⟩
    · simp only [act, if_neg idle] at allocating
      exact absurd (resting.symm.trans allocating) Bool.false_ne_true
  | callDeallocate caller ptr =>
    simp only [Action.thread, act] at resting allocating
    split_ifs at allocating
    · rw [phase_goto_self] at allocating
      exact absurd allocating Bool.false_ne_true
    · exact absurd (resting.symm.trans allocating) Bool.false_ne_true
  | step actor =>
    simp only [Action.thread] at resting allocating
    cases phase : pool.phase actor with
    | idle => simp [act, threadStep, phase, Phase.allocating] at allocating
    | probing i => simp [phase, Phase.allocating] at resting
    | drawn i idx => simp [phase, Phase.allocating] at resting
    | releasing entry =>
      cases entry <;> simp [act, threadStep, phase, Pool.release, Phase.allocating] at allocating

theorem open_call (poolSize : Nat) {actions : List (Action ι)} {thread : ι}
    (allocating :
      ((Runs.after (act poolSize) Pool.new actions).phase thread).allocating = true) :
    ∃ before during, actions = before ++ .callAllocate thread :: during ∧
      (Runs.after (act poolSize) Pool.new before).phase thread = .idle ∧
        ∀ middle, middle <+: during →
          ((Runs.after (act poolSize) Pool.new
              (before ++ .callAllocate thread :: middle)).phase thread).allocating = true ∧
            (Full poolSize (Runs.after (act poolSize) Pool.new
                (before ++ .callAllocate thread :: middle)).inUse →
              (Runs.after (watch poolSize) Watched.new actions).metFull thread = true) := by
  induction actions using List.reverseRecOn with
  | nil => simp [Pool.new, Phase.allocating] at allocating
  | append_singleton actions action ih =>
    have met : (Runs.after (watch poolSize) Watched.new (actions ++ [action])).metFull thread =
        (Full poolSize (Runs.after (act poolSize) Pool.new (actions ++ [action])).inUse ||
          ((Runs.after (act poolSize) Pool.new actions).phase thread).allocating &&
            (Runs.after (watch poolSize) Watched.new actions).metFull thread) := by
      rw [Runs.after_snoc, Runs.after_snoc, ← pool_after_watch]
      rfl
    cases earlier : ((Runs.after (act poolSize) Pool.new actions).phase thread).allocating with
    | false =>
      rw [Runs.after_snoc] at allocating
      obtain ⟨rfl, idle⟩ := act_begins earlier allocating
      refine ⟨actions, [], rfl, idle, ?_⟩
      intro middle inside
      obtain rfl := List.prefix_nil.mp inside
      refine ⟨by rwa [Runs.after_snoc], ?_⟩
      intro full
      rw [met, decide_eq_true full, Bool.true_or]
    | true =>
      obtain ⟨before, during, rfl, idle, since⟩ := ih earlier
      refine ⟨before, during ++ [action], by simp, idle, ?_⟩
      intro middle inside
      rcases List.prefix_concat_iff.mp inside with rfl | shorter
      · rw [← List.cons_append, ← List.append_assoc]
        refine ⟨allocating, ?_⟩
        intro full
        rw [met, decide_eq_true full, Bool.true_or]
      · obtain ⟨still, seen⟩ := since middle shorter
        refine ⟨still, ?_⟩
        intro full
        rw [met, earlier, seen full, Bool.and_true, Bool.or_true]

theorem not_full_of_counting (poolSize : Nat) {actions : List (Action ι)} {thread : ι}
    (counting : Counting (Runs.after (watch poolSize) Watched.new actions) thread) :
    ¬ Full poolSize (Runs.after (watch poolSize) Watched.new actions).pool.inUse := by
  induction actions using List.reverseRecOn with
  | nil => simp [Counting, Watched.new, Pool.new, Phase.allocating] at counting
  | append_singleton actions action _ =>
    rw [Runs.after_snoc] at counting ⊢
    exact (counting_watch.mp counting).2.1

-- No step is excluded in vain: one that spares not every call is a step towards a false report.
theorem not_truthful_of_not_spares (poolSize : Nat) (before : List (Action ι)) (action : Action ι)
    (cuts : ¬ Spares poolSize (Runs.after (watch poolSize) Watched.new before) action) :
    ∃ thread steps, ¬ Truthful poolSize
      (before ++ action :: List.replicate steps (.step thread) ++ [.step thread]) := by
  obtain ⟨thread, doomed⟩ := doomed_of_not_spares cuts fun _ => not_full_of_counting poolSize
  obtain ⟨steps, returns, unmet⟩ := doomed.misreports
  rw [← Runs.after_cons, ← Runs.after_append] at returns unmet
  refine ⟨thread, steps, ?_⟩
  intro truthful
  rw [pool_after_watch] at returns
  obtain ⟨i, phase, _⟩ := id returns
  have allocating : ((Runs.after (act poolSize) Pool.new
      (before ++ action :: List.replicate steps (.step thread))).phase thread).allocating =
        true := by
    rw [phase]
    rfl
  obtain ⟨start, during, split, idle, since⟩ := open_call poolSize allocating
  rw [split] at truthful returns
  obtain ⟨middle, inside, full⟩ := truthful start during thread (List.prefix_refl _) idle
    (fun middle inside => (since middle inside).1) returns
  have met := (since middle inside).2 full
  rw [unmet] at met
  exact Bool.false_ne_true met

theorem truthful_when_spared (poolSize : Nat) (actions : List (Action ι)) :
    (Runs.Guarded (watch poolSize) (Spares poolSize) Watched.new actions →
        Truthful poolSize actions) ∧
      (¬ Runs.Guarded (watch poolSize) (Spares poolSize) Watched.new actions →
        ∃ before thread steps, before <+: actions ∧
          ¬ Truthful poolSize (before ++ List.replicate steps (.step thread))) := by
  refine ⟨truthful_of_spared poolSize actions, ?_⟩
  intro cut
  simp only [Runs.Guarded, not_forall] at cut
  obtain ⟨before, action, inside, cuts⟩ := cut
  obtain ⟨thread, steps, misreports⟩ := not_truthful_of_not_spares poolSize before action cuts
  refine ⟨before ++ [action], thread, steps + 1, inside, ?_⟩
  simpa [List.replicate_succ'] using misreports

-- Slot 1 stays free, but each time the first thread draws, the others have just drawn it.
theorem exhausted_with_free_slot :
    ¬ Truthful 2 [Action.callAllocate 1, .step 1, .step 1, .callAllocate 1, .step 1,
      .callAllocate 0, .step 0, .step 0, .callAllocate (2 : Nat), .step 2, .step 0, .step 0,
      .step 0] := by
  intro truthful
  obtain ⟨middle, inside, full⟩ := truthful
    [.callAllocate 1, .step 1, .step 1, .callAllocate 1, .step 1]
    [.step 0, .step 0, .callAllocate 2, .step 2, .step 0, .step 0] 0
    (List.prefix_refl _) (by decide) (by
      intro middle inside
      rw [← List.mem_inits] at inside
      revert middle
      decide) ⟨2, by decide, by decide⟩
  rw [← List.mem_inits] at inside
  revert middle
  decide

end AdsRealtime.RtssMemoryPool
