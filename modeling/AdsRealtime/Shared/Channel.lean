import Mathlib.Data.List.Induction

set_option autoImplicit false

namespace Channel

/--
How a receiver of queued messages is answered: a question is answered from the queue, the
answer takes messages off its front, and nothing else happens to the queue.
-/
structure Service (M Q R : Type) where
  answer : Q → List M → R
  taken : R → List M
  remaining : Q → List M → List M
  conserves : ∀ question queue,
    taken (answer question queue) ++ remaining question queue = queue

inductive Event (M Q R : Type) where
  | sent (message : M)
  | asked (question : Q)
  | answered (reply : R)

-- The question that is open, and whether the queue was empty when it was asked.
structure State (M Q : Type) where
  queue : List M
  asking : Option (Q × Bool)

variable {M Q R : Type} {service : Service M Q R}

/--
A sender and a receiver that take turns at will. A question asked on an empty queue may be
answered as if nothing had been sent since.
-/
inductive Step (service : Service M Q R) : State M Q → Event M Q R → State M Q → Prop where
  | sent {queue : List M} {asking : Option (Q × Bool)} (message : M) :
      Step service ⟨queue, asking⟩ (.sent message) ⟨queue ++ [message], asking⟩
  | asked {queue : List M} (question : Q) :
      Step service ⟨queue, none⟩ (.asked question) ⟨queue, some (question, queue.isEmpty)⟩
  | answered {queue : List M} {question : Q} {vacant : Bool} :
      Step service ⟨queue, some (question, vacant)⟩ (.answered (service.answer question queue))
        ⟨service.remaining question queue, none⟩
  | missed {queue : List M} {question : Q} :
      Step service ⟨queue, some (question, true)⟩ (.answered (service.answer question []))
        ⟨queue, none⟩

inductive Run (service : Service M Q R) : State M Q → List (Event M Q R) → State M Q → Prop where
  | nil (state : State M Q) : Run service state [] state
  | cons {first next last : State M Q} {event : Event M Q R} {events : List (Event M Q R)}
      (step : Step service first event next) (rest : Run service next events last) :
      Run service first (event :: events) last

def start : State M Q :=
  { queue := [], asking := none }

def sent : List (Event M Q R) → List M
  | [] => []
  | .sent message :: rest => message :: sent rest
  | .asked _ :: rest => sent rest
  | .answered _ :: rest => sent rest

def taken (service : Service M Q R) : List (Event M Q R) → List M
  | [] => []
  | .sent _ :: rest => taken service rest
  | .asked _ :: rest => taken service rest
  | .answered reply :: rest => service.taken reply ++ taken service rest

def pending (service : Service M Q R) (events : List (Event M Q R)) : List M :=
  (sent events).drop (taken service events).length

def Event.isSent : Event M Q R → Bool
  | .sent _ => true
  | _ => false

theorem run_append {first last : State M Q} {before after : List (Event M Q R)}
    (run : Run service first (before ++ after) last) :
    ∃ middle, Run service first before middle ∧ Run service middle after last := by
  induction before generalizing first with
  | nil => exact ⟨first, .nil first, run⟩
  | cons event before ih =>
    cases run with
    | cons step rest =>
      obtain ⟨middle, left, right⟩ := ih rest
      exact ⟨middle, .cons step left, right⟩

theorem run_trans {first middle last : State M Q} {before after : List (Event M Q R)}
    (left : Run service first before middle) (right : Run service middle after last) :
    Run service first (before ++ after) last := by
  induction left with
  | nil => exact right
  | cons step _ ih => exact .cons step (ih right)

theorem taken_nothing (question : Q) : service.taken (service.answer question []) = [] :=
  (List.append_eq_nil_iff.mp (service.conserves question [])).1

theorem run_conserves {first last : State M Q} {events : List (Event M Q R)}
    (run : Run service first events last) :
    taken service events ++ last.queue = first.queue ++ sent events := by
  induction run with
  | nil state => simp [taken, sent]
  | cons step _ ih =>
    cases step with
    | sent message => simp [taken, sent, ih]
    | asked question => simp [taken, sent, ih]
    | answered =>
      rw [taken, sent, List.append_assoc, ih, ← List.append_assoc, service.conserves]
    | missed => rw [taken, sent, taken_nothing, List.nil_append, ih]

theorem queue_eq_pending {last : State M Q} {events : List (Event M Q R)}
    (run : Run service start events last) : last.queue = pending service events := by
  have balance := run_conserves run
  rw [start, List.nil_append] at balance
  rw [pending, ← balance, List.drop_left]

theorem taken_prefix {last : State M Q} {events : List (Event M Q R)}
    (run : Run service start events last) : taken service events <+: sent events :=
  ⟨last.queue, run_conserves run⟩

theorem open_question {last : State M Q} {events : List (Event M Q R)} {question : Q}
    {vacant : Bool} (run : Run service start events last)
    (asking : last.asking = some (question, vacant)) :
    ∃ early middle, events = early ++ .asked question :: middle ∧
      (∀ event ∈ middle, event.isSent = true) ∧ (vacant = true → pending service early = []) := by
  induction events using List.reverseRecOn generalizing last with
  | nil =>
    cases run
    simp [start] at asking
  | append_singleton events event ih =>
    obtain ⟨before, earlier, tail⟩ := run_append run
    cases tail with
    | cons step rest =>
      cases rest
      cases step with
      | sent message =>
        obtain ⟨early, middle, rfl, quiet, empty⟩ := ih earlier asking
        refine ⟨early, middle ++ [.sent message], by simp, ?_, empty⟩
        intro event member
        rcases List.mem_append.mp member with old | new
        · exact quiet event old
        · rw [List.mem_singleton.mp new]
          rfl
      | asked =>
        obtain ⟨rfl, rfl⟩ : _ = question ∧ _ = vacant := by simpa using asking
        refine ⟨events, [], rfl, by simp, ?_⟩
        intro vacant
        rw [← queue_eq_pending earlier]
        exact List.isEmpty_iff.mp vacant
      | answered => simp at asking
      | missed => simp at asking

theorem answer_eq {last : State M Q} {before later : List (Event M Q R)} {reply : R}
    (run : Run service start (before ++ .answered reply :: later) last) :
    ∃ early question middle, before = early ++ .asked question :: middle ∧
      (∀ event ∈ middle, event.isSent = true) ∧
      (reply = service.answer question (pending service before) ∨
        (pending service early = [] ∧ reply = service.answer question [])) := by
  obtain ⟨here, front, rest⟩ := run_append run
  have reached := queue_eq_pending front
  cases rest with
  | cons step _ =>
    cases step with
    | answered =>
      obtain ⟨early, middle, split, quiet, _⟩ := open_question front rfl
      exact ⟨early, _, middle, split, quiet, .inl (reached ▸ rfl)⟩
    | missed =>
      obtain ⟨early, middle, split, quiet, empty⟩ := open_question front rfl
      exact ⟨early, _, middle, split, quiet, .inr ⟨empty rfl, rfl⟩⟩

end Channel
