import DeviceEvents.Receiver.Nats
/-
  DeviceEvents.Proofs.Receiver.Settlement — what becomes of the messages that a worker fetched.

  A run is the list of answers that a worker got, each where it waited for one (`Told`); it may
  be cancelled at any of them and then takes no further answer. `waits` puts each answer
  beside the place where the worker waited for it, and everything is read off that list: which
  messages the pipeline was handed, with which outcome it was done, and how they were settled.

  - `attempts_follow`: at any moment, one attempt for each message the pipeline was done with,
    in that order, negative exactly if the outcome asks for the message again; at most the last
    of them is still to be made.
  - `begun_in_order`: messages are handed over in the order in which they were fetched, each at
    most once.
  - `begun_settled`: when the worker has ended, all of them have had their attempt, but for the
    one that the pipeline had in hand when the worker was cancelled. That one is left as it is:
    `left_in_hand` is such a run.
-/

namespace DeviceEvents.NatsWorker

/-! ## Runs -/

/-- Is it an answer to what the worker waits for? -/
def Awaits : NatsWorker → NatsAnswer → Prop
  | .ended, _ => False
  | _, .cancelled => True
  | .fetching, .fetched _ => True
  | .handing _ _, .handed _ => True
  | .settling _ _ _, .settled _ => True
  | .resting, .rested => True
  | _, _ => False

/-- Every answer is one that the worker waits for. -/
def Told : NatsWorker → List NatsAnswer → Prop
  | _, [] => True
  | w, a :: as => w.Awaits a ∧ Told (w.step a) as

def after (w : NatsWorker) (as : List NatsAnswer) : NatsWorker := as.foldl step w

/-- The answers of a run beside the places where they were waited for. -/
def waits : NatsWorker → List NatsAnswer → List (NatsWorker × NatsAnswer)
  | _, [] => []
  | w, a :: as => (w, a) :: waits (w.step a) as

variable {w : NatsWorker} {as : List NatsAnswer}

/-- What an answer leads to. -/
inductive Turn : NatsWorker → NatsAnswer → NatsWorker → Prop where
  | fetched (ms : List NatsMessage) : Turn .fetching (.fetched (.ok ms)) (turnTo ms)
  | failed (f : Failure) : Turn .fetching (.fetched (.error f)) .resting
  | handed (m : NatsMessage) (rest : List NatsMessage) (o : Outcome) :
    Turn (.handing m rest) (.handed o) (.settling m o.shouldRetry rest)
  /-- Whether the settlement gets through or not. -/
  | settled (m : NatsMessage) (again : Bool) (rest : List NatsMessage) (r : Except Failure Unit) :
    Turn (.settling m again rest) (.settled r) (turnTo rest)
  | rested : Turn .resting .rested .fetching
  | cancelled {w : NatsWorker} (h : w ≠ .ended) : Turn w .cancelled .ended

theorem turn_step {a : NatsAnswer} (h : w.Awaits a) : Turn w a (w.step a) := by
  cases w <;> cases a <;> try exact h.elim
  case fetching.fetched r => cases r with
    | ok ms => exact .fetched ms
    | error f => exact .failed f
  case handing.handed m rest o => exact .handed m rest o
  case settling.settled m again rest r => exact .settled m again rest r
  case resting.rested => exact .rested
  all_goals exact .cancelled nofun

/-- From `w` to `w'`, by the turns in `t`. -/
inductive Run : NatsWorker → List (NatsWorker × NatsAnswer) → NatsWorker → Prop where
  | nil (w : NatsWorker) : Run w [] w
  | cons {w w' w'' : NatsWorker} {a : NatsAnswer} {t : List (NatsWorker × NatsAnswer)} (turn : Turn w a w')
      (others : Run w' t w'') : Run w ((w, a) :: t) w''

theorem run_of_told (h : w.Told as) : Run w (w.waits as) (w.after as) := by
  induction as generalizing w with
  | nil => exact .nil w
  | cons a as ih => exact .cons (turn_step h.1) (ih h.2)

theorem Run.of_ended {t : List (NatsWorker × NatsAnswer)} {w : NatsWorker} (h : Run .ended t w) : t = [] ∧ w = .ended := by
  cases h with
  | nil => exact ⟨rfl, rfl⟩
  | cons turn => cases turn; contradiction

/-! ## What is read off a run -/

def fetched (t : List (NatsWorker × NatsAnswer)) : List NatsMessage :=
  t.flatMap fun
    | (.fetching, .fetched (.ok ms)) => ms
    | _ => []

/-- The messages that the pipeline was handed. -/
def begun (t : List (NatsWorker × NatsAnswer)) : List NatsMessage :=
  t.filterMap fun
    | (.handing m _, _) => some m
    | _ => none

/-- The messages that the pipeline was done with. -/
def completed (t : List (NatsWorker × NatsAnswer)) : List (NatsMessage × Outcome) :=
  t.filterMap fun
    | (.handing m _, .handed o) => some (m, o)
    | _ => none

/-- The attempts to settle a message, and whether it was to come again. -/
def attempts (t : List (NatsWorker × NatsAnswer)) : List (NatsMessage × Bool) :=
  t.filterMap fun
    | (.settling m again _, _) => some (m, again)
    | _ => none

/-- What the pipeline had in hand when the worker was cancelled. -/
def leftInHand (t : List (NatsWorker × NatsAnswer)) : List NatsMessage :=
  t.filterMap fun
    | (.handing m _, .cancelled) => some m
    | _ => none

def verdict (x : NatsMessage × Outcome) : NatsMessage × Bool := (x.1, x.2.shouldRetry)

/-- The attempt that comes next. -/
def owed : NatsWorker → List (NatsMessage × Bool)
  | .settling m again _ => [(m, again)]
  | _ => []

/-- The fetched messages that the pipeline has not been handed. -/
def ahead : NatsWorker → List NatsMessage
  | .handing m rest => m :: rest
  | .settling _ _ rest => rest
  | _ => []

theorem owed_turnTo (ms : List NatsMessage) : owed (turnTo ms) = [] := by
  cases ms <;> rfl

theorem ahead_turnTo (ms : List NatsMessage) : ahead (turnTo ms) = ms := by
  cases ms <;> rfl

/-! ## Laws of a run -/

section

variable {w' : NatsWorker} {t : List (NatsWorker × NatsAnswer)}

theorem Run.attempts (h : Run w t w') :
    NatsWorker.attempts t ++ w'.owed = w.owed ++ (completed t).map verdict := by
  induction h with
  | nil w => exact (List.append_nil _).symm
  | @cons v _ _ _ _ turn others ih =>
    cases turn with
    | fetched ms => rw [owed_turnTo] at ih; exact ih
    | failed f => exact ih
    | handed m rest o => exact ih
    | settled m again rest r => rw [owed_turnTo] at ih; exact congrArg ((m, again) :: ·) ih
    | rested => exact ih
    | cancelled hv =>
      -- Nothing is done after it; an attempt that was being made has been made.
      obtain ⟨rfl, rfl⟩ := others.of_ended
      cases v <;> rfl

theorem Run.begun_completed (h : Run w t w') : begun t = (completed t).map (·.1) ++ leftInHand t := by
  induction h with
  | nil w => rfl
  | @cons v _ _ _ _ turn others ih =>
    cases turn with
    | handed m rest o => exact congrArg (m :: ·) ih
    | cancelled hv =>
      obtain ⟨rfl, -⟩ := others.of_ended
      cases v <;> rfl
    | fetched | failed | settled | rested => exact ih

theorem Run.begun_fetched (h : Run w t w') : begun t <+: w.ahead ++ fetched t := by
  induction h with
  | nil w => exact List.nil_prefix
  | @cons v _ _ _ _ turn others ih =>
    cases turn with
    | fetched ms => rw [ahead_turnTo] at ih; exact ih
    | failed f => exact ih
    | handed m rest o => exact (List.prefix_cons_inj m).2 ih
    | settled m again rest r => rw [ahead_turnTo] at ih; exact ih
    | rested => exact ih
    | cancelled hv =>
      obtain ⟨rfl, -⟩ := others.of_ended
      cases v with
      | handing m rest => exact (List.prefix_cons_inj m).2 List.nil_prefix
      | _ => exact List.nil_prefix

/-- Nothing but a cancellation ends a worker, and it is the last answer that the worker takes. -/
theorem Run.ended (h : Run w t w') (hw : w ≠ .ended) (hend : w' = .ended) :
    ∃ t' v, t = t' ++ [(v, .cancelled)] ∧ leftInHand t = leftInHand [(v, .cancelled)] := by
  induction h with
  | nil w => exact absurd hend hw
  | @cons v _ _ _ _ turn others ih =>
    cases turn with
    | cancelled hv =>
      obtain ⟨rfl, -⟩ := others.of_ended
      exact ⟨[], v, rfl, rfl⟩
    | fetched ms =>
      obtain ⟨t', u, rfl, hleft⟩ := ih (by cases ms <;> nofun) hend
      exact ⟨_ :: t', u, rfl, hleft⟩
    | settled m again rest r =>
      obtain ⟨t', u, rfl, hleft⟩ := ih (by cases rest <;> nofun) hend
      exact ⟨_ :: t', u, rfl, hleft⟩
    | failed | handed | rested =>
      obtain ⟨t', u, rfl, hleft⟩ := ih nofun hend
      exact ⟨_ :: t', u, rfl, hleft⟩

end

/-! ## What becomes of the messages -/

variable (h : Told .fetching as)

include h

/-- At any moment every message that the pipeline was done with has had its attempt, but for the last where that is
still to be made. -/
theorem attempts_follow :
    attempts (waits .fetching as) ++ (after .fetching as).owed = (completed (waits .fetching as)).map verdict :=
  (run_of_told h).attempts

theorem begun_in_order : begun (waits .fetching as) <+: fetched (waits .fetching as) :=
  (run_of_told h).begun_fetched

/-- A worker that has ended was cancelled, and it has settled what it handed over, once and as the outcome asks, but
for what the pipeline had in hand at that moment. -/
theorem begun_settled (hend : after .fetching as = .ended) :
    let t := waits .fetching as
    attempts t = (completed t).map verdict ∧ begun t = (completed t).map (·.1) ++ leftInHand t ∧
      ∃ t' v, t = t' ++ [(v, .cancelled)] ∧ leftInHand t = leftInHand [(v, .cancelled)] := by
  intro t
  have hrun := run_of_told h
  have hattempts := hrun.attempts
  rw [hend, show owed .ended = [] from rfl, List.append_nil] at hattempts
  exact ⟨hattempts, hrun.begun_completed, hrun.ended nofun hend⟩

omit h in
/-- Cancelled while the pipeline has it, a message is begun and never settled. -/
theorem left_in_hand (m : NatsMessage) :
    let as := [.fetched (.ok [m]), .cancelled]
    Told .fetching as ∧ after .fetching as = .ended ∧ begun (waits .fetching as) = [m] ∧
      attempts (waits .fetching as) = [] :=
  ⟨⟨trivial, trivial, trivial⟩, rfl, rfl, rfl⟩

end DeviceEvents.NatsWorker
