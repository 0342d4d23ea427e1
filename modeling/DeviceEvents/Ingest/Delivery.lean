import DeviceEvents.Envelope
import DeviceEvents.Ingest.Counters
import DeviceEvents.Store.Error
/-
  DeviceEvents.Ingest.Delivery — one payload on its way through the pipeline.

  A payload is decoded, and each of its requests in turn is judged by the deduplicator, if
  there is one, and handed to the handler unless it is a duplicate. When the handler fails in
  a way that may pass, the deduplicator is told to forget the request, so that it counts as
  new when the payload comes again. A payload that does not decode is reported to the handler.

  A delivery changes only when it gets an answer to what it waits for, so any number of them
  may go on side by side. `receive` takes one from its beginning to its end.
-/

namespace DeviceEvents

/-- What a delivery waits for. -/
inductive Stage where
  | decoding
  | reporting (u : Undecoded)
  | judging (r : Request) (rest : List Request)
  | handling (r : Request) (rest : List Request)
  | releasing (r : Request) (rest : List Request)
  | finished

structure Delivery where
  /-- There is a deduplicator. -/
  deduplicates : Bool
  outcome : Outcome
  stage : Stage

namespace Delivery

def start (deduplicates : Bool) : Delivery := ⟨deduplicates, {}, .decoding⟩

/-- The requests that have no fate yet. -/
def unsettled (d : Delivery) : List Request :=
  match d.stage with
  | .judging r rest | .handling r rest => r :: rest
  | .releasing _ rest => rest
  | _ => []

def isFinished (d : Delivery) : Bool :=
  match d.stage with
  | .finished => true
  | _ => false

/-- On to the requests given. -/
def turnTo (d : Delivery) : List Request → Delivery
  | [] => { d with stage := .finished }
  | r :: rest => { d with stage := if d.deduplicates then .judging r rest else .handling r rest }

def decoded (d : Delivery) (c : Counters) : Except Undecoded (List Request) → Delivery × Counters
  | .error u =>
    ({ d with outcome := { d.outcome with decodeFailed := true }, stage := .reporting u },
      c.addFailedDecode)
  | .ok rs =>
    ({ d with outcome := { d.outcome with decoded := rs.length } }.turnTo rs,
      c.addDecoded rs.length)

def reported (d : Delivery) : Delivery := { d with stage := .finished }

/-- A request gets its fate. -/
def settle (d : Delivery) (c : Counters) (f : Fate) : Delivery × Counters :=
  ({ d with outcome := d.outcome.add f }, c.add f)

/-- The deduplicator has judged the request at hand. -/
def judged (d : Delivery) (c : Counters) (verdict : Except Refusal Bool) : Delivery × Counters :=
  match d.stage with
  | .judging r rest =>
    match verdict with
    | .ok false => ({ d with stage := .handling r rest }, c)
    | .ok true => let (d, c) := d.settle c .duplicate; (d.turnTo rest, c)
    | .error _ => let (d, c) := d.settle c .unjudged; (d.turnTo rest, c)
  | _ => (d, c)

/-- The handler is done with the request at hand. -/
def handled (d : Delivery) (c : Counters) (result : Except Refusal Unit) : Delivery × Counters :=
  match d.stage with
  | .handling r rest =>
    match result with
    | .ok () => let (d, c) := d.settle c .forwarded; (d.turnTo rest, c)
    | .error e =>
      if e.isTransient then
        let (d, c) := d.settle c .retryable
        if d.deduplicates then ({ d with stage := .releasing r rest }, c) else (d.turnTo rest, c)
      else let (d, c) := d.settle c .rejected; (d.turnTo rest, c)
  | _ => (d, c)

/-- The deduplicator has forgotten the request at hand, or failed to. -/
def released (d : Delivery) : Delivery :=
  match d.stage with
  | .releasing _ rest => d.turnTo rest
  | _ => d

/-! ## Every answer, and what it leads to -/

/-- The request at hand has its fate, and the rest comes next. -/
def past (d : Delivery) (f : Fate) (rest : List Request) : Delivery :=
  { d with outcome := d.outcome.add f }.turnTo rest

/-- Nothing is in hand, and `todo` is still to come. -/
def Faces (d : Delivery) (todo : List Request) : Prop := d.stage = (d.turnTo todo).stage

section

variable {d : Delivery} {r : Request} {rest : List Request} (c : Counters)

@[simp] theorem deduplicates_turnTo (d : Delivery) (rs : List Request) :
    (d.turnTo rs).deduplicates = d.deduplicates := by
  cases rs <;> rfl

@[simp] theorem outcome_turnTo (d : Delivery) (rs : List Request) : (d.turnTo rs).outcome = d.outcome := by
  cases rs <;> rfl

@[simp] theorem unsettled_turnTo (d : Delivery) (rs : List Request) : (d.turnTo rs).unsettled = rs := by
  cases rs with
  | nil => rfl
  | cons r rest =>
    unfold turnTo unsettled
    cases d.deduplicates <;> rfl

@[simp] theorem deduplicates_past (d : Delivery) (f : Fate) (rest : List Request) :
    (d.past f rest).deduplicates = d.deduplicates :=
  deduplicates_turnTo _ rest

@[simp] theorem outcome_past (d : Delivery) (f : Fate) (rest : List Request) :
    (d.past f rest).outcome = d.outcome.add f :=
  outcome_turnTo _ rest

@[simp] theorem unsettled_past (d : Delivery) (f : Fate) (rest : List Request) : (d.past f rest).unsettled = rest :=
  unsettled_turnTo _ rest

theorem faces_turnTo (d : Delivery) (todo : List Request) : (d.turnTo todo).Faces todo := by
  cases todo <;> rfl

theorem faces_past (d : Delivery) (f : Fate) (todo : List Request) : (d.past f todo).Faces todo :=
  faces_turnTo { d with outcome := d.outcome.add f } todo

theorem judged_new (h : d.stage = .judging r rest) :
    d.judged c (.ok false) = ({ d with stage := .handling r rest }, c) := by
  simp only [judged, h]

theorem judged_seen (h : d.stage = .judging r rest) :
    d.judged c (.ok true) = (d.past .duplicate rest, c.add .duplicate) := by
  simp only [judged, h]
  cases rest <;> rfl

theorem judged_error (h : d.stage = .judging r rest) (e : Refusal) :
    d.judged c (.error e) = (d.past .unjudged rest, c.add .unjudged) := by
  simp only [judged, h]
  cases rest <;> rfl

theorem handled_ok (h : d.stage = .handling r rest) :
    d.handled c (.ok ()) = (d.past .forwarded rest, c.add .forwarded) := by
  simp only [handled, h]
  cases rest <;> rfl

/-- A request that may be taken another time is released first, if it has been judged. -/
theorem handled_transient (h : d.stage = .handling r rest) {e : Refusal} (he : e.isTransient = true) :
    d.handled c (.error e) =
      (if d.deduplicates then { d with outcome := d.outcome.add .retryable, stage := .releasing r rest }
        else d.past .retryable rest, c.add .retryable) := by
  simp only [handled, h, he, if_true]
  cases hd : d.deduplicates with
  | true => simp [settle, hd]
  | false => cases rest <;> simp [settle, hd, past, turnTo]

theorem handled_rejected (h : d.stage = .handling r rest) {e : Refusal} (he : e.isTransient = false) :
    d.handled c (.error e) = (d.past .rejected rest, c.add .rejected) := by
  simp only [handled, h, he]
  cases rest <;> rfl

theorem released_eq (h : d.stage = .releasing r rest) : d.released = d.turnTo rest := by
  simp only [released, h]

end

/-! ## From beginning to end -/

/-- What answers a delivery, and where the counters are. -/
structure Services (m : Type → Type) where
  deduplicates : Bool
  judge : Request → m (Except Refusal Bool)
  release : Request → m Unit
  handle : Request → m (Except Refusal Unit)
  report : Undecoded → m Unit
  counters : m Counters
  setCounters : Counters → m Unit

variable {m : Type → Type} [Monad m]

/-- With the counters that belong to it. -/
def note (s : Services m) (x : Delivery × Counters) : m Delivery := do
  s.setCounters x.2
  return x.1

/-- The deduplicator judges the request at hand. -/
def judgeNext (s : Services m) (d : Delivery) : m Delivery :=
  match d.stage with
  | .judging r _ => do
    let verdict ← s.judge r
    note s (d.judged (← s.counters) verdict)
  | _ => return d

/-- The handler takes the request at hand. -/
def handleNext (s : Services m) (d : Delivery) : m Delivery :=
  match d.stage with
  | .handling r _ => do
    let result ← s.handle r
    note s (d.handled (← s.counters) result)
  | _ => return d

/-- The deduplicator forgets the request at hand. -/
def releaseNext (s : Services m) (d : Delivery) : m Delivery :=
  match d.stage with
  | .releasing r _ => do
    s.release r
    return d.released
  | _ => return d

/-- Until the request at hand is settled. -/
def settleNext (s : Services m) (d : Delivery) : m Delivery := do
  releaseNext s (← handleNext s (← judgeNext s d))

/-- The next `n` requests. -/
def settleMany (s : Services m) : Nat → Delivery → m Delivery
  | 0, d => return d
  | n + 1, d => do settleMany s n (← settleNext s d)

/-- A whole payload, given what it decodes to. -/
def receive (s : Services m) (result : Except Undecoded (List Request)) : m Outcome := do
  s.setCounters (← s.counters).addPayload
  let d ← note s ((start s.deduplicates).decoded (← s.counters) result)
  match d.stage with
  | .reporting u => do
    s.report u
    return d.reported.outcome
  | _ => return (← settleMany s d.unsettled.length d).outcome

end Delivery
end DeviceEvents
