import DeviceEvents.Ingest.Intake
/-
  DeviceEvents.Ingest.Lifecycle — how a pipeline is brought up and taken down.

  A pipeline is created, initialized, started, stopped and terminated, in this order. Starting
  brings up the receivers in their order and then the deduplicator; stopping first ends the
  workers, then takes down the deduplicator and the receivers in reverse order, each of them
  once whatever the others do. If something fails to start, what was started is taken down
  again, newest first, and the pipeline stays initialized. What the state does not allow is
  refused and changes nothing.

  What takes in payloads, the core, is put together when the pipeline is initialized, given to
  its workers when it is started, and dropped when it is terminated.
-/

namespace DeviceEvents

inductive LifecycleState where
  | created
  | initialized
  | started
  | stopped
  | terminated
  deriving DecidableEq, Repr

namespace LifecycleState

def name : LifecycleState → String
  | .created => "Created"
  | .initialized => "Initialized"
  | .started => "Started"
  | .stopped => "Stopped"
  | .terminated => "Terminated"

end LifecycleState

inductive LifecycleStep where
  | prepare
  | start
  | stop
  | terminate
  deriving DecidableEq, Repr

def LifecycleStep.name : LifecycleStep → String
  | .prepare => "initialize"
  | .start => "start"
  | .stop => "stop"
  | .terminate => "terminate"

inductive LifecycleFault where
  | noReceivers
  | noDecoder
  | notAllowed (step : LifecycleStep) (state : LifecycleState)
  | receiver (source : String) (step : LifecycleStep) (f : Failure)
  | deduplicator (step : LifecycleStep) (r : Refusal)
  deriving DecidableEq

namespace LifecycleFault

/-- The name under which it is reported. -/
def kind : LifecycleFault → String
  | .noReceivers => "NoReceivers"
  | .noDecoder => "NoDecoder"
  | .notAllowed _ _ => "InvalidState"
  | .receiver _ _ _ => "Receiver"
  | .deduplicator _ _ => "Deduplicator"

def failedTo (what : String) (step : LifecycleStep) (cause : String) : String :=
  what ++ " failed to " ++ step.name ++ ": " ++ cause

def message : LifecycleFault → String
  | .noReceivers => "pipeline has no receivers"
  | .noDecoder => "pipeline has no decoder"
  | .notAllowed step state => "cannot " ++ step.name ++ " pipeline in state " ++ state.name
  | .receiver source step f => failedTo ("receiver '" ++ source ++ "'") step f.top
  | .deduplicator step r => failedTo "deduplicator" step r.message

/-- The fault with its causes. -/
def toFailure (e : LifecycleFault) : Failure :=
  match e with
  | .receiver _ _ f => ⟨e.message, f.top :: f.causes⟩
  | .deduplicator _ r => ⟨e.message, [r.message]⟩
  | _ => .of e.message

end LifecycleFault

/-- A source of payloads. -/
structure Receiver (m : Type → Type) where
  source : String
  workers : Nat
  start : m (Except Failure Unit)
  /-- Sets one of the workers going, which hands on what it gets. -/
  beginWorker : Intake m → Nat → m Unit
  stop : m (Except Failure Unit)

/-- A receiver has at least one worker. -/
def Receiver.workerCount {m : Type → Type} (r : Receiver m) : Nat := max 1 r.workers

structure Pipeline (m : Type → Type) where
  receivers : List (Receiver m)
  decode : Option (Inbound → Except Undecoded (List Request))
  deduplicator : Option (Deduplicator m)
  handler : Handler m
  counters : m Counters
  setCounters : Counters → m Unit
  /-- Tells the workers to end and waits until they have. -/
  endWorkers : m Unit

/-- How far a pipeline has come. -/
structure Lifecycle (m : Type → Type) where
  state : LifecycleState
  /-- What takes in payloads, if something does. -/
  core : Option (Intake m)

def Lifecycle.fresh {m : Type → Type} : Lifecycle m := ⟨.created, none⟩

namespace Pipeline

variable {m : Type → Type} [Monad m]

/-- What takes in payloads, with a decoder. -/
def intake (p : Pipeline m) (decode : Inbound → Except Undecoded (List Request)) : Intake m where
  decode
  deduplicator := p.deduplicator
  handler := p.handler
  counters := p.counters
  setCounters := p.setCounters

def prepare (p : Pipeline m) (l : Lifecycle m) : Except LifecycleFault (Lifecycle m) :=
  match l.state with
  | .created =>
    if p.receivers.isEmpty then .error .noReceivers
    else match p.decode with
      | none => .error .noDecoder
      | some decode => .ok ⟨.initialized, some (p.intake decode)⟩
  | s => .error (.notAllowed .prepare s)

/-! ## Starting -/

/-- Starts receivers until one fails. `up` are those that are up, newest first. -/
def startReceivers (up : List (Receiver m)) :
    List (Receiver m) → m (Option LifecycleFault × List (Receiver m))
  | [] => return (none, up)
  | r :: rs => do
    match ← r.start with
    | .ok () => startReceivers (r :: up) rs
    | .error f => return (some (.receiver r.source .start f), up)

def startDeduplicator (p : Pipeline m) : m (Option LifecycleFault) := do
  match p.deduplicator with
  | none => return none
  | some d =>
    match ← d.start with
    | .ok () => return none
    | .error e => return some (.deduplicator .start e)

/-- Takes receivers down again, whatever comes of it. -/
def takeDown (up : List (Receiver m)) : m Unit := up.forM fun r => discard r.stop

/-- Sets the workers going, receiver by receiver. -/
def beginWorkers (p : Pipeline m) (sink : Intake m) : m Unit :=
  p.receivers.forM fun r => (List.range r.workerCount).forM (r.beginWorker sink)

/-- Starts the parts, and the workers with what takes in payloads. -/
def startWith (p : Pipeline m) (sink : Intake m) : m (Option LifecycleFault) := do
  let (fault, up) ← startReceivers [] p.receivers
  let fault ← match fault with
    | some e => pure (some e)
    | none => p.startDeduplicator
  match fault with
  | some e => do
    takeDown up
    return some e
  | none => do
    p.beginWorkers sink
    return none

def start (p : Pipeline m) (l : Lifecycle m) : m (Except LifecycleFault (Lifecycle m)) :=
  match l.state with
  | .initialized =>
    match l.core with
    | none => return .error (.notAllowed .start l.state)
    | some sink => do
      match ← p.startWith sink with
      | some e => return .error e
      | none => return .ok { l with state := .started }
  | s => return .error (.notAllowed .start s)

/-! ## Stopping -/

def stopDeduplicator (p : Pipeline m) : m (Option LifecycleFault) := do
  match p.deduplicator with
  | none => return none
  | some d =>
    match ← d.stop with
    | .ok () => return none
    | .error e => return some (.deduplicator .stop e)

/-- Stops every receiver. The first fault counts, one from before first of all. -/
def stopReceivers (fault : Option LifecycleFault) :
    List (Receiver m) → m (Option LifecycleFault)
  | [] => return fault
  | r :: rs => do
    match ← r.stop with
    | .ok () => stopReceivers fault rs
    | .error f => stopReceivers (fault.or (some (.receiver r.source .stop f))) rs

/-- How far it is afterwards, and the first fault. -/
def stop (p : Pipeline m) (l : Lifecycle m) : m (Lifecycle m × Option LifecycleFault) :=
  match l.state with
  | .started => do
    p.endWorkers
    let fault ← p.stopDeduplicator
    let fault ← stopReceivers fault p.receivers.reverse
    return ({ l with state := .stopped }, fault)
  | s => return (l, some (.notAllowed .stop s))

def terminate (l : Lifecycle m) : Except LifecycleFault (Lifecycle m) :=
  match l.state with
  | .created | .initialized | .stopped => .ok ⟨.terminated, none⟩
  | s => .error (.notAllowed .terminate s)

/-! ## The whole life -/

/-- From the beginning to the end, which is when `cancelled` returns. -/
def run (p : Pipeline m) (cancelled : m Unit) (l : Lifecycle m) : m (Except LifecycleFault Unit) := do
  match p.prepare l with
  | .error e => return .error e
  | .ok l =>
    match ← p.start l with
    | .error e => return (do
      discard (terminate l)
      throw e)
    | .ok l => do
      cancelled
      let (l, fault) ← p.stop l
      return (do
        discard (terminate l)
        match fault with
        | some e => throw e
        | none => return ())

end Pipeline
end DeviceEvents
