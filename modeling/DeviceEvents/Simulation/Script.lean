import DeviceEvents.Ingest.Intake
import DeviceEvents.Ingest.Lifecycle
/-
  DeviceEvents.Simulation.Script — a pipeline whose parts follow a script.

  Each part gives the results that are planned for it one after the other, and succeeds where
  none is left. Everything it is asked to do is logged. The first worker of a receiver takes
  the payloads of the receiver when it begins, the others do nothing.
-/

namespace DeviceEvents.Simulation

inductive Part where
  | receiver (source : String)
  | deduplicator

inductive Cue where
  | started (p : Part)
  | stopped (p : Part)
  | worker (source : String) (n : Nat)
  | checked (r : Request)
  | forgotten (r : Request)
  | handled (source : String) (x : Inbound) (r : Request)
  | undecoded (source : String) (x : Inbound) (u : Undecoded)
  | received (source : String) (o : Outcome)

/-- The results that are planned. -/
structure Script where
  receiverStarts : List (List (Except Failure Unit))
  receiverStops : List (List (Except Failure Unit))
  starts : List (Except Refusal Unit)
  stops : List (Except Refusal Unit)
  checks : List (Except Refusal Bool)
  forgets : List (Except Refusal Unit)
  handlings : List (Except Refusal Unit)

structure Scene where
  script : Script
  window : Window
  counters : Counters
  log : List Cue

abbrev Play := StateM Scene

namespace Script

def note (c : Cue) : Play Unit := modify fun s => { s with log := s.log ++ [c] }

/-- The next result of a plan. -/
def next {α : Type} (default : α) : List α → α × List α
  | [] => (default, [])
  | a :: rest => (a, rest)

/-- The next result of the plan of one part among those of several. -/
def nextAt {α : Type} (default : α) (plans : List (List α)) (i : Nat) : α × List (List α) :=
  let (a, rest) := next default (plans[i]?.getD [])
  (a, plans.set i rest)

/-- Takes something out of the script. -/
def cue {α : Type} (c : Cue) (f : Script → α × Script) : Play α := do
  note c
  let s ← get
  let (a, script) := f s.script
  set { s with script }
  return a

def deduplicator : Deduplicator Play where
  start := cue (.started .deduplicator) fun s =>
    let (a, starts) := next (.ok ()) s.starts
    (a, { s with starts })
  stop := cue (.stopped .deduplicator) fun s =>
    let (a, stops) := next (.ok ()) s.stops
    (a, { s with stops })
  isDuplicate r := cue (.checked r) fun s =>
    let (a, checks) := next (.ok false) s.checks
    (a, { s with checks })
  forget r := cue (.forgotten r) fun s =>
    let (a, forgets) := next (.ok ()) s.forgets
    (a, { s with forgets })

/-- A deduplicator that follows no script. -/
def window : Deduplicator Play :=
  .byWindow (return (← get).window) fun window => modify fun s => { s with window }

def handler : Handler Play where
  handle source x r := cue (.handled source x r) fun s =>
    let (a, handlings) := next (.ok ()) s.handlings
    (a, { s with handlings })
  report source x u := note (.undecoded source x u)

def work (source : String) (xs : List Inbound) (sink : Intake Play) (n : Nat) : Play Unit := do
  note (.worker source n)
  if n = 0 then
    xs.forM fun x => do note (.received source (← sink.receive source x))

/-- The `i`-th receiver. -/
def receiver (i : Nat) (source : String) (workers : Nat) (xs : List Inbound) : Receiver Play where
  source
  workers
  start := cue (.started (.receiver source)) fun s =>
    let (a, receiverStarts) := nextAt (.ok ()) s.receiverStarts i
    (a, { s with receiverStarts })
  beginWorker := work source xs
  stop := cue (.stopped (.receiver source)) fun s =>
    let (a, receiverStops) := nextAt (.ok ()) s.receiverStops i
    (a, { s with receiverStops })

def pipeline (receivers : List (Receiver Play)) (decodes : Bool) (d : Option (Deduplicator Play)) :
    Pipeline Play where
  receivers
  decode := if decodes then some fun x => Envelope.decode x.payload x.hints else none
  deduplicator := d
  handler := handler
  counters := return (← get).counters
  setCounters counters := modify fun s => { s with counters }
  endWorkers := return ()

end Script
end DeviceEvents.Simulation
