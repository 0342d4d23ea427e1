import DeviceEvents.Ingest.Counters
import DeviceEvents.Ingest.Persistence
import DeviceEvents.Ingest.Window
import DeviceEvents.Store.EventStore
/-
  DeviceEvents.Simulation.World — an ingest service on a virtual clock.

  One flow of calls uses stores that share their rows. Every call of the backend takes the
  time that is set for it, and then gives the result that is planned for it, or does its work
  where none is left. Writes to the index that nobody waits for are jobs. They get on only
  while the flow waits: the clock goes from one thing that is due to the next, jobs that are
  due together get on in the order in which they came, and a job that is due just when the
  flow goes on has to wait until it stops again.

  The ids of new events and the dates come from outside (`Supply`): any ids, and dates that go as
  they like from one look at them to the next.
-/

namespace DeviceEvents.Simulation

/-- The calls of a backend. -/
inductive Method where
  | writeEvent
  | writeAlternateId
  | writeIndexEntry
  | readEvent
  | readAlternateId
  | scanPartition
  deriving DecidableEq, Repr

namespace Method

def all : List Method :=
  [.writeEvent, .writeAlternateId, .writeIndexEntry, .readEvent, .readAlternateId, .scanPartition]

def name : Method → String
  | .writeEvent => "write_event"
  | .writeAlternateId => "write_alternate_id"
  | .writeIndexEntry => "write_index_entry"
  | .readEvent => "read_event"
  | .readAlternateId => "read_alternate_id"
  | .scanPartition => "scan_partition"

def ofName? (n : String) : Option Method := all.find? (·.name == n)

end Method

/-- A write to the index that nobody waits for. Once it has begun it is due at a moment, and
then comes in time or not. -/
structure Job where
  store : Nat
  write : IndexWrite
  limit : Option Nat
  due : Option (Nat × Bool)

/-- What is put on record. -/
inductive Record where
  | undecoded (r : DecodeReport)
  | lost (l : DeadLetter)

/-- Where ids and dates come from. -/
structure Supply where
  /-- The id of the `n`-th event. -/
  eventId : Nat → Uuid
  /-- The date at the `n`-th look at it. -/
  date : Nat → Instant

structure World where
  /-- In milliseconds. -/
  clock : Nat
  supply : Supply
  stores : List StoreSettings
  rows : Rows
  delays : Table Method Nat
  plans : Table Method (List (Except Failure Unit))
  jobs : List Job
  /-- How many puts have begun. -/
  puts : Nat
  /-- How often somebody has looked at the date. -/
  looks : Nat
  registry : Registry
  window : Window
  counters : Counters
  records : List Record

/-- Something done in a world. -/
abbrev Sim := StateM World

namespace World

def start (supply : Supply) (stores : List StoreSettings) (r : Registry) (w : Window) : World where
  clock := 0
  supply
  stores
  rows := .empty
  delays := .empty
  plans := .empty
  jobs := []
  puts := 0
  looks := 0
  registry := r
  window := w
  counters := {}
  records := []

def settings (w : World) (store : Nat) : StoreSettings := w.stores[store]?.getD {}

def delay (w : World) (m : Method) : Nat := (w.delays.get? m).getD 0

/-- The id of the next event. -/
def nextId (w : World) : Uuid := w.supply.eventId w.puts

/-- The date that the next look at it gives. -/
def today (w : World) : Instant := w.supply.date w.looks

/-- The number of an event of this world. -/
def number? (w : World) (id : Uuid) : Option Nat :=
  (List.range w.puts).find? fun n => w.supply.eventId n == id

/-- The dead letters by event and dimension. -/
def letters (w : World) : List DeadLetter :=
  let ls := w.records.filterMap fun
    | .lost l => some ((w.number? l.eventId).getD w.puts, l)
    | .undecoded _ => none
  (ls.mergeSort fun a b => decide (a.1 < b.1) ||
    (a.1 == b.1 && decide (a.2.dimension.rank ≤ b.2.dimension.rank))).map (·.2)

end World

def record (r : Record) : Sim Unit := modify fun w => { w with records := w.records ++ [r] }

/-- The result that is planned for the next call. -/
def planned (m : Method) : Sim (Option Failure) := do
  match (← get).plans.get? m with
  | some (r :: rest) =>
    modify fun w => { w with plans := w.plans.insert m rest }
    return match r with
      | .ok () => none
      | .error f => some f
  | _ => return none

/-! ## Writes to the index -/

def performIndexWrite (iw : IndexWrite) : Sim Unit := do
  let failure ← planned .writeIndexEntry
  let (rows, letter) := iw.perform (← get).rows failure
  modify fun w => { w with rows }
  match letter with
  | some l => record (.lost l)
  | none => return ()

/-- A write ends, in time or at its limit. -/
def endIndexWrite (iw : IndexWrite) (limit : Option Nat) (inTime : Bool) : Sim Unit :=
  if inTime then performIndexWrite iw
  else record (.lost (iw.lost (IndexWrite.timeoutCause (limit.getD 0))))

/-- When a write that begins now will be due, and whether in time. -/
def indexWriteDue (w : World) (limit : Option Nat) : Nat × Bool :=
  let d := w.delay .writeIndexEntry
  match limit with
  | none => (w.clock + d, true)
  | some l => if d ≤ l then (w.clock + d, true) else (w.clock + l, false)

/-! ## Waiting -/

/-- Jobs in the order in which they are due. -/
def byTime (js : List Job) : List Job :=
  js.mergeSort fun a b => decide ((a.due.map (·.1)).getD 0 ≤ (b.due.map (·.1)).getD 0)

def endJob (j : Job) : Sim Unit := do
  match j.due with
  | some (time, inTime) =>
    modify fun w => { w with clock := max w.clock time }
    endIndexWrite j.write j.limit inTime
  | none => return ()

/-- Ends the jobs that are due up to a moment, each at its time. -/
def endJobs (isDue : Nat → Bool) : Sim Unit := do
  let w ← get
  let (now, later) := w.jobs.partition fun j => j.due.any fun (time, _) => isDue time
  set { w with jobs := later }
  (byTime now).forM endJob

/-- A job that has not begun begins. -/
def beginJob (j : Job) : Sim Unit := do
  let w ← get
  let (time, inTime) := indexWriteDue w j.limit
  if time ≤ w.clock then endIndexWrite j.write j.limit inTime
  else set { w with jobs := w.jobs ++ [{ j with due := some (time, inTime) }] }

/-- The flow stops: what is due gets on, and new jobs begin. -/
def settle : Sim Unit := do
  let clock := (← get).clock
  endJobs (fun time => decide (time ≤ clock))
  let w ← get
  let (fresh, begun) := w.jobs.partition fun j => j.due.isNone
  set { w with jobs := begun }
  fresh.forM beginJob

/-- The flow waits until a moment. -/
def waitUntil (time : Nat) : Sim Unit := do
  if (← get).clock < time then
    settle
    endJobs (fun t => decide (t < time))
    modify fun w => { w with clock := max w.clock time }

/-- The flow calls the backend: the delay passes, and the planned result is taken. -/
def call (m : Method) : Sim (Option Failure) := do
  let w ← get
  waitUntil (w.clock + w.delay m)
  planned m

/-- The flow waits for all jobs of a store. -/
def flush (store : Nat) : Sim Unit := do
  if (← get).jobs.any (·.store == store) then
    settle
    let times : List Nat := (← get).jobs.filterMap fun j =>
      if j.store == store then j.due.map (·.1) else none
    match times.max? with
    | some last => endJobs (fun t => decide (t ≤ last))
    | none => return ()

end DeviceEvents.Simulation
