import DeviceEvents.Ingest.Intake
import DeviceEvents.Ingest.Lifecycle
import DeviceEvents.Simulation.Stores
/-
  DeviceEvents.Simulation.Service — the pipeline of a simulated world. It keeps its events in
  the first store.
-/

namespace DeviceEvents.Simulation

def asRefusal {α : Type} (r : Except Trouble α) : Except Refusal α := r.mapError Trouble.toRefusal

/-- A store as its callers see it. -/
def management (store : Nat) : EventManagement Sim where
  byId id := asRefusal <$> getById store id
  byAlternateId a := asRefusal <$> getByAlternateId store a
  add a d := asRefusal <$> put store a d

def persist (r : Request) : Sim (Except Refusal Unit) := do
  r.persist (← get).registry.active? (management 0)

def deduplicator? : DeduplicatorKind → Option (Deduplicator Sim)
  | .none => none
  | .alternateId => some (.byAlternateId (management 0).byAlternateId)
  | .recent _ => some (.byWindow (return (← get).window) fun window =>
      modify fun w => { w with window })

def handler : Handler Sim where
  handle _ _ := persist
  report source x u := record (.undecoded (.ofUndecoded source x u))

def pipeline (k : DeduplicatorKind) (receivers : List (Receiver Sim)) : Pipeline Sim where
  receivers
  decode := some fun x => Envelope.decode x.payload x.hints
  deduplicator := deduplicator? k
  handler := handler
  counters := return (← get).counters
  setCounters counters := modify fun w => { w with counters }
  endWorkers := settle

/-- What takes in the payloads of the pipeline. -/
def intake (k : DeduplicatorKind) : Intake Sim :=
  (pipeline k []).intake fun x => Envelope.decode x.payload x.hints

/-- The pipeline receives a payload. -/
def receive (k : DeduplicatorKind) (source : String) (payload : ByteArray) (h : Hints) :
    Sim Outcome :=
  (intake k).receive source ⟨payload, h⟩

/-- A receiver that has these payloads for its only worker. -/
def receiver (source : String) (xs : List Inbound) : Receiver Sim where
  source
  workers := 1
  start := return .ok ()
  beginWorker sink _ := xs.forM fun x => discard (sink.receive source x)
  stop := return .ok ()

/-- The pipeline runs until it has received what its receivers have. -/
def work (k : DeduplicatorKind) (sources : List (String × List Inbound)) :
    Sim (Except LifecycleFault Unit) :=
  (pipeline k (sources.map fun (source, xs) => receiver source xs)).run (return ()) .fresh

/-- The same world for a new pipeline. -/
def afresh (k : DeduplicatorKind) (w : World) : World :=
  { w with
    window := match k with
      | .recent n => .ofCapacity n
      | _ => w.window
    counters := {} }

end DeviceEvents.Simulation
