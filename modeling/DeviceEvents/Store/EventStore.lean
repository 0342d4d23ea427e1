import DeviceEvents.Assignment
import DeviceEvents.Request
import DeviceEvents.Store.Query
import DeviceEvents.Store.Rows
/-
  DeviceEvents.Store.EventStore — how an event comes into a store.

  A put writes the event by its id and then, if it has one, by its alternate id; a failure of
  either ends it. After that the event is written to the index, once for every dimension in
  which its assignment has an entity. These writes are on their own: one that fails leaves a
  dead letter, and the put succeeds all the same.
-/

namespace DeviceEvents

structure StoreSettings where
  tenant : String := "default"
  scheme : BucketScheme := .hourly
  /-- How many milliseconds one write to the index may take; none is no limit. -/
  indexWriteLimit : Option Nat := some 10000
  /-- How many milliseconds a query may take. -/
  queryLimit : Option Nat := some 30000
  /-- A put waits for its writes to the index. -/
  waitsForIndex : Bool := false
  /-- How many buckets a query may visit. -/
  maxBuckets : Option Nat := some 10000

def StoreSettings.plan (s : StoreSettings) : Query.Plan := ⟨s.tenant, s.scheme, s.maxBuckets⟩

/-- The event of a draft under an assignment, received at a moment. Dates are cut to
milliseconds; a draft without a date has the date of its receipt. -/
def Draft.toEvent (d : Draft) (a : Assignment) (id : Uuid) (received : Instant) : Event where
  id
  alternateId := d.alternateId
  deviceId := a.deviceId
  assignmentId := a.id
  customerId := a.customerId
  areaId := a.areaId
  assetId := a.assetId
  eventDate := (d.eventDate.map Instant.truncate).getD received.truncate
  receivedDate := received.truncate
  metadata := d.metadata
  payload := d.payload

/-! ## The event itself -/

/-- What a put writes next. -/
inductive PutStage where
  | event
  | alternateId (alternateId : String)
  | index
  | failed (f : Failure)
  deriving DecidableEq

structure Put where
  tenant : String
  event : Event
  stage : PutStage

namespace Put

def ofEvent (tenant : String) (e : Event) : Put := ⟨tenant, e, .event⟩

/-- The next write by an id, which may fail for a reason given. -/
def advance (p : Put) (r : Rows) : Option Failure → Put × Rows
  | some f =>
    match p.stage with
    | .event | .alternateId _ => ({ p with stage := .failed f }, r)
    | _ => (p, r)
  | none =>
    match p.stage with
    | .event =>
      let next := match p.event.alternateId with
        | some a => PutStage.alternateId a
        | none => .index
      ({ p with stage := next }, r.writeEvent p.tenant p.event)
    | .alternateId a => ({ p with stage := .index }, r.writeAlternateId p.tenant a p.event.id)
    | _ => (p, r)

end Put

/-! ## The index -/

structure IndexWrite where
  key : PartitionKey
  event : Event
  deriving DecidableEq

/-- The entries of an event, in the order of the dimensions. -/
def indexWrites (s : StoreSettings) (a : Assignment) (e : Event) : List IndexWrite :=
  Dimension.all.filterMap fun d =>
    (a.entityFor d).map fun entity => ⟨⟨s.tenant, d, entity, s.scheme.bucketOf e.eventDate⟩, e⟩

/-- What is left of a write to the index that did not come about. -/
structure DeadLetter where
  eventId : Uuid
  dimension : Dimension
  entity : Uuid
  cause : String
  deriving DecidableEq

namespace IndexWrite

def lost (w : IndexWrite) (cause : String) : DeadLetter :=
  ⟨w.event.id, w.key.dimension, w.key.entity, cause⟩

def timeoutCause (limit : Nat) : String := "index write timed out after " ++ toString limit ++ "ms"

/-- The write, which may fail for a reason given or in the rows. -/
def perform (w : IndexWrite) (r : Rows) : Option Failure → Rows × Option DeadLetter
  | some f => (r, some (w.lost f.chain))
  | none =>
    match r.writeIndexEntry w.key w.event with
    | .ok r => (r, none)
    | .error f => (r, some (w.lost f.chain))

end IndexWrite
end DeviceEvents
