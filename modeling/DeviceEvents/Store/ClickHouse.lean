import DeviceEvents.Store.Codec
import DeviceEvents.Store.Partition
import DeviceEvents.Store.Query
/-
  DeviceEvents.Store.ClickHouse — the tables that hold events in ClickHouse, and their rows.

  One table holds every event by its id, one the ids by alternate id, and one an entry for
  every partition that an event is indexed in, with all columns of the event.
-/

namespace DeviceEvents.ClickHouse

/-! ## Rows -/

/-- The columns of the table of events. -/
structure EventRow where
  tenant : String
  id : Uuid
  alternateId : Option String
  kind : String
  deviceId : Uuid
  assignmentId : Uuid
  customerId : Option Uuid
  areaId : Option Uuid
  assetId : Option Uuid
  eventDate : Instant
  receivedDate : Instant
  metadata : String
  payload : String
  deriving DecidableEq

namespace EventRow

def ofStored (tenant : String) (e : StoredEvent) : EventRow where
  tenant := tenant
  id := e.id
  alternateId := e.alternateId
  kind := e.kind
  deviceId := e.deviceId
  assignmentId := e.assignmentId
  customerId := e.customerId
  areaId := e.areaId
  assetId := e.assetId
  eventDate := e.eventDate
  receivedDate := e.receivedDate
  metadata := e.metadata
  payload := e.payload

def toStored (r : EventRow) : StoredEvent where
  id := r.id
  alternateId := r.alternateId
  kind := r.kind
  deviceId := r.deviceId
  assignmentId := r.assignmentId
  customerId := r.customerId
  areaId := r.areaId
  assetId := r.assetId
  eventDate := r.eventDate
  receivedDate := r.receivedDate
  metadata := r.metadata
  payload := r.payload

def ofEvent (tenant : String) (e : Event) : EventRow := ofStored tenant (.ofEvent e)

def toEvent (r : EventRow) : Except Trouble Event := r.toStored.toEvent

def columns (r : EventRow) : List Json.Member := ("tenant_id", .str r.tenant) :: r.toStored.columns

end EventRow

/-- The columns of the table of index entries: the partition, and all columns of the event. -/
structure IndexRow where
  dimension : String
  entity : Uuid
  bucket : Int
  tenant : String
  id : Uuid
  alternateId : Option String
  kind : String
  deviceId : Uuid
  assignmentId : Uuid
  customerId : Option Uuid
  areaId : Option Uuid
  assetId : Option Uuid
  eventDate : Instant
  receivedDate : Instant
  metadata : String
  payload : String
  deriving DecidableEq

namespace IndexRow

def ofRow (k : PartitionKey) (r : EventRow) : IndexRow where
  dimension := k.dimension.name
  entity := k.entity
  bucket := k.bucket
  tenant := r.tenant
  id := r.id
  alternateId := r.alternateId
  kind := r.kind
  deviceId := r.deviceId
  assignmentId := r.assignmentId
  customerId := r.customerId
  areaId := r.areaId
  assetId := r.assetId
  eventDate := r.eventDate
  receivedDate := r.receivedDate
  metadata := r.metadata
  payload := r.payload

/-- What a scan selects of an entry: the columns that the table of events has too. -/
def eventRow (r : IndexRow) : EventRow where
  tenant := r.tenant
  id := r.id
  alternateId := r.alternateId
  kind := r.kind
  deviceId := r.deviceId
  assignmentId := r.assignmentId
  customerId := r.customerId
  areaId := r.areaId
  assetId := r.assetId
  eventDate := r.eventDate
  receivedDate := r.receivedDate
  metadata := r.metadata
  payload := r.payload

/-- The entry of an event in a partition. -/
def ofEvent (k : PartitionKey) (e : Event) : IndexRow := ofRow k (.ofEvent k.tenant e)

def toEvent (r : IndexRow) : Except Trouble Event := r.eventRow.toEvent

def columns (r : IndexRow) : List Json.Member :=
  [("dimension", .str r.dimension), ("entity_id", uuidJson r.entity),
    ("bucket", .num (.int r.bucket))] ++ r.eventRow.columns

end IndexRow

/-! ## Schema -/

def eventsTable : String := "device_events"

def alternateIdsTable : String := "device_event_alternate_ids"

def indexTable : String := "device_event_index"

/-- Lines that are indented by `n`. -/
def indented (n : Nat) (lines : List String) : String :=
  String.join (lines.map fun l => "\n" ++ String.ofList (List.replicate n ' ') ++ l)

def eventColumns : String :=
  indented 8 ["tenant_id LowCardinality(String),",
    "id UUID,",
    "alternate_id Nullable(String),",
    "event_type LowCardinality(String),",
    "device_id UUID,",
    "device_assignment_id UUID,",
    "customer_id Nullable(UUID),",
    "area_id Nullable(UUID),",
    "asset_id Nullable(UUID),",
    "event_date DateTime64(3, 'UTC'),",
    "received_date DateTime64(3, 'UTC'),",
    "metadata String,",
    "payload String"]

/-- A table in which a row replaces an older one with the same key. -/
def createTable (name columns key : String) : String :=
  "CREATE TABLE IF NOT EXISTS " ++ name ++ " (" ++ columns ++ ")" ++
    indented 13 ["ENGINE = ReplacingMergeTree", "ORDER BY (" ++ key ++ ")"]

def schema : List String :=
  [createTable eventsTable eventColumns "tenant_id, id",
    createTable alternateIdsTable
      (indented 16 ["tenant_id LowCardinality(String),", "alternate_id String,", "event_id UUID"] ++
        indented 13 [""])
      "tenant_id, alternate_id",
    createTable indexTable
      (indented 16 ["dimension LowCardinality(String),", "entity_id UUID,", "bucket Int64,", ""] ++
        eventColumns ++ indented 13 [""])
      "tenant_id, dimension, entity_id, bucket, event_date, id"]

/-! ## Calls -/

def backendName : String := "clickhouse"

/-- An insert is created, given a row, and finished. -/
inductive InsertStage where
  | create
  | write
  | finish
  deriving DecidableEq, Repr

/-- What is asked of the server. -/
inductive Call where
  | ping
  | execute
  | insertEvent (s : InsertStage)
  | insertAlternateId (s : InsertStage)
  | insertIndexEntry (s : InsertStage)
  | readEvent
  | readAlternateId
  | scan (k : PartitionKey)

def InsertStage.failureText (row : String) : InsertStage → String
  | .create => "failed to create " ++ row ++ " insert"
  | .write => "failed to write " ++ row ++ " row"
  | .finish => "failed to finalize " ++ row ++ " insert"

/-- What is said of a call that fails. -/
def Call.failureText : Call → String
  | .ping => "ClickHouse ping failed"
  | .execute => "failed to execute ClickHouse statement"
  | .insertEvent s => s.failureText "event"
  | .insertAlternateId s => s.failureText "alternate id"
  | .insertIndexEntry s => s.failureText "index"
  | .readEvent => "failed to read event by id"
  | .readAlternateId => "failed to resolve alternate id"
  | .scan k => "failed to scan partition " ++ k.text

/-- Scans when the server cannot be reached. -/
def unreachable {m : Type → Type} [Monad m] : Scan m :=
  Scan.ofEach fun k _ => pure (.error (.of (Call.scan k).failureText))

end DeviceEvents.ClickHouse
