import DeviceEvents.Store.Error
import DeviceEvents.Event.Basic
/-
  DeviceEvents.Store.Codec — events as flat rows: the payload and the metadata are JSON text,
  the kind of event stands beside them.
-/

namespace DeviceEvents

open Json

structure StoredEvent where
  id : Uuid
  alternateId : Option String
  kind : String
  deviceId : Uuid
  assignmentId : Uuid
  customerId : Option Uuid
  areaId : Option Uuid
  assetId : Option Uuid
  eventDate : Instant
  receivedDate : Instant
  metadata : String
  payload : String
  deriving DecidableEq

/-- The columns of a row under their names. -/
def StoredEvent.columns (e : StoredEvent) : List Member :=
  [("id", uuidJson e.id), ("alternate_id", .ofOption stringJson e.alternateId),
    ("event_type", .str e.kind), ("device_id", uuidJson e.deviceId),
    ("device_assignment_id", uuidJson e.assignmentId),
    ("customer_id", .ofOption uuidJson e.customerId), ("area_id", .ofOption uuidJson e.areaId),
    ("asset_id", .ofOption uuidJson e.assetId), ("event_date", instantJson e.eventDate),
    ("received_date", instantJson e.receivedDate), ("metadata", .str e.metadata),
    ("payload", .str e.payload)]

namespace Metadata

def encode (m : Metadata) : String := (dictionaryJson stringJson m).render

/-- Blanks stand for no metadata. -/
def decode (s : String) : Except Trouble Metadata :=
  if Text.allBlank s then .ok .empty
  else match (dictionaryReader Leaf.string).run s with
    | .ok m => .ok m
    | .error f => .error (.codec f)

end Metadata

namespace StoredEvent

def ofEvent (e : Event) : StoredEvent where
  id := e.id
  alternateId := e.alternateId
  kind := e.payload.kind.name
  deviceId := e.deviceId
  assignmentId := e.assignmentId
  customerId := e.customerId
  areaId := e.areaId
  assetId := e.assetId
  eventDate := e.eventDate
  receivedDate := e.receivedDate
  metadata := e.metadata.encode
  payload := e.payload.toJson.render

def mismatchText (id : Uuid) (stored carried : EventKind) : String :=
  "event " ++ id.text ++ " is stored as " ++ stored.name ++ " but carries a " ++ carried.name ++
    " payload"

/-- The payload is read first, then the kind, then the metadata. -/
def toEvent (s : StoredEvent) : Except Trouble Event := do
  let payload ← (Payload.parse s.payload).mapError Trouble.codec
  let kind ← match EventKind.parse? s.kind with
    | some k => pure k
    | none => throw (.invalidStoredValue (EventKind.unknownText s.kind))
  if kind ≠ payload.kind then throw (.invalidStoredValue (mismatchText s.id kind payload.kind))
  let metadata ← Metadata.decode s.metadata
  return {
    id := s.id
    alternateId := s.alternateId
    deviceId := s.deviceId
    assignmentId := s.assignmentId
    customerId := s.customerId
    areaId := s.areaId
    assetId := s.assetId
    eventDate := s.eventDate
    receivedDate := s.receivedDate
    metadata
    payload }

end StoredEvent
end DeviceEvents
