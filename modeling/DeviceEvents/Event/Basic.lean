import DeviceEvents.Event.PayloadJson
import DeviceEvents.Instant.Reading
/-
  DeviceEvents.Event.Basic — a stored device event, and its JSON.
-/

namespace DeviceEvents

open Json

abbrev Metadata := Dictionary String

structure Event where
  id : Uuid
  alternateId : Option String
  deviceId : Uuid
  assignmentId : Uuid
  customerId : Option Uuid
  areaId : Option Uuid
  assetId : Option Uuid
  eventDate : Instant
  receivedDate : Instant
  metadata : Metadata
  payload : Payload
  deriving DecidableEq

def instantJson (t : Instant) : Value := .str t.text

namespace Json.Leaf

/-- Dates are read by the lenient rule. -/
def instant : Leaf Instant :=
  parsed "an RFC 3339 formatted date and time string" .badDate Instant.ofLenient?

end Json.Leaf

namespace Event

def toJson (e : Event) : Value :=
  .obj [("id", uuidJson e.id), ("alternateId", .ofOption stringJson e.alternateId),
    ("deviceId", uuidJson e.deviceId), ("deviceAssignmentId", uuidJson e.assignmentId),
    ("customerId", .ofOption uuidJson e.customerId), ("areaId", .ofOption uuidJson e.areaId),
    ("assetId", .ofOption uuidJson e.assetId), ("eventDate", instantJson e.eventDate),
    ("receivedDate", instantJson e.receivedDate),
    ("metadata", dictionaryJson stringJson e.metadata), ("payload", e.payload.toJson)]

structure Slots where
  id : Option Uuid
  alternateId : Option String
  deviceId : Option Uuid
  assignmentId : Option Uuid
  customerId : Option Uuid
  areaId : Option Uuid
  assetId : Option Uuid
  eventDate : Option Instant
  receivedDate : Option Instant
  metadata : Option Metadata
  payload : Option Payload

def record : Record Slots Event where
  name := "DeviceEvent"
  fields := ["id", "alternateId", "deviceId", "deviceAssignmentId", "customerId", "areaId",
    "assetId", "eventDate", "receivedDate", "metadata", "payload"].map (⟨·, false⟩)
  start := ⟨none, none, none, none, none, none, none, none, none, none, none⟩
  finish s := return {
    id := ← Record.need "id" s.id
    alternateId := s.alternateId
    deviceId := ← Record.need "deviceId" s.deviceId
    assignmentId := ← Record.need "deviceAssignmentId" s.assignmentId
    customerId := s.customerId
    areaId := s.areaId
    assetId := s.assetId
    eventDate := ← Record.need "eventDate" s.eventDate
    receivedDate := ← Record.need "receivedDate" s.receivedDate
    metadata := ← Record.need "metadata" s.metadata
    payload := ← Record.need "payload" s.payload }

def put (s : Slots) (k : String) : Json.Reader Slots :=
  let string := Reader.leaf Leaf.string
  let uuid := Reader.leaf Leaf.uuid
  let instant := Reader.leaf Leaf.instant
  match k with
  | "id" => uuid.map fun a => { s with id := some a }
  | "alternateId" => string.optional.map fun a => { s with alternateId := a }
  | "deviceId" => uuid.map fun a => { s with deviceId := some a }
  | "deviceAssignmentId" => uuid.map fun a => { s with assignmentId := some a }
  | "customerId" => uuid.optional.map fun a => { s with customerId := a }
  | "areaId" => uuid.optional.map fun a => { s with areaId := a }
  | "assetId" => uuid.optional.map fun a => { s with assetId := a }
  | "eventDate" => instant.map fun a => { s with eventDate := some a }
  | "receivedDate" => instant.map fun a => { s with receivedDate := some a }
  | "metadata" => (dictionaryReader Leaf.string).map fun a => { s with metadata := some a }
  | "payload" => Payload.reader.map fun a => { s with payload := some a }
  | _ => fun _ ts => .ok (s, ts)

def reader : Json.Reader Event := record.reader put

def parse (text : String) : Except Fault Event := reader.run text

end Event
end DeviceEvents
