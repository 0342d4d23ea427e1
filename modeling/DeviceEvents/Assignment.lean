import DeviceEvents.Dimension
import DeviceEvents.Event.Basic
/-
  DeviceEvents.Assignment — which customer, area and asset a device is assigned to.

  A device token finds at most one active assignment. `Registry.insert` keeps the last
  version of every assignment by its id and, by token, the id of the assignment that was last
  inserted as active under that token.
-/

namespace DeviceEvents

open Json

inductive AssignmentStatus where
  | active
  | missing
  | released
  deriving DecidableEq, Repr

namespace AssignmentStatus

def name : AssignmentStatus → String
  | .active => "Active"
  | .missing => "Missing"
  | .released => "Released"

def names : List (String × AssignmentStatus) :=
  [("Active", .active), ("Missing", .missing), ("Released", .released)]

end AssignmentStatus

structure Assignment where
  id : Uuid
  deviceId : Uuid
  deviceToken : String
  customerId : Option Uuid
  areaId : Option Uuid
  assetId : Option Uuid
  status : AssignmentStatus
  activeDate : Option Instant
  deriving DecidableEq

namespace Assignment

/-- What the assignment associates its events with in a dimension. -/
def entityFor (a : Assignment) : Dimension → Option Uuid
  | .assignment => some a.id
  | .customer => a.customerId
  | .area => a.areaId
  | .asset => a.assetId

def isActive (a : Assignment) : Bool := a.status == .active

def toJson (a : Assignment) : Value :=
  .obj [("id", uuidJson a.id), ("deviceId", uuidJson a.deviceId),
    ("deviceToken", .str a.deviceToken), ("customerId", .ofOption uuidJson a.customerId),
    ("areaId", .ofOption uuidJson a.areaId), ("assetId", .ofOption uuidJson a.assetId),
    ("status", .str a.status.name), ("activeDate", .ofOption instantJson a.activeDate)]

structure Slots where
  id : Option Uuid
  deviceId : Option Uuid
  deviceToken : Option String
  customerId : Option Uuid
  areaId : Option Uuid
  assetId : Option Uuid
  status : Option AssignmentStatus
  activeDate : Option Instant

def record : Record Slots Assignment where
  name := "DeviceAssignment"
  fields := [⟨"id", false⟩, ⟨"deviceId", false⟩, ⟨"deviceToken", false⟩, ⟨"customerId", true⟩,
    ⟨"areaId", true⟩, ⟨"assetId", true⟩, ⟨"status", false⟩, ⟨"activeDate", true⟩]
  start := ⟨none, none, none, none, none, none, none, none⟩
  finish s := return {
    id := ← Record.need "id" s.id
    deviceId := ← Record.need "deviceId" s.deviceId
    deviceToken := ← Record.need "deviceToken" s.deviceToken
    customerId := s.customerId
    areaId := s.areaId
    assetId := s.assetId
    status := ← Record.need "status" s.status
    activeDate := s.activeDate }

def put (s : Slots) (k : String) : Json.Reader Slots :=
  let uuid := Reader.leaf Leaf.uuid
  match k with
  | "id" => uuid.map fun a => { s with id := some a }
  | "deviceId" => uuid.map fun a => { s with deviceId := some a }
  | "deviceToken" => (Reader.leaf Leaf.string).map fun a => { s with deviceToken := some a }
  | "customerId" => uuid.optional.map fun a => { s with customerId := a }
  | "areaId" => uuid.optional.map fun a => { s with areaId := a }
  | "assetId" => uuid.optional.map fun a => { s with assetId := a }
  | "status" => (variantReader AssignmentStatus.names).map fun a => { s with status := some a }
  | "activeDate" => (Reader.leaf Leaf.instant).optional.map fun a => { s with activeDate := a }
  | _ => fun _ ts => .ok (s, ts)

def reader : Json.Reader Assignment := record.reader put

def parse (text : String) : Except Fault Assignment := reader.run text

def listReader : Json.Reader (List Assignment) :=
  Reader.inside "a sequence" none (some fun room ts => do
    let (as, ts) ← Reader.items (fun as ts => do
      let (a, ts) ← reader room ts
      return (a :: as, ts)) [] ts
    return (as.reverse, ts))

end Assignment
end DeviceEvents
