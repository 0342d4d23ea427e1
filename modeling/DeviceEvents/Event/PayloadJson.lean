import DeviceEvents.Event.Payload
import DeviceEvents.Json.Record
/-
  DeviceEvents.Event.PayloadJson — payloads as JSON.

  A payload is one object: the kind of event under `eventType`, first, then the fields of
  that kind. It may also be given as an array that begins with the kind. The fields are read
  once the whole object is, so a fault in the form of the text is met before one in a field,
  and a fault of the kind before both. `ofMembers` reads an object that is in memory, `reader`
  reads text.
-/

namespace DeviceEvents

open Json

/-! ## Variants -/

def AlertSource.names : List (String × AlertSource) := [("Device", .device), ("System", .system)]

def AlertLevel.names : List (String × AlertLevel) :=
  [("Info", .info), ("Warning", .warning), ("Error", .error), ("Critical", .critical)]

def CommandInitiator.names : List (String × CommandInitiator) :=
  [("Rest", .rest), ("Script", .script), ("Scheduler", .scheduler),
    ("BatchOperation", .batchOperation)]

def CommandTarget.names : List (String × CommandTarget) := [("Assignment", .assignment)]

def EventKind.names : List (String × EventKind) := EventKind.all.map fun k => (k.name, k)

def AlertSource.name : AlertSource → String
  | .device => "Device"
  | .system => "System"

def AlertLevel.name : AlertLevel → String
  | .info => "Info"
  | .warning => "Warning"
  | .error => "Error"
  | .critical => "Critical"

def CommandInitiator.name : CommandInitiator → String
  | .rest => "Rest"
  | .script => "Script"
  | .scheduler => "Scheduler"
  | .batchOperation => "BatchOperation"

def CommandTarget.name : CommandTarget → String
  | .assignment => "Assignment"

namespace Json.Leaf

def uuid : Leaf Uuid := parsed "a formatted UUID string" .badUuid Uuid.parse?

end Json.Leaf

/-! ## Writing -/

def realJson (x : Binary64) : Value := if x.isFinite then .num (.real x) else .null

def stringJson (s : String) : Value := .str s

def uuidJson (u : Uuid) : Value := .str u.text

def dictionaryJson {α : Type} (f : α → Value) (d : Dictionary α) : Value :=
  .obj (d.entries.map fun (k, v) => (k, f v))

namespace Payload

/-- The members behind `eventType`. -/
def fields : Payload → List Member
  | .measurement p => [("measurements", dictionaryJson realJson p.measurements)]
  | .location p =>
    [("latitude", realJson p.latitude), ("longitude", realJson p.longitude),
      ("elevation", .ofOption realJson p.elevation)]
  | .alert p =>
    [("source", .str p.source.name), ("level", .str p.level.name), ("type", .str p.kind),
      ("message", .str p.message)]
  | .commandInvocation p =>
    [("initiator", .str p.initiator.name), ("initiatorId", .ofOption stringJson p.initiatorId),
      ("target", .str p.target.name), ("targetId", .ofOption stringJson p.targetId),
      ("commandToken", .str p.commandToken),
      ("parameterValues", dictionaryJson stringJson p.parameterValues)]
  | .commandResponse p =>
    [("originatingEventId", uuidJson p.originatingEventId),
      ("responseEventId", .ofOption uuidJson p.responseEventId),
      ("response", .ofOption stringJson p.response)]
  | .stateChange p =>
    [("attribute", .str p.attributeName), ("type", .str p.kind),
      ("previousState", .ofOption stringJson p.previousState),
      ("newState", .ofOption stringJson p.newState)]

def tag : String := "eventType"

def toJson (p : Payload) : Value := .obj ((tag, .str p.kind.name) :: p.fields)

end Payload

/-! ## Reading the fields of each kind -/

namespace Measurement

abbrev Slots := Option (Dictionary Binary64)

def record : Record Slots Measurement where
  name := "MeasurementPayload"
  fields := [⟨"measurements", false⟩]
  start := none
  finish s := return ⟨← Record.need "measurements" s⟩

def put (s : Slots) (k : String) (v : Value) : Except DataFault Slots :=
  match k with
  | "measurements" => some <$> dictionaryOf Leaf.real v
  | _ => .ok s

end Measurement

namespace Location

structure Slots where
  latitude : Option Binary64
  longitude : Option Binary64
  elevation : Option Binary64

def record : Record Slots Location where
  name := "LocationPayload"
  fields := [⟨"latitude", false⟩, ⟨"longitude", false⟩, ⟨"elevation", true⟩]
  start := ⟨none, none, none⟩
  finish s := return ⟨← Record.need "latitude" s.latitude, ← Record.need "longitude" s.longitude, s.elevation⟩

def put (s : Slots) (k : String) (v : Value) : Except DataFault Slots :=
  match k with
  | "latitude" => do return { s with latitude := some (← Leaf.real v.found) }
  | "longitude" => do return { s with longitude := some (← Leaf.real v.found) }
  | "elevation" => do return { s with elevation := ← Leaf.real.optional v.found }
  | _ => .ok s

end Location

namespace Alert

structure Slots where
  source : Option AlertSource
  level : Option AlertLevel
  kind : Option String
  message : Option String

def record : Record Slots Alert where
  name := "AlertPayload"
  fields := [⟨"source", true⟩, ⟨"level", true⟩, ⟨"type", false⟩, ⟨"message", false⟩]
  start := ⟨none, none, none, none⟩
  finish s := return {
    source := s.source.getD .device
    level := s.level.getD .info
    kind := ← Record.need "type" s.kind
    message := ← Record.need "message" s.message }

def put (s : Slots) (k : String) (v : Value) : Except DataFault Slots :=
  match k with
  | "source" => do return { s with source := some (← variantOfValue AlertSource.names v) }
  | "level" => do return { s with level := some (← variantOfValue AlertLevel.names v) }
  | "type" => do return { s with kind := some (← Leaf.string v.found) }
  | "message" => do return { s with message := some (← Leaf.string v.found) }
  | _ => .ok s

end Alert

namespace CommandInvocation

structure Slots where
  initiator : Option CommandInitiator
  initiatorId : Option String
  target : Option CommandTarget
  targetId : Option String
  commandToken : Option String
  parameterValues : Option (Dictionary String)

def record : Record Slots CommandInvocation where
  name := "CommandInvocationPayload"
  fields := [⟨"initiator", false⟩, ⟨"initiatorId", true⟩, ⟨"target", false⟩, ⟨"targetId", true⟩,
    ⟨"commandToken", false⟩, ⟨"parameterValues", true⟩]
  start := ⟨none, none, none, none, none, none⟩
  finish s := return {
    initiator := ← Record.need "initiator" s.initiator
    initiatorId := s.initiatorId
    target := ← Record.need "target" s.target
    targetId := s.targetId
    commandToken := ← Record.need "commandToken" s.commandToken
    parameterValues := s.parameterValues.getD .empty }

def put (s : Slots) (k : String) (v : Value) : Except DataFault Slots :=
  match k with
  | "initiator" => do return { s with initiator := some (← variantOfValue CommandInitiator.names v) }
  | "initiatorId" => do return { s with initiatorId := ← Leaf.string.optional v.found }
  | "target" => do return { s with target := some (← variantOfValue CommandTarget.names v) }
  | "targetId" => do return { s with targetId := ← Leaf.string.optional v.found }
  | "commandToken" => do return { s with commandToken := some (← Leaf.string v.found) }
  | "parameterValues" => do return { s with parameterValues := some (← dictionaryOf Leaf.string v) }
  | _ => .ok s

end CommandInvocation

namespace CommandResponse

structure Slots where
  originatingEventId : Option Uuid
  responseEventId : Option Uuid
  response : Option String

def record : Record Slots CommandResponse where
  name := "CommandResponsePayload"
  fields := [⟨"originatingEventId", false⟩, ⟨"responseEventId", true⟩, ⟨"response", true⟩]
  start := ⟨none, none, none⟩
  finish s := return {
    originatingEventId := ← Record.need "originatingEventId" s.originatingEventId
    responseEventId := s.responseEventId
    response := s.response }

def put (s : Slots) (k : String) (v : Value) : Except DataFault Slots :=
  match k with
  | "originatingEventId" => do return { s with originatingEventId := some (← Leaf.uuid v.found) }
  | "responseEventId" => do return { s with responseEventId := ← Leaf.uuid.optional v.found }
  | "response" => do return { s with response := ← Leaf.string.optional v.found }
  | _ => .ok s

end CommandResponse

namespace StateChange

structure Slots where
  attributeName : Option String
  kind : Option String
  previousState : Option String
  newState : Option String

def record : Record Slots StateChange where
  name := "StateChangePayload"
  fields := [⟨"attribute", false⟩, ⟨"type", false⟩, ⟨"previousState", true⟩, ⟨"newState", true⟩]
  start := ⟨none, none, none, none⟩
  finish s := return {
    attributeName := ← Record.need "attribute" s.attributeName
    kind := ← Record.need "type" s.kind
    previousState := s.previousState
    newState := s.newState }

def put (s : Slots) (k : String) (v : Value) : Except DataFault Slots :=
  match k with
  | "attribute" => do return { s with attributeName := some (← Leaf.string v.found) }
  | "type" => do return { s with kind := some (← Leaf.string v.found) }
  | "previousState" => do return { s with previousState := ← Leaf.string.optional v.found }
  | "newState" => do return { s with newState := ← Leaf.string.optional v.found }
  | _ => .ok s

end StateChange

/-! ## Reading -/

namespace Payload

/-- The payload of a kind from its fields. -/
def ofContent (k : EventKind) (v : Value) : Except DataFault Payload :=
  match k with
  | .measurement => .measurement <$> Measurement.record.ofValue Measurement.put v
  | .location => .location <$> Location.record.ofValue Location.put v
  | .alert => .alert <$> Alert.record.ofValue Alert.put v
  | .commandInvocation =>
    .commandInvocation <$> CommandInvocation.record.ofValue CommandInvocation.put v
  | .commandResponse => .commandResponse <$> CommandResponse.record.ofValue CommandResponse.put v
  | .stateChange => .stateChange <$> StateChange.record.ofValue StateChange.put v

/-- The kind, once it is met, and the other members in reverse. -/
abbrev Gathered := Option EventKind × List Member

def gather (g : Gathered) (m : Member) : Except DataFault Gathered :=
  if m.1 = tag then
    if g.1.isSome then .error (.duplicateField tag)
    else do return (some (← variant EventKind.names (← variantName m.2.found)), g.2)
  else .ok (g.1, m :: g.2)

/-- The payload in an object that is in memory. -/
def ofMembers (ms : List Member) : Except DataFault Payload := do
  let (kind, ms) ← ms.foldlM gather (none, [])
  ofContent (← Record.need tag kind) (.obj ms.reverse)

def kindReader : Json.Reader EventKind := fun room ts => do
  let (name, ts) ← Reader.leaf variantName room ts
  return (← Reader.lift (variant EventKind.names name), ts)

def gatherMember (room : Nat) (g : Gathered) (k : String) : Except Fault (Json.Taking Gathered) :=
  if k = tag then
    if g.1.isSome then Reader.fail (.duplicateField tag)
    else .ok fun ts => do
      let (kind, ts) ← kindReader room ts
      return ((some kind, g.2), ts)
  else .ok fun ts => do
    let (v, ts) ← Value.read room ts
    return ((g.1, (k, v) :: g.2), ts)

def objectReader : Json.Reader Payload := fun room ts => do
  let ((kind, ms), ts) ← Reader.members (gatherMember room) (none, []) ts
  let kind ← Reader.lift (Record.need tag kind)
  return (← Reader.lift (ofContent kind (.obj ms.reverse)), ts)

def arrayReader : Json.Reader Payload := fun room ts => do
  let ((kind, vs), ts) ← Reader.items (fun (g : Option EventKind × List Value) ts =>
    match g.1 with
    | none => do
      let (kind, ts) ← kindReader room ts
      return ((some kind, []), ts)
    | some _ => do
      let (v, ts) ← Value.read room ts
      return ((g.1, v :: g.2), ts)) (none, []) ts
  let kind ← Reader.lift (Record.need tag kind)
  return (← Reader.lift (ofContent kind (.arr vs.reverse)), ts)

def reader : Json.Reader Payload :=
  Reader.inside "internally tagged enum EventPayload" (some objectReader) (some arrayReader)

/-- A payload from JSON text. -/
def parse (text : String) : Except Fault Payload := reader.run text

end Payload
end DeviceEvents
