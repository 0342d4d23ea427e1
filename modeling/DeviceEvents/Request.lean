import DeviceEvents.Digest
import DeviceEvents.Event.Basic
/-
  DeviceEvents.Request — what a device asks to have stored.

  A `Draft` is an event that has no identity yet. A `Request` is a draft with the token of
  the device that sent it. The fingerprint of a request tells repeated deliveries: it covers
  the token and, where there is one, the alternate id, otherwise everything in the draft.
-/

namespace DeviceEvents

open Json

structure Draft where
  alternateId : Option String
  eventDate : Option Instant
  metadata : Metadata
  payload : Payload
  deriving DecidableEq

structure Request where
  deviceToken : String
  originator : Option String
  draft : Draft
  deriving DecidableEq

/-- The 32 bytes of a digest. -/
abbrev Fingerprint := List UInt8

namespace Draft

def ofPayload (p : Payload) : Draft := ⟨none, none, .empty, p⟩

def toJson (d : Draft) : Value :=
  .obj [("alternateId", .ofOption stringJson d.alternateId),
    ("eventDate", .ofOption instantJson d.eventDate),
    ("metadata", dictionaryJson stringJson d.metadata), ("payload", d.payload.toJson)]

structure Slots where
  alternateId : Option String
  eventDate : Option Instant
  metadata : Option Metadata
  payload : Option Payload

def record : Record Slots Draft where
  name := "DeviceEventCreateRequest"
  fields := [⟨"alternateId", true⟩, ⟨"eventDate", true⟩, ⟨"metadata", true⟩, ⟨"payload", false⟩]
  start := ⟨none, none, none, none⟩
  finish s := return {
    alternateId := s.alternateId
    eventDate := s.eventDate
    metadata := s.metadata.getD .empty
    payload := ← Record.need "payload" s.payload }

def put (s : Slots) (k : String) : Json.Reader Slots :=
  match k with
  | "alternateId" => (Reader.leaf Leaf.string).optional.map fun a => { s with alternateId := a }
  | "eventDate" => (Reader.leaf Leaf.instant).optional.map fun a => { s with eventDate := a }
  | "metadata" => (dictionaryReader Leaf.string).map fun a => { s with metadata := some a }
  | "payload" => Payload.reader.map fun a => { s with payload := some a }
  | _ => fun _ ts => .ok (s, ts)

def reader : Json.Reader Draft := record.reader put

def parse (text : String) : Except Fault Draft := reader.run text

end Draft

namespace Request

def toJson (r : Request) : Value :=
  .obj [("deviceToken", .str r.deviceToken), ("originator", .ofOption stringJson r.originator),
    ("request", r.draft.toJson)]

structure Slots where
  deviceToken : Option String
  originator : Option String
  draft : Option Draft

def record : Record Slots Request where
  name := "DecodedDeviceRequest"
  fields := [⟨"deviceToken", false⟩, ⟨"originator", true⟩, ⟨"request", false⟩]
  start := ⟨none, none, none⟩
  finish s := return {
    deviceToken := ← Record.need "deviceToken" s.deviceToken
    originator := s.originator
    draft := ← Record.need "request" s.draft }

def put (s : Slots) (k : String) : Json.Reader Slots :=
  match k with
  | "deviceToken" => (Reader.leaf Leaf.string).map fun a => { s with deviceToken := some a }
  | "originator" => (Reader.leaf Leaf.string).optional.map fun a => { s with originator := a }
  | "request" => Draft.reader.map fun a => { s with draft := some a }
  | _ => fun _ ts => .ok (s, ts)

def reader : Json.Reader Request := record.reader put

def parse (text : String) : Except Fault Request := reader.run text

/-! ## Fingerprints -/

def utf8 (s : String) : List UInt8 := s.toUTF8.toList

/-- What the fingerprint is taken of: the token, a zero, and either the alternate id or the
text of the draft, each behind a mark of its own. -/
def identity (r : Request) : List UInt8 :=
  utf8 r.deviceToken ++ 0 ::
    match r.draft.alternateId with
    | some a => utf8 "alt:" ++ utf8 a
    | none => utf8 "req:" ++ utf8 r.draft.toJson.render

def fingerprint (r : Request) : Fingerprint := Digest.sha256 r.identity

end Request
end DeviceEvents
