import DeviceEvents.Request
/-
  DeviceEvents.Envelope — the JSON that devices send.

  A payload is one envelope or an array of them. An envelope names the device and the kind of
  event and holds a request: alternate id, date, metadata, and beside them the fields of the
  event. A device token or a kind that is not there as a string is taken from the hints of the
  transport. The first envelope with a fault is what makes a payload fail; the checks of one
  envelope are made in the order token, kind, request, date, metadata, fields.
-/

namespace DeviceEvents

open Json

/-- What a transport tells about a payload. -/
abbrev Hints := Dictionary Value

structure Inbound where
  payload : ByteArray
  hints : Hints

inductive Malformation where
  | notJson
  | notObject
  | missingKind
  | requestNotObject
  | missingRequest
  | invalidDate (v : Value)
  | invalidMetadata (f : DataFault)
  | invalidFields (k : EventKind) (f : DataFault)

def Malformation.text : Malformation → String
  | .notJson => Fault.notJson.text
  | .notObject => "request must be a JSON object"
  | .missingKind => "missing event type"
  | .requestNotObject => "'request' must be a JSON object"
  | .missingRequest => "missing 'request'"
  | .invalidDate v => "invalid eventDate: " ++ v.render
  | .invalidMetadata f => "invalid metadata: " ++ f.text
  | .invalidFields k f => "invalid " ++ k.name ++ " payload: " ++ f.text

inductive DecodeFault where
  | malformed (m : Malformation)
  | unsupportedKind (name : String)
  | missingDeviceToken

/-- The name under which it is reported. -/
def DecodeFault.kind : DecodeFault → String
  | .malformed _ => "Malformed"
  | .unsupportedKind _ => "UnsupportedEventType"
  | .missingDeviceToken => "MissingDeviceToken"

def DecodeFault.message : DecodeFault → String
  | .malformed m => "malformed payload: " ++ m.text
  | .unsupportedKind n => "unsupported event type '" ++ n ++ "'"
  | .missingDeviceToken => "no device token in payload or metadata"

/-- A payload that could not be decoded, kept as it came. -/
structure Undecoded where
  fault : DecodeFault
  payload : ByteArray

namespace Envelope

def deviceTokenHint : String := "deviceToken"

def kindHint : String := "eventType"

def stringOf? : Value → Option String
  | .str s => some s
  | _ => none

/-- The member of a name that is unique. -/
def member? (ms : List Member) (name : String) : Option Value :=
  (ms.find? (·.1 == name)).map (·.2)

def string? (ms : List Member) (name : String) : Option String :=
  (member? ms name).bind stringOf?

def hint? (h : Hints) (name : String) : Option String := (h.get? name).bind stringOf?

/-- A kind by its name, also with `device` in front. -/
def kind? (name : String) : Option EventKind :=
  match EventKind.parse? name with
  | some k => some k
  | none =>
    let cs := (Text.lowerAscii (Text.trim name)).toList
    if cs.take 6 = ['d', 'e', 'v', 'i', 'c', 'e'] then EventKind.parse? (String.ofList (cs.drop 6))
    else none

/-- A text by the strict rule, or an integer of 64 bits that counts milliseconds. -/
def date? : Value → Option Instant
  | .str s => Instant.ofStrict? s
  | .num (.int i) => if i < 0x8000000000000000 then Instant.ofMillis? i else none
  | _ => none

def optionalDate (ms : List Member) : Except DecodeFault (Option Instant) :=
  match member? ms "eventDate" with
  | none | some .null => .ok none
  | some v =>
    match date? v with
    | some t => .ok (some t)
    | none => .error (.malformed (.invalidDate v))

def metadataOf (ms : List Member) : Except DecodeFault Metadata :=
  match member? ms "metadata" with
  | none | some .null => .ok .empty
  | some v => (dictionaryOf Leaf.string v).mapError fun f => .malformed (.invalidMetadata f)

/-- The members that are taken from a request before the fields of the event are read. -/
def isTaken (name : String) : Bool := name == "alternateId" || name == "eventDate" || name == "metadata"

/-- What is left of a request is the payload, once the kind of the envelope is set in it. -/
def fieldsOf (k : EventKind) (ms : List Member) : Except DecodeFault Payload :=
  (Payload.ofMembers (Value.setMember Payload.tag (.str k.name) (ms.filter fun m => !isTaken m.1))).mapError
    fun f => .malformed (.invalidFields k f)

/-- The token of the device, never blank. -/
def tokenOf (h : Hints) (ms : List Member) : Except DecodeFault String :=
  match (string? ms "deviceToken").or (hint? h deviceTokenHint) with
  | some t => if Text.allBlank t then .error .missingDeviceToken else .ok t
  | none => .error .missingDeviceToken

def kindOf (h : Hints) (ms : List Member) : Except DecodeFault EventKind :=
  match (string? ms "type").or (hint? h kindHint) with
  | none => .error (.malformed .missingKind)
  | some n =>
    match kind? n with
    | some k => .ok k
    | none => .error (.unsupportedKind n)

def requestOf (ms : List Member) : Except DecodeFault (List Member) :=
  match member? ms "request" with
  | some (.obj r) => .ok r
  | some _ => .error (.malformed .requestNotObject)
  | none => .error (.malformed .missingRequest)

/-- One envelope, in canonical form. -/
def decodeItem (h : Hints) : Value → Except DecodeFault Request
  | .obj ms => do
    let deviceToken ← tokenOf h ms
    let kind ← kindOf h ms
    let body ← requestOf ms
    let eventDate ← optionalDate body
    let metadata ← metadataOf body
    let payload ← fieldsOf kind body
    return ⟨deviceToken, string? ms "originator",
      ⟨string? body "alternateId", eventDate, metadata, payload⟩⟩
  | _ => .error (.malformed .notObject)

def decodeValue (h : Hints) : Value → Except DecodeFault (List Request)
  | .arr items => items.mapM (decodeItem h)
  | v => do return [← decodeItem h v]

/-- The value of a payload in canonical form. -/
def valueOf (payload : ByteArray) : Except DecodeFault Value :=
  match String.fromUTF8? payload with
  | none => .error (.malformed .notJson)
  | some text =>
    match Value.parse text with
    | .ok v => .ok v.canonical
    | .error _ => .error (.malformed .notJson)

def decode (payload : ByteArray) (h : Hints) : Except Undecoded (List Request) :=
  (do decodeValue h (← valueOf payload)).mapError fun f => ⟨f, payload⟩

/-! ## Writing -/

/-- The envelope of a request with everything that is not there as `null`. -/
def ofRequest (r : Request) : Value :=
  .obj [("deviceToken", .str r.deviceToken), ("type", .str r.draft.payload.kind.name),
    ("originator", .ofOption stringJson r.originator),
    ("request", .obj (("alternateId", .ofOption stringJson r.draft.alternateId) ::
      ("eventDate", .ofOption instantJson r.draft.eventDate) ::
      ("metadata", dictionaryJson stringJson r.draft.metadata) :: r.draft.payload.fields))]

end Envelope
end DeviceEvents
