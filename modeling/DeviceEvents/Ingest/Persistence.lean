import DeviceEvents.Envelope
import DeviceEvents.Registry
import DeviceEvents.Store.Error
import DeviceEvents.Text.Utf8
/-
  DeviceEvents.Ingest.Persistence — from a request to a stored event.

  A request needs an active assignment of its device and an alternate id that is not taken;
  then it is stored under the assignment. Payloads that could not be decoded are only
  reported.
-/

namespace DeviceEvents

/-- What the management of events does for its callers. -/
structure EventManagement (m : Type → Type) where
  byId : Uuid → m (Except Refusal (Option Event))
  byAlternateId : String → m (Except Refusal (Option Event))
  add : Assignment → Draft → m (Except Refusal Event)

variable {m : Type → Type} [Monad m]

/-- Is the alternate id of a draft, if it has one, still free? -/
def Draft.checkAlternateId (d : Draft) (events : EventManagement m) : m (Except Refusal Unit) :=
  match d.alternateId with
  | none => return .ok ()
  | some a => do
    match ← events.byAlternateId a with
    | .error e => return .error e
    | .ok none => return .ok ()
    | .ok (some _) => return .error (.duplicateAlternateId a)

/-- Stores a request, given the active assignments by device token. -/
def Request.persist (r : Request) (active? : String → Option Assignment)
    (events : EventManagement m) : m (Except Refusal Unit) :=
  match active? r.deviceToken with
  | none => return .error (.assignmentNotFound r.deviceToken)
  | some a => do
    match ← r.draft.checkAlternateId events with
    | .error e => return .error e
    | .ok () => return (← events.add a r.draft).map fun _ => ()

/-- What is reported of a payload that could not be decoded. -/
structure DecodeReport where
  source : String
  error : String
  size : Nat
  /-- The beginning of the payload as text. -/
  preview : String
  metadata : String

namespace DecodeReport

def previewSize : Nat := 256

def ofUndecoded (source : String) (x : Inbound) (u : Undecoded) : DecodeReport where
  source
  error := u.fault.message
  size := x.payload.size
  preview := Text.ofUtf8Lossy (x.payload.extract 0 previewSize)
  metadata := (dictionaryJson id x.hints).render

end DecodeReport
end DeviceEvents
