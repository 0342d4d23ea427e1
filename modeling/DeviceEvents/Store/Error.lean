import DeviceEvents.Json.Reader
import DeviceEvents.Text.Duration
/-
  DeviceEvents.Store.Error — why a store or the management of events fails.

  A `Failure` is a message with the messages of what caused it, outermost first. `Trouble` is
  what a store reports, `Refusal` what the management of events reports to its callers; a
  transient refusal may go away when the same request comes again.
-/

namespace DeviceEvents

structure Failure where
  top : String
  causes : List String
  deriving DecidableEq, Repr

namespace Failure

def of (message : String) : Failure := ⟨message, []⟩

/-- The failure of something that failed because of `f`. -/
def because (message : String) (f : Failure) : Failure := ⟨message, f.top :: f.causes⟩

/-- Every message, outermost first. -/
def chain (f : Failure) : String := ": ".intercalate (f.top :: f.causes)

end Failure

inductive Trouble where
  | backend (f : Failure)
  | codec (f : Json.Fault)
  | invalidStoredValue (message : String)
  | timeout (nanos : Nat)
  | cancelled
  | rangeTooWide (buckets max : Nat)
  deriving DecidableEq, Repr

/-- The name under which it is reported. -/
def Trouble.kind : Trouble → String
  | .backend _ => "Backend"
  | .codec _ => "Codec"
  | .invalidStoredValue _ => "InvalidStoredValue"
  | .timeout _ => "Timeout"
  | .cancelled => "Cancelled"
  | .rangeTooWide _ _ => "RangeTooWide"

def Trouble.message : Trouble → String
  | .backend f => "backend error: " ++ f.top
  | .codec f => "event codec error: " ++ f.text
  | .invalidStoredValue m => "invalid stored value: " ++ m
  | .timeout n => "query timed out after " ++ Text.duration n
  | .cancelled => "query cancelled"
  | .rangeTooWide b m =>
    "query range spans " ++ toString b ++ " buckets, more than the allowed " ++ toString m

inductive Refusal where
  | assignmentNotFound (token : String)
  | duplicateAlternateId (id : String)
  | invalidEventRequest (message : String)
  | eventStoreUnavailable (message : String)
  | invalidQuery (message : String)
  | queryTimeout (millis : Nat)
  | queryCancelled
  | repositoryError (f : Failure)
  deriving DecidableEq, Repr

namespace Refusal

/-- The name under which it is reported. -/
def kind : Refusal → String
  | .assignmentNotFound _ => "AssignmentNotFound"
  | .duplicateAlternateId _ => "DuplicateAlternateId"
  | .invalidEventRequest _ => "InvalidEventRequest"
  | .eventStoreUnavailable _ => "EventStoreUnavailable"
  | .invalidQuery _ => "InvalidQuery"
  | .queryTimeout _ => "QueryTimeout"
  | .queryCancelled => "QueryCancelled"
  | .repositoryError _ => "RepositoryError"

def message : Refusal → String
  | .assignmentNotFound t => "No active device assignment for device token: " ++ t
  | .duplicateAlternateId a => "Device event with alternate id already exists: " ++ a
  | .invalidEventRequest m => "Invalid device event request: " ++ m
  | .eventStoreUnavailable m => "Event store unavailable: " ++ m
  | .invalidQuery m => "Invalid event query: " ++ m
  | .queryTimeout n => "Event query timed out after " ++ toString n ++ " ms"
  | .queryCancelled => "Event query cancelled"
  | .repositoryError f => "Repository error: " ++ f.top

def isTransient : Refusal → Bool
  | .eventStoreUnavailable _ | .queryTimeout _ | .repositoryError _ => true
  | _ => false

end Refusal

/-- How trouble in the store appears to the callers of the management. -/
def Trouble.toRefusal : Trouble → Refusal
  | .timeout n => .queryTimeout (n / 1000000)
  | .cancelled => .queryCancelled
  | .backend f => .eventStoreUnavailable f.chain
  | .rangeTooWide b m => .invalidQuery (Trouble.rangeTooWide b m).message
  | .codec f => .repositoryError (.because (Trouble.codec f).message (.of f.text))
  | .invalidStoredValue m => .repositoryError (.of (Trouble.invalidStoredValue m).message)

end DeviceEvents
