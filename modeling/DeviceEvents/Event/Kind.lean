import DeviceEvents.Text.Blank
/-
  DeviceEvents.Event.Kind — the six kinds of device event.

  A kind is read from its name in any case, with blanks around it and with hyphens and
  underscores anywhere in it; measurements may also be named in the plural.
-/

namespace DeviceEvents

inductive EventKind where
  | measurement
  | location
  | alert
  | commandInvocation
  | commandResponse
  | stateChange
  deriving DecidableEq, Repr

namespace EventKind

def name : EventKind → String
  | .measurement => "Measurement"
  | .location => "Location"
  | .alert => "Alert"
  | .commandInvocation => "CommandInvocation"
  | .commandResponse => "CommandResponse"
  | .stateChange => "StateChange"

def all : List EventKind :=
  [.measurement, .location, .alert, .commandInvocation, .commandResponse, .stateChange]

def isJoint (c : Char) : Bool := c == '_' || c == '-'

/-- A name as it is compared. -/
def plainName (s : String) : String :=
  String.ofList ((Text.lowerAscii (Text.trim s)).toList.filter fun c => !isJoint c)

def parse? (s : String) : Option EventKind :=
  match plainName s with
  | "measurement" | "measurements" => some .measurement
  | "location" => some .location
  | "alert" => some .alert
  | "commandinvocation" => some .commandInvocation
  | "commandresponse" => some .commandResponse
  | "statechange" => some .stateChange
  | _ => none

def unknownText (s : String) : String := "unknown device event type: " ++ s

end EventKind
end DeviceEvents
