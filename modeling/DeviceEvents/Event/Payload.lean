import DeviceEvents.Dictionary
import DeviceEvents.Event.Kind
import DeviceEvents.Number.Binary64
import DeviceEvents.Uuid
/-
  DeviceEvents.Event.Payload — what an event of each kind says.
-/

namespace DeviceEvents

structure Measurement where
  measurements : Dictionary Binary64
  deriving DecidableEq, Repr

structure Location where
  latitude : Binary64
  longitude : Binary64
  elevation : Option Binary64
  deriving DecidableEq, Repr

inductive AlertSource where
  | device
  | system
  deriving DecidableEq, Repr

inductive AlertLevel where
  | info
  | warning
  | error
  | critical
  deriving DecidableEq, Repr

structure Alert where
  source : AlertSource
  level : AlertLevel
  kind : String
  message : String
  deriving DecidableEq, Repr

inductive CommandInitiator where
  | rest
  | script
  | scheduler
  | batchOperation
  deriving DecidableEq, Repr

inductive CommandTarget where
  | assignment
  deriving DecidableEq, Repr

structure CommandInvocation where
  initiator : CommandInitiator
  initiatorId : Option String
  target : CommandTarget
  targetId : Option String
  commandToken : String
  parameterValues : Dictionary String
  deriving DecidableEq, Repr

structure CommandResponse where
  originatingEventId : Uuid
  responseEventId : Option Uuid
  response : Option String
  deriving DecidableEq, Repr

structure StateChange where
  attributeName : String
  kind : String
  previousState : Option String
  newState : Option String
  deriving DecidableEq, Repr

inductive Payload where
  | measurement (p : Measurement)
  | location (p : Location)
  | alert (p : Alert)
  | commandInvocation (p : CommandInvocation)
  | commandResponse (p : CommandResponse)
  | stateChange (p : StateChange)
  deriving DecidableEq, Repr

def Payload.kind : Payload → EventKind
  | .measurement _ => .measurement
  | .location _ => .location
  | .alert _ => .alert
  | .commandInvocation _ => .commandInvocation
  | .commandResponse _ => .commandResponse
  | .stateChange _ => .stateChange

/-- The doubles that a payload holds. -/
def Payload.reals : Payload → List Binary64
  | .measurement p => p.measurements.entries.map (·.2)
  | .location p => p.latitude :: p.longitude :: p.elevation.toList
  | _ => []

end DeviceEvents
