import DeviceEvents.Envelope
import DeviceEvents.Receiver.BrokerAddress
import DeviceEvents.Receiver.RetryBudget
import DeviceEvents.Receiver.Topic
/-
  DeviceEvents.Receiver.Mqtt — payloads from an MQTT broker.

  The receiver of a tenant subscribes to all topics of one level below the tenant. It takes
  messages on topics that name the tenant and a device, and passes over all others. One worker
  holds the connection. It tries again a while after a connection failed, until too many have
  failed in a row, and ends without a fault when it is cancelled.
-/

namespace DeviceEvents

structure MqttSettings where
  broker : String
  clientId : String
  tenant : String
  maxAttempts : Nat
  /-- In milliseconds. -/
  retryDelay : Nat

namespace MqttSettings

def source (s : MqttSettings) : String := "mqtt:" ++ s.tenant

/-- One connection can only be held once. -/
def workerCount (_ : MqttSettings) : Nat := 1

def subscription (s : MqttSettings) : String := s.tenant ++ "/+"

def address (s : MqttSettings) : Except Failure BrokerAddress :=
  (BrokerAddress.parse s.broker).mapError fun f => .of f.message

def start (s : MqttSettings) : Except Failure Unit := s.address.map fun _ => ()

def topicHint : String := "topic"

def hints (topic : String) (t : Topic) : Hints :=
  (Dictionary.empty.insert topicHint (.str topic)).insert Envelope.deviceTokenHint
    (.str t.deviceToken)

/-- What goes to the pipeline of a message on a topic, if it is one to take. -/
def accept? (s : MqttSettings) (topic : String) (payload : ByteArray) : Option Inbound :=
  match Topic.parse topic with
  | .error _ => none
  | .ok t => if t.tenant = s.tenant then some ⟨payload, hints topic t⟩ else none

end MqttSettings

/-! ## The worker -/

inductive MqttWorker where
  /-- A connection is made, or stands. -/
  | connecting (b : RetryBudget)
  | resting (b : RetryBudget)
  | ended (result : Except Failure Unit)

inductive MqttAnswer where
  /-- The broker has confirmed the connection. -/
  | connected
  | lost (f : Failure)
  | rested
  | cancelled

namespace MqttWorker

def start (s : MqttSettings) : MqttWorker := .connecting (.ofLimit s.maxAttempts)

def gaveUp (b : RetryBudget) (f : Failure) : Failure :=
  .because ("giving up after " ++ toString b.failures ++ " consecutive connection attempts") f

/-- An answer to something else changes nothing. -/
def step (w : MqttWorker) (a : MqttAnswer) : MqttWorker :=
  match w, a with
  | .connecting b, .connected => .connecting b.connected
  | .connecting b, .lost f =>
    if b.failed.isUsedUp then .ended (.error (gaveUp b.failed f)) else .resting b.failed
  | .resting b, .rested => .connecting b
  | .connecting _, .cancelled | .resting _, .cancelled => .ended (.ok ())
  | w, _ => w

/-- What answers the worker. -/
structure Services (m : Type → Type) where
  connection : m MqttAnswer
  rest : m MqttAnswer

variable {m : Type → Type} [Monad m]

/-- Up to `n` steps. -/
def run (s : Services m) : Nat → MqttWorker → m MqttWorker
  | 0, w => return w
  | n + 1, w => do
    match w with
    | .connecting _ => run s n (w.step (← s.connection))
    | .resting _ => run s n (w.step (← s.rest))
    | .ended r => return .ended r

end MqttWorker
end DeviceEvents
