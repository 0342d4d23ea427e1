import DeviceEvents.Receiver.Channel
import DeviceEvents.Receiver.Mqtt
import DeviceEvents.Receiver.Nats
import DeviceEvents.Simulation.Clock
/-
  DeviceEvents.Simulation.Feed — receivers on a virtual clock.

  The pipeline behind a receiver logs the payloads it gets and gives its planned outcomes in
  turn. A stream has batches of messages, each with the results of its two settlements, and
  failures of fetches; a worker that fetches when there are no more is cancelled. A broker
  cannot be reached.
-/

namespace DeviceEvents.Simulation

inductive FeedEvent where
  | created (s : NatsSettings)
  | fetched (s : NatsSettings) (time : Nat)
  | received (source : String) (x : Inbound)
  | settled (m : NatsMessage) (again : Bool)

structure Message where
  message : NatsMessage
  acknowledged : Except Failure Unit
  refused : Except Failure Unit

structure Feed where
  clock : Clock
  outcomes : List Outcome
  creations : List (Except Failure Unit)
  batches : List (Except Failure (List Message))
  /-- What has been fetched last and is not settled yet. -/
  pending : List Message
  log : List FeedEvent

abbrev Fed := StateM Feed

namespace Feed

def start (clock : Clock) (outcomes : List Outcome) : Feed := ⟨clock, outcomes, [], [], [], []⟩

def note (e : FeedEvent) : Fed Unit := modify fun f => { f with log := f.log ++ [e] }

/-- The pipeline gets a payload. -/
def receive (source : String) (x : Inbound) : Fed Outcome := do
  note (.received source x)
  match (← get).outcomes with
  | [] => return {}
  | o :: outcomes => do
    modify fun f => { f with outcomes }
    return o

/-- Is a rest over before it is cancelled? -/
def rest (ms : Nat) : Fed Bool := do
  let (isOver, clock) := (← get).clock.rest ms
  modify fun f => { f with clock }
  return isOver

/-! ## Streams -/

def fetch (s : NatsSettings) : Fed NatsAnswer := do
  note (.fetched s (← get).clock.now)
  match (← get).batches with
  | [] => return .cancelled
  | .error e :: batches => do
    modify fun f => { f with batches }
    return .fetched (.error e)
  | .ok pending :: batches => do
    modify fun f => { f with batches, pending }
    return .fetched (.ok (pending.map (·.message)))

def settle (m : NatsMessage) (again : Bool) : Fed NatsAnswer := do
  note (.settled m again)
  match (← get).pending with
  | [] => return .settled (.ok ())
  | x :: pending => do
    modify fun f => { f with pending }
    return .settled (if again then x.refused else x.acknowledged)

def natsServices (s : NatsSettings) : NatsWorker.Services Fed where
  fetch := fetch s
  hand m := return .handed (← receive s.stream ⟨m.payload, m.hints⟩)
  settle := settle
  rest := return if ← rest NatsWorker.restTime then .rested else .cancelled

/-- More steps than a worker can make before it is cancelled. -/
def stepLimit (f : Feed) : Nat :=
  f.batches.foldl (fun n b => n + match b with
    | .ok ms => 2 * ms.length + 1
    | .error _ => 2) 2

/-- A worker of a receiver runs, and is cancelled after some time. -/
def runNats (r : NatsReceiver) (cancelAfter : Option Nat) : Fed (Except Failure Unit) := do
  match NatsWorker.start r with
  | .error e => return .error e
  | .ok w => do
    let f ← get
    set { f with clock := { f.clock with cancelAt := cancelAfter.map (f.clock.now + ·) } }
    discard (w.run (natsServices r.settings) f.stepLimit)
    return .ok ()

def startNats (r : NatsReceiver) : Fed (Except Failure Unit × NatsReceiver) := do
  note (.created r.settings)
  match (← get).creations with
  | [] => return r.started (.ok ())
  | c :: creations => do
    modify fun f => { f with creations }
    return r.started c

/-! ## Brokers -/

def mqttServices (s : MqttSettings) : MqttWorker.Services Fed where
  connection := return match (← get).clock.isCancelled, s.address with
    | false, .error e => .lost e
    | _, _ => .cancelled
  rest := return if ← rest s.retryDelay then .rested else .cancelled

def runMqtt (s : MqttSettings) : Fed (Except Failure Unit) := do
  match ← MqttWorker.run (mqttServices s) (2 * s.maxAttempts + 3) (.start s) with
  | .ended r => return r
  | _ => return .ok ()

def receiveMqtt (s : MqttSettings) (topic : String) (payload : ByteArray) : Fed Unit :=
  match s.accept? topic payload with
  | some x => discard (receive s.source x)
  | none => return ()

/-! ## Channels -/

/-- A worker takes all that is queued, and then is cancelled. -/
def runChannel (r : ChannelReceiver) : Fed (Option ChannelReceiver) := do
  let r ← r.drain receive 0 r.queue.length
  return r.cancel.leave? 0

end Feed
end DeviceEvents.Simulation
