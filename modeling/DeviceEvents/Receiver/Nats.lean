import DeviceEvents.Envelope
import DeviceEvents.Ingest.Counters
import DeviceEvents.Store.Error
import DeviceEvents.Text.Quoted
/-
  DeviceEvents.Receiver.Nats — payloads from a NATS stream.

  A worker fetches batches of messages, hands them to the pipeline in the order in which they
  came, and settles each one when the pipeline is done with it: negatively if it should come
  again, otherwise by an acknowledgement. Whether that gets through makes no difference. After
  a fetch that failed it rests for a second. It can be cancelled wherever it waits, and then
  leaves everything as it is.

  The headers of a message and its subject are the hints for its payload. A subject that has
  no token of a device in its headers names it behind its last dot.
-/

namespace DeviceEvents

structure NatsMessage where
  subject : String
  payload : ByteArray
  headers : List (String × String)

namespace NatsMessage

def subjectHint : String := "subject"

/-- What stands behind the last dot, if there is one. -/
def lastPart? : List Char → Option (List Char)
  | [] => none
  | c :: cs => (lastPart? cs).or (if c = '.' then some cs else none)

/-- The last part of a subject, unless it is empty or a wildcard. -/
def tokenOfSubject? (subject : String) : Option String :=
  match lastPart? subject.toList with
  | none | some [] | some ['*'] | some ['>'] => none
  | some cs => some (String.ofList cs)

/-- Of headers of one name the last one counts. -/
def headerHints (m : NatsMessage) : Hints :=
  m.headers.foldl (fun h (k, v) => h.insert k (.str v)) .empty

def hints (m : NatsMessage) : Hints :=
  let h := m.headerHints.insert subjectHint (.str m.subject)
  match h.get? Envelope.deviceTokenHint, tokenOfSubject? m.subject with
  | none, some t => h.insert Envelope.deviceTokenHint (.str t)
  | _, _ => h

def headerText (h : String × String) : String :=
  "(" ++ Text.quoted h.1 ++ ", " ++ Text.quoted h.2 ++ ")"

/-- For a log: the payload by its size only. -/
def describe (m : NatsMessage) : String :=
  "FetchedMessage \x7b subject: " ++ Text.quoted m.subject ++ ", payload_size: " ++
    toString m.payload.size ++ ", headers: [" ++ ", ".intercalate (m.headers.map headerText) ++
    "] \x7d"

end NatsMessage

structure NatsSettings where
  stream : String
  consumer : String
  filter : String
  batchSize : Nat
  /-- How long a fetch waits for messages, in milliseconds. -/
  batchWait : Nat
  workers : Nat

namespace NatsSettings

def ofStream (stream : String) : NatsSettings where
  stream
  consumer := stream ++ "-ingest"
  filter := stream ++ ".>"
  batchSize := 32
  batchWait := 5000
  workers := 3

def workerCount (s : NatsSettings) : Nat := max 1 s.workers

end NatsSettings

/-! ## The receiver -/

structure NatsReceiver where
  settings : NatsSettings
  hasConsumer : Bool

namespace NatsReceiver

/-- After the attempt to create the consumer. An earlier one stays when it fails. -/
def started (r : NatsReceiver) (created : Except Failure Unit) :
    Except Failure Unit × NatsReceiver :=
  match created with
  | .ok () => (.ok (), { r with hasConsumer := true })
  | .error f => (.error (.because "failed to create consumer" f), r)

def stopped (r : NatsReceiver) : NatsReceiver := { r with hasConsumer := false }

end NatsReceiver

/-! ## Workers -/

inductive NatsWorker where
  | fetching
  /-- The pipeline has the message. -/
  | handing (m : NatsMessage) (rest : List NatsMessage)
  | settling (m : NatsMessage) (again : Bool) (rest : List NatsMessage)
  | resting
  | ended

/-- What a worker waits for, or that it need not wait any longer. -/
inductive NatsAnswer where
  | fetched (result : Except Failure (List NatsMessage))
  | handed (o : Outcome)
  | settled (result : Except Failure Unit)
  | rested
  | cancelled

namespace NatsWorker

/-- In milliseconds. -/
def restTime : Nat := 1000

def turnTo : List NatsMessage → NatsWorker
  | [] => .fetching
  | m :: rest => .handing m rest

def start (r : NatsReceiver) : Except Failure NatsWorker :=
  if r.hasConsumer then .ok .fetching else .error (.of "nats receiver has not been started")

/-- An answer to something else changes nothing. -/
def step (w : NatsWorker) (a : NatsAnswer) : NatsWorker :=
  match w, a with
  | .fetching, .fetched (.ok ms) => turnTo ms
  | .fetching, .fetched (.error _) => .resting
  | .handing m rest, .handed o => .settling m o.shouldRetry rest
  | .settling _ _ rest, .settled _ => turnTo rest
  | .resting, .rested => .fetching
  | _, .cancelled => .ended
  | w, _ => w

/-- What answers a worker. -/
structure Services (m : Type → Type) where
  fetch : m NatsAnswer
  hand : NatsMessage → m NatsAnswer
  settle : NatsMessage → Bool → m NatsAnswer
  rest : m NatsAnswer

variable {m : Type → Type} [Monad m]

def ask (s : Services m) : NatsWorker → m NatsAnswer
  | .fetching => s.fetch
  | .handing x _ => s.hand x
  | .settling x again _ => s.settle x again
  | .resting => s.rest
  | .ended => return .cancelled

/-- Up to `n` steps. -/
def run (s : Services m) : Nat → NatsWorker → m NatsWorker
  | 0, w => return w
  | n + 1, w =>
    match w with
    | .ended => return .ended
    | w => do run s n (w.step (← ask s w))

end NatsWorker
end DeviceEvents
