import DeviceEvents.Envelope
import DeviceEvents.Ingest.Counters
/-
  DeviceEvents.Receiver.Channel — payloads from within the process.

  Senders put payloads into a bounded queue. The workers share its one receiving end: a worker
  listens at it, takes what is next, gives the end free again and hands the payload to the
  pipeline. A receiver that is cancelled keeps what is queued; a worker ends when it sees the
  cancellation, which is only while it waits for a payload, never with one in hand.

  Everything that senders and workers do is a step, and a step that is not possible has to
  wait. Any number of them may go on side by side.
-/

namespace DeviceEvents

inductive ChannelWorker where
  | idle
  /-- At the receiving end. -/
  | listening
  /-- Has taken a payload. -/
  | holding (x : Inbound)
  /-- The pipeline has the payload. -/
  | handing (x : Inbound)
  | ended

def ChannelWorker.isListening : ChannelWorker → Bool
  | .listening => true
  | _ => false

structure ChannelReceiver where
  source : String
  capacity : Nat
  /-- Next first. -/
  queue : List Inbound
  workers : List ChannelWorker
  cancelled : Bool

namespace ChannelReceiver

/-- There is room for one payload at least, and at least one worker. -/
def create (source : String) (capacity workers : Nat) : ChannelReceiver where
  source
  capacity := max 1 capacity
  queue := []
  workers := List.replicate (max 1 workers) .idle
  cancelled := false

def isFull (r : ChannelReceiver) : Bool := decide (r.capacity ≤ r.queue.length)

/-- Nobody is at the receiving end. -/
def isFree (r : ChannelReceiver) : Bool := !r.workers.any (·.isListening)

def setWorker (r : ChannelReceiver) (n : Nat) (w : ChannelWorker) : ChannelReceiver :=
  { r with workers := r.workers.set n w }

/-- A sender's payload is accepted. -/
def offer? (r : ChannelReceiver) (x : Inbound) : Option ChannelReceiver :=
  if r.isFull then none else some { r with queue := r.queue ++ [x] }

/-- An idle worker comes to the receiving end. -/
def listen? (r : ChannelReceiver) (n : Nat) : Option ChannelReceiver :=
  match r.workers[n]? with
  | some .idle => if r.isFree then some (r.setWorker n .listening) else none
  | _ => none

/-- The worker at the receiving end takes the next payload, and leaves the end to others. -/
def take? (r : ChannelReceiver) (n : Nat) : Option (Inbound × ChannelReceiver) :=
  match r.workers[n]?, r.queue with
  | some .listening, x :: rest => some (x, { r.setWorker n (.holding x) with queue := rest })
  | _, _ => none

/-- A worker hands the payload it has taken to the pipeline, and says where it comes from. -/
def hand? (r : ChannelReceiver) (n : Nat) : Option ((String × Inbound) × ChannelReceiver) :=
  match r.workers[n]? with
  | some (.holding x) => some ((r.source, x), r.setWorker n (.handing x))
  | _ => none

/-- The pipeline is done with the payload of a worker. -/
def finish? (r : ChannelReceiver) (n : Nat) : Option (Inbound × ChannelReceiver) :=
  match r.workers[n]? with
  | some (.handing x) => some (x, r.setWorker n .idle)
  | _ => none

def cancel (r : ChannelReceiver) : ChannelReceiver := { r with cancelled := true }

/-- A worker that waits for a payload sees the cancellation. -/
def leave? (r : ChannelReceiver) (n : Nat) : Option ChannelReceiver :=
  match r.workers[n]? with
  | some .idle | some .listening => if r.cancelled then some (r.setWorker n .ended) else none
  | _ => none

inductive Step where
  | offer (x : Inbound)
  | listen (worker : Nat)
  | take (worker : Nat)
  | hand (worker : Nat)
  /-- Whatever the outcome: a payload that should come again has no way back. -/
  | finish (worker : Nat) (o : Outcome)
  | cancel
  | leave (worker : Nat)

def step? (r : ChannelReceiver) : Step → Option ChannelReceiver
  | .offer x => r.offer? x
  | .listen n => r.listen? n
  | .take n => (r.take? n).map (·.2)
  | .hand n => (r.hand? n).map (·.2)
  | .finish n _ => (r.finish? n).map (·.2)
  | .cancel => some r.cancel
  | .leave n => r.leave? n

/-! ## One after the other -/

/-- Offers payloads without waiting. Those that find the queue full are refused. -/
def offerAll (r : ChannelReceiver) (xs : List Inbound) : ChannelReceiver :=
  xs.foldl (fun r x => (r.offer? x).getD r) r

/-- A worker gets the next payload to the pipeline. -/
def serve? (r : ChannelReceiver) (n : Nat) : Option ((String × Inbound) × ChannelReceiver) := do
  let r ← r.listen? n
  let (_, r) ← r.take? n
  r.hand? n

variable {m : Type → Type} [Monad m]

/-- A worker hands on up to `k` of the queued payloads. -/
def drain (hand : String → Inbound → m Outcome) (n : Nat) : Nat → ChannelReceiver → m ChannelReceiver
  | 0, r => return r
  | k + 1, r =>
    match r.serve? n with
    | none => return r
    | some ((source, x), r) => do
      discard (hand source x)
      drain hand n k (((r.finish? n).map (·.2)).getD r)

end ChannelReceiver
end DeviceEvents
