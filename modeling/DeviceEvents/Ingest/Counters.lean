import DeviceEvents.Json.Value
/-
  DeviceEvents.Ingest.Counters — what becomes of payloads and requests, counted.

  Every request has one fate. The counters of a pipeline and the outcome of one payload both
  count fates: a request that its handler did not take is one kind of thing for the counters,
  and two for the outcome, since only one of them may be sent again.
-/

namespace DeviceEvents

/-- What becomes of a decoded request. -/
inductive Fate where
  | duplicate
  /-- The deduplicator failed. -/
  | unjudged
  | forwarded
  /-- The handler failed, and may succeed another time. -/
  | retryable
  | rejected
  deriving DecidableEq, Repr

/-- What became of one payload. -/
structure Outcome where
  decodeFailed : Bool := false
  decoded : Nat := 0
  duplicates : Nat := 0
  forwarded : Nat := 0
  dropped : Nat := 0
  retryable : Nat := 0
  deriving DecidableEq, Repr

namespace Outcome

def add (o : Outcome) : Fate → Outcome
  | .duplicate => { o with duplicates := o.duplicates + 1 }
  | .unjudged => { o with dropped := o.dropped + 1 }
  | .forwarded => { o with forwarded := o.forwarded + 1 }
  | .retryable => { o with retryable := o.retryable + 1 }
  | .rejected => { o with dropped := o.dropped + 1 }

/-- The transport should send the payload again. -/
def shouldRetry (o : Outcome) : Bool := decide (0 < o.retryable)

open Json in
def toJson (o : Outcome) : Value :=
  let count (n : Nat) : Value := .num (.int n)
  .obj [("decode_failed", .bool o.decodeFailed), ("decoded", count o.decoded),
    ("duplicates", count o.duplicates), ("forwarded", count o.forwarded),
    ("dropped", count o.dropped), ("retryable", count o.retryable),
    ("should_retry", .bool o.shouldRetry)]

end Outcome

structure Counters where
  payloadsReceived : Nat := 0
  decoded : Nat := 0
  failedDecodes : Nat := 0
  duplicates : Nat := 0
  deduplicatorErrors : Nat := 0
  forwarded : Nat := 0
  handlerErrors : Nat := 0
  deriving DecidableEq, Repr

namespace Counters

def addPayload (c : Counters) : Counters := { c with payloadsReceived := c.payloadsReceived + 1 }

def addDecoded (c : Counters) (n : Nat) : Counters := { c with decoded := c.decoded + n }

def addFailedDecode (c : Counters) : Counters := { c with failedDecodes := c.failedDecodes + 1 }

def add (c : Counters) : Fate → Counters
  | .duplicate => { c with duplicates := c.duplicates + 1 }
  | .unjudged => { c with deduplicatorErrors := c.deduplicatorErrors + 1 }
  | .forwarded => { c with forwarded := c.forwarded + 1 }
  | .retryable | .rejected => { c with handlerErrors := c.handlerErrors + 1 }

open Json in
def toJson (c : Counters) : Value :=
  let count (n : Nat) : Value := .num (.int n)
  .obj [("payloads_received", count c.payloadsReceived), ("decoded", count c.decoded),
    ("failed_decodes", count c.failedDecodes), ("duplicates", count c.duplicates),
    ("deduplicator_errors", count c.deduplicatorErrors), ("forwarded", count c.forwarded),
    ("handler_errors", count c.handlerErrors)]

end Counters
end DeviceEvents
