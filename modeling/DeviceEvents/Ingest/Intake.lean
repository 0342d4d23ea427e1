import DeviceEvents.Ingest.Deduplicator
import DeviceEvents.Ingest.Delivery
/-
  DeviceEvents.Ingest.Intake — what takes in the payloads of a pipeline.

  An intake decodes payloads, has their requests judged if it has a deduplicator, and hands
  them on. Its handler gets every request that is no duplicate, and every payload that does
  not decode, both with where they came from. All payloads share its counters.
-/

namespace DeviceEvents

/-- What comes after an intake. -/
structure Handler (m : Type → Type) where
  handle : String → Inbound → Request → m (Except Refusal Unit)
  report : String → Inbound → Undecoded → m Unit

structure Intake (m : Type → Type) where
  decode : Inbound → Except Undecoded (List Request)
  deduplicator : Option (Deduplicator m)
  handler : Handler m
  counters : m Counters
  setCounters : Counters → m Unit

namespace Intake

variable {m : Type → Type} [Monad m]

/-- What answers the delivery of one payload. Without a deduplicator every request is new. -/
def services (i : Intake m) (source : String) (x : Inbound) : Delivery.Services m where
  deduplicates := i.deduplicator.isSome
  judge r := match i.deduplicator with
    | some d => d.isDuplicate r
    | none => return .ok false
  release r := match i.deduplicator with
    | some d => discard (d.forget r)
    | none => return ()
  handle := i.handler.handle source x
  report := i.handler.report source x
  counters := i.counters
  setCounters := i.setCounters

def receive (i : Intake m) (source : String) (x : Inbound) : m Outcome :=
  Delivery.receive (i.services source x) (i.decode x)

end Intake
end DeviceEvents
