import DeviceEvents.Dimension
import DeviceEvents.Event.Basic
/-
  DeviceEvents.Store.Partition — where the index keeps events: one row for every tenant,
  dimension, entity and bucket.
-/

namespace DeviceEvents

structure PartitionKey where
  tenant : String
  dimension : Dimension
  entity : Uuid
  bucket : Int
  deriving DecidableEq

namespace PartitionKey

def text (k : PartitionKey) : String :=
  k.tenant ++ "/" ++ k.dimension.name ++ "/" ++ k.entity.text ++ "/" ++ toString k.bucket

def compare (a b : PartitionKey) : Ordering :=
  (Ord.compare a.tenant b.tenant).then <| (Ord.compare a.dimension b.dimension).then <|
    (Ord.compare a.entity b.entity).then (Ord.compare a.bucket b.bucket)

instance : Ord PartitionKey := ⟨compare⟩

/-- In ascending order, each once. -/
def sorted (ks : List PartitionKey) : List PartitionKey :=
  (ks.mergeSort fun a b => (compare a b).isLE).eraseReps

end PartitionKey

/-- May `a` stand before `b` in a list that is newest first? Of equal dates the greater id
comes first. -/
def newerFirst (a b : Event) : Bool :=
  b.eventDate < a.eventDate || (a.eventDate == b.eventDate && b.id ≤ a.id)

/-- Newest first; events that are equal in date and id keep their order. -/
def sortNewestFirst (es : List Event) : List Event := es.mergeSort newerFirst

end DeviceEvents
