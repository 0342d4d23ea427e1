import DeviceEvents.Store.Error
import DeviceEvents.Store.Partition
import DeviceEvents.Store.WideRow
import DeviceEvents.Table
/-
  DeviceEvents.Store.Rows — the rows of a store in memory.

  Events are kept by tenant and id, their ids by tenant and alternate id, and the entries of
  the index in one wide row for every partition. Writing to the index and scanning it can be
  made to fail for single dimensions.
-/

namespace DeviceEvents

structure Rows where
  events : Table (String × Uuid) Event
  alternateIds : Table (String × String) Uuid
  partitions : Table PartitionKey WideRow
  failingWrites : List Dimension
  failingScans : List Dimension

namespace Rows

def empty : Rows := ⟨.empty, .empty, .empty, [], []⟩

/-! ## Faults on purpose -/

def failWrites (r : Rows) (d : Dimension) : Rows :=
  { r with failingWrites := d :: r.failingWrites }

def failScans (r : Rows) (d : Dimension) : Rows := { r with failingScans := d :: r.failingScans }

def clearFailures (r : Rows) : Rows := { r with failingWrites := [], failingScans := [] }

def writeFailure (d : Dimension) : Failure :=
  .of ("injected write failure for " ++ d.name ++ " index")

def scanFailure (d : Dimension) : Failure :=
  .of ("injected scan failure for " ++ d.name ++ " index")

/-! ## Writing -/

def writeEvent (r : Rows) (tenant : String) (e : Event) : Rows :=
  { r with events := r.events.insert (tenant, e.id) e }

def writeAlternateId (r : Rows) (tenant alternateId : String) (id : Uuid) : Rows :=
  { r with alternateIds := r.alternateIds.insert (tenant, alternateId) id }

def row (r : Rows) (k : PartitionKey) : WideRow := (r.partitions.get? k).getD .empty

def writeIndexEntry (r : Rows) (k : PartitionKey) (e : Event) : Except Failure Rows :=
  if k.dimension ∈ r.failingWrites then .error (writeFailure k.dimension)
  else .ok { r with partitions := r.partitions.insert k ((r.row k).insert e) }

/-! ## Reading -/

def event? (r : Rows) (tenant : String) (id : Uuid) : Option Event := r.events.get? (tenant, id)

def eventId? (r : Rows) (tenant alternateId : String) : Option Uuid :=
  r.alternateIds.get? (tenant, alternateId)

/-- The events of a partition in a range, oldest first. `none` is what its row cannot be asked. -/
def scan? (r : Rows) (k : PartitionKey) (range : DateRange) : Option (Except Failure (List Event)) :=
  if k.dimension ∈ r.failingScans then some (.error (scanFailure k.dimension))
  else match r.partitions.get? k with
    | none => some (.ok [])
    | some row => (row.slice? range).map .ok

theorem isSome_scan? (r : Rows) (k : PartitionKey) (range : DateRange) : (r.scan? k range).isSome := by
  unfold scan?
  split
  · rfl
  · split
    · rfl
    · rw [Option.isSome_map, WideRow.isSome_slice?]

def scan (r : Rows) (k : PartitionKey) (range : DateRange) : Except Failure (List Event) :=
  (r.scan? k range).get (r.isSome_scan? k range)

/-- The partitions that hold an event, in ascending order. -/
def partitionsOf (r : Rows) (id : Uuid) : List PartitionKey :=
  let ks := (r.partitions.entries.filter fun e => e.2.holds id).map (·.1)
  ks.mergeSort fun a b => (PartitionKey.compare a b).isLE

end Rows
end DeviceEvents
