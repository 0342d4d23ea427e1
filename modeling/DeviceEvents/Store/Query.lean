import DeviceEvents.Store.Bucket
import DeviceEvents.Store.Error
import DeviceEvents.Store.Pager
import DeviceEvents.Store.Partition
/-
  DeviceEvents.Store.Query — queries over the index.

  A query visits the buckets that cover its range, newest first. In each it scans the
  partitions of all entities asked for, puts what they hold in order and hands it to the
  pager. Every bucket is visited, so the total counts everything in the range. The first
  scan that fails ends the query. A range that takes more buckets than allowed is refused
  before anything is scanned, and no entities are answered by nothing at all.
-/

namespace DeviceEvents

/-- Reads several partitions of one bucket, unless one of them fails. -/
abbrev Scan (m : Type → Type) := List PartitionKey → DateRange → m (Except Failure (List Event))

variable {m : Type → Type} [Monad m]

/-- Scans one partition after the other, up to the first that fails. -/
def Scan.ofEach (scan : PartitionKey → DateRange → m (Except Failure (List Event))) : Scan m
  | [], _ => pure (.ok [])
  | k :: ks, range => do
    match ← scan k range with
    | .error f => pure (.error f)
    | .ok es =>
      match ← ofEach scan ks range with
      | .error f => pure (.error f)
      | .ok rest => pure (.ok (es ++ rest))

/-- What a query asks for. -/
structure Query where
  dimension : Dimension
  entities : List Uuid
  range : DateRange
  page : Page

namespace Query

def distinctFrom (seen : List Uuid) : List Uuid → List Uuid
  | [] => []
  | a :: as => if a ∈ seen then distinctFrom seen as else a :: distinctFrom (a :: seen) as

/-- Each of several equal ids once, at the place of the first. -/
def distinct (as : List Uuid) : List Uuid := distinctFrom [] as

/-- Where queries look, and how many buckets they may visit. -/
structure Plan where
  tenant : String
  scheme : BucketScheme
  maxBuckets : Option Nat

def Plan.keys (p : Plan) (d : Dimension) (entities : List Uuid) (bucket : Int) :
    List PartitionKey :=
  entities.map fun entity => ⟨p.tenant, d, entity, bucket⟩

def visit (scan : Int → m (Except Failure (List Event))) :
    List Int → Pager Event → m (Except Failure (Pager Event))
  | [], pager => pure (.ok pager)
  | b :: bs, pager => do
    match ← scan b with
    | .error f => pure (.error f)
    | .ok es => visit scan bs (pager.extend (sortNewestFirst es))

/-- The answer to a query at the moment `now`. -/
def run (q : Query) (p : Plan) (scan : Scan m) (now : Instant) :
    m (Except Trouble (Results Event)) := do
  let entities := distinct q.entities
  if entities.isEmpty then return .ok .empty
  let count := p.scheme.count q.range now
  match p.maxBuckets.filter (· < count) with
  | some max => return .error (.rangeTooWide count max)
  | none =>
    match ← visit (fun b => scan (p.keys q.dimension entities b) q.range)
        (p.scheme.covering q.range now) (.ofPage q.page) with
    | .error f => return .error (.backend f)
    | .ok pager => return .ok pager.results

end Query
end DeviceEvents
