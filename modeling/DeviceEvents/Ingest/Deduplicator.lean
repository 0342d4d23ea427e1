import DeviceEvents.Ingest.Window
import DeviceEvents.Store.Error
/-
  DeviceEvents.Ingest.Deduplicator — which requests count as seen before.

  By alternate id: those whose alternate id is stored already; a request without one is never
  a duplicate. By recency: those whose fingerprint is in the window. Forgetting undoes what
  the judgement of a request has left in the window.
-/

namespace DeviceEvents

open Json

inductive DeduplicatorKind where
  | none
  | alternateId
  | recent (capacity : Nat)
  deriving DecidableEq, Repr

namespace DeduplicatorKind

/-- For a log. -/
def text : DeduplicatorKind → String
  | .none => "None"
  | .alternateId => "AlternateId"
  | .recent n => "Recent \x7b capacity: " ++ toString n ++ " \x7d"

def tag : String := "kind"

def title : String := "internally tagged enum DeduplicatorKind"

inductive Name where
  | none
  | alternateId
  | recent
  deriving DecidableEq

def names : List (String × Name) :=
  [("none", .none), ("alternate_id", .alternateId), ("recent", .recent)]

def recentRecord : Record (Option Nat) DeduplicatorKind where
  name := "variant DeduplicatorKind::Recent"
  fields := [⟨"capacity", false⟩]
  start := Option.none
  finish s := return .recent (← Record.need "capacity" s)

def put (s : Option Nat) (k : String) (v : Value) : Except DataFault (Option Nat) :=
  match k with
  | "capacity" => some <$> Leaf.natural v.found
  | _ => .ok s

/-- A kind without settings may stand beside other members, but not before other items. -/
def bare (k : DeduplicatorKind) : Value → Except DataFault DeduplicatorKind
  | .arr (_ :: vs) => .error (.invalidLength (vs.length + 1) (Record.tooLong 0))
  | _ => .ok k

def ofContent (n : Name) (v : Value) : Except DataFault DeduplicatorKind :=
  match n with
  | .none => bare .none v
  | .alternateId => bare .alternateId v
  | .recent => recentRecord.ofValue put v

/-- The kind under its tag, or at the front of an array. -/
def ofValue : Value → Except DataFault DeduplicatorKind
  | .obj ms => do
    let some v := (Value.obj ms).member? tag | .error (.missingField tag)
    let n ← variant names (← variantName v.found)
    ofContent n (.obj (ms.filter (·.1 != tag)))
  | .arr [] => .error (.missingField tag)
  | .arr (v :: vs) => do
    let n ← variant names (← variantName v.found)
    ofContent n (.arr vs)
  | v => .error (.invalidType v.found title)

end DeduplicatorKind

/-- What a pipeline asks about its requests. -/
structure Deduplicator (m : Type → Type) where
  start : m (Except Refusal Unit)
  stop : m (Except Refusal Unit)
  isDuplicate : Request → m (Except Refusal Bool)
  forget : Request → m (Except Refusal Unit)

namespace Deduplicator

variable {m : Type → Type} [Monad m]

/-- By what is stored under an alternate id. -/
def byAlternateId (stored : String → m (Except Refusal (Option Event))) : Deduplicator m where
  start := pure (.ok ())
  stop := pure (.ok ())
  isDuplicate r :=
    match r.draft.alternateId with
    | none => pure (.ok false)
    | some a => return (← stored a).map Option.isSome
  forget _ := pure (.ok ())

/-- By a window that is kept somewhere. -/
def byWindow (get : m Window) (set : Window → m Unit) : Deduplicator m where
  start := pure (.ok ())
  stop := do
    set (← get).clear
    return .ok ()
  isDuplicate r := do
    let (seen, w) := (← get).see r.fingerprint
    set w
    return .ok seen
  forget r := do
    set ((← get).forget r.fingerprint)
    return .ok ()

end Deduplicator
end DeviceEvents
