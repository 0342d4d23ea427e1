import DeviceEvents.Json.Reader
import DeviceEvents.Dictionary
/-
  DeviceEvents.Json.Record — structures and variants from JSON.

  A structure is read from an object or from an array of its fields in their order. Of an
  object only the fields of the structure count, and none twice; the first fault in the order
  of the members is the one reported, a missing field last. An array may stop early where
  every field left has a default.

  `ofValue` reads a value that is in memory. `reader` reads text, and there an array with
  too many items is no JSON.
-/

namespace DeviceEvents.Json

variable {α σ : Type}

structure Field where
  name : String
  defaulted : Bool
  deriving DecidableEq, Repr

/-- A structure of type `α` that is gathered in a `σ`. -/
structure Record (σ α : Type) where
  name : String
  fields : List Field
  start : σ
  /-- Reports the first field that is missing. -/
  finish : σ → Except DataFault α

namespace Record

variable (r : Record σ α)

def has (name : String) : Bool := r.fields.any (·.name == name)

def expectation : String := "struct " ++ r.name

def lengthExpectation : String :=
  let n := r.fields.length
  r.expectation ++ " with " ++ toString n ++ (if n = 1 then " element" else " elements")

def tooLong (n : Nat) : String :=
  if n = 1 then "1 element in sequence" else toString n ++ " elements in sequence"

/-! ## From a value -/

def ofMembers (put : σ → String → Value → Except DataFault σ) :
    σ → List String → List Member → Except DataFault σ
  | s, _, [] => .ok s
  | s, seen, (k, v) :: ms =>
    if r.has k then
      if seen.contains k then .error (.duplicateField k)
      else do ofMembers put (← put s k v) (k :: seen) ms
    else ofMembers put s seen ms

def ofItems (put : σ → String → Value → Except DataFault σ) :
    σ → Nat → List Field → List Value → Except DataFault σ
  | s, _, [], [] => .ok s
  | _, i, [], vs => .error (.invalidLength (i + vs.length) (tooLong i))
  | s, i, f :: fs, [] =>
    if f.defaulted then ofItems put s (i + 1) fs []
    else .error (.invalidLength i r.lengthExpectation)
  | s, i, f :: fs, v :: vs => do ofItems put (← put s f.name v) (i + 1) fs vs

def ofValue (put : σ → String → Value → Except DataFault σ) : Value → Except DataFault α
  | .obj ms => do r.finish (← r.ofMembers put r.start [] ms)
  | .arr vs => do r.finish (← r.ofItems put r.start 0 r.fields vs)
  | v => .error (.invalidType v.found r.expectation)

/-! ## From text -/

def object (put : σ → String → Reader σ) : Reader α := fun room ts => do
  let ((s, _), ts) ← Reader.members (fun (s, seen) k =>
    if r.has k then
      if seen.contains k then Reader.fail (.duplicateField k)
      else .ok fun ts => do
        let (s, ts) ← put s k room ts
        return ((s, k :: seen), ts)
    else .ok fun ts => do
      let ((), ts) ← Reader.skip room ts
      return ((s, seen), ts)) (r.start, ([] : List String)) ts
  return (← Reader.lift (r.finish s), ts)

/-- The first field without a default among those that an array left out, by its place. -/
def firstMissing : Nat → List Field → Option Nat
  | _, [] => none
  | i, f :: fs => if f.defaulted then firstMissing (i + 1) fs else some i

def array (put : σ → String → Reader σ) : Reader α := fun room ts => do
  let ((s, rest), ts) ← Reader.items (fun (s, fields) ts =>
    match fields with
    | [] => .error .notJson
    | f :: fs => do
      let (s, ts) ← put s f.name room ts
      return ((s, fs), ts)) (r.start, r.fields) ts
  match firstMissing (r.fields.length - rest.length) rest with
  | some i => Reader.fail (.invalidLength i r.lengthExpectation)
  | none => return (← Reader.lift (r.finish s), ts)

def reader (put : σ → String → Reader σ) : Reader α :=
  Reader.inside r.expectation (some (r.object put)) (some (r.array put))

/-- The value of a field that has to be there. -/
def need (name : String) : Option α → Except DataFault α
  | some a => .ok a
  | none => .error (.missingField name)

end Record

/-! ## Variants without data -/

def variant (all : List (String × α)) (name : String) : Except DataFault α :=
  match all.find? (·.1 == name) with
  | some (_, a) => .ok a
  | none => .error (.unknownVariant name (all.map (·.1)))

/-- A variant by its name, or by an object that holds nothing under its name. -/
def variantOfValue (all : List (String × α)) : Value → Except DataFault α
  | .str s => variant all s
  | .obj [(k, v)] => do
    let a ← variant all k
    match v with
    | .null | .obj [] => return a
    | v => .error (.invalidType v.found "unit")
  | .obj _ => .error (.invalidValue .map "map with a single key")
  | v => .error (.invalidType v.found "string or map")

/-- The name of a variant. -/
def variantName : Leaf String
  | .str s => .ok s
  | f => .error (.invalidType f "variant identifier")

/-- In text a variant is its name or an object that holds `null` under its name; anything
else is no JSON. -/
def variantReader (all : List (String × α)) : Reader α
  | _, .string (some s) :: ts => do return (← Reader.lift (variant all s), ts)
  | room + 1, .lbrace :: ts => do
    let (name, ts) ← Reader.leaf variantName room ts
    let a ← Reader.lift (variant all name)
    match ts with
    | .colon :: ts =>
      let ((), ts) ← Reader.leaf Leaf.unit room ts
      match ts with
      | .rbrace :: ts => return (a, ts)
      | _ => .error .notJson
    | _ => .error .notJson
  | _, _ => .error .notJson

/-! ## Maps -/

/-- A map with values of one kind, the last of several under one key. -/
def dictionaryOf (l : Leaf α) : Value → Except DataFault (Dictionary α)
  | .obj ms => ms.foldlM (fun d (k, v) => return d.insert k (← l v.found)) Dictionary.empty
  | v => .error (.invalidType v.found "a map")

def dictionaryReader (l : Leaf α) : Reader (Dictionary α) :=
  Reader.inside "a map" (some fun room => Reader.members (fun d k => .ok fun ts => do
    let (a, ts) ← Reader.leaf l room ts
    return (d.insert k a, ts)) Dictionary.empty) none

end DeviceEvents.Json
