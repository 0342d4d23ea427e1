import DeviceEvents.Json.Value
import DeviceEvents.Text.Quoted
/-
  DeviceEvents.Json.Reader — typed values from JSON.

  A reader takes tokens from the front of a text. It stops at the first thing that is wrong,
  be it the form of the text or the kind of a value, so a value of the wrong kind is reported
  although the text behind it is broken. A reader also knows how many arrays and objects may
  still be opened inside each other: 127 at the start.

  A `Leaf` makes a value from what was found in one place, an opening bracket standing for
  the whole array or object. The same leaf serves text and values that are already read.
-/

namespace DeviceEvents.Json

variable {α β σ : Type}

/-! ## Faults -/

/-- What stands where something else was expected. -/
inductive Found where
  | null
  | bool (b : Bool)
  | num (n : Number)
  | str (s : String)
  | sequence
  | map
  deriving DecidableEq, Repr

def Found.text : Found → String
  | .null => "null"
  | .bool b => "boolean `" ++ (if b then "true" else "false") ++ "`"
  | .num (.int i) => "integer `" ++ String.ofList (Number.int i).text ++ "`"
  | .num (.real x) => "floating point `" ++ String.ofList (Number.real x).text ++ "`"
  | .str s => "string " ++ Text.quoted s
  | .sequence => "sequence"
  | .map => "map"

/-- Well-formed JSON that is not the value asked for. -/
inductive DataFault where
  | missingField (name : String)
  | duplicateField (name : String)
  | unknownVariant (found : String) (expected : List String)
  | invalidType (found : Found) (expected : String)
  | invalidLength (length : Nat) (expected : String)
  | invalidValue (found : Found) (expected : String)
  | badUuid
  | badDate
  deriving DecidableEq, Repr

def ticked (s : String) : String := "`" ++ s ++ "`"

def oneOf : List String → String
  | [a] => ticked a
  | [a, b] => ticked a ++ " or " ++ ticked b
  | as => "one of " ++ ", ".intercalate (as.map ticked)

def DataFault.text : DataFault → String
  | .missingField n => "missing field " ++ ticked n
  | .duplicateField n => "duplicate field " ++ ticked n
  | .unknownVariant f es => "unknown variant " ++ ticked f ++ ", expected " ++ oneOf es
  | .invalidType f e => "invalid type: " ++ f.text ++ ", expected " ++ e
  | .invalidLength n e => "invalid length " ++ toString n ++ ", expected " ++ e
  | .invalidValue f e => "invalid value: " ++ f.text ++ ", expected " ++ e
  | .badUuid => "bad uuid"
  | .badDate => "bad date"

inductive Fault where
  | notJson
  | data (f : DataFault)
  deriving DecidableEq, Repr

def Fault.text : Fault → String
  | .notJson => "<not json>"
  | .data f => f.text

/-! ## Leaves -/

abbrev Leaf (α : Type) := Found → Except DataFault α

namespace Leaf

def string : Leaf String
  | .str s => .ok s
  | f => .error (.invalidType f "a string")

def real : Leaf Binary64
  | .num n => .ok n.toBinary64
  | f => .error (.invalidType f "f64")

/-- A natural number of 64 bits. -/
def natural : Leaf Nat
  | .num (.int i) =>
    if i < 0 then .error (.invalidValue (.num (.int i)) "usize") else .ok i.toNat
  | f => .error (.invalidType f "usize")

def unit : Leaf Unit
  | .null => .ok ()
  | f => .error (.invalidType f "unit")

/-- A string that `parse` takes, and what else it is. -/
def parsed (expected : String) (otherwise : DataFault) (parse : String → Option α) : Leaf α
  | .str s =>
    match parse s with
    | some a => .ok a
    | none => .error otherwise
  | f => .error (.invalidType f expected)

/-- `null` is nothing. -/
def optional (l : Leaf α) : Leaf (Option α)
  | .null => .ok none
  | f => some <$> l f

end Leaf

def Value.found : Value → Found
  | .null => .null
  | .bool b => .bool b
  | .num n => .num n
  | .str s => .str s
  | .arr _ => .sequence
  | .obj _ => .map

def Leaf.ofValue (l : Leaf α) (v : Value) : Except DataFault α := l v.found

/-- What a value that begins with this token is; none if none begins here. -/
def Token.found? : Token → Option Found
  | .lbrace => some .map
  | .lbracket => some .sequence
  | .null => some .null
  | .bool b => some (.bool b)
  | .number n => n.map .num
  | .string s => s.map .str
  | _ => none

/-! ## Readers of tokens -/

/-- Takes a value from the front. -/
abbrev Taking (α : Type) := List Token → Except Fault (α × List Token)

/-- Takes a value from the front, given how many arrays and objects may still be opened. -/
abbrev Reader (α : Type) := Nat → Taking α

def nestingLimit : Nat := 127

namespace Reader

def fail (f : DataFault) : Except Fault α := .error (.data f)

def lift : Except DataFault α → Except Fault α
  | .ok a => .ok a
  | .error f => .error (.data f)

def map (f : α → β) (r : Reader α) : Reader β := fun room ts => do
  let (a, ts) ← r room ts
  return (f a, ts)

def leaf (l : Leaf α) : Reader α
  | _, t :: ts =>
    match t.found? with
    | some f => do return (← lift (l f), ts)
    | none => .error .notJson
  | _, [] => .error .notJson

/-- `null` is nothing. -/
def optional (r : Reader α) : Reader (Option α)
  | _, .null :: ts => .ok (none, ts)
  | room, ts => (r.map some) room ts

/-- The members of an object behind its opening brace, each name given to `step`, which says
how its value is read or refuses it before the colon. At most `fuel` members, which the
number of tokens left always is. -/
def membersFrom (step : σ → String → Except Fault (Taking σ)) : Nat → σ → Taking σ
  | fuel + 1, s, .string (some k) :: ts => do
    let take ← step s k
    match ts with
    | .colon :: ts =>
      let (s, ts) ← take ts
      match ts with
      | .rbrace :: ts => return (s, ts)
      | .comma :: ts => membersFrom step fuel s ts
      | _ => .error .notJson
    | _ => .error .notJson
  | _, _, _ => .error .notJson

def members (step : σ → String → Except Fault (Taking σ)) (s : σ) : Taking σ
  | .rbrace :: ts => .ok (s, ts)
  | ts => membersFrom step ts.length s ts

/-- The items of an array behind its opening bracket. -/
def itemsFrom (step : σ → Taking σ) : Nat → σ → Taking σ
  | fuel + 1, s, ts => do
    let (s, ts) ← step s ts
    match ts with
    | .rbracket :: ts => return (s, ts)
    | .comma :: ts => itemsFrom step fuel s ts
    | _ => .error .notJson
  | 0, _, _ => .error .notJson

def items (step : σ → Taking σ) (s : σ) : Taking σ
  | .rbracket :: ts => .ok (s, ts)
  | ts => itemsFrom step ts.length s ts

/-- What is inside the brackets that `ts` opens with, given one level less. -/
def inside (expected : String) (object array : Option (Reader α)) : Reader α
  | room, t :: ts =>
    match t, object, array with
    | .lbrace, some r, _ | .lbracket, _, some r =>
      match room with
      | room + 1 => r room ts
      | 0 => .error .notJson
    | t, _, _ =>
      match t.found? with
      | some f => fail (.invalidType f expected)
      | none => .error .notJson
  | _, [] => .error .notJson

end Reader

/-! ## Whole values -/

/-- A value as it stands. -/
def Value.read : Reader Value
  | _, .null :: ts => .ok (.null, ts)
  | _, .bool b :: ts => .ok (.bool b, ts)
  | _, .number (some n) :: ts => .ok (.num n, ts)
  | _, .string (some s) :: ts => .ok (.str s, ts)
  | room + 1, .lbracket :: ts => do
    let (vs, ts) ← Reader.items (fun vs ts => do
      let (v, ts) ← Value.read room ts
      return (v :: vs, ts)) [] ts
    return (.arr vs.reverse, ts)
  | room + 1, .lbrace :: ts => do
    let (ms, ts) ← Reader.members (fun ms k => .ok fun ts => do
      let (v, ts) ← Value.read room ts
      return ((k, v) :: ms, ts)) [] ts
    return (.obj ms.reverse, ts)
  | _, _ => .error .notJson

/-- A token that may stand where no value is wanted from it. -/
def Token.passable : Token → Token
  | .number none => .null
  | .string none => .string (some "")
  | t => t

namespace Reader

def value : Reader Value := Value.read

/-- Passes over one value: numbers of any size, strings with half a pair, any depth. -/
def skip : Reader Unit := fun _ ts => do
  let (_, rest) ← Value.read ts.length (ts.map Token.passable)
  return ((), ts.drop (ts.length - rest.length))

/-- A value with nothing behind it. -/
def runTokens (r : Reader α) (ts : List Token) : Except Fault α := do
  let (a, rest) ← r nestingLimit ts
  if rest.isEmpty then return a else .error .notJson

/-- The whole text, with nothing but blanks behind the value. -/
def run (r : Reader α) (text : String) : Except Fault α := r.runTokens (scan text)

end Reader

/-- The value that a text spells, repeated names and all. -/
def Value.parse (text : String) : Except Fault Value := Reader.run Reader.value text

end DeviceEvents.Json
