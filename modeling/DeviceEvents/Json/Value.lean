import DeviceEvents.Json.Token
/-
  DeviceEvents.Json.Value — JSON values.

  An object keeps its members in the order of the text, repeated names included; which of
  two members of one name counts is for the reader to say. `canonical` is the form in which
  the last one does: names in ascending order, each once.
-/

namespace DeviceEvents.Json

inductive Value where
  | null
  | bool (b : Bool)
  | num (n : Number)
  | str (s : String)
  | arr (items : List Value)
  | obj (members : List (String × Value))
  deriving Repr, Inhabited

abbrev Member := String × Value

namespace Value

def ofOption {α : Type} (f : α → Value) : Option α → Value
  | some a => f a
  | none => .null

/-! ## Writing -/

mutual

def tokens : Value → List Token
  | .null => [.null]
  | .bool b => [.bool b]
  | .num n => [.number (some n)]
  | .str s => [.string (some s)]
  | .arr items => .lbracket :: itemTokens items
  | .obj members => .lbrace :: memberTokens members

/-- The items and the closing bracket. -/
def itemTokens : List Value → List Token
  | [] => [.rbracket]
  | [v] => tokens v ++ [.rbracket]
  | v :: vs => tokens v ++ .comma :: itemTokens vs

/-- The members and the closing brace. -/
def memberTokens : List (String × Value) → List Token
  | [] => [.rbrace]
  | [(k, v)] => .string (some k) :: .colon :: tokens v ++ [.rbrace]
  | (k, v) :: ms => .string (some k) :: .colon :: tokens v ++ .comma :: memberTokens ms

end

/-- The text without blanks. -/
def render (v : Value) : String := write v.tokens

/-! ## Canonical form -/

/-- `ms` with the member `(k, v)` at its place, in the stead of one of the same name. -/
def insertMember (k : String) (v : Value) : List Member → List Member
  | [] => [(k, v)]
  | (k', v') :: ms =>
    if k < k' then (k, v) :: (k', v') :: ms
    else if k = k' then (k, v) :: ms
    else (k', v') :: insertMember k v ms

/-- `ms` with the member `(k, v)` in the stead of any of the same name. -/
def setMember (k : String) (v : Value) (ms : List Member) : List Member :=
  insertMember k v (ms.filter fun m => m.1 != k)

mutual

def canonical : Value → Value
  | .arr items => .arr (canonicalItems items)
  | .obj members => .obj (canonicalMembers members [])
  | v => v

def canonicalItems : List Value → List Value
  | [] => []
  | v :: vs => canonical v :: canonicalItems vs

def canonicalMembers : List (String × Value) → List Member → List Member
  | [], done => done
  | (k, v) :: ms, done => canonicalMembers ms (insertMember k (canonical v) done)

end

/-- The member of that name in an object, the last of several. -/
def member? (name : String) : Value → Option Value
  | .obj ms => (ms.reverse.find? (·.1 == name)).map (·.2)
  | _ => none

end Value
end DeviceEvents.Json
