/-
  DeviceEvents.Service.Uri — which texts name the endpoint that traces go to.

  Such a text is a path, an authority alone, or a scheme, an authority and perhaps a path,
  with a query and a fragment behind it. An authority has no more than one colon outside of
  brackets and of what stands before its at sign, one pair of brackets at most, and percent
  signs only in what brackets or an at sign follow up.
-/

namespace DeviceEvents.Uri

def maxLength : Nat := 65534

def maxSchemeLength : Nat := 64

def maxColons : Nat := 8

def isSchemeChar (c : Char) : Bool := c.isAlphanum || c == '+' || c == '-' || c == '.'

/-- May stand in an authority, or ends it. -/
def isUriChar (c : Char) : Bool := c.isAlphanum || "!#$&'()*+,-./:;=?@[]_~".toList.contains c

def isPathChar (c : Char) : Bool :=
  decide (0x7f ≤ c.toNat) ||
    (decide ('!' ≤ c ∧ c ≤ '~') && !"#<>?\x60".toList.contains c)

def isQueryChar (c : Char) : Bool :=
  decide (0x7f ≤ c.toNat) ||
    (decide ('!' ≤ c ∧ c ≤ '~') && !"\"#<>".toList.contains c)

/-! ## Parts -/

/-- What is left behind a scheme: nothing at all if there is none, an error if it is too
long. -/
def stripScheme (cs : List Char) : Except Unit (Option (List Char)) :=
  let scheme := cs.takeWhile isSchemeChar
  match cs.dropWhile isSchemeChar with
  | ':' :: '/' :: '/' :: rest =>
    if cs.length ≤ 3 then .ok none
    else if maxSchemeLength < scheme.length then .error ()
    else .ok (some rest)
  | _ => .ok none

/-- What has been seen of an authority. -/
structure Authority where
  colons : Nat := 0
  opened : Bool := false
  closed : Bool := false
  percent : Bool := false
  /-- It stops just behind an at sign. -/
  atSign : Bool := false

namespace Authority

def step (a : Authority) (c : Char) : Option Authority :=
  let a := { a with atSign := false }
  match c with
  | ':' => if maxColons ≤ a.colons then none else some { a with colons := a.colons + 1 }
  | '[' => if a.percent || a.opened then none else some { a with opened := true }
  | ']' =>
    if !a.opened || a.closed then none
    else some { a with closed := true, colons := 0, percent := false }
  | '@' => some { a with atSign := true, colons := 0, percent := false }
  | '%' => some { a with percent := true }
  | c => if isUriChar c then some a else none

def isComplete (a : Authority) : Bool :=
  a.opened == a.closed && decide (a.colons ≤ 1) && !a.atSign && !a.percent

def isEnd (c : Char) : Bool := c == '/' || c == '?' || c == '#'

/-- The authority in front and what stands behind it. -/
def split? (cs : List Char) : Option (List Char × List Char) := do
  let front := cs.takeWhile (!isEnd ·)
  let a ← front.foldlM step {}
  if a.isComplete then some (front, cs.dropWhile (!isEnd ·)) else none

end Authority

def isQuery (cs : List Char) : Bool := (cs.takeWhile (· != '#')).all isQueryChar

/-- A path, and perhaps a query and a fragment. -/
def isPath (cs : List Char) : Bool :=
  let isPart (c : Char) : Bool := c != '?' && c != '#'
  (cs.takeWhile isPart).all isPathChar &&
    match cs.dropWhile isPart with
    | '?' :: query => isQuery query
    | _ => true

/-! ## The whole -/

def isUriText (cs : List Char) : Bool :=
  match cs with
  | [] => false
  | ['/'] | ['*'] => true
  | '/' :: _ => isPath cs
  | cs =>
    match stripScheme cs with
    | .error () => false
    | .ok none =>
      match Authority.split? cs with
      | some (_, rest) => rest.isEmpty
      | none => false
    | .ok (some rest) =>
      match Authority.split? rest with
      | some (authority, path) => !authority.isEmpty && isPath path
      | none => false

end Uri

def isUri (s : String) : Bool := decide (s.utf8ByteSize ≤ Uri.maxLength) && Uri.isUriText s.toList

end DeviceEvents
