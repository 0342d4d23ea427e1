import DeviceEvents.Text.Hex
/-
  DeviceEvents.Uuid — identifiers of 128 bits.

  Written in lower-case digits with hyphens after 8, 12, 16 and 20 of them. Read in either
  case, with hyphens or without, and with hyphens also in braces or behind `urn:uuid:`.
-/

namespace DeviceEvents

structure Uuid where
  code : Fin 0x100000000000000000000000000000000
  deriving DecidableEq, Repr

namespace Uuid

instance : Inhabited Uuid := ⟨⟨0⟩⟩

instance : Ord Uuid := ⟨fun a b => compare a.code.val b.code.val⟩

instance : LT Uuid := ⟨fun a b => a.code < b.code⟩

instance : LE Uuid := ⟨fun a b => a.code ≤ b.code⟩

instance (a b : Uuid) : Decidable (a < b) := inferInstanceAs (Decidable (a.code < b.code))

instance (a b : Uuid) : Decidable (a ≤ b) := inferInstanceAs (Decidable (a.code ≤ b.code))

theorem ext {a b : Uuid} (h : a.code = b.code) : a = b := by
  cases a; cases b; cases h; rfl

theorem lt_irrefl (a : Uuid) : ¬a < a := Nat.lt_irrefl a.code.val

theorem lt_trans {a b c : Uuid} (h : a < b) (h' : b < c) : a < c := Nat.lt_trans h h'

theorem lt_trichotomy (a b : Uuid) : a < b ∨ a = b ∨ b < a := by
  rcases Nat.lt_trichotomy a.code.val b.code.val with h | h | h
  · exact .inl h
  · exact .inr (.inl (ext (Fin.ext h)))
  · exact .inr (.inr h)

def ofNat (n : Nat) : Uuid := ⟨Fin.ofNat 0x100000000000000000000000000000000 n⟩

/-- The least identifier. -/
def nil : Uuid := ofNat 0

/-- The greatest identifier. -/
def max : Uuid := ofNat (0x100000000000000000000000000000000 - 1)

theorem not_lt_nil (a : Uuid) : ¬a < nil := Nat.not_lt_zero a.code.val

theorem not_max_lt (a : Uuid) : ¬max < a := Nat.not_lt.2 (Nat.le_of_lt_succ a.code.isLt)

/-- How many digits stand between hyphens. -/
def groups : List Nat := [8, 4, 4, 4, 12]

def hyphenate : List Nat → List Char → List Char
  | [], cs => cs
  | [_], cs => cs
  | n :: ns, cs => cs.take n ++ '-' :: hyphenate ns (cs.drop n)

/-- The digits of groups of these sizes with a hyphen between each two. -/
def unhyphenate? : List Nat → List Char → Option (List Char)
  | [], cs => if cs.isEmpty then some [] else none
  | [n], cs => if cs.length = n then some cs else none
  | n :: ns, cs =>
    match cs.drop n with
    | '-' :: rest => (cs.take n ++ ·) <$> unhyphenate? ns rest
    | _ => none

def chars (u : Uuid) : List Char := hyphenate groups (Text.toHex 32 u.code.val)

def text (u : Uuid) : String := String.ofList u.chars

instance : ToString Uuid := ⟨text⟩

def ofDigits? (cs : List Char) : Option Uuid :=
  if cs.length = 32 then ofNat <$> Text.ofHex? cs else none

def ofHyphenated? (cs : List Char) : Option Uuid := do ofDigits? (← unhyphenate? groups cs)

/-- What is inside braces. -/
def unbrace? : List Char → Option (List Char)
  | '\x7b' :: cs =>
    match cs.getLast? with
    | some '\x7d' => some cs.dropLast
    | _ => none
  | _ => none

def urnScheme : List Char := ['u', 'r', 'n', ':', 'u', 'u', 'i', 'd', ':']

def ofChars? (cs : List Char) : Option Uuid :=
  if cs.length = 32 then ofDigits? cs
  else if cs.length = 36 then ofHyphenated? cs
  else if cs.length = 38 then (unbrace? cs).bind ofHyphenated?
  else if cs.length = 45 ∧ cs.take 9 = urnScheme then ofHyphenated? (cs.drop 9)
  else none

def parse? (s : String) : Option Uuid := ofChars? s.toList

end Uuid
end DeviceEvents
