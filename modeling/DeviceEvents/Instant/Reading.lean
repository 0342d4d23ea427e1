import DeviceEvents.Instant.Civil
import DeviceEvents.Number.Numeral
import DeviceEvents.Text.Blank
/-
  DeviceEvents.Instant.Reading — instants from text, by a strict and by a lenient rule.

  The strict rule is that of RFC 3339 with a space allowed for the `T`: fields of fixed
  width, a year of four digits, an offset `Z` or `±HH:MM`. The lenient rule also takes blanks
  between the parts, shorter fields, a signed year of any width, `UTC`, and an offset whose
  colon is missing or is any run of colons and blanks. Both read any number of digits behind
  the point and drop those beyond nine.
-/

namespace DeviceEvents.Instant

open Text (isBlank trimStart)
open Numeral (digit? digits ofDigits)

/-- The number written by between `least` and `most` digits at the front, as many as there
are. -/
def number (least most : Nat) (cs : List Char) : Option (Nat × List Char) :=
  let ds := (digits (cs.take most)).1
  if ds.length < least then none else some (ofDigits ds, cs.drop ds.length)

def expect (c : Char) : List Char → Option (List Char)
  | d :: cs => if d = c then some cs else none
  | [] => none

/-- What stands between date and time. -/
def separator : List Char → Option (List Char)
  | c :: cs => if c = 'T' ∨ c = 't' ∨ c = ' ' then some cs else none
  | [] => none

/-- The digits behind a point as nanoseconds, if there is a point. -/
def fraction : List Char → Option (Nat × List Char)
  | '.' :: cs => do
    let ds := (digits (cs.take 9)).1
    if ds.isEmpty then none
    else
      let rest := cs.drop ds.length
      some (ofDigits ds * Nat.pow 10 (9 - ds.length), rest.drop (digits rest).1.length)
  | cs => some (0, cs)

/-- An offset in seconds: `Z`, or a sign, two digits of hours, what `colon` takes, and two
digits of minutes. A minus sign may also be U+2212. -/
def offset (colon : List Char → Option (List Char)) : List Char → Option (Int × List Char)
  | [] => none
  | c :: cs =>
    if c = 'Z' ∨ c = 'z' then some (0, cs)
    else if c = '+' ∨ c = '-' ∨ c = '\u2212' then do
      let (h, cs) ← number 2 2 cs
      let cs ← colon cs
      let (m, cs) ← number 2 2 cs
      if 60 ≤ m then none
      else
        let s : Int := h * 3600 + m * 60
        some (if c = '+' then s else -s, cs)
    else none

/-! ## Strict -/

def ofStrict? (s : String) : Option Instant := do
  let (year, cs) ← number 4 4 s.toList
  let cs ← expect '-' cs
  let (month, cs) ← number 2 2 cs
  let cs ← expect '-' cs
  let (day, cs) ← number 2 2 cs
  let cs ← separator cs
  let (hour, cs) ← number 2 2 cs
  let cs ← expect ':' cs
  let (minute, cs) ← number 2 2 cs
  let cs ← expect ':' cs
  let (second, cs) ← number 2 2 cs
  let (nano, cs) ← fraction cs
  let (off, cs) ← offset (expect ':') cs
  if cs.isEmpty then ofCivil? ⟨year, month, day, hour, minute, second, nano⟩ off else none

/-! ## Lenient -/

/-- A year of up to four digits, or of any number of them behind a sign. -/
def yearLenient (cs : List Char) : Option (Int × List Char) :=
  match trimStart cs with
  | '-' :: cs => do let (y, cs) ← number 1 cs.length cs; return (-(y : Int), cs)
  | '+' :: cs => do let (y, cs) ← number 1 cs.length cs; return ((y : Int), cs)
  | cs => do let (y, cs) ← number 1 4 cs; return ((y : Int), cs)

def fieldLenient (cs : List Char) : Option (Nat × List Char) := number 1 2 (trimStart cs)

def markLenient (c : Char) (cs : List Char) : Option (List Char) := expect c (trimStart cs)

def colonLenient (cs : List Char) : Option (List Char) :=
  some (cs.dropWhile fun c => c == ':' || isBlank c)

def offsetLenient (cs : List Char) : Option (Int × List Char) :=
  match trimStart cs with
  | a :: b :: c :: rest =>
    if a.toLower = 'u' ∧ b.toLower = 't' ∧ c.toLower = 'c' then some (0, rest)
    else offset colonLenient (a :: b :: c :: rest)
  | cs => offset colonLenient cs

def ofLenient? (s : String) : Option Instant := do
  let (year, cs) ← yearLenient s.toList
  let cs ← markLenient '-' cs
  let (month, cs) ← fieldLenient cs
  let cs ← markLenient '-' cs
  let (day, cs) ← fieldLenient cs
  let cs ← separator cs
  let (hour, cs) ← fieldLenient cs
  let cs ← markLenient ':' cs
  let (minute, cs) ← fieldLenient cs
  let cs ← markLenient ':' cs
  let (second, cs) ← fieldLenient cs
  let (nano, cs) ← fraction cs
  let (off, cs) ← offsetLenient cs
  if (trimStart cs).isEmpty then ofCivil? ⟨year, month, day, hour, minute, second, nano⟩ off else none

end DeviceEvents.Instant
