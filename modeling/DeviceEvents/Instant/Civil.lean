import DeviceEvents.Instant.Basic
import DeviceEvents.Number.Shortest
/-
  DeviceEvents.Instant.Civil — instants by date and time of day.

  Dates follow the Gregorian calendar in both directions, with a year 0. Written is the
  shortest of no, three, six and nine digits of the fraction that is exact; years outside 0
  to 9999 have a sign.
-/

namespace DeviceEvents

def isLeapYear (y : Int) : Bool := y % 4 == 0 && (y % 100 != 0 || y % 400 == 0)

def monthLengths (y : Int) : List Nat :=
  [31, if isLeapYear y then 29 else 28, 31, 30, 31, 30, 31, 31, 30, 31, 30, 31]

/-- Days from the first of year 0 to the first of year `y`. -/
def daysBeforeYear (y : Int) : Int := 365 * y + (y + 3) / 4 - (y + 99) / 100 + (y + 399) / 400

/-- Days from the first of year 0 to 1970-01-01. -/
def epochDay : Int := 719528

/-- The year that holds a day counted from the first of year 0. -/
def yearOfDay (d : Int) : Int :=
  let y := d * 400 / 146097
  if d < daysBeforeYear y then y - 1
  else if daysBeforeYear (y + 1) ≤ d then y + 1
  else y

/-- Which part a day falls into, of parts that follow each other with these lengths, and how
many days before it are in that part. -/
def splitDays : List Nat → Nat → Nat × Nat
  | [], n => (0, n)
  | l :: ls, n => if n < l then (0, n) else let (i, r) := splitDays ls (n - l); (i + 1, r)

structure Civil where
  year : Int
  month : Nat
  day : Nat
  hour : Nat
  minute : Nat
  /-- 60 in a leap second. -/
  second : Nat
  nano : Nat
  deriving DecidableEq, Repr

namespace Instant

def civil (t : Instant) : Civil :=
  let d := t.second / 86400 + epochDay
  let s := (t.second % 86400).toNat
  let y := yearOfDay d
  let (m, r) := splitDays (monthLengths y) (d - daysBeforeYear y).toNat
  let leap := 1000000000 ≤ t.nano
  { year := y, month := m + 1, day := r + 1, hour := s / 3600, minute := s / 60 % 60
    second := s % 60 + (if leap then 1 else 0)
    nano := if leap then t.nano - 1000000000 else t.nano }

/-- The instant at a date and time that are `offset` seconds ahead. The date there has to be
in range as well. -/
def ofCivil? (c : Civil) (offset : Int) : Option Instant :=
  let lengths := monthLengths c.year
  if -262143 ≤ c.year ∧ c.year ≤ 262142 ∧ 1 ≤ c.month ∧ c.month ≤ 12 ∧ 1 ≤ c.day ∧
      c.day ≤ lengths.getD (c.month - 1) 0 ∧ c.hour < 24 ∧ c.minute < 60 ∧ c.second ≤ 60 ∧
      c.nano < 1000000000 ∧ -86400 < offset ∧ offset < 86400 then
    let d := daysBeforeYear c.year + (lengths.take (c.month - 1)).foldl Nat.add 0 + (c.day - 1) - epochDay
    let leap := c.second == 60
    let s : Int := c.hour * 3600 + c.minute * 60 + (if leap then 59 else c.second)
    of? (d * 86400 + s - offset) (if leap then c.nano + 1000000000 else c.nano)
  else none

/-! ## Writing -/

/-- The decimal digits of `n` with zeros in front up to `width` of them. -/
def padded (width n : Nat) : List Char :=
  let ds := Binary64.digitsOf n
  List.replicate (width - ds.length) '0' ++ ds

def yearChars (y : Int) : List Char :=
  if 0 ≤ y ∧ y ≤ 9999 then padded 4 y.toNat
  else (if y < 0 then '-' else '+') :: padded 4 y.natAbs

def fractionChars (nano : Nat) : List Char :=
  if nano = 0 then []
  else if nano % 1000000 = 0 then '.' :: padded 3 (nano / 1000000)
  else if nano % 1000 = 0 then '.' :: padded 6 (nano / 1000)
  else '.' :: padded 9 nano

def chars (t : Instant) : List Char :=
  let c := t.civil
  yearChars c.year ++ ['-'] ++ padded 2 c.month ++ ['-'] ++ padded 2 c.day ++ ['T'] ++
    padded 2 c.hour ++ [':'] ++ padded 2 c.minute ++ [':'] ++ padded 2 c.second ++
    fractionChars c.nano ++ ['Z']

def text (t : Instant) : String := String.ofList t.chars

end Instant
end DeviceEvents
