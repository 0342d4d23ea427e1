import DeviceEvents.Number.Shortest
/-
  DeviceEvents.Number.Numeral — numbers as they are written: a sign, whole digits, a
  fraction, an exponent.

  A numeral without fraction and exponent that fits 64 bits is an integer (signed below
  zero, unsigned above). Every other one is a double, made in two roundings: the digits that
  fit an unsigned word of 64 bits are taken as a whole number, and that is multiplied or
  divided once by a power of ten. Digits of the fraction behind those are dropped, whole
  digits behind them count as powers of ten. A number beyond the largest double has no value.
-/

namespace DeviceEvents

/-- An integer of 64 bits, or a double. -/
inductive Number where
  | int (i : Int)
  | real (x : Binary64)
  deriving DecidableEq, Repr

namespace Number

def toBinary64 : Number → Binary64
  | .int i => .ofInt i
  | .real x => x

def text : Number → List Char
  | .int i => if i < 0 then '-' :: Binary64.digitsOf i.natAbs else Binary64.digitsOf i.natAbs
  | .real x => if x.isFinite then x.text Binary64.plainLayout else ['n', 'u', 'l', 'l']

end Number

structure Numeral where
  negative : Bool
  whole : List Nat
  fraction : List Nat
  /-- Written with a point or an exponent. -/
  decimal : Bool
  exponent : Int
  deriving DecidableEq, Repr

namespace Numeral

def wordLimit : Nat := 0x10000000000000000

/-- The number that the digits write as far as it fits a word, and the digits left over. -/
def absorb (n : Nat) : List Nat → Nat × List Nat
  | [] => (n, [])
  | d :: ds => if n * 10 + d < wordLimit then absorb (n * 10 + d) ds else (n, d :: ds)

/-- `n · 10 ^ e` by one multiplication or division with a power of ten, none when it is
infinite. Below the smallest power of ten in reach the number is first divided by `10 ^ 308`. -/
def scale (n : Nat) (e : Int) : Option Binary64 :=
  let x := Binary64.ofNat n
  if n = 0 then some (.zero false)
  else if 308 < e then none
  else if 0 ≤ e then
    let y := x.mul (.powTen e.toNat)
    if y.isFinite then some y else none
  else if -308 ≤ e then some (x.div (.powTen (-e).toNat))
  else if -616 ≤ e then some ((x.div (.powTen 308)).div (.powTen (-e - 308).toNat))
  else some (.zero false)

def toNumber? (n : Numeral) : Option Number :=
  let (w, wholeRest) := absorb 0 n.whole
  if !n.decimal && wholeRest.isEmpty && (!n.negative || (0 < w && w ≤ 0x8000000000000000)) then
    some (.int (if n.negative then -(w : Int) else w))
  else
    let (s, fractionRest) := absorb w n.fraction
    let e := n.exponent + wholeRest.length - (n.fraction.length - fractionRest.length)
    (scale s e).map fun x => .real (if n.negative then x.neg else x)

/-! ## Reading -/

def digit? (c : Char) : Option Nat :=
  if '0' ≤ c ∧ c ≤ '9' then some (c.toNat - 48) else none

/-- The digits at the front, and what follows them. -/
def digits : List Char → List Nat × List Char
  | [] => ([], [])
  | c :: cs =>
    match digit? c with
    | some d => let (ds, rest) := digits cs; (d :: ds, rest)
    | none => ([], c :: cs)

def ofDigits (ds : List Nat) : Nat := ds.foldl (fun n d => n * 10 + d) 0

/-- The whole part: a single zero, or digits that do not begin with zero. -/
def readWhole (cs : List Char) : Option (List Nat × List Char) :=
  match digits cs with
  | ([], _) => none
  | ([0], rest) => some ([0], rest)
  | (0 :: _, _) => none
  | r => some r

/-- A point and at least one digit, if there is a point. -/
def readFraction (cs : List Char) : Option (Option (List Nat) × List Char) :=
  match cs with
  | '.' :: rest =>
    match digits rest with
    | ([], _) => none
    | (ds, rest) => some (some ds, rest)
  | _ => some (none, cs)

/-- The letter `e` in either case, a sign if any, and at least one digit, if there is an `e`. -/
def readExponent (cs : List Char) : Option (Option Int × List Char) :=
  match cs with
  | c :: rest =>
    if c = 'e' ∨ c = 'E' then
      let (minus, rest) :=
        match rest with
        | '+' :: r => (false, r)
        | '-' :: r => (true, r)
        | r => (false, r)
      match digits rest with
      | ([], _) => none
      | (ds, rest) =>
        let n : Int := ofDigits ds
        some (some (if minus then -n else n), rest)
    else some (none, cs)
  | [] => some (none, [])

/-- The numeral at the front of a text, and what follows it. -/
def read (cs : List Char) : Option (Numeral × List Char) := do
  let (negative, cs) := match cs with
    | '-' :: r => (true, r)
    | r => (false, r)
  let (whole, cs) ← readWhole cs
  let (fraction, cs) ← readFraction cs
  let (exponent, cs) ← readExponent cs
  return (⟨negative, whole, fraction.getD [], fraction.isSome || exponent.isSome, exponent.getD 0⟩, cs)

end Numeral
end DeviceEvents
