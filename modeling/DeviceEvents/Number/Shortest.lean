import DeviceEvents.Number.Binary64
/-
  DeviceEvents.Number.Shortest — the text of a double: the fewest digits that read back.

  A decimal reads back as `x` when it lies between the midpoints to the doubles beside `x`,
  the midpoints included when the mantissa of `x` is even. On the grid of `n` significant
  digits only the two neighbours of `x` need a test: if any point of the grid lies in the
  interval, one of them does. The first grid with a hit wins, of two hits the nearer one, of
  two equally near the even one.
-/

namespace DeviceEvents.Binary64

/-- `digits · 10 ^ exponent`. -/
structure Decimal where
  digits : Nat
  exponent : Int
  deriving DecidableEq, Repr

/-- `m · 2 ^ q · 10 ^ -k` as a quotient of natural numbers. -/
def overPowTen (m : Nat) (q k : Int) : Nat × Nat :=
  let (n, d) := shifted m 1 q
  if 0 ≤ k then (n, d * Nat.pow 10 k.toNat) else (n * Nat.pow 10 (-k).toNat, d)

/-- The place of the first significant digit: `10 ^ k ≤ m · 2 ^ q < 10 ^ (k + 1)`, `m` positive. -/
def leadingPlace (m : Nat) (q : Int) : Int :=
  let k := (((m.log2 : Int) + q) * 30103).fdiv 100000
  let (n, d) := overPowTen m q (k + 1)
  if d ≤ n then k + 1
  else
    let (n, d) := overPowTen m q k
    if n < d then k - 1 else k

/-- The points that decide whether a decimal reads back as `m · 2 ^ q`, in quarters of
`2 ^ q`. The double below a power of two is only half as far away. -/
def bounds (m : Nat) (q : Int) : Nat × Nat :=
  (if m = 0x10000000000000 ∧ -1074 < q then 4 * m - 1 else 4 * m - 2, 4 * m + 2)

/-- Does `s · 10 ^ k` read back as `m · 2 ^ q`? -/
def readsBack (m : Nat) (q : Int) (s : Nat) (k : Int) : Bool :=
  let (lo, hi) := bounds m q
  let (nlo, d) := overPowTen lo (q - 2) k
  let (nhi, _) := overPowTen hi (q - 2) k
  if m % 2 = 0 then nlo ≤ s * d && s * d ≤ nhi else nlo < s * d && s * d < nhi

/-- The neighbours of `m · 2 ^ q` on the grid of step `10 ^ k` that read back, the nearer one
of two. -/
def onGrid? (m : Nat) (q k : Int) : Option Nat :=
  let (n, d) := overPowTen m q k
  let s := n / d
  let below := readsBack m q s k
  let above := readsBack m q (s + 1) k
  if below && above then
    let r := n % d
    if 2 * r < d ∨ (2 * r = d ∧ s % 2 = 0) then some s else some (s + 1)
  else if below then some s
  else if above then some (s + 1)
  else none

def shortestFrom (m : Nat) (q place : Int) : Nat → Nat → Decimal
  | 0, n => ⟨((onGrid? m q (place - n + 1)).getD 0), place - n + 1⟩
  | fuel + 1, n =>
    match onGrid? m q (place - n + 1) with
    | some s => ⟨s, place - n + 1⟩
    | none => shortestFrom m q place fuel (n + 1)

/-- The shortest decimal that reads back as the positive double `m · 2 ^ q`. Seventeen digits
always do. -/
def shortest (m : Nat) (q : Int) : Decimal := shortestFrom m q (leadingPlace m q) 16 1

/-- How a number is laid out around its digits. -/
structure Layout where
  /-- Least power of ten of the first digit that is written without an exponent. -/
  least : Int
  /-- Greatest such power of ten. -/
  greatest : Int
  /-- Between the digits and the exponent. -/
  mark : List Char
  /-- In front of an exponent that is not negative. -/
  plus : List Char
  /-- Behind a whole number without an exponent. -/
  wholeTail : List Char

/-- Numbers from 1e-5 up to 1e16 are written out, whole ones with `.0`; the others as one
digit, the rest after a point, and a signed exponent. -/
def plainLayout : Layout := ⟨-5, 15, ['e'], ['+'], ['.', '0']⟩

def digitsOf (n : Nat) : List Char := Nat.toDigits 10 n

def trimZeros (ds : List Char) : List Char := (ds.reverse.dropWhile (· == '0')).reverse

/-- The digits `ds` with the point after the first `point` of them, for a positive number. -/
def lay (l : Layout) (ds : List Char) (point : Int) : List Char :=
  let e := point - 1
  if l.least ≤ e ∧ e ≤ l.greatest then
    if (ds.length : Int) ≤ point then ds ++ List.replicate (point - ds.length).toNat '0' ++ l.wholeTail
    else if 0 < point then ds.take point.toNat ++ ['.'] ++ ds.drop point.toNat
    else ['0', '.'] ++ List.replicate (-point).toNat '0' ++ ds
  else
    let head := ds.take 1
    let tail := ds.drop 1
    let fraction := if tail.isEmpty then [] else '.' :: tail
    let power := if 0 ≤ e then l.plus ++ digitsOf e.toNat else '-' :: digitsOf (-e).toNat
    head ++ fraction ++ l.mark ++ power

def layDecimal (l : Layout) (d : Decimal) : List Char :=
  let ds := digitsOf d.digits
  lay l (trimZeros ds) (d.exponent + ds.length)

/-- The text of a finite double. -/
def text (l : Layout) (x : Binary64) : List Char :=
  let sign := if x.isNegative then ['-'] else []
  if x.mantissa = 0 then sign ++ ['0'] ++ l.wholeTail
  else sign ++ layDecimal l (shortest x.mantissa x.exponent)

end DeviceEvents.Binary64
