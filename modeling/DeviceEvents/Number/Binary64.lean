/-
  DeviceEvents.Number.Binary64 — double precision numbers by their bits.

  Arithmetic is exact on natural numbers and rounds once, to the nearest double, ties to the
  even one. A finite double is `± mantissa · 2 ^ exponent`.
-/

namespace DeviceEvents

structure Binary64 where
  bits : UInt64
  deriving DecidableEq, Repr

namespace Binary64

def isNegative (x : Binary64) : Bool := x.bits.toNat / 0x8000000000000000 == 1

/-- The eleven bits of the exponent. -/
def exponentField (x : Binary64) : Nat := x.bits.toNat / 0x10000000000000 % 2048

def fractionField (x : Binary64) : Nat := x.bits.toNat % 0x10000000000000

def isFinite (x : Binary64) : Bool := x.exponentField != 2047

def mantissa (x : Binary64) : Nat :=
  if x.exponentField = 0 then x.fractionField else x.fractionField + 0x10000000000000

def exponent (x : Binary64) : Int :=
  if x.exponentField = 0 then -1074 else (x.exponentField : Int) - 1075

def ofBits (negative : Bool) (magnitude : Nat) : Binary64 :=
  ⟨UInt64.ofNat (if negative then 0x8000000000000000 + magnitude else magnitude)⟩

def infinityBits : Nat := 2047 * 0x10000000000000

def zero (negative : Bool) : Binary64 := ofBits negative 0

def neg (x : Binary64) : Binary64 := ⟨x.bits ^^^ 0x8000000000000000⟩

/-- The quotient rounded to the nearest natural number, a tie to the even one. -/
def roundDiv (num den : Nat) : Nat :=
  let f := num / den
  let r := num % den
  if den < 2 * r ∨ (2 * r = den ∧ f % 2 = 1) then f + 1 else f

/-- `num / den · 2 ^ e` as a quotient of natural numbers. -/
def shifted (num den : Nat) (e : Int) : Nat × Nat :=
  if 0 ≤ e then (num * Nat.pow 2 e.toNat, den) else (num, den * Nat.pow 2 (-e).toNat)

/-- The exponent at which `num / den`, both positive, has 53 binary digits before the point,
or the least exponent of a double if that is more. -/
def fittingExponent (num den : Nat) : Int :=
  let q : Int := (num.log2 : Int) - (den.log2 : Int) - 53
  let (n, d) := shifted num den (-q)
  let q := if n / d < 0x20000000000000 then q else q + 1
  max q (-1074)

/-- The double nearest to `± num / den`, infinite when it lies beyond the largest one. -/
def ofRatio (negative : Bool) (num den : Nat) : Binary64 :=
  if num = 0 then zero negative
  else
    let q := fittingExponent num den
    let (n, d) := shifted num den (-q)
    let magnitude := roundDiv n d + (q + 1074).toNat * 0x10000000000000
    ofBits negative (min magnitude infinityBits)

def ofNat (n : Nat) : Binary64 := ofRatio false n 1

def ofInt (i : Int) : Binary64 := ofRatio (i < 0) i.natAbs 1

def mul (x y : Binary64) : Binary64 :=
  let (n, d) := shifted (x.mantissa * y.mantissa) 1 (x.exponent + y.exponent)
  ofRatio (x.isNegative != y.isNegative) n d

/-- The quotient of finite doubles, the second not zero. -/
def div (x y : Binary64) : Binary64 :=
  let (n, d) := shifted x.mantissa y.mantissa (x.exponent - y.exponent)
  ofRatio (x.isNegative != y.isNegative) n d

/-- The double nearest to `10 ^ n`. -/
def powTen (n : Nat) : Binary64 := ofNat (Nat.pow 10 n)

end Binary64
end DeviceEvents
