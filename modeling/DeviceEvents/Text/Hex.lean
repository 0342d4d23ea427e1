/-
  DeviceEvents.Text.Hex — numbers and bytes in hexadecimal digits.
-/

namespace DeviceEvents.Text

def hexDigit (n : Nat) : Char :=
  if n < 10 then Char.ofNat (48 + n) else Char.ofNat (87 + n)

def hexValue? (c : Char) : Option Nat :=
  let n := c.toNat
  if 48 ≤ n ∧ n ≤ 57 then some (n - 48)
  else if 97 ≤ n ∧ n ≤ 102 then some (n - 87)
  else if 65 ≤ n ∧ n ≤ 70 then some (n - 55)
  else none

theorem hexValue?_hexDigit : ∀ n < 16, hexValue? (hexDigit n) = some n := by decide

/-- The last `width` hexadecimal digits of `n`. -/
def toHex : Nat → Nat → List Char
  | 0, _ => []
  | width + 1, n => toHex width (n / 16) ++ [hexDigit (n % 16)]

/-- The number that hexadecimal digits write after those of `acc`. -/
def ofHexFrom? (acc : Nat) : List Char → Option Nat
  | [] => some acc
  | c :: cs => do ofHexFrom? (acc * 16 + (← hexValue? c)) cs

def ofHex? (cs : List Char) : Option Nat := ofHexFrom? 0 cs

theorem length_toHex (width n : Nat) : (toHex width n).length = width := by
  induction width generalizing n with
  | zero => rfl
  | succ w ih => simp [toHex, ih]

theorem ofHexFrom?_append (acc : Nat) (a b : List Char) :
    ofHexFrom? acc (a ++ b) = (ofHexFrom? acc a).bind (ofHexFrom? · b) := by
  induction a generalizing acc with
  | nil => rfl
  | cons c cs ih =>
    simp only [List.cons_append, ofHexFrom?]
    cases hexValue? c <;> simp [ih]

theorem ofHexFrom?_toHex (acc width n : Nat) (h : n < Nat.pow 16 width) :
    ofHexFrom? acc (toHex width n) = some (acc * Nat.pow 16 width + n) := by
  induction width generalizing n with
  | zero => simp_all [toHex, ofHexFrom?]
  | succ w ih =>
    have hw : n / 16 < Nat.pow 16 w := (Nat.div_lt_iff_lt_mul (by decide)).2 h
    simp only [toHex, ofHexFrom?_append, ih _ hw, Option.bind_some, ofHexFrom?,
      hexValue?_hexDigit _ (Nat.mod_lt n (by decide))]
    simp only [Option.bind_eq_bind, Option.bind_some, Option.some.injEq]
    have := Nat.div_add_mod n 16
    rw [Nat.add_mul, Nat.mul_assoc, show Nat.pow 16 (w + 1) = Nat.pow 16 w * 16 from rfl]
    omega

/-- The fewest hexadecimal digits of `n`, at least one. -/
def hexOf (n : Nat) : List Char := Nat.toDigits 16 n

def hexOfBytes (b : ByteArray) : String :=
  String.ofList (b.toList.flatMap fun x => toHex 2 x.toNat)

/-- The bytes that pairs of hexadecimal digits write. -/
def bytesOfHex? : List Char → Option (List UInt8)
  | [] => some []
  | a :: b :: cs => do
    let n ← ofHex? [a, b]
    return UInt8.ofNat n :: (← bytesOfHex? cs)
  | [_] => none

end DeviceEvents.Text
