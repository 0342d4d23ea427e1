/-
  DeviceEvents.Text.Natural — natural numbers in decimal digits, with a plus in front or not.
-/

namespace DeviceEvents.Text

/-- The number that decimal digits write after those of `n`. -/
def naturalFrom? (n : Nat) : List Char → Option Nat
  | [] => some n
  | c :: cs => if c.isDigit then naturalFrom? (n * 10 + (c.toNat - 48)) cs else none

def natural? : List Char → Option Nat
  | '+' :: c :: cs => naturalFrom? 0 (c :: cs)
  | c :: cs => naturalFrom? 0 (c :: cs)
  | [] => none

/-- A natural number below `bound`. -/
def naturalBelow? (bound : Nat) (cs : List Char) : Option Nat :=
  (natural? cs).filter (· < bound)

end DeviceEvents.Text
