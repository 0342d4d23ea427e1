/-
  DeviceEvents.Text.Blank — white space at the edges of a text.

  A character is blank when it has the property White_Space. Tokens, topics and dates are
  trimmed of blanks at their edges; a text of blanks only counts as empty.
-/

namespace DeviceEvents.Text

/-- The characters with the property White_Space. -/
def isBlank (c : Char) : Bool :=
  let n := c.toNat
  (0x9 ≤ n && n ≤ 0xd) || n == 0x20 || n == 0x85 || n == 0xa0 || n == 0x1680 ||
    (0x2000 ≤ n && n ≤ 0x200a) || n == 0x2028 || n == 0x2029 || n == 0x202f || n == 0x205f ||
    n == 0x3000

def trimStart (cs : List Char) : List Char := cs.dropWhile isBlank

def trimEnd (cs : List Char) : List Char := (cs.reverse.dropWhile isBlank).reverse

/-- Without the blanks at either end. -/
def trim (s : String) : String := String.ofList (trimEnd (trimStart s.toList))

/-- Holds blanks only, or nothing. -/
def allBlank (s : String) : Bool := s.toList.all isBlank

/-- The Latin capital letters lowered, every other character kept. -/
def lowerAscii (s : String) : String := String.ofList (s.toList.map Char.toLower)

end DeviceEvents.Text
