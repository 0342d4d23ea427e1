/-
  DeviceEvents.Text.Utf8 — bytes read as text that need not be well-formed.

  Bytes are read as characters with gaps where they are none. One gap stands for each longest
  run of bytes that begins a well-formed sequence, or for one byte that begins none.
-/

namespace DeviceEvents.Text

def isContinuation (b : UInt8) : Bool := 0x80 ≤ b && b ≤ 0xbf

/-- May `b` follow the lead byte of a sequence of three? It may not where it would spell an
overlong form or a surrogate. -/
def secondOfThree (lead b : UInt8) : Bool :=
  if lead == 0xe0 then 0xa0 ≤ b && b ≤ 0xbf
  else if lead == 0xed then 0x80 ≤ b && b ≤ 0x9f
  else isContinuation b

/-- May `b` follow the lead byte of a sequence of four? -/
def secondOfFour (lead b : UInt8) : Bool :=
  if lead == 0xf0 then 0x90 ≤ b && b ≤ 0xbf
  else if lead == 0xf4 then 0x80 ≤ b && b ≤ 0x8f
  else isContinuation b

def tail6 (b : UInt8) : Nat := b.toNat % 64

def characters : List UInt8 → List (Option Char)
  | [] => []
  | a :: rest =>
    if a < 0x80 then some (Char.ofNat a.toNat) :: characters rest
    else if 0xc2 ≤ a && a ≤ 0xdf then
      match rest with
      | b :: rest' =>
        if isContinuation b then some (Char.ofNat (a.toNat % 32 * 64 + tail6 b)) :: characters rest'
        else none :: characters (b :: rest')
      | [] => [none]
    else if 0xe0 ≤ a && a ≤ 0xef then
      match rest with
      | b :: rest' =>
        if secondOfThree a b then
          match rest' with
          | c :: rest'' =>
            if isContinuation c then
              some (Char.ofNat (a.toNat % 16 * 4096 + tail6 b * 64 + tail6 c)) :: characters rest''
            else none :: characters (c :: rest'')
          | [] => [none]
        else none :: characters (b :: rest')
      | [] => [none]
    else if 0xf0 ≤ a && a ≤ 0xf4 then
      match rest with
      | b :: rest' =>
        if secondOfFour a b then
          match rest' with
          | c :: rest'' =>
            if isContinuation c then
              match rest'' with
              | d :: rest''' =>
                if isContinuation d then
                  some (Char.ofNat (a.toNat % 8 * 262144 + tail6 b * 4096 + tail6 c * 64 + tail6 d)) ::
                    characters rest'''
                else none :: characters (d :: rest''')
              | [] => [none]
            else none :: characters (c :: rest'')
          | [] => [none]
        else none :: characters (b :: rest')
      | [] => [none]
    else none :: characters rest

/-- What stands for a gap. -/
def replacement : Char := '\uFFFD'

/-- The text of bytes, gaps replaced. -/
def ofUtf8Lossy (b : ByteArray) : String :=
  String.ofList ((characters b.toList).map (·.getD replacement))

end DeviceEvents.Text
