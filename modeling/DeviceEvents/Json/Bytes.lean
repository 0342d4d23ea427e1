import DeviceEvents.Json.Reader
import DeviceEvents.Text.Utf8
/-
  DeviceEvents.Json.Bytes — typed values from bytes that need not be well-formed text.

  A gap in the text is a fault, except inside a string: that string has no value, but a reader
  that wants none from it passes over it.
-/

namespace DeviceEvents.Json

variable {α : Type}

/-- Past a gap, where that is possible. -/
def Scan.spoiled? : Scan → Option Scan
  | .text p => some (.text { p with lone := true })
  | _ => none

/-- The tokens up to a gap. -/
def Scan.broken : Scan → List Token
  | .word w => ofWord w.reverse ++ [.fault]
  | _ => [.fault]

def scanGappedFrom (s : Scan) : List (Option Char) → List Token
  | [] => s.finish
  | some c :: cs =>
    match s.next c with
    | some (s, ts) => ts ++ scanGappedFrom s cs
    | none => [.fault]
  | none :: cs =>
    match s.spoiled? with
    | some s => scanGappedFrom s cs
    | none => s.broken

def scanBytes (b : ByteArray) : List Token := scanGappedFrom .between (Text.characters b.toList)

/-- The whole of the bytes, with nothing but blanks behind the value. -/
def Reader.runBytes (r : Reader α) (b : ByteArray) : Except Fault α := r.runTokens (scanBytes b)

end DeviceEvents.Json
