import DeviceEvents.Text.Hex
import DeviceEvents.Text.Printable
/-
  DeviceEvents.Text.Quoted — a text between double quotes for a message.

  A quote and a backslash get a backslash, NUL, tab, line feed and carriage return their
  letter, and any other character that is not printable its code point in braces.
-/

namespace DeviceEvents.Text

def quotedChar (c : Char) : List Char :=
  match c with
  | '\x00' => ['\\', '0']
  | '\t' => ['\\', 't']
  | '\n' => ['\\', 'n']
  | '\r' => ['\\', 'r']
  | '"' => ['\\', '"']
  | '\\' => ['\\', '\\']
  | c =>
    if isPrintable c then [c]
    else ['\\', 'u', '\x7b'] ++ hexOf c.toNat ++ ['\x7d']

def quoted (s : String) : String :=
  String.ofList (['"'] ++ s.toList.flatMap quotedChar ++ ['"'])

end DeviceEvents.Text
