import DeviceEvents.Number.Numeral
import DeviceEvents.Text.Hex
/-
  DeviceEvents.Json.Token — JSON text as a sequence of tokens.

  `scan` cuts a text into brackets, marks, strings and words, one character at a time. A word
  is a run of characters that are neither blank, mark nor quote; it has to begin with a
  literal or a numeral, and what follows that in the word is a fault. `fault` stands where
  the text stops being JSON and is always the last token. Two kinds of value are tokens
  although not every reader takes them: a number out of range (`number none`) and a string
  with half a surrogate pair (`string none`).
-/

namespace DeviceEvents.Json

inductive Token where
  | lbrace
  | rbrace
  | lbracket
  | rbracket
  | colon
  | comma
  | null
  | bool (b : Bool)
  | number (n : Option Number)
  | string (s : Option String)
  | fault
  deriving DecidableEq, Repr

/-! ## Words -/

/-- The blanks of JSON. -/
def isSpace (c : Char) : Bool := c == ' ' || c == '\t' || c == '\n' || c == '\r'

def mark? : Char → Option Token
  | '\x7b' => some .lbrace
  | '\x7d' => some .rbrace
  | '[' => some .lbracket
  | ']' => some .rbracket
  | ':' => some .colon
  | ',' => some .comma
  | _ => none

/-- What follows a value inside its word is a fault. -/
def Token.ends (t : Token) (rest : List Char) : List Token := if rest.isEmpty then [t] else [t, .fault]

def ofWord (w : List Char) : List Token :=
  match w with
  | 'n' :: 'u' :: 'l' :: 'l' :: rest => Token.null.ends rest
  | 't' :: 'r' :: 'u' :: 'e' :: rest => (Token.bool true).ends rest
  | 'f' :: 'a' :: 'l' :: 's' :: 'e' :: rest => (Token.bool false).ends rest
  | _ =>
    match Numeral.read w with
    | some (n, rest) => (Token.number n.toNumber?).ends rest
    | none => [.fault]

/-! ## Strings -/

/-- A string as far as it is read: its characters in reverse, the first half of a surrogate
pair whose second half has to follow at once, and whether a half was met alone. -/
structure Partial where
  chars : List Char
  pending : Option Nat
  lone : Bool
  deriving DecidableEq, Repr

namespace Partial

def empty : Partial := ⟨[], none, false⟩

def push (p : Partial) (c : Char) : Partial := ⟨c :: p.chars, none, p.lone || p.pending.isSome⟩

/-- The sixteen bits of an escape with four hexadecimal digits. -/
def pushUnit (p : Partial) (u : Nat) : Partial :=
  if 0xd800 ≤ u ∧ u < 0xdc00 then ⟨p.chars, some u, p.lone || p.pending.isSome⟩
  else if 0xdc00 ≤ u ∧ u < 0xe000 then
    match p.pending with
    | some h => ⟨Char.ofNat ((h - 0xd800) * 0x400 + (u - 0xdc00) + 0x10000) :: p.chars, none, p.lone⟩
    | none => ⟨p.chars, none, true⟩
  else p.push (Char.ofNat u)

def token (p : Partial) : Token :=
  if p.lone || p.pending.isSome then .string none else .string (some (String.ofList p.chars.reverse))

end Partial

/-- The character that a letter stands for behind a backslash. -/
def unescape? : Char → Option Char
  | '"' => some '"'
  | '\\' => some '\\'
  | '/' => some '/'
  | 'b' => some '\x08'
  | 'f' => some '\x0c'
  | 'n' => some '\n'
  | 'r' => some '\r'
  | 't' => some '\t'
  | _ => none

/-! ## Scanning -/

inductive Scan where
  | between
  | word (reversed : List Char)
  | text (p : Partial)
  /-- Behind a backslash. -/
  | escape (p : Partial)
  /-- Inside an escape: how many hexadecimal digits are still to come, and their value so far. -/
  | unit (p : Partial) (missing : Nat) (value : Nat)
  deriving Repr

/-- From between two tokens. -/
def Scan.enter (c : Char) : Scan × List Token :=
  if isSpace c then (.between, [])
  else if c = '"' then (.text .empty, [])
  else match mark? c with
    | some t => (.between, [t])
    | none => (.word [c], [])

/-- One character further, with the tokens that it completes. None where the text cannot be
JSON. -/
def Scan.next (s : Scan) (c : Char) : Option (Scan × List Token) :=
  match s with
  | .between => some (enter c)
  | .word w =>
    if isSpace c || c == '"' || (mark? c).isSome then
      let (s, ts) := enter c
      some (s, ofWord w.reverse ++ ts)
    else some (.word (c :: w), [])
  | .text p =>
    if c = '"' then some (.between, [p.token])
    else if c = '\\' then some (.escape p, [])
    else if c.toNat < 0x20 then none
    else some (.text (p.push c), [])
  | .escape p =>
    if c = 'u' then some (.unit p 3 0, [])
    else (unescape? c).map fun c => (.text (p.push c), [])
  | .unit p missing value =>
    (Text.hexValue? c).map fun d =>
      match missing with
      | 0 => (.text (p.pushUnit (value * 16 + d)), [])
      | m + 1 => (.unit p m (value * 16 + d), [])

def Scan.finish : Scan → List Token
  | .between => []
  | .word w => ofWord w.reverse
  | _ => [.fault]

def scanFrom (s : Scan) : List Char → List Token
  | [] => s.finish
  | c :: cs =>
    match s.next c with
    | some (s, ts) => ts ++ scanFrom s cs
    | none => [.fault]

def scan (text : String) : List Token := scanFrom .between text.toList

/-! ## Writing -/

/-- A character inside a string: quote, backslash and controls are escaped. -/
def escapeChar (c : Char) : List Char :=
  match c with
  | '"' => ['\\', '"']
  | '\\' => ['\\', '\\']
  | '\x08' => ['\\', 'b']
  | '\x0c' => ['\\', 'f']
  | '\n' => ['\\', 'n']
  | '\r' => ['\\', 'r']
  | '\t' => ['\\', 't']
  | c => if c.toNat < 0x20 then ['\\', 'u'] ++ Text.toHex 4 c.toNat else [c]

def writeString (s : String) : List Char := '"' :: s.toList.flatMap escapeChar ++ ['"']

def Token.text : Token → List Char
  | .lbrace => ['\x7b']
  | .rbrace => ['\x7d']
  | .lbracket => ['[']
  | .rbracket => [']']
  | .colon => [':']
  | .comma => [',']
  | .null | .number none | .string none | .fault => ['n', 'u', 'l', 'l']
  | .bool true => ['t', 'r', 'u', 'e']
  | .bool false => ['f', 'a', 'l', 's', 'e']
  | .number (some n) => n.text
  | .string (some s) => writeString s

def write (ts : List Token) : String := String.ofList (ts.flatMap Token.text)

end DeviceEvents.Json
