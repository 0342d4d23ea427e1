import DeviceEvents.Text.Natural
/-
  DeviceEvents.Receiver.BrokerAddress — where an MQTT broker listens.

  Written as `host` or `host:port`, with any number of `mqtt://` and then of `tcp://` in
  front. The port is 1883 unless given.
-/

namespace DeviceEvents

structure BrokerAddress where
  host : String
  port : UInt16
  deriving DecidableEq, Repr

namespace BrokerAddress

inductive Fault where
  | invalidPort (port : String)
  | invalidFormat (address : String)
  deriving DecidableEq, Repr

def Fault.message : Fault → String
  | .invalidPort p => "invalid port in broker URL: " ++ p
  | .invalidFormat a => "invalid broker URL format: " ++ a

def defaultPort : UInt16 := 1883

/-- Without a scheme in front, however often it stands there. -/
def stripScheme (scheme : List Char) (cs : List Char) : List Char :=
  if _ : scheme ≠ [] ∧ scheme.isPrefixOf cs then stripScheme scheme (cs.drop scheme.length) else cs
  termination_by cs.length
  decreasing_by
    rename_i h
    have hs : 0 < scheme.length := List.length_pos_iff.2 h.1
    have := (List.isPrefixOf_iff_prefix.1 h.2).length_le
    rw [List.length_drop]
    omega

/-- The parts between separators, always one more than there are separators. -/
def splitAt (sep : Char) : List Char → List (List Char)
  | [] => [[]]
  | c :: cs =>
    if c = sep then [] :: splitAt sep cs
    else match splitAt sep cs with
      | [] => [[c]]
      | p :: ps => (c :: p) :: ps

def port? (cs : List Char) : Option UInt16 := (Text.naturalBelow? 65536 cs).map UInt16.ofNat

def schemes : List (List Char) := [['m', 'q', 't', 't', ':', '/', '/'], ['t', 'c', 'p', ':', '/', '/']]

def parse (url : String) : Except Fault BrokerAddress :=
  let cs := schemes.foldl (fun cs scheme => stripScheme scheme cs) url.toList
  match splitAt ':' cs with
  | [c :: host] => .ok ⟨String.ofList (c :: host), defaultPort⟩
  | [c :: host, port] =>
    match port? port with
    | some p => .ok ⟨String.ofList (c :: host), p⟩
    | none => .error (.invalidPort (String.ofList port))
  | _ => .error (.invalidFormat (String.ofList cs))

end BrokerAddress
end DeviceEvents
