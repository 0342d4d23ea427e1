import DeviceEvents.Instant.Civil
/-
  DeviceEvents.Text.Duration — spans of time for messages.

  In the greatest unit of seconds, milliseconds, microseconds and nanoseconds that is not
  more than the span, with as many decimals as are exact.
-/

namespace DeviceEvents.Text

/-- `n` parts of `unit`, `width` decimals wide. -/
def inUnits (n unit width : Nat) (name : String) : String :=
  let decimals := Binary64.trimZeros (Instant.padded width (n % unit))
  let fraction := if decimals.isEmpty then [] else '.' :: decimals
  String.ofList (Binary64.digitsOf (n / unit) ++ fraction) ++ name

def duration (nanos : Nat) : String :=
  if 1000000000 ≤ nanos then inUnits nanos 1000000000 9 "s"
  else if 1000000 ≤ nanos then inUnits nanos 1000000 6 "ms"
  else if 1000 ≤ nanos then inUnits nanos 1000 3 "µs"
  else inUnits nanos 1 0 "ns"

end DeviceEvents.Text
