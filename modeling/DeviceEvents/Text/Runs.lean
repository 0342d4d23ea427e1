/-
  DeviceEvents.Text.Runs — sets of code points by the places where runs of them begin and end.
-/

namespace DeviceEvents.Text

/-- Is `n` in a run? The bounds ascend: the first point of a run, the first one behind it, and
so on. -/
def inRuns (bounds : Array Nat) (n : Nat) : Bool :=
  bounds.foldl (fun inside b => if b ≤ n then !inside else inside) false

end DeviceEvents.Text
