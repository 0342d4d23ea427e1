/-
  DeviceEvents.Simulation.Clock — a virtual clock for one worker that is cancelled some time.

  The clock moves only while the worker rests. What is due at the moment of the cancellation
  still comes before it.
-/

namespace DeviceEvents.Simulation

structure Clock where
  /-- In milliseconds. -/
  now : Nat
  cancelAt : Option Nat

namespace Clock

/-- Cancelled before now, or before the beginning. -/
def isCancelled (c : Clock) : Bool := c.cancelAt.any fun t => decide (t < c.now ∨ t = 0)

/-- Rests for some milliseconds, unless a cancellation comes before they are over. -/
def rest (c : Clock) (ms : Nat) : Bool × Clock :=
  match c.cancelAt with
  | some t =>
    if t < c.now + ms then (false, { c with now := max c.now t })
    else (true, { c with now := c.now + ms })
  | none => (true, { c with now := c.now + ms })

end Clock
end DeviceEvents.Simulation
