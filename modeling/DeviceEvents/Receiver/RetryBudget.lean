/-
  DeviceEvents.Receiver.RetryBudget — how often in a row a connection may fail.
-/

namespace DeviceEvents

/-- Consecutive failures, and the number of them that ends the attempts. -/
structure RetryBudget where
  failures : Nat
  limit : Nat
  deriving DecidableEq, Repr

namespace RetryBudget

def ofLimit (limit : Nat) : RetryBudget := ⟨0, limit⟩

/-- A connection came about: the count starts over. -/
def connected (b : RetryBudget) : RetryBudget := { b with failures := 0 }

def failed (b : RetryBudget) : RetryBudget := { b with failures := b.failures + 1 }

def isUsedUp (b : RetryBudget) : Bool := decide (b.limit ≤ b.failures)

end RetryBudget
end DeviceEvents
