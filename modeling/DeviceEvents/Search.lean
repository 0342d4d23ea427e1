import DeviceEvents.Instant.Basic
/-
  DeviceEvents.Search — what a query asks for: a range of dates and a page.

  A range includes both of its ends, and either may be open. Pages count from 1; size 0
  stands for everything.
-/

namespace DeviceEvents

structure DateRange where
  start : Option Instant
  stop : Option Instant
  deriving DecidableEq

namespace DateRange

def between (start stop : Instant) : DateRange := ⟨some start, some stop⟩

def contains (r : DateRange) (t : Instant) : Bool :=
  r.start.all (fun s => decide (s ≤ t)) && r.stop.all (fun s => decide (t ≤ s))

/-- Starts after its end. -/
def isInverted (r : DateRange) : Bool :=
  match r.start, r.stop with
  | some s, some e => decide (e < s)
  | _, _ => false

end DateRange

structure Page where
  number : UInt32
  size : UInt32
  deriving DecidableEq, Repr

namespace Page

def first : Page := ⟨1, 100⟩

def all : Page := ⟨1, 0⟩

/-- How many results come before the page. -/
def offset (p : Page) : Nat := (max p.number.toNat 1 - 1) * p.size.toNat

/-- Where the page ends, unless it holds everything. -/
def limit? (p : Page) : Option Nat :=
  if p.size = 0 then none else some (p.offset + p.size.toNat)

end Page

structure Results (α : Type) where
  results : List α
  total : Nat
  deriving DecidableEq, Repr

def Results.empty {α : Type} : Results α := ⟨[], 0⟩

end DeviceEvents
