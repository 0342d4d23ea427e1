import DeviceEvents.Search
/-
  DeviceEvents.Store.Pager — one page of a sequence that arrives in pieces.

  Every item is counted, only those of the page are kept.
-/

namespace DeviceEvents

structure Pager (α : Type) where
  offset : Nat
  limit? : Option Nat
  seen : Nat
  /-- In reverse. -/
  kept : List α

namespace Pager

variable {α : Type}

def ofPage (p : Page) : Pager α := ⟨p.offset, p.limit?, 0, []⟩

def takes (p : Pager α) (i : Nat) : Bool := p.offset ≤ i && p.limit?.all (fun l => decide (i < l))

def process (p : Pager α) (a : α) : Pager α :=
  { p with seen := p.seen + 1, kept := if p.takes p.seen then a :: p.kept else p.kept }

def extend (p : Pager α) (as : List α) : Pager α := as.foldl process p

def results (p : Pager α) : Results α := ⟨p.kept.reverse, p.seen⟩

end Pager
end DeviceEvents
