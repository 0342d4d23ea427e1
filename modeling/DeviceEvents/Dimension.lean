import DeviceEvents.Text.Blank
/-
  DeviceEvents.Dimension — what events are indexed by.
-/

namespace DeviceEvents

inductive Dimension where
  | assignment
  | customer
  | area
  | asset
  deriving DecidableEq, Repr

namespace Dimension

def all : List Dimension := [.assignment, .customer, .area, .asset]

def name : Dimension → String
  | .assignment => "assignment"
  | .customer => "customer"
  | .area => "area"
  | .asset => "asset"

/-- The variant's name where a value is shown as such. -/
def title : Dimension → String
  | .assignment => "Assignment"
  | .customer => "Customer"
  | .area => "Area"
  | .asset => "Asset"

def rank : Dimension → Nat
  | .assignment => 0
  | .customer => 1
  | .area => 2
  | .asset => 3

instance : Ord Dimension := ⟨fun a b => compare a.rank b.rank⟩

def plainName (s : String) : String := Text.lowerAscii (Text.trim s)

/-- By its name in any case, with blanks around it. -/
def parse? (s : String) : Option Dimension := all.find? (·.name == plainName s)

def unknownText (s : String) : String := "unknown index dimension: " ++ plainName s

end Dimension
end DeviceEvents
