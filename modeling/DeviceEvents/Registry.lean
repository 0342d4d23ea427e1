import DeviceEvents.Assignment
import DeviceEvents.Json.Bytes
import DeviceEvents.Table
/-
  DeviceEvents.Registry — device assignments in memory.

  The last version of every assignment is kept by its id. By device token the id is kept of
  the assignment that was last inserted as active under that token, until the same assignment
  is inserted under that token as not active.
-/

namespace DeviceEvents

open Json

structure Registry where
  versions : Table Uuid Assignment
  activeIds : Table String Uuid

namespace Registry

def empty : Registry := ⟨.empty, .empty⟩

def markActive (ids : Table String Uuid) (a : Assignment) : Table String Uuid :=
  if a.isActive then ids.insert a.deviceToken a.id
  else if ids.get? a.deviceToken = some a.id then ids.erase a.deviceToken
  else ids

def insert (r : Registry) (a : Assignment) : Registry :=
  ⟨r.versions.insert a.id a, markActive r.activeIds a⟩

def ofList (as : List Assignment) : Registry := as.foldl insert empty

def get? (r : Registry) (id : Uuid) : Option Assignment := r.versions.get? id

def active? (r : Registry) (token : String) : Option Assignment :=
  (r.activeIds.get? token).bind r.get?

def size (r : Registry) : Nat := r.versions.size

/-! ## From a file -/

/-- Why an assignments file at `path` was not loaded. -/
inductive LoadFault where
  | unreadable (path : String)
  | invalid (path : String) (f : Fault)

def LoadFault.message : LoadFault → String
  | .unreadable p => "failed to read assignments from " ++ p
  | .invalid p _ => "invalid assignments file " ++ p

/-- From the bytes of the file, where there is one. -/
def ofFile (path : String) : Option ByteArray → Except LoadFault Registry
  | none => .error (.unreadable path)
  | some bytes =>
    match Assignment.listReader.runBytes bytes with
    | .ok as => .ok (ofList as)
    | .error f => .error (.invalid path f)

end Registry
end DeviceEvents
