import DeviceEvents.Simulation.World
/-
  DeviceEvents.Simulation.Stores — what stores do in a simulated world.
-/

namespace DeviceEvents.Simulation

/-- The next write of a put by an id, if there is one. -/
def writeNext (p : Put) : Sim Put := do
  let m? : Option Method := match p.stage with
    | .event => some .writeEvent
    | .alternateId _ => some .writeAlternateId
    | _ => none
  match m? with
  | none => return p
  | some m => do
    let failure ← call m
    let w ← get
    let (p, rows) := p.advance w.rows failure
    set { w with rows }
    return p

/-- Writes to the index, all at once, and waits for them. -/
def writeIndexNow (limit : Option Nat) (writes : List IndexWrite) : Sim Unit := do
  let (time, inTime) := indexWriteDue (← get) limit
  if !writes.isEmpty then waitUntil time
  writes.forM fun iw => endIndexWrite iw limit inTime

def dispatch (store : Nat) (a : Assignment) (e : Event) : Sim Unit := do
  let s := (← get).settings store
  let writes := indexWrites s a e
  if s.waitsForIndex then writeIndexNow s.indexWriteLimit writes
  else modify fun w =>
    { w with jobs := w.jobs ++ writes.map fun iw => ⟨store, iw, s.indexWriteLimit, none⟩ }

def put (store : Nat) (a : Assignment) (d : Draft) : Sim (Except Trouble Event) := do
  let w ← get
  let e := d.toEvent a w.nextId w.today
  set { w with puts := w.puts + 1, looks := w.looks + 1 }
  let p ← writeNext (.ofEvent (w.settings store).tenant e)
  let p ← writeNext p
  match p.stage with
  | .failed f => return .error (.backend f)
  | _ => do
    dispatch store a e
    return .ok e

/-- One put after the other, up to the first that fails. -/
def putAll (store : Nat) (a : Assignment) : List Draft → Sim (Except Trouble (List Event))
  | [] => return .ok []
  | d :: ds => do
    match ← put store a d with
    | .error t => return .error t
    | .ok e => return (← putAll store a ds).map (e :: ·)

def getById (store : Nat) (id : Uuid) : Sim (Except Trouble (Option Event)) := do
  match ← call .readEvent with
  | some f => return .error (.backend f)
  | none =>
    let w ← get
    return .ok (w.rows.event? (w.settings store).tenant id)

def getByAlternateId (store : Nat) (a : String) : Sim (Except Trouble (Option Event)) := do
  match ← call .readAlternateId with
  | some f => return .error (.backend f)
  | none =>
    let w ← get
    match w.rows.eventId? (w.settings store).tenant a with
    | none => return .ok none
    | some id => getById store id

/-! ## Queries -/

/-- When a query is given up, and as what. -/
abbrev Limits := List (Nat × Trouble)

/-- The limit that comes first before a moment. -/
def Limits.before? (ls : Limits) (time : Nat) : Option (Nat × Trouble) :=
  ls.foldl (fun best l =>
    if l.1 < time ∧ best.all (fun b => decide (l.1 < b.1)) then some l else best) none

/-- Scans of one bucket begin together. A query that would still be waiting at one of its
limits ends there. -/
def scan (limits : Limits) : Scan (ExceptT Trouble Sim) := fun keys range => do
  let w ← get
  let time := w.clock + w.delay .scanPartition
  match limits.before? time with
  | some (limit, t) => do
    waitUntil limit
    throw t
  | none => do
    waitUntil time
    Scan.ofEach (fun key range => do
      match ← planned .scanPartition with
      | some f => return .error f
      | none => return (← get).rows.scan key range) keys range

def limitsOf (s : StoreSettings) (clock : Nat) (cancelAfter : Option Nat) : Limits :=
  (s.queryLimit.toList.map fun l => (clock + l, Trouble.timeout (l * 1000000))) ++
    cancelAfter.toList.map fun c => (clock + c, Trouble.cancelled)

/-- A query, which may be cancelled some milliseconds after it begins. -/
def query (store : Nat) (q : Query) (cancelAfter : Option Nat) :
    Sim (Except Trouble (Results Event)) := do
  let w ← get
  set { w with looks := w.looks + 1 }
  let s := w.settings store
  let limits := limitsOf s w.clock cancelAfter
  match ← (q.run s.plan (scan limits) w.today).run with
  | .ok answer => return answer
  | .error t => return .error t

end DeviceEvents.Simulation
