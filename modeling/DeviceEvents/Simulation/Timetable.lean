import DeviceEvents.Runner
/-
  DeviceEvents.Simulation.Timetable — a runner on a virtual clock.

  Every process and every closer has a plan: to end after some time, to wait for the
  cancellation first, to cancel the runner, or never to end. The clock goes from one moment at
  which something is due to the next. Of what is due together the cancellation from outside
  comes first and then the processes in their order; the runner looks when all of them are
  done, and sees processes in the order in which they ended.
-/

namespace DeviceEvents.Simulation

inductive Act where
  | finish (e : Ending)
  /-- Waits for the cancellation first. -/
  | wait (e : Ending)
  /-- Cancels the runner. -/
  | cancel
  | never

structure Plan where
  name : String
  act : Act
  /-- In milliseconds. -/
  after : Nat

/-- When a process is due that has just begun. -/
def Plan.due : Plan → Option Nat
  | ⟨_, .finish _, t⟩ | ⟨_, .cancel, t⟩ => some t
  | _ => none

inductive Happening where
  | cancelled
  | cancels
  | hang
  | ended (e : Ending)

def Happening.name : Happening → String
  | .cancelled => "cancelled"
  | .cancels => "cancels"
  | .hang => "hang"
  | .ended .ok => "ok"
  | .ended (.failed _) => "err"
  | .ended (.crashed _) => "panic"

structure Timetable where
  run : Run
  clock : Nat
  plans : List Plan
  /-- When processes are due, as far as that is known. -/
  due : List (Option Nat)
  cancelAt : Option Nat
  /-- Processes that have ended and have not been seen by the runner. -/
  ended : List Nat
  log : List (Nat × String × Happening)

namespace Timetable

def note (s : Timetable) (name : String) (h : Happening) : Timetable :=
  { s with log := s.log ++ [(s.clock, name, h)] }

def start (plans : List Plan) (closers limit : Nat) (cancelAt : Option Nat) : Timetable where
  run := .start (plans.map (·.name)) closers limit (cancelAt == some 0)
  clock := 0
  plans
  due := plans.map Plan.due
  cancelAt
  ended := []
  log := plans.filterMap fun p => match p.act with
    | .never => some (0, p.name, .hang)
    | _ => none

/-! ## Processes -/

def isRunning (s : Timetable) (i : Nat) : Bool :=
  s.run.processes[i]?.any fun p => p.ending.isNone

def endProcess (s : Timetable) (i : Nat) (p : Plan) : Timetable :=
  let e : Ending := match p.act with
    | .finish e | .wait e => e
    | _ => .ok
  let s := match p.act with
    | .cancel => { s with run := s.run.cancel }.note p.name .cancels
    | _ => s.note p.name (.ended e)
  { s with run := (s.run.finish? i e).getD s.run, ended := s.ended ++ [i] }

/-- A process gets on if it is due. -/
def proceed (s : Timetable) (x : Plan × Nat) : Timetable :=
  if s.isRunning x.2 && (s.due[x.2]?.join).any (fun t => decide (t ≤ s.clock)) then
    s.endProcess x.2 x.1
  else s

/-- A process that waits for the cancellation sees it. -/
def awaken (s : Timetable) (x : Plan × Nat) : Timetable :=
  match x.1.act, s.due[x.2]? with
  | .wait _, some none =>
    if s.run.isCancelled then
      { s.note x.1.name .cancelled with due := s.due.set x.2 (some (s.clock + x.1.after)) }
    else s
  | _, _ => s

/-- All that is due is done. -/
def proceedAll (s : Timetable) : Timetable :=
  let s := s.plans.zipIdx.foldl proceed s
  let s := s.plans.zipIdx.foldl awaken s
  s.plans.zipIdx.foldl proceed s

/-! ## The runner -/

/-- What the runner does next at this moment, if there is something. -/
def runnerStep? (s : Timetable) : Option Timetable :=
  match s.ended with
  | i :: rest => (s.run.join? i).map fun run => { s with run, ended := rest }
  | [] => (s.run.stopWaiting? <|> s.run.startClosers?).map fun run => { s with run }

/-- Up to `n` steps of the runner. -/
def settle : Nat → Timetable → Timetable
  | 0, s => s
  | n + 1, s =>
    match s.runnerStep? with
    | some s => settle n s.proceedAll
    | none => s

/-- More steps than a runner has at one moment. -/
def stepLimit (s : Timetable) : Nat := s.plans.length + 3

/-! ## Time -/

/-- The next moment at which something is due. -/
def next? (s : Timetable) : Option Nat :=
  let running := s.due.zipIdx.filterMap fun (t, i) => if s.isRunning i then t else none
  let cancellation := if s.run.isCancelled then [] else s.cancelAt.toList
  (running ++ cancellation).min?

def advance (s : Timetable) (time : Nat) : Timetable :=
  let s := { s with clock := max s.clock time }
  let s := if s.cancelAt.any fun t => decide (t ≤ s.clock) then { s with run := s.run.cancel } else s
  settle s.stepLimit s.proceedAll

/-- Up to `n` moments, as long as there are processes. -/
def runProcesses : Nat → Timetable → Timetable
  | 0, s => s
  | n + 1, s =>
    match s.run.phase, s.next? with
    | .waiting, some t | .draining, some t => runProcesses n (s.advance t)
    | _, _ => s

/-! ## Closers -/

/-- When a closer that begins now ends, and how. -/
def closerEnding? (clock : Nat) (p : Plan) : Option (Nat × Ending) :=
  match p.act with
  | .finish e | .wait e => some (clock + p.after, e)
  | .cancel => some (clock + p.after, .ok)
  | .never => none

/-- The closers that end before the deadline, the first one first. -/
def endings (clock deadline : Nat) (closers : List Plan) : List (Plan × Nat × Nat × Ending) :=
  let ends := closers.zipIdx.filterMap fun (p, i) => do
    let (time, e) ← closerEnding? clock p
    if time < deadline then some (p, i, time, e) else none
  ends.mergeSort fun a b => decide (a.2.2.1 ≤ b.2.2.1)

def beginCloser (s : Timetable) (x : Plan × Nat) : Timetable :=
  let (p, i) := x
  let s := { s with run := (s.run.closerBegins? i).getD s.run }
  match p.act with
  | .never => s.note p.name .hang
  | .wait _ => s.note p.name .cancelled
  | _ => s

/-- Time passes for the closers. -/
def passTo (s : Timetable) (time : Nat) : Timetable :=
  { s with clock := time, run := (s.run.pass? (time - s.clock)).getD s.run }

def endCloser (s : Timetable) (x : Plan × Nat × Nat × Ending) : Timetable :=
  let (p, i, time, e) := x
  let s := s.passTo time
  let s := { s with run := (s.run.closerEnds? i e).getD s.run }
  s.note p.name (match p.act with
    | .cancel => .cancels
    | _ => .ended e)

/-- The runner looks whether the closers are over. -/
def closersOver? (s : Timetable) : Option Timetable :=
  (s.run.close? <|> s.run.timeout?).map fun run => { s with run }

/-- The closers run, for a time that may not be used up completely. The runner looks before it
waits for the first time. -/
def runClosers (s : Timetable) (closers : List Plan) : Timetable :=
  s.closersOver?.getD <|
    let deadline := s.clock + s.run.limit
    let s := closers.zipIdx.foldl beginCloser s
    let s := (endings s.clock deadline closers).foldl endCloser s
    s.closersOver?.getD <|
      let s := s.passTo deadline
      s.closersOver?.getD s

/-- A whole run. -/
def complete (plans closers : List Plan) (limit : Nat) (cancelAt : Option Nat) : Timetable :=
  let s := start plans closers.length limit cancelAt
  let s := runProcesses (plans.length + 2) (settle s.stepLimit s)
  match s.run.phase with
  | .closing => s.runClosers closers
  | _ => s

end Timetable
end DeviceEvents.Simulation
