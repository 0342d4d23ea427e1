import DeviceEvents.Store.Error
/-
  DeviceEvents.Runner — processes that run together, and what closes down after them.

  A runner waits for its processes until one of them fails, all of them have ended, or it is
  cancelled. Then it cancels the processes that are left and waits until they have ended too;
  what fails now is only noted. At last the closers are set going, all at once, until they have
  ended or their time is up; one that has not had its turn by then never begins. The first
  failure is the outcome, whatever comes later.

  Processes and closers end when they like. Everything that they and the runner do is a step,
  and a step that is not possible gives nothing. Time is a step too: the runner does not let it
  pass where it has seen enough, so the closers are over as soon as all of them have ended or
  their time is up.
-/

namespace DeviceEvents

/-- How a process or a closer ends. -/
inductive Ending where
  | ok
  | failed (f : Failure)
  | crashed (task : String)

/-- What a runner reports of a process that has not ended well. -/
def Ending.failure? (process : String) : Ending → Option (String × Failure)
  | .ok => none
  | .failed f => some (process, f)
  | .crashed task => some ("<panicked>", .of ("process panicked: " ++ task))

inductive RunOutcome where
  /-- Every process has ended on its own, and well. -/
  | completed
  | cancelled
  | failed (process : String) (f : Failure)

def RunOutcome.exitCode : RunOutcome → Nat
  | .completed | .cancelled => 0
  | .failed _ _ => 1

structure Process where
  name : String
  /-- There is none while it runs. -/
  ending : Option Ending
  /-- The runner has seen that it has ended. -/
  isJoined : Bool

inductive Closer where
  /-- Has not begun. -/
  | pending
  | running
  | ended (e : Ending)
  /-- Its time was up. -/
  | abandoned

def Closer.isEnded : Closer → Bool
  | .ended _ => true
  | _ => false

def Closer.abandon : Closer → Closer
  | .running => .abandoned
  | c => c

inductive RunPhase where
  | waiting
  | draining
  | closing
  | ended
  deriving DecidableEq

structure Run where
  phase : RunPhase
  isCancelled : Bool
  processes : List Process
  failure : Option (String × Failure)
  /-- It was cancelled when the runner stopped waiting. -/
  wasCancelled : Bool
  closers : List Closer
  /-- How long the closers may take together, in milliseconds. -/
  limit : Nat
  /-- How long the runner has waited for them. -/
  spent : Nat

namespace Run

/-- The limit unless it is set. -/
def closerTime : Nat := 10000

def start (processes : List String) (closers limit : Nat) (isCancelled : Bool) : Run where
  phase := .waiting
  isCancelled
  processes := processes.map fun name => ⟨name, none, false⟩
  failure := none
  wasCancelled := false
  closers := List.replicate closers .pending
  limit
  spent := 0

def outcome (r : Run) : RunOutcome :=
  match r.failure with
  | some (process, f) => .failed process f
  | none => if r.wasCancelled then .cancelled else .completed

/-! ## Processes -/

def cancel (r : Run) : Run := { r with isCancelled := true }

/-- A process ends. -/
def finish? (r : Run) (i : Nat) (e : Ending) : Option Run :=
  match r.processes[i]? with
  | some ⟨name, none, joined⟩ =>
    some { r with processes := r.processes.set i ⟨name, some e, joined⟩ }
  | _ => none

/-! ## The runner -/

def allJoined (r : Run) : Bool := r.processes.all (·.isJoined)

/-- No longer waits, perhaps because of a failure. -/
def drain (r : Run) (failure : Option (String × Failure)) : Run :=
  { r with
    phase := .draining
    failure
    wasCancelled := r.isCancelled && failure.isNone
    isCancelled := true }

/-- What becomes of a runner that waits when a process has ended. -/
def noteEnding (r : Run) (name : String) (e : Ending) : Run :=
  match e.failure? name with
  | none => r
  | some f => r.drain (some f)

/-- The runner sees that a process has ended. -/
def join? (r : Run) (i : Nat) : Option Run :=
  match r.processes[i]? with
  | some ⟨name, some e, false⟩ =>
    let seen := { r with processes := r.processes.set i ⟨name, some e, true⟩ }
    match r.phase with
    | .waiting => some (seen.noteEnding name e)
    | .draining => some seen
    | _ => none
  | _ => none

/-- The runner sees the cancellation, or that no process is left. -/
def stopWaiting? (r : Run) : Option Run :=
  if r.phase = .waiting ∧ (r.isCancelled || r.allJoined) then some (r.drain none) else none

def startClosers? (r : Run) : Option Run :=
  if r.phase = .draining ∧ r.allJoined then some { r with phase := .closing } else none

/-! ## Closers -/

/-- A closer has its turn, as long as the runner has not seen that the time is up. -/
def closerBegins? (r : Run) (i : Nat) : Option Run :=
  match r.phase, r.closers[i]? with
  | .closing, some .pending => some { r with closers := r.closers.set i .running }
  | _, _ => none

def closerEnds? (r : Run) (i : Nat) (e : Ending) : Option Run :=
  match r.phase, r.closers[i]? with
  | .closing, some .running => some { r with closers := r.closers.set i (.ended e) }
  | _, _ => none

/-- Time passes for the closers, though not when they have all ended, and not beyond the limit. -/
def pass? (r : Run) (ms : Nat) : Option Run :=
  if r.phase = .closing ∧ r.closers.all Closer.isEnded = false ∧ r.spent + ms ≤ r.limit then
    some { r with spent := r.spent + ms }
  else none

/-- All closers have ended. -/
def close? (r : Run) : Option Run :=
  if r.phase = .closing ∧ r.closers.all Closer.isEnded then some { r with phase := .ended }
  else none

/-- The time of the closers is up. -/
def timeout? (r : Run) : Option Run :=
  if r.phase = .closing ∧ r.limit ≤ r.spent then
    some { r with phase := .ended, closers := r.closers.map Closer.abandon }
  else none

inductive Step where
  | cancel
  | finish (process : Nat) (e : Ending)
  | join (process : Nat)
  | stopWaiting
  | startClosers
  | closerBegins (closer : Nat)
  | closerEnds (closer : Nat) (e : Ending)
  | pass (ms : Nat)
  | close
  | timeout

def step? (r : Run) : Step → Option Run
  | .cancel => some r.cancel
  | .finish i e => r.finish? i e
  | .join i => r.join? i
  | .stopWaiting => r.stopWaiting?
  | .startClosers => r.startClosers?
  | .closerBegins i => r.closerBegins? i
  | .closerEnds i e => r.closerEnds? i e
  | .pass ms => r.pass? ms
  | .close => r.close?
  | .timeout => r.timeout?

end Run
end DeviceEvents
