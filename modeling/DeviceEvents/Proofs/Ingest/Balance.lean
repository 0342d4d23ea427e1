import DeviceEvents.Ingest.Lifecycle
import DeviceEvents.Proofs.Stateful
import Mathlib.Data.List.Nodup
/-
  DeviceEvents.Proofs.Ingest.Balance — whatever is started is stopped once.

  Actors. Somebody asks a pipeline to prepare, start, stop and terminate, in any order and any
  number of times. The parts of the pipeline, any number of receivers and maybe a deduplicator,
  succeed or fail as they like (`Plant`). Workers run from the end of a start until they are told
  to end, or end by themselves.

  `Phase` is everything that one request can do, and `phase` says that nothing else happens:
  parts are started in one order and stopped in the reverse of it, the newest first. From
  that every request keeps the balance of starts and stops, and the pipeline has a core of its
  parts just from its preparation to its termination (`Furnished`, `step_inv`). Main statement:
  `lifecycle_balanced`.
-/

namespace DeviceEvents

/-! ## Requests -/

namespace LifecycleState

def allows : LifecycleState → LifecycleStep → Bool
  | .created, .prepare | .initialized, .start | .started, .stop => true
  | .created, .terminate | .initialized, .terminate | .stopped, .terminate => true
  | _, _ => false

end LifecycleState

section

variable {m : Type → Type}

/-- How far it is after a request, and the fault. -/
def Lifecycle.along (l : Lifecycle m) : Except LifecycleFault (Lifecycle m) → Lifecycle m × Option LifecycleFault
  | .ok l' => (l', none)
  | .error e => (l, some e)

def Pipeline.perform [Monad m] (p : Pipeline m) (l : Lifecycle m) :
    LifecycleStep → m (Lifecycle m × Option LifecycleFault)
  | .prepare => return l.along (p.prepare l)
  | .start => return l.along (← p.start l)
  | .stop => p.stop l
  | .terminate => return l.along (terminate l)

end

/-! ## The parts -/

namespace Plant

inductive Part where
  | receiver (i : Nat)
  | deduplicator
  deriving DecidableEq

/-- Something that has happened. -/
inductive Mark where
  | started (p : Part) (fault : Option LifecycleFault)
  | began (i n : Nat)
  | workersEnded
  /-- A part was stopped while so many workers were running. -/
  | stopped (p : Part) (running : Nat) (fault : Option LifecycleFault)

namespace Mark

def isStart (p : Part) : Mark → Bool
  | .started q none => q == p
  | _ => false

def isStop (p : Part) : Mark → Bool
  | .stopped q _ _ => q == p
  | _ => false

def stop? : Mark → Option (Part × Nat)
  | .stopped p running _ => some (p, running)
  | _ => none

def fault? : Mark → Option LifecycleFault
  | .started _ fault | .stopped _ _ fault => fault
  | _ => none

end Mark

structure Ground (σ : Type) where
  /-- What the parts go by. -/
  rest : σ
  /-- The workers that are running, each with the number of its receiver. -/
  running : List (Nat × Nat)
  /-- The latest last. -/
  marks : List Mark

end Plant

/-- The parts of a pipeline, and what comes of starting and stopping them. -/
structure Plant (σ : Type) where
  /-- The number of receivers. -/
  count : Nat
  source : Nat → String
  workers : Nat → Nat
  decode : Option (Inbound → Except Undecoded (List Request))
  deduplicates : Bool
  startReceiver : Nat → σ → Except Failure Unit × σ
  stopReceiver : Nat → σ → Except Failure Unit × σ
  startDeduplicator : σ → Except Refusal Unit × σ
  stopDeduplicator : σ → Except Refusal Unit × σ
  /-- What the core is made of besides, which no request makes use of. -/
  judge : Request → StateM (Plant.Ground σ) (Except Refusal Bool)
  forget : Request → StateM (Plant.Ground σ) (Except Refusal Unit)
  handler : Handler (StateM (Plant.Ground σ))
  counters : StateM (Plant.Ground σ) Counters
  setCounters : Counters → StateM (Plant.Ground σ) Unit

namespace Plant

variable {σ : Type} (c : Plant σ)

def receiverFault (i : Nat) (step : LifecycleStep) : Except Failure Unit → Option LifecycleFault
  | .ok () => none
  | .error f => some (.receiver (c.source i) step f)

def deduplicatorFault (step : LifecycleStep) : Except Refusal Unit → Option LifecycleFault
  | .ok () => none
  | .error e => some (.deduplicator step e)

/-- A part is asked for something, and a mark is left of its answer. -/
def ask {α : Type} (f : σ → α × σ) (mark : Nat → α → Mark) : StateM (Ground σ) α := do
  let g ← get
  let (answer, rest) := f g.rest
  set { g with rest, marks := g.marks ++ [mark g.running.length answer] }
  return answer

def startMark (i : Nat) (_running : Nat) (answer : Except Failure Unit) : Mark :=
  .started (.receiver i) (c.receiverFault i .start answer)

def stopMark (i : Nat) (running : Nat) (answer : Except Failure Unit) : Mark :=
  .stopped (.receiver i) running (c.receiverFault i .stop answer)

def deduplicatorStartMark (_running : Nat) (answer : Except Refusal Unit) : Mark :=
  .started .deduplicator (deduplicatorFault .start answer)

def deduplicatorStopMark (running : Nat) (answer : Except Refusal Unit) : Mark :=
  .stopped .deduplicator running (deduplicatorFault .stop answer)

def receiver (i : Nat) : Receiver (StateM (Ground σ)) where
  source := c.source i
  workers := c.workers i
  start := ask (c.startReceiver i) (c.startMark i)
  beginWorker _ n := modify fun g => { g with running := g.running ++ [(i, n)], marks := g.marks ++ [.began i n] }
  stop := ask (c.stopReceiver i) (c.stopMark i)

def deduplicator : Deduplicator (StateM (Ground σ)) where
  start := ask c.startDeduplicator deduplicatorStartMark
  stop := ask c.stopDeduplicator deduplicatorStopMark
  isDuplicate := c.judge
  forget := c.forget

def pipeline : Pipeline (StateM (Ground σ)) where
  receivers := (List.range c.count).map c.receiver
  decode := c.decode
  deduplicator := if c.deduplicates then some c.deduplicator else none
  handler := c.handler
  counters := c.counters
  setCounters := c.setCounters
  endWorkers := modify fun g => { g with running := [], marks := g.marks ++ [.workersEnded] }

/-- In the order in which they are started. -/
def parts : List Part := (List.range c.count).map .receiver ++ if c.deduplicates then [.deduplicator] else []

/-- All workers, in the order in which they begin. -/
def crew : List (Nat × Nat) :=
  (List.range c.count).flatMap fun i => (List.range (c.receiver i).workerCount).map fun n => (i, n)

/-! ## One request -/

/-- Parts were stopped one after the other, while so many workers were running. -/
def Stopped (running : Nat) (ps : List Part) (ms : List Mark) : Prop :=
  ms.map Mark.stop? = ps.map fun p => some (p, running)

/-- Everything that a request can do. -/
inductive Phase (l : Lifecycle (StateM (Ground σ))) (g : Ground σ) :
    LifecycleStep → Lifecycle (StateM (Ground σ)) → Option LifecycleFault → Ground σ → Prop
  | refused (step : LifecycleStep) : l.state.allows step = false → Phase l g step l (some (.notAllowed step l.state)) g
  | noReceivers : l.state = .created → c.count = 0 → Phase l g .prepare l (some .noReceivers) g
  | noDecoder : l.state = .created → c.count ≠ 0 → c.decode = none → Phase l g .prepare l (some .noDecoder) g
  | prepared (decode : Inbound → Except Undecoded (List Request)) : l.state = .created → c.count ≠ 0 → c.decode = some decode →
      Phase l g .prepare ⟨.initialized, some (c.pipeline.intake decode)⟩ none g
  /-- The parts `up` are started, `p` is not, and those are stopped again. -/
  | startFailed (up : List Part) (p : Part) (rest : List Part) (e : LifecycleFault) (stops : List Mark) (g' : Ground σ) :
      l.state = .initialized → c.parts = up ++ p :: rest → Stopped g.running.length up.reverse stops →
      g'.marks = g.marks ++ (up.map (.started · none) ++ .started p (some e) :: stops) → g'.running = g.running →
      Phase l g .start l (some e) g'
  | started (g' : Ground σ) : l.state = .initialized →
      g'.marks = g.marks ++ (c.parts.map (.started · none) ++ c.crew.map fun w => .began w.1 w.2) →
      g'.running = g.running ++ c.crew → Phase l g .start { l with state := .started } none g'
  | stopped (stops : List Mark) (g' : Ground σ) : l.state = .started → Stopped 0 c.parts.reverse stops →
      g'.marks = g.marks ++ .workersEnded :: stops → g'.running = [] →
      Phase l g .stop { l with state := .stopped } (stops.findSome? Mark.fault?) g'
  | terminated : l.state.allows .terminate = true → Phase l g .terminate ⟨.terminated, none⟩ none g

variable {c} {g : Ground σ} {α β : Type}

/-- The ground after a part was asked. -/
def Ground.asked (g : Ground σ) (f : σ → α × σ) (mark : Nat → α → Mark) : Ground σ :=
  { g with rest := (f g.rest).2, marks := g.marks ++ [mark g.running.length (f g.rest).1] }

theorem ask_eq {f : σ → α × σ} {mark : Nat → α → Mark} {g : Ground σ} {answer : α} (h : (f g.rest).1 = answer) :
    ask f mark g = (answer, g.asked f mark) :=
  congrArg (·, g.asked f mark) h

/-! Stopping. -/

theorem Stopped.cons {running : Nat} {ps : List Part} {ms : List Mark} (h : Stopped running ps ms) (p : Part)
    (fault : Option LifecycleFault) : Stopped running (p :: ps) (.stopped p running fault :: ms) :=
  congrArg (some (p, running) :: ·) h

theorem takeDown_stopped (is : List Nat) (g : Ground σ) :
    ∃ g' ms, Pipeline.takeDown (is.map c.receiver) g = ((), g') ∧ Stopped g.running.length (is.map .receiver) ms ∧
      g'.marks = g.marks ++ ms ∧ g'.running = g.running := by
  induction is generalizing g with
  | nil => exact ⟨g, [], rfl, rfl, (List.append_nil _).symm, rfl⟩
  | cons i is ih =>
    obtain ⟨g', ms, hrun, hstopped, hmarks, hrunning⟩ := ih (g.asked (c.stopReceiver i) (c.stopMark i))
    exact ⟨g', _, hrun, hstopped.cons .., hmarks.trans (List.append_assoc ..), hrunning⟩

theorem stopReceivers_cons (fault : Option LifecycleFault) (i : Nat) (is : List Nat) (g : Ground σ) :
    Pipeline.stopReceivers fault ((i :: is).map c.receiver) g =
      Pipeline.stopReceivers (fault.or (c.receiverFault i .stop (c.stopReceiver i g.rest).1)) (is.map c.receiver)
        (g.asked (c.stopReceiver i) (c.stopMark i)) := by
  rw [List.map_cons, Pipeline.stopReceivers]
  cases h : (c.stopReceiver i g.rest).1 with
  | ok u =>
    rw [bind_eq (show (c.receiver i).stop g = _ from ask_eq h), receiverFault, Option.or_none]
  | error f =>
    rw [bind_eq (show (c.receiver i).stop g = _ from ask_eq h)]
    rfl

theorem first_fault_cons (m : Mark) (ms : List Mark) :
    (m :: ms).findSome? Mark.fault? = m.fault?.or (ms.findSome? Mark.fault?) := by
  rw [List.findSome?_cons]
  cases m.fault? <;> rfl

/-- Every receiver is stopped, and the first fault is the one that counts. -/
theorem stopReceivers_stopped (fault : Option LifecycleFault) (is : List Nat) (g : Ground σ) :
    ∃ g' ms, Pipeline.stopReceivers fault (is.map c.receiver) g = (fault.or (ms.findSome? Mark.fault?), g') ∧
      Stopped g.running.length (is.map .receiver) ms ∧ g'.marks = g.marks ++ ms ∧ g'.running = g.running := by
  induction is generalizing fault g with
  | nil => exact ⟨g, [], by rw [List.findSome?_nil, Option.or_none]; rfl, rfl, (List.append_nil _).symm, rfl⟩
  | cons i is ih =>
    let f := c.receiverFault i .stop (c.stopReceiver i g.rest).1
    obtain ⟨g', ms, hrun, hstopped, hmarks, hrunning⟩ := ih (fault.or f) (g.asked (c.stopReceiver i) (c.stopMark i))
    refine ⟨g', _, ?_, hstopped.cons (.receiver i) f, hmarks.trans (List.append_assoc ..), hrunning⟩
    rw [stopReceivers_cons, hrun, first_fault_cons, Option.or_assoc]
    rfl

theorem deduplicator_pipeline : c.pipeline.deduplicator = if c.deduplicates then some c.deduplicator else none := rfl

theorem stopDeduplicator_absent (h : c.deduplicates = false) : c.pipeline.stopDeduplicator = return none := by
  rw [Pipeline.stopDeduplicator, deduplicator_pipeline, h]
  rfl

theorem stopDeduplicator_present (h : c.deduplicates = true) (g : Ground σ) :
    c.pipeline.stopDeduplicator g =
      (deduplicatorFault .stop (c.stopDeduplicator g.rest).1, g.asked c.stopDeduplicator deduplicatorStopMark) := by
  rw [Pipeline.stopDeduplicator, deduplicator_pipeline, h, if_pos rfl]
  cases h : (c.stopDeduplicator g.rest).1 with
  | ok u => exact bind_eq (show c.deduplicator.stop g = _ from ask_eq h)
  | error e => exact bind_eq (show c.deduplicator.stop g = _ from ask_eq h)

theorem parts_reverse : c.parts.reverse =
    (if c.deduplicates then [.deduplicator] else []) ++ (List.range c.count).reverse.map .receiver := by
  rw [parts, List.reverse_append, List.map_reverse]
  split <;> rfl

/-- The newest part goes first. -/
theorem stop_stopped (g : Ground σ) :
    ∃ g' ms, (do
        let fault ← c.pipeline.stopDeduplicator
        Pipeline.stopReceivers fault c.pipeline.receivers.reverse) g = (ms.findSome? Mark.fault?, g') ∧
      Stopped g.running.length c.parts.reverse ms ∧ g'.marks = g.marks ++ ms ∧ g'.running = g.running := by
  have hrev : c.pipeline.receivers.reverse = (List.range c.count).reverse.map c.receiver := List.map_reverse.symm
  rw [hrev, parts_reverse]
  cases hd : c.deduplicates with
  | false =>
    obtain ⟨g', ms, hrun, hrest⟩ := stopReceivers_stopped (c := c) none (List.range c.count).reverse g
    refine ⟨g', ms, ?_, hrest⟩
    rw [stopDeduplicator_absent hd, pure_bind, hrun, Option.none_or]
  | true =>
    let f := deduplicatorFault .stop (c.stopDeduplicator g.rest).1
    obtain ⟨g', ms, hrun, hstopped, hmarks, hrunning⟩ := stopReceivers_stopped (c := c) f (List.range c.count).reverse
      (g.asked c.stopDeduplicator deduplicatorStopMark)
    refine ⟨g', _, ?_, hstopped.cons .deduplicator f, hmarks.trans (List.append_assoc ..), hrunning⟩
    rw [first_fault_cons, bind_eq (stopDeduplicator_present hd g), hrun]
    rfl

/-! Starting. -/

/-- Parts were started one after the other, up to the end or to the first that fails. `up` are those that are up. -/
inductive Raised (ps : List Part) : Option LifecycleFault → List Part → List Mark → Prop
  | all : Raised ps none ps (ps.map (.started · none))
  | failed (up : List Part) (p : Part) (rest : List Part) (e : LifecycleFault) : ps = up ++ p :: rest →
      Raised ps (some e) up (up.map (.started · none) ++ [.started p (some e)])

theorem Raised.cons {ps up : List Part} {fault : Option LifecycleFault} {ms : List Mark} (h : Raised ps fault up ms) (p : Part) :
    Raised (p :: ps) fault (p :: up) (.started p none :: ms) := by
  cases h with
  | all => exact .all
  | failed up q rest e hps => exact .failed (p :: up) q rest e (congrArg (p :: ·) hps)

theorem startReceivers_raised (up is : List Nat) (g : Ground σ) :
    ∃ (fault : Option LifecycleFault) (js : List Nat) (g' : Ground σ) (ms : List Mark),
      Pipeline.startReceivers (up.map c.receiver) (is.map c.receiver) g =
        ((fault, (js.reverse ++ up).map c.receiver), g') ∧
      Raised (is.map .receiver) fault (js.map .receiver) ms ∧ g'.marks = g.marks ++ ms ∧ g'.running = g.running := by
  induction is generalizing up g with
  | nil => exact ⟨none, [], g, [], rfl, .all, (List.append_nil _).symm, rfl⟩
  | cons i is ih =>
    rw [List.map_cons, Pipeline.startReceivers]
    cases h : (c.startReceiver i g.rest).1 with
    | ok u =>
      have hstart : (c.receiver i).start g = _ := ask_eq h
      obtain ⟨fault, js, g', ms, hrun, hraised, hmarks, hrunning⟩ := ih (i :: up) (g.asked (c.startReceiver i) (c.startMark i))
      refine ⟨fault, i :: js, g', _, ?_, hraised.cons (.receiver i), ?_, hrunning⟩
      · rw [bind_eq hstart, List.reverse_cons, List.append_assoc]
        exact hrun
      · rw [hmarks, Ground.asked, startMark, h, List.append_assoc]
        rfl
    | error f =>
      have hstart : (c.receiver i).start g = _ := ask_eq h
      refine ⟨some (.receiver (c.source i) .start f), [], g.asked (c.startReceiver i) (c.startMark i), _, ?_,
        .failed [] (.receiver i) (is.map .receiver) _ rfl, ?_, rfl⟩
      · rw [bind_eq hstart]
        rfl
      · rw [Ground.asked, startMark, h]
        rfl

theorem startDeduplicator_absent (h : c.deduplicates = false) : c.pipeline.startDeduplicator = return none := by
  rw [Pipeline.startDeduplicator, deduplicator_pipeline, h]
  rfl

theorem startDeduplicator_present (h : c.deduplicates = true) (g : Ground σ) :
    c.pipeline.startDeduplicator g =
      (deduplicatorFault .start (c.startDeduplicator g.rest).1, g.asked c.startDeduplicator deduplicatorStartMark) := by
  rw [Pipeline.startDeduplicator, deduplicator_pipeline, h, if_pos rfl]
  cases h : (c.startDeduplicator g.rest).1 with
  | ok u => exact bind_eq (show c.deduplicator.start g = _ from ask_eq h)
  | error e => exact bind_eq (show c.deduplicator.start g = _ from ask_eq h)

/-- The workers of one receiver begin. -/
theorem beginWorkers_receiver (sink : Intake (StateM (Ground σ))) (i : Nat) (ns : List Nat) (g : Ground σ) :
    ns.forM ((c.receiver i).beginWorker sink) g = ((), { g with
      running := g.running ++ ns.map fun n => (i, n)
      marks := g.marks ++ ns.map fun n => .began i n }) := by
  induction ns generalizing g with
  | nil =>
    rw [List.map_nil, List.map_nil, List.append_nil, List.append_nil]
    rfl
  | cons n ns ih =>
    have hn : (c.receiver i).beginWorker sink n g = ((), { g with
      running := g.running ++ [(i, n)], marks := g.marks ++ [.began i n] }) := rfl
    refine (bind_eq hn).trans ((ih _).trans ?_)
    simp

theorem beginWorkers_eq (sink : Intake (StateM (Ground σ))) (is : List Nat) (g : Ground σ) :
    (is.map c.receiver).forM (fun r => (List.range r.workerCount).forM (r.beginWorker sink)) g = ((), { g with
      running := g.running ++ is.flatMap fun i => (List.range (c.receiver i).workerCount).map fun n => (i, n)
      marks := g.marks ++ is.flatMap fun i => (List.range (c.receiver i).workerCount).map fun n => .began i n }) := by
  induction is generalizing g with
  | nil =>
    rw [List.flatMap_nil, List.flatMap_nil, List.append_nil, List.append_nil]
    rfl
  | cons i is ih =>
    refine (bind_eq (beginWorkers_receiver sink i _ g)).trans ((ih _).trans ?_)
    simp

theorem beginWorkers_crew (sink : Intake (StateM (Ground σ))) (g : Ground σ) : c.pipeline.beginWorkers sink g = ((), { g with
    running := g.running ++ c.crew, marks := g.marks ++ c.crew.map fun w => .began w.1 w.2 }) := by
  refine (beginWorkers_eq sink (List.range c.count) g).trans ?_
  rw [crew, List.map_flatMap]
  simp only [List.map_map]
  rfl

variable {sink : Intake (StateM (Ground σ))}

/-- A receiver does not start. -/
theorem start_of_receiver {up : List (Receiver (StateM (Ground σ)))} {e : LifecycleFault} {g₁ g₂ : Ground σ}
    (hup : Pipeline.startReceivers [] c.pipeline.receivers g = ((some e, up), g₁))
    (hdown : Pipeline.takeDown up g₁ = ((), g₂)) : c.pipeline.startWith sink g = (some e, g₂) := by
  have h : (Pipeline.takeDown up >>= fun _ => return some e) g₁ = (some e, g₂) := bind_eq hdown
  exact (bind_eq hup).trans h

/-- The deduplicator does not start. -/
theorem start_of_deduplicator {up : List (Receiver (StateM (Ground σ)))} {e : LifecycleFault} {g₁ g₂ g₃ : Ground σ}
    (hup : Pipeline.startReceivers [] c.pipeline.receivers g = ((none, up), g₁))
    (hded : c.pipeline.startDeduplicator g₁ = (some e, g₂)) (hdown : Pipeline.takeDown up g₂ = ((), g₃)) :
    c.pipeline.startWith sink g = (some e, g₃) :=
  (bind_eq hup).trans ((bind_eq hded).trans (bind_eq hdown))

theorem start_of_all {up : List (Receiver (StateM (Ground σ)))} {g₁ g₂ g₃ : Ground σ}
    (hup : Pipeline.startReceivers [] c.pipeline.receivers g = ((none, up), g₁))
    (hded : c.pipeline.startDeduplicator g₁ = (none, g₂)) (hcrew : c.pipeline.beginWorkers sink g₂ = ((), g₃)) :
    c.pipeline.startWith sink g = (none, g₃) :=
  (bind_eq hup).trans ((bind_eq hded).trans (bind_eq hcrew))

variable (sink)

/-- The parts are started one after the other, and then the start goes on with those that are up. -/
theorem start_raised (g : Ground σ) : ∃ (fault : Option LifecycleFault) (js : List Nat) (up : List Part) (ms : List Mark)
    (g' : Ground σ), Raised c.parts fault up ms ∧ g'.marks = g.marks ++ ms ∧ g'.running = g.running ∧
      (∀ e g'', fault = some e → Pipeline.takeDown (js.reverse.map c.receiver) g' = ((), g'') →
        up = js.map .receiver ∧ c.pipeline.startWith sink g = (some e, g'')) ∧
      (∀ g'', fault = none → c.pipeline.beginWorkers sink g' = ((), g'') →
        c.pipeline.startWith sink g = (none, g'')) := by
  obtain ⟨fault, js, g₁, ms, hup, hraised, hmarks, hrunning⟩ := startReceivers_raised (c := c) [] (List.range c.count) g
  rw [List.append_nil] at hup
  generalize hjs : js.map Part.receiver = up at hraised
  cases hraised with
  | failed _ p rest e hps =>
    have hparts : c.parts = up ++ p :: (rest ++ if c.deduplicates then [.deduplicator] else []) := by
      rw [parts, hps, List.append_assoc, List.cons_append]
    refine ⟨some e, js, up, _, g₁, .failed up p _ e hparts, hmarks, hrunning, fun e' g₂ he hdown => ?_, nofun⟩
    cases he
    exact ⟨hjs.symm, start_of_receiver hup hdown⟩
  | all =>
    cases hd : c.deduplicates with
    | false =>
      have hparts : c.parts = (List.range c.count).map .receiver := by rw [parts, hd]; exact List.append_nil _
      have hded : c.pipeline.startDeduplicator g₁ = (none, g₁) := by rw [startDeduplicator_absent hd]; rfl
      exact ⟨none, js, c.parts, _, g₁, .all, by rw [hparts, hmarks], hrunning, nofun,
        fun g₂ _ hcrew => start_of_all hup hded hcrew⟩
    | true =>
      have hparts : c.parts = (List.range c.count).map .receiver ++ [.deduplicator] := by rw [parts, hd]; rfl
      have hded := startDeduplicator_present hd g₁
      generalize hf : deduplicatorFault .start (c.startDeduplicator g₁.rest).1 = fault at hded
      have hmarks' : (g₁.asked c.startDeduplicator deduplicatorStartMark).marks =
          g.marks ++ (((List.range c.count).map .receiver).map (.started · none) ++ [.started .deduplicator fault]) := by
        rw [Ground.asked, deduplicatorStartMark, hf, hmarks, List.append_assoc]
      cases fault with
      | none =>
        refine ⟨none, js, c.parts, _, g₁.asked c.startDeduplicator deduplicatorStartMark, .all, ?_, hrunning, nofun,
          fun g₂ _ hcrew => start_of_all hup hded hcrew⟩
        rw [hmarks', hparts, List.map_append]
        rfl
      | some e =>
        refine ⟨some e, js, _, _, _, .failed _ .deduplicator [] e hparts, hmarks', hrunning, fun e' g₂ he hdown => ?_, nofun⟩
        cases he
        exact ⟨hjs.symm, start_of_deduplicator hup hded hdown⟩

variable {sink} in
theorem perform_start {fault : Option LifecycleFault} {g' : Ground σ} (h : c.pipeline.startWith sink g = (fault, g')) :
    c.pipeline.perform ⟨.initialized, some sink⟩ .start g =
      ((⟨if fault.isNone then .started else .initialized, some sink⟩, fault), g') := by
  have hstart : c.pipeline.start ⟨.initialized, some sink⟩ g =
      (fault.elim (.ok ⟨.started, some sink⟩) .error, g') := by
    cases fault <;> exact bind_eq h
  cases fault <;> exact bind_eq hstart

theorem start_phase (g : Ground σ) : ∃ l' fault g',
    c.pipeline.perform ⟨.initialized, some sink⟩ .start g = ((l', fault), g') ∧
      c.Phase ⟨.initialized, some sink⟩ g .start l' fault g' := by
  obtain ⟨fault, js, up, ms, g₁, hraised, hmarks, hrunning, hfailed, hall⟩ := start_raised (c := c) sink g
  cases hraised with
  | failed _ p rest e hparts =>
    obtain ⟨g₂, stops, hdown, hstopped, hmarks', hrunning'⟩ := takeDown_stopped (c := c) js.reverse g₁
    obtain ⟨hup, hstart⟩ := hfailed e g₂ rfl hdown
    refine ⟨_, _, g₂, perform_start hstart, .startFailed up p rest e stops g₂ rfl hparts ?_ ?_ (hrunning'.trans hrunning)⟩
    · rw [hup, ← hrunning, ← List.map_reverse]
      exact hstopped
    · rw [hmarks', hmarks, List.append_assoc, List.append_assoc]
      rfl
  | all =>
    refine ⟨_, _, _, perform_start (hall _ rfl (beginWorkers_crew sink g₁)), .started _ rfl ?_ ?_⟩
    · rw [hmarks, List.append_assoc]
    · rw [hrunning]

variable {sink}

theorem stop_phase (core : Option (Intake (StateM (Ground σ)))) (g : Ground σ) : ∃ l' fault g',
    c.pipeline.perform ⟨.started, core⟩ .stop g = ((l', fault), g') ∧ c.Phase ⟨.started, core⟩ g .stop l' fault g' := by
  let g₀ : Ground σ := { g with running := [], marks := g.marks ++ [.workersEnded] }
  have hend : c.pipeline.endWorkers g = ((), g₀) := rfl
  obtain ⟨g', stops, hrun, hstopped, hmarks, hrunning⟩ := stop_stopped (c := c) g₀
  refine ⟨⟨.stopped, core⟩, stops.findSome? Mark.fault?, g', ?_, .stopped stops g' rfl hstopped ?_ hrunning⟩
  · refine (bind_eq hend).trans ?_
    exact congrArg (fun p : Option LifecycleFault × Ground σ => ((Lifecycle.mk .stopped core, p.1), p.2)) hrun
  · rw [hmarks, List.append_assoc]
    rfl

theorem prepare_phase (core : Option (Intake (StateM (Ground σ)))) (g : Ground σ) : ∃ l' fault g',
    c.pipeline.perform ⟨.created, core⟩ .prepare g = ((l', fault), g') ∧
      c.Phase ⟨.created, core⟩ g .prepare l' fault g' := by
  have hempty : c.pipeline.receivers.isEmpty = decide (c.count = 0) := by
    cases h : c.count with
    | zero => simp [pipeline, h]
    | succ n => simp [pipeline, h, List.range_succ_eq_map]
  have hrun : ∀ r : Except LifecycleFault (Lifecycle (StateM (Ground σ))), c.pipeline.prepare ⟨.created, core⟩ = r →
      c.pipeline.perform ⟨.created, core⟩ .prepare g = (Lifecycle.along ⟨.created, core⟩ r, g) := fun r hr => by
    rw [Pipeline.perform, hr]
    rfl
  simp only [Pipeline.prepare, hempty] at hrun
  by_cases hc : c.count = 0
  · exact ⟨_, _, g, hrun (.error .noReceivers) (by simp [hc]), .noReceivers rfl hc⟩
  · cases hd : c.decode with
    | none => exact ⟨_, _, g, hrun (.error .noDecoder) (by simp [hc, pipeline, hd]), .noDecoder rfl hc hd⟩
    | some decode =>
      exact ⟨_, _, g, hrun (.ok ⟨.initialized, some (c.pipeline.intake decode)⟩) (by simp [hc, pipeline, hd]),
        .prepared decode rfl hc hd⟩

/-- A pipeline has a core of its parts from its preparation to its termination. -/
def Furnished (c : Plant σ) (l : Lifecycle (StateM (Ground σ))) : Prop :=
  match l.state with
  | .created | .terminated => l.core = none
  | .initialized | .started | .stopped => ∃ decode, c.decode = some decode ∧ l.core = some (c.pipeline.intake decode)

/-- Nothing else happens. -/
theorem phase (l : Lifecycle (StateM (Ground σ))) (hl : c.Furnished l) (step : LifecycleStep) (g : Ground σ) :
    ∃ l' fault g', c.pipeline.perform l step g = ((l', fault), g') ∧ c.Phase l g step l' fault g' := by
  obtain ⟨s, core⟩ := l
  cases step with
  | prepare =>
    cases s with
    | created => exact prepare_phase core g
    | initialized | started | stopped | terminated => exact ⟨_, _, g, rfl, .refused .prepare rfl⟩
  | start =>
    cases s with
    | initialized =>
      obtain ⟨decode, -, rfl⟩ : ∃ decode, c.decode = some decode ∧ core = some (c.pipeline.intake decode) := hl
      exact start_phase _ g
    | created | started | stopped | terminated => exact ⟨_, _, g, rfl, .refused .start rfl⟩
  | stop =>
    cases s with
    | started => exact stop_phase core g
    | created | initialized | stopped | terminated => exact ⟨_, _, g, rfl, .refused .stop rfl⟩
  | terminate =>
    cases s with
    | created | initialized | stopped => exact ⟨_, _, g, rfl, .terminated rfl⟩
    | started | terminated => exact ⟨_, _, g, rfl, .refused .terminate rfl⟩

/-! ## A life -/

structure Life (σ : Type) extends Lifecycle (StateM (Ground σ)) where
  ground : Ground σ
  /-- The requests so far, each with its fault. -/
  history : List (LifecycleStep × Option LifecycleFault)

inductive Move where
  | request (step : LifecycleStep)
  /-- One of the workers ends by itself. -/
  | workerEnds (k : Nat)

variable (c)

def request (l : Life σ) (step : LifecycleStep) : Life σ where
  toLifecycle := (c.pipeline.perform l.toLifecycle step l.ground).1.1
  ground := (c.pipeline.perform l.toLifecycle step l.ground).2
  history := l.history ++ [(step, (c.pipeline.perform l.toLifecycle step l.ground).1.2)]

def move (l : Life σ) : Move → Life σ
  | .request step => c.request l step
  | .workerEnds k => { l with ground := { l.ground with running := l.ground.running.eraseIdx k } }

/-- From the beginning, with the parts in whatever state. -/
def lived (rest : σ) (moves : List Move) : Life σ := moves.foldl c.move ⟨.fresh, ⟨rest, [], []⟩, []⟩

/-- How often a part has been started with success. -/
def starts (p : Part) (ms : List Mark) : Nat := ms.countP (Mark.isStart p)

/-- How often a part has been told to stop. -/
def stops (p : Part) (ms : List Mark) : Nat := ms.countP (Mark.isStop p)

structure Balanced (l : Life σ) : Prop where
  /-- Every part has been started once more than stopped, or as often. -/
  balance : ∀ p ∈ c.parts, starts p l.ground.marks = stops p l.ground.marks + if l.state = .started then 1 else 0
  idle : l.state ≠ .started → l.ground.running = []
  /-- Nothing is stopped while a worker is running. -/
  alone : ∀ p running fault, .stopped p running fault ∈ l.ground.marks → running = 0
  /-- There is a core from the success of preparing to that of terminating. -/
  core : l.core.isSome = true ↔ (.prepare, none) ∈ l.history ∧ (.terminate, none) ∉ l.history
  sink : l.core.isSome = true ↔ l.state = .initialized ∨ l.state = .started ∨ l.state = .stopped
  /-- It is made of the parts of the pipeline. -/
  made : ∀ i ∈ l.core, ∃ decode, c.decode = some decode ∧ i = c.pipeline.intake decode

variable {c}

theorem nodup_parts : c.parts.Nodup := by
  have h : ((List.range c.count).map Part.receiver).Nodup :=
    List.nodup_range.map fun i j h => by cases h; rfl
  rw [parts]
  refine List.nodup_append.2 ⟨h, ?_, ?_⟩
  · split
    · exact List.nodup_singleton _
    · exact List.nodup_nil
  · rintro p hp q hq rfl
    obtain ⟨i, -, rfl⟩ := List.mem_map.1 hp
    split at hq
    · cases List.mem_singleton.1 hq
    · cases hq

theorem starts_append (p : Part) (as bs : List Mark) : starts p (as ++ bs) = starts p as + starts p bs := List.countP_append

theorem stops_append (p : Part) (as bs : List Mark) : stops p (as ++ bs) = stops p as + stops p bs := List.countP_append

/-- Parts that all start are each started once, and not stopped. -/
theorem counts_started (p : Part) (ps : List Part) :
    starts p (ps.map (.started · none)) = ps.count p ∧ stops p (ps.map (.started · none)) = 0 := by
  induction ps with
  | nil => exact ⟨rfl, rfl⟩
  | cons q ps ih =>
    rw [starts, stops, List.map_cons, List.countP_cons, List.countP_cons, List.count_cons]
    exact ⟨congrArg (· + _) ih.1, ih.2⟩

theorem Stopped.counts {running : Nat} {ps : List Part} {ms : List Mark} (h : Stopped running ps ms) (p : Part) :
    starts p ms = 0 ∧ stops p ms = ps.count p := by
  induction ps generalizing ms with
  | nil =>
    rw [List.map_eq_nil_iff.1 h]
    exact ⟨rfl, rfl⟩
  | cons q ps ih =>
    obtain ⟨m, ms, rfl, hm, hms⟩ := List.map_eq_cons_iff.1 h
    obtain ⟨h₁, h₂⟩ := ih hms
    cases m with
    | stopped q' r f =>
      cases hm
      rw [starts, stops, List.countP_cons, List.countP_cons, List.count_cons]
      exact ⟨h₁, congrArg (· + _) h₂⟩
    | started | began | workersEnded => exact nomatch hm

theorem counts_began (p : Part) (ws : List (Nat × Nat)) :
    starts p (ws.map fun w => .began w.1 w.2) = 0 ∧ stops p (ws.map fun w => .began w.1 w.2) = 0 := by
  induction ws with
  | nil => exact ⟨rfl, rfl⟩
  | cons w ws ih => exact ih

theorem Stopped.alone {ps : List Part} {ms : List Mark} (h : Stopped 0 ps ms) {p : Part} {running : Nat}
    {fault : Option LifecycleFault} (hm : .stopped p running fault ∈ ms) : running = 0 := by
  have hmem := List.mem_map_of_mem (f := Mark.stop?) hm
  rw [h] at hmem
  obtain ⟨q, -, hq⟩ := List.mem_map.1 hmem
  cases hq
  rfl

/-- What the requests so far must have come to in a state. -/
def Told (history : List (LifecycleStep × Option LifecycleFault)) : LifecycleState → Prop
  | .created => (.prepare, none) ∉ history ∧ (.terminate, none) ∉ history
  | .terminated => (.terminate, none) ∈ history
  | _ => (.prepare, none) ∈ history ∧ (.terminate, none) ∉ history

structure Inv (c : Plant σ) (l : Life σ) : Prop where
  balance : ∀ p ∈ c.parts, starts p l.ground.marks = stops p l.ground.marks + if l.state = .started then 1 else 0
  idle : l.state ≠ .started → l.ground.running = []
  alone : ∀ p running fault, .stopped p running fault ∈ l.ground.marks → running = 0
  told : Told l.history l.state
  furnished : c.Furnished l.toLifecycle

theorem Furnished.isSome_core {l : Lifecycle (StateM (Ground σ))} (h : c.Furnished l) :
    l.core.isSome = true ↔ l.state = .initialized ∨ l.state = .started ∨ l.state = .stopped := by
  unfold Furnished at h
  cases hs : l.state <;> rw [hs] at h
  case created | terminated =>
    rw [h]
    simp
  case initialized | started | stopped =>
    obtain ⟨decode, -, h⟩ := h
    rw [h]
    simp

theorem Furnished.made {l : Lifecycle (StateM (Ground σ))} (h : c.Furnished l) {i : Intake (StateM (Ground σ))}
    (hi : i ∈ l.core) : ∃ decode, c.decode = some decode ∧ i = c.pipeline.intake decode := by
  rw [Option.mem_def] at hi
  unfold Furnished at h
  cases hs : l.state <;> rw [hs] at h
  case created | terminated =>
    rw [h] at hi
    cases hi
  case initialized | started | stopped =>
    obtain ⟨decode, hdecode, h⟩ := h
    exact ⟨decode, hdecode, Option.some_inj.1 (hi.symm.trans h)⟩

theorem Told.iff {history : List (LifecycleStep × Option LifecycleFault)} {s : LifecycleState} (h : Told history s) :
    (s = .initialized ∨ s = .started ∨ s = .stopped) ↔ (.prepare, none) ∈ history ∧ (.terminate, none) ∉ history := by
  cases s with
  | created => exact ⟨by simp, fun hp => absurd hp.1 h.1⟩
  | initialized | started | stopped => exact ⟨fun _ => h, by simp⟩
  | terminated => exact ⟨by simp, fun hp => absurd h hp.2⟩

theorem Inv.balanced {l : Life σ} (h : Inv c l) : c.Balanced l :=
  ⟨h.balance, h.idle, h.alone, h.furnished.isSome_core.trans h.told.iff, h.furnished.isSome_core,
    fun _ => h.furnished.made⟩

theorem told_of_fault {history : List (LifecycleStep × Option LifecycleFault)} {s : LifecycleState} (step : LifecycleStep)
    (e : LifecycleFault) (h : Told history s) : Told (history ++ [(step, some e)]) s := by
  have hmem : ∀ step', (step', none) ∈ history ++ [(step, some e)] ↔ (step', none) ∈ history := by simp
  cases s <;> simpa only [Told, hmem] using h

/-- Between a balance of `before` and one of `after`, nothing was stopped beside a worker. -/
structure Adds (c : Plant σ) (before after : Nat) (ms : List Mark) : Prop where
  balance : ∀ p ∈ c.parts, starts p ms + before = stops p ms + after
  alone : ∀ p running fault, .stopped p running fault ∈ ms → running = 0

/-- What is started is stopped again. -/
theorem failed_adds (c : Plant σ) {up : List Part} {stops : List Mark} (h : Stopped 0 up.reverse stops) (p : Part)
    (e : LifecycleFault) : c.Adds 0 0 (up.map (.started · none) ++ .started p (some e) :: stops) := by
  refine ⟨?_, ?_⟩
  · intro q _
    obtain ⟨h₁, h₂⟩ := counts_started q up
    obtain ⟨h₃, h₄⟩ := h.counts q
    have h₅ : starts q (.started p (some e) :: stops) = starts q stops := rfl
    have h₆ : Plant.stops q (.started p (some e) :: stops) = Plant.stops q stops := rfl
    rw [starts_append, stops_append, h₁, h₂, h₅, h₆, h₃, h₄, List.count_reverse]
    omega
  · intro q running fault hm
    rcases List.mem_append.1 hm with hm | hm
    · obtain ⟨_, -, hm⟩ := List.mem_map.1 hm
      cases hm
    · rcases List.mem_cons.1 hm with hm | hm
      · cases hm
      · exact h.alone hm

theorem started_adds (c : Plant σ) : c.Adds 0 1 (c.parts.map (.started · none) ++ c.crew.map fun w => .began w.1 w.2) := by
  refine ⟨?_, ?_⟩
  · intro q hq
    obtain ⟨h₁, h₂⟩ := counts_started q c.parts
    obtain ⟨h₃, h₄⟩ := counts_began q c.crew
    rw [starts_append, stops_append, h₁, h₂, h₃, h₄, List.count_eq_one_of_mem nodup_parts hq]
  · intro q running fault hm
    rcases List.mem_append.1 hm with hm | hm
    · obtain ⟨_, -, hm⟩ := List.mem_map.1 hm
      cases hm
    · obtain ⟨_, -, hm⟩ := List.mem_map.1 hm
      cases hm

theorem stopped_adds {stops : List Mark} (h : Stopped 0 c.parts.reverse stops) : c.Adds 1 0 (.workersEnded :: stops) := by
  refine ⟨?_, ?_⟩
  · intro q hq
    obtain ⟨h₁, h₂⟩ := h.counts q
    have h₃ : starts q (.workersEnded :: stops) = starts q stops := rfl
    have h₄ : Plant.stops q (.workersEnded :: stops) = Plant.stops q stops := rfl
    rw [h₃, h₄, h₁, h₂, List.count_reverse, List.count_eq_one_of_mem nodup_parts hq]
  · intro q running fault hm
    rcases List.mem_cons.1 hm with hm | hm
    · cases hm
    · exact h.alone hm

/-- A request that adds such marks keeps the invariant. -/
theorem Inv.added {l : Life σ} (h : Inv c l) {l' : Lifecycle (StateM (Ground σ))} {g' : Ground σ} {ms : List Mark}
    {history : List (LifecycleStep × Option LifecycleFault)} (hmarks : g'.marks = l.ground.marks ++ ms)
    (hadds : c.Adds (if l.state = .started then 1 else 0) (if l'.state = .started then 1 else 0) ms)
    (hidle : l'.state ≠ .started → g'.running = []) (htold : Told history l'.state) (hcore : c.Furnished l') :
    Inv c ⟨l', g', history⟩ := by
  refine ⟨?_, hidle, ?_, htold, hcore⟩
  · intro p hp
    have h₀ := h.balance p hp
    have h₁ := hadds.balance p hp
    show starts p g'.marks = stops p g'.marks + if l'.state = .started then 1 else 0
    rw [hmarks, starts_append, stops_append]
    omega
  · intro p running fault hm
    rw [show (Life.ground ⟨l', g', history⟩).marks = _ from hmarks] at hm
    rcases List.mem_append.1 hm with hm | hm
    · exact h.alone p running fault hm
    · exact hadds.alone p running fault hm

theorem step_inv {l : Life σ} (hl : Inv c l) {step : LifecycleStep} {l' : Lifecycle (StateM (Ground σ))}
    {fault : Option LifecycleFault} {g' : Ground σ} (hp : c.Phase l.toLifecycle l.ground step l' fault g') :
    Inv c ⟨l', g', l.history ++ [(step, fault)]⟩ := by
  have htold := hl.told
  have hcore := hl.furnished
  cases hp with
  | refused _ _ => exact ⟨hl.balance, hl.idle, hl.alone, told_of_fault _ _ htold, hcore⟩
  | noReceivers _ _ => exact ⟨hl.balance, hl.idle, hl.alone, told_of_fault _ _ htold, hcore⟩
  | noDecoder _ _ _ => exact ⟨hl.balance, hl.idle, hl.alone, told_of_fault _ _ htold, hcore⟩
  | prepared decode hs _ hdecode =>
    rw [hs] at htold
    refine ⟨?_, ?_, hl.alone, ⟨by simp, by simpa using htold.2⟩, ⟨decode, hdecode, rfl⟩⟩
    · intro p hp
      have h₀ := hl.balance p hp
      rw [hs] at h₀
      exact h₀
    · intro _
      exact hl.idle (by rw [hs]; nofun)
  | startFailed up p rest e stops _ hs hparts hstopped hmarks hrunning =>
    have hidle : l.ground.running = [] := hl.idle (by rw [hs]; nofun)
    rw [hidle] at hstopped
    refine hl.added hmarks ?_ (fun _ => hrunning.trans hidle) (told_of_fault _ e htold) hcore
    rw [hs]
    exact failed_adds c hstopped p e
  | started _ hs hmarks hrunning =>
    rw [hs] at htold
    rw [Furnished, hs] at hcore
    refine hl.added hmarks ?_ (fun h => absurd rfl h) ⟨by simpa using htold.1, by simpa using htold.2⟩ hcore
    rw [hs]
    exact started_adds c
  | stopped stops _ hs hstopped hmarks hrunning =>
    rw [hs] at htold
    rw [Furnished, hs] at hcore
    refine hl.added hmarks ?_ (fun _ => hrunning) ⟨by simpa using htold.1, by simpa using htold.2⟩ hcore
    rw [hs]
    exact stopped_adds hstopped
  | terminated hs =>
    have hne : l.state ≠ .started := by
      intro h
      rw [h] at hs
      cases hs
    refine ⟨?_, fun _ => hl.idle hne, hl.alone, by simp [Told], rfl⟩
    intro q hq
    have h₀ := hl.balance q hq
    rw [if_neg hne] at h₀
    exact h₀

theorem move_inv {l : Life σ} (h : Inv c l) (mv : Move) : Inv c (c.move l mv) := by
  cases mv with
  | request step =>
    obtain ⟨l', fault, g', hrun, hp⟩ := phase (c := c) l.toLifecycle h.furnished step l.ground
    show Inv c (c.request l step)
    rw [request, hrun]
    exact step_inv h hp
  | workerEnds k =>
    refine ⟨h.balance, fun hs => ?_, h.alone, h.told, h.furnished⟩
    show l.ground.running.eraseIdx k = []
    rw [h.idle hs]
    rfl

theorem lived_inv (c : Plant σ) (rest : σ) (moves : List Move) : Inv c (c.lived rest moves) := by
  have hstart : Inv c ⟨.fresh, ⟨rest, [], []⟩, []⟩ :=
    ⟨fun _ _ => rfl, fun _ => rfl, fun _ _ _ h => (nomatch h), ⟨nofun, nofun⟩, rfl⟩
  rw [lived]
  generalize (⟨.fresh, ⟨rest, [], []⟩, []⟩ : Life σ) = l at hstart
  induction moves generalizing l with
  | nil => exact hstart
  | cons mv moves ih => exact ih _ (move_inv hstart mv)

/-- Parts of any number succeed and fail as they like, and requests come in any order: at any time
starts and stops balance, and the next request does one of the things in `Phase`. -/
theorem lifecycle_balanced (c : Plant σ) (rest : σ) (moves : List Move) :
    c.Balanced (c.lived rest moves) ∧
      ∀ step, ∃ fault, (c.request (c.lived rest moves) step).history = (c.lived rest moves).history ++ [(step, fault)] ∧
        c.Phase (c.lived rest moves).toLifecycle (c.lived rest moves).ground step
          (c.request (c.lived rest moves) step).toLifecycle fault (c.request (c.lived rest moves) step).ground := by
  have hinv := lived_inv c rest moves
  refine ⟨hinv.balanced, fun step => ?_⟩
  generalize c.lived rest moves = l at hinv
  obtain ⟨l', fault, g', hrun, hp⟩ := phase (c := c) l.toLifecycle hinv.furnished step l.ground
  refine ⟨fault, ?_, ?_⟩
  · rw [request, hrun]
  · rw [request, hrun]
    exact hp

end Plant
end DeviceEvents
