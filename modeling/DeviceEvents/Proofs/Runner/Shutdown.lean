import DeviceEvents.Runner
/-
  DeviceEvents.Proofs.Runner.Shutdown — how a run of processes comes to its end.

  Actors. Processes end as they like, closers have their turns and end as they like, anybody
  cancels, time passes. The runner waits, drains and closes. A run is any list of such steps, each
  possible where it is made; what the runner gets to know is told by the marks.

  Proved, for every run (`shutdown_exact`): the outcome is read off the marks from before the
  runner stopped waiting, and nothing later changes it. All processes have ended when the first
  closer begins. No closer begins twice, and none is kept from it by the others; but those that
  have not had their turn when the time is up never begin, and with no time at all that may be
  all of them (`closers_unbegun`). The closers are over as soon as all have ended or their time is
  up: until then time passes, never beyond the limit, and no more of it once all have ended.
-/

namespace DeviceEvents

theorem Ending.eq_ok {e : Ending} {name : String} (h : e.failure? name = none) : e = .ok := by
  cases e <;> trivial

/-- How often a closer has begun, as its state tells. -/
def Closer.times : Closer → Nat
  | .pending => 0
  | _ => 1

theorem Closer.times_abandon (c : Closer) : c.abandon.times = c.times := by
  cases c <;> rfl

namespace Run

/-! ## Marks -/

/-- What the runner gets to know, and what it sets going. -/
inductive Mark where
  | cancelled
  /-- The runner sees that a process has ended. -/
  | joined (process : String) (e : Ending)
  /-- It stops waiting, and no failure is the reason. -/
  | stopped
  | began (closer : Nat)

namespace Mark

def isCancel : Mark → Bool
  | .cancelled => true
  | _ => false

def isStop : Mark → Bool
  | .stopped => true
  | _ => false

theorem eq_stopped {m : Mark} (h : m.isStop = true) : m = .stopped := by
  cases m <;> trivial

def isBegin (i : Nat) : Mark → Bool
  | .began k => k == i
  | _ => false

def failure? : Mark → Option (String × Failure)
  | .joined process e => e.failure? process
  | _ => none

end Mark

/-- The marks from before the runner saw a cancellation, or that no process was left. -/
def inTime (marks : List Mark) : List Mark := marks.takeWhile (!·.isStop)

/-- The first failure that the runner got to know in time. -/
def firstFailure (marks : List Mark) : Option (String × Failure) := (inTime marks).findSome? Mark.failure?

def cancelledInTime (marks : List Mark) : Bool := (inTime marks).any Mark.isCancel

/-- What is to be reported. -/
def verdict (failure : Option (String × Failure)) (wasCancelled : Bool) : RunOutcome :=
  match failure with
  | some (process, f) => .failed process f
  | none => if wasCancelled then .cancelled else .completed

/-- How often a closer has begun. -/
def begun (marks : List Mark) (i : Nat) : Nat := marks.countP (Mark.isBegin i)

section

variable {marks more : List Mark}

theorem inTime_of_waiting (h : ∀ m ∈ marks, m.isStop = false) : inTime (marks ++ more) = marks ++ inTime more :=
  List.takeWhile_append_of_pos fun m hm => by rw [h m hm]; rfl

theorem inTime_eq_self (h : ∀ m ∈ marks, m.isStop = false) : inTime marks = marks := by
  have hall := @inTime_of_waiting marks [] h
  rwa [List.append_nil, show inTime [] = [] from rfl, List.append_nil] at hall

theorem inTime_of_stopped (h : ∃ m ∈ marks, m.isStop = true) : inTime (marks ++ more) = inTime marks := by
  induction marks with
  | nil =>
    obtain ⟨m, hm, -⟩ := h
    cases hm
  | cons first marks ih =>
    cases hfirst : first.isStop with
    | true => simp [inTime, hfirst]
    | false =>
      have hlater : ∃ m ∈ marks, m.isStop = true := by
        obtain ⟨m, hm, hstop⟩ := h
        rcases List.mem_cons.1 hm with rfl | hm
        · rw [hfirst] at hstop
          cases hstop
        · exact ⟨m, hm, hstop⟩
      have hrest := ih hlater
      simp only [inTime] at hrest ⊢
      simp [hfirst, hrest]

theorem firstFailure_append {f : String × Failure} (h : firstFailure marks = some f) :
    firstFailure (marks ++ more) = some f := by
  by_cases hstop : ∃ m ∈ marks, m.isStop = true
  · rw [firstFailure, inTime_of_stopped hstop]
    exact h
  · have hwaiting : ∀ m ∈ marks, m.isStop = false := fun m hm => by
      simpa using fun hs => hstop ⟨m, hm, hs⟩
    rw [firstFailure, inTime_eq_self hwaiting] at h
    rw [firstFailure, inTime_of_waiting hwaiting, List.findSome?_append, h]
    rfl

end

/-! ## One step -/

/-- What a step tells. -/
def marksOf (r : Run) : Step → List Mark
  | .cancel => [.cancelled]
  | .join i =>
    match r.processes[i]? with
    | some ⟨name, some e, _⟩ => [.joined name e]
    | _ => []
  | .stopWaiting => [.stopped]
  | .closerBegins i => [.began i]
  | _ => []

/-- What a step needs and does. -/
inductive Goes (r : Run) : Step → Run → List Mark → Prop where
  | cancelled : Goes r .cancel r.cancel [.cancelled]
  | finished (i : Nat) (name : String) (joined : Bool) (e : Ending) (h : r.processes[i]? = some ⟨name, none, joined⟩) :
    Goes r (.finish i e) { r with processes := r.processes.set i ⟨name, some e, joined⟩ } []
  | joined (i : Nat) (name : String) (e : Ending) (h : r.processes[i]? = some ⟨name, some e, false⟩)
    (hp : r.phase = .draining ∨ r.phase = .waiting ∧ e.failure? name = none) :
    Goes r (.join i) { r with processes := r.processes.set i ⟨name, some e, true⟩ } [.joined name e]
  | failed (i : Nat) (name : String) (e : Ending) (f : String × Failure)
    (h : r.processes[i]? = some ⟨name, some e, false⟩) (hp : r.phase = .waiting) (hf : e.failure? name = some f) :
    Goes r (.join i) ({ r with processes := r.processes.set i ⟨name, some e, true⟩ }.drain (some f)) [.joined name e]
  | stopped (hp : r.phase = .waiting) (h : r.isCancelled = true ∨ r.allJoined = true) :
    Goes r .stopWaiting (r.drain none) [.stopped]
  | closersStarted (hp : r.phase = .draining) (h : r.allJoined = true) :
    Goes r .startClosers { r with phase := .closing } []
  | closerBegan (i : Nat) (hp : r.phase = .closing) (h : r.closers[i]? = some .pending) :
    Goes r (.closerBegins i) { r with closers := r.closers.set i .running } [.began i]
  | closerEnded (i : Nat) (e : Ending) (hp : r.phase = .closing) (h : r.closers[i]? = some .running) :
    Goes r (.closerEnds i e) { r with closers := r.closers.set i (.ended e) } []
  | passed (ms : Nat) (hp : r.phase = .closing) (hopen : r.closers.all Closer.isEnded = false)
    (hlimit : r.spent + ms ≤ r.limit) : Goes r (.pass ms) { r with spent := r.spent + ms } []
  | closed (hp : r.phase = .closing) (h : r.closers.all Closer.isEnded = true) :
    Goes r .close { r with phase := .ended } []
  | timedOut (hp : r.phase = .closing) (h : r.limit ≤ r.spent) :
    Goes r .timeout { r with phase := .ended, closers := r.closers.map Closer.abandon } []

variable {r r' : Run} {a : Step} {marks : List Mark}

theorem goes_of_join {i : Nat} (h : r.join? i = some r') : r.Goes (.join i) r' (r.marksOf (.join i)) := by
  unfold join? at h
  split at h
  · rename_i name e hi
    have hmarks : r.marksOf (.join i) = [.joined name e] := by rw [marksOf, hi]
    rw [hmarks]
    dsimp only at h
    split at h
    · rename_i hp
      cases hf : e.failure? name with
      | none =>
        simp only [noteEnding, hf] at h
        cases h
        exact .joined i name e hi (.inr ⟨hp, hf⟩)
      | some f =>
        simp only [noteEnding, hf] at h
        cases h
        exact .failed i name e f hi hp hf
    · rename_i hp
      cases h
      exact .joined i name e hi (.inl hp)
    · cases h
  · cases h

theorem goes_of_step (h : r.step? a = some r') : r.Goes a r' (r.marksOf a) := by
  cases a with
  | cancel =>
    cases h
    exact .cancelled
  | finish i e =>
    simp only [step?, finish?] at h
    split at h
    · rename_i name joined hi
      cases h
      exact .finished i name joined e hi
    · cases h
  | join i => exact goes_of_join h
  | stopWaiting =>
    obtain ⟨⟨hp, hall⟩, hr⟩ := Option.ite_none_right_eq_some.1 h
    cases hr
    exact .stopped hp (by simpa using hall)
  | startClosers =>
    obtain ⟨⟨hp, hall⟩, hr⟩ := Option.ite_none_right_eq_some.1 h
    cases hr
    exact .closersStarted hp hall
  | closerBegins i =>
    simp only [step?, closerBegins?] at h
    split at h
    · rename_i hp hi
      cases h
      exact .closerBegan i hp hi
    · cases h
  | closerEnds i e =>
    simp only [step?, closerEnds?] at h
    split at h
    · rename_i hp hi
      cases h
      exact .closerEnded i e hp hi
    · cases h
  | pass ms =>
    obtain ⟨⟨hp, hopen, hlimit⟩, hr⟩ := Option.ite_none_right_eq_some.1 h
    cases hr
    exact .passed ms hp hopen hlimit
  | close =>
    obtain ⟨⟨hp, hall⟩, hr⟩ := Option.ite_none_right_eq_some.1 h
    cases hr
    exact .closed hp hall
  | timeout =>
    obtain ⟨⟨hp, hlimit⟩, hr⟩ := Option.ite_none_right_eq_some.1 h
    cases hr
    exact .timedOut hp hlimit

/-- A runner that does not wait any more has made up its mind. -/
theorem Goes.keeps (h : r.Goes a r' marks) (hp : r.phase ≠ .waiting) :
    r'.failure = r.failure ∧ r'.wasCancelled = r.wasCancelled ∧ r'.phase ≠ .waiting ∧
      (r.isCancelled = true → r'.isCancelled = true) := by
  cases h with
  | failed _ _ _ _ _ hw => exact absurd hw hp
  | stopped hw => exact absurd hw hp
  | cancelled => exact ⟨rfl, rfl, hp, fun _ => rfl⟩
  | closersStarted | closed | timedOut => exact ⟨rfl, rfl, nofun, id⟩
  | finished | joined | closerBegan | closerEnded | passed => exact ⟨rfl, rfl, hp, id⟩

/-- A runner that waits goes on waiting, gets to know a failure, or stops without one. -/
theorem Goes.turns (h : r.Goes a r' marks) (hp : r.phase = .waiting) :
    (r'.phase = .waiting ∧ r'.failure = r.failure ∧ (∀ m ∈ marks, m.isStop = false) ∧
      marks.findSome? Mark.failure? = none ∧ r'.isCancelled = (r.isCancelled || marks.any Mark.isCancel)) ∨
    (∃ f, r'.phase = .draining ∧ r'.failure = some f ∧ r'.isCancelled = true ∧ (∀ m ∈ marks, m.isStop = false) ∧
      marks.findSome? Mark.failure? = some f) ∨
    (marks = [.stopped] ∧ r' = r.drain none ∧ (r.isCancelled = true ∨ r.allJoined = true)) := by
  cases h with
  | cancelled => exact .inl ⟨hp, rfl, by simp [Mark.isStop], rfl, by simp [cancel, Mark.isCancel]⟩
  | finished => exact .inl ⟨hp, rfl, by simp, rfl, by simp⟩
  | joined i name e hi hw =>
    rcases hw with hw | ⟨-, hf⟩
    · rw [hp] at hw
      cases hw
    · exact .inl ⟨hp, rfl, by simp [Mark.isStop], by simp [Mark.failure?, hf], by simp [Mark.isCancel]⟩
  | failed i name e f hi _ hf =>
    exact .inr (.inl ⟨f, rfl, rfl, rfl, by simp [Mark.isStop], by simp [Mark.failure?, hf]⟩)
  | stopped _ hall => exact .inr (.inr ⟨rfl, rfl, hall⟩)
  | closersStarted hw | closerBegan _ hw | closerEnded _ _ hw | passed _ hw | closed hw | timedOut hw =>
    rw [hp] at hw
    cases hw

/-- What becomes of the processes in a step: at most one ends, or is seen to have ended. -/
theorem Goes.process (h : r.Goes a r' marks) {q : Process} (hq : q ∈ r'.processes) :
    q ∈ r.processes ∨ ∃ p ∈ r.processes,
      (p.ending = none ∧ q.ending.isSome = true ∧ q.isJoined = p.isJoined) ∨
      (q.ending = p.ending ∧ p.ending.isSome = true ∧ marks.findSome? Mark.failure? = p.ending.bind (·.failure? p.name)) := by
  cases h with
  | finished i name joined e hi =>
    rcases List.mem_or_eq_of_mem_set hq with hq | rfl
    · exact .inl hq
    · exact .inr ⟨_, List.mem_of_getElem? hi, .inl ⟨rfl, rfl, rfl⟩⟩
  | joined i name e hi | failed i name e f hi =>
    rcases List.mem_or_eq_of_mem_set hq with hq | rfl
    · exact .inl hq
    · refine .inr ⟨_, List.mem_of_getElem? hi, .inr ⟨rfl, rfl, ?_⟩⟩
      simp [Mark.failure?]
  | cancelled | stopped | closersStarted | closerBegan | closerEnded | passed | closed | timedOut => exact .inl hq

/-! ## Processes first, then closers -/

def times (r : Run) (i : Nat) : Nat := (r.closers[i]?.map Closer.times).getD 0

theorem times_set {c d : Closer} {i : Nat} (h : r.closers[i]? = some c) (k : Nat) :
    times { r with closers := r.closers.set i d } k = if k = i then d.times else r.times k := by
  obtain ⟨hlt, -⟩ := List.getElem?_eq_some_iff.1 h
  by_cases hk : k = i
  · subst hk
    simp [times, hlt]
  · simp [times, hk, Ne.symm hk]

theorem Goes.begins (h : r.Goes a r' marks) (k : Nat) : r'.times k = r.times k + begun marks k := by
  cases h with
  | closerBegan i hp hi =>
    have hnot : r.closers[i]?.map Closer.times = some 0 := by rw [hi]; rfl
    rw [times_set hi]
    by_cases hk : k = i
    · subst hk
      simp [times, hnot, begun, Mark.isBegin, Closer.times]
    · simp [begun, Mark.isBegin, hk, Ne.symm hk]
  | closerEnded i e hp hi =>
    have hone : r.closers[i]?.map Closer.times = some 1 := by rw [hi]; rfl
    rw [times_set hi]
    by_cases hk : k = i
    · subst hk
      simp [times, hone, begun, Closer.times]
    · simp [begun, hk]
  | timedOut =>
    have hsame : Closer.times ∘ Closer.abandon = Closer.times := funext Closer.times_abandon
    simp [times, begun, hsame]
  | cancelled | finished | joined | failed | stopped | closersStarted | passed | closed =>
    simp [times, begun, Mark.isBegin, drain, cancel]

/-- The order of things. -/
structure Ordered (r : Run) : Prop where
  joined : ∀ p ∈ r.processes, p.isJoined = true → p.ending.isSome = true
  gone : r.phase = .closing ∨ r.phase = .ended → r.allJoined = true
  early : r.phase = .waiting ∨ r.phase = .draining → (∀ c ∈ r.closers, c = .pending) ∧ r.spent = 0
  within : r.spent ≤ r.limit
  atEnd : r.phase = .ended → (∀ c ∈ r.closers, c.isEnded = true) ∨ r.spent = r.limit

theorem Goes.joined_step (h : r.Goes a r' marks) (hr : r.Ordered) :
    ∀ p ∈ r'.processes, p.isJoined = true → p.ending.isSome = true := by
  intro q hq hjoined
  rcases h.process hq with hq | ⟨p, hp, ⟨-, hsome, -⟩ | ⟨hsame, hsome, -⟩⟩
  · exact hr.joined q hq hjoined
  · exact hsome
  · rwa [hsame]

theorem Goes.ordered (h : r.Goes a r' marks) (hr : r.Ordered) : r'.Ordered := by
  have hjoined := h.joined_step hr
  cases h with
  | cancelled => exact ⟨hjoined, hr.gone, hr.early, hr.within, hr.atEnd⟩
  | finished i name joined e hi =>
    refine ⟨hjoined, fun hp => ?_, hr.early, hr.within, hr.atEnd⟩
    have hall := hr.gone hp
    refine List.all_eq_true.2 fun q hq => ?_
    rcases List.mem_or_eq_of_mem_set hq with hq | rfl
    · exact List.all_eq_true.1 hall q hq
    · have hthis : joined = true := List.all_eq_true.1 hall _ (List.mem_of_getElem? hi)
      exact hthis
  | joined i name e hi hp =>
    have hopen : r.phase = .waiting ∨ r.phase = .draining := by
      rcases hp with hp | ⟨hp, -⟩
      · exact .inr hp
      · exact .inl hp
    refine ⟨hjoined, fun hp' => ?_, hr.early, hr.within, fun hp' => ?_⟩
    · rcases hopen with hw | hw <;> rcases hp' with hp' | hp' <;> cases hw.symm.trans hp'
    · rcases hopen with hw | hw <;> cases hw.symm.trans hp'
  | failed i name e f hi hp => exact ⟨hjoined, by simp [drain], fun _ => hr.early (.inl hp), hr.within, nofun⟩
  | stopped hp => exact ⟨hjoined, by simp [drain], fun _ => hr.early (.inl hp), hr.within, nofun⟩
  | closersStarted hp hall => exact ⟨hjoined, fun _ => hall, by simp, hr.within, nofun⟩
  | closerBegan i hp | closerEnded i e hp =>
    exact ⟨hjoined, fun _ => hr.gone (.inl hp), by simp [hp], hr.within, by simp [hp]⟩
  | passed ms hp hopen hlimit =>
    exact ⟨hjoined, fun _ => hr.gone (.inl hp), by simp [hp], hlimit, by simp [hp]⟩
  | closed hp hall =>
    exact ⟨hjoined, fun _ => hr.gone (.inl hp), by simp, hr.within, fun _ => .inl (List.all_eq_true.1 hall)⟩
  | timedOut hp hlimit =>
    exact ⟨hjoined, fun _ => hr.gone (.inl hp), by simp, hr.within, fun _ => .inr (Nat.le_antisymm hr.within hlimit)⟩

/-- Closers that have all ended stay so, and no more time is spent on them. -/
theorem Goes.over (h : r.Goes a r' marks) (hp : r.phase = .closing ∨ r.phase = .ended)
    (hall : ∀ c ∈ r.closers, c.isEnded = true) :
    (r'.phase = .closing ∨ r'.phase = .ended) ∧ (∀ c ∈ r'.closers, c.isEnded = true) ∧ r'.spent = r.spent := by
  cases h with
  | cancelled | finished => exact ⟨hp, hall, rfl⟩
  | closed => exact ⟨.inr rfl, hall, rfl⟩
  | joined i name e hi hw =>
    rcases hw with hw | ⟨hw, -⟩ <;> rw [hw] at hp <;> rcases hp with hp | hp <;> cases hp
  | failed _ _ _ _ _ hw | stopped hw | closersStarted hw => rw [hw] at hp; rcases hp with hp | hp <;> cases hp
  | closerBegan i _ hi | closerEnded i _ _ hi => cases hall _ (List.mem_of_getElem? hi)
  | passed ms _ hopen =>
    rw [List.all_eq_true.2 hall] at hopen
    cases hopen
  | timedOut =>
    refine ⟨.inr rfl, fun c hc => ?_, rfl⟩
    obtain ⟨d, hd, rfl⟩ := List.mem_map.1 hc
    have hended := hall d hd
    cases d with
    | ended e => rfl
    | pending | running | abandoned => cases hended

theorem Goes.fixed (h : r.Goes a r' marks) : r'.limit = r.limit ∧ r'.closers.length = r.closers.length := by
  cases h with
  | closerBegan | closerEnded => exact ⟨rfl, List.length_set⟩
  | timedOut => exact ⟨rfl, List.length_map _⟩
  | cancelled | finished | joined | failed | stopped | closersStarted | passed | closed => exact ⟨rfl, rfl⟩

/-! ## The invariant -/

/-- A runner, and the marks so far. -/
structure Chronicle where
  run : Run
  marks : List Mark

namespace Chronicle

def start (processes : List String) (closers limit : Nat) (wasSet : Bool) : Chronicle :=
  ⟨.start processes closers limit wasSet, []⟩

def step? (s : Chronicle) (a : Step) : Option Chronicle :=
  (s.run.step? a).map fun r => ⟨r, s.marks ++ s.run.marksOf a⟩

def run? (s : Chronicle) (steps : List Step) : Option Chronicle := steps.foldlM step? s

variable {s t u : Chronicle} {steps : List Step} {wasSet : Bool} {processes : List String} {closers limit : Nat}

theorem step?_of_step (h : s.run.step? a = some r') : s.step? a = some ⟨r', s.marks ++ s.run.marksOf a⟩ := by
  rw [step?, h]
  rfl

theorem step?_eq_some (h : s.step? a = some t) : ∃ marks, s.run.Goes a t.run marks ∧ t.marks = s.marks ++ marks := by
  obtain ⟨r', hr, rfl⟩ := Option.map_eq_some_iff.1 h
  exact ⟨_, goes_of_step hr, rfl⟩

/-- What every step preserves holds after a run. -/
theorem run_induction {P : Chronicle → Prop} (hstep : ∀ s a t, s.step? a = some t → P s → P t)
    (h : s.run? steps = some t) (hs : P s) : P t := by
  induction steps generalizing s with
  | nil =>
    cases h
    exact hs
  | cons a steps ih =>
    obtain ⟨u, hu, hrest⟩ := Option.bind_eq_some_iff.1 h
    exact ih hrest (hstep s a u hu hs)

/-- Nothing has failed yet as far as the runner knows. -/
structure Waits (wasSet : Bool) (s : Chronicle) : Prop where
  unstopped : ∀ m ∈ s.marks, m.isStop = false
  unfailed : s.marks.findSome? Mark.failure? = none
  failure : s.run.failure = none
  isCancelled : s.run.isCancelled = (wasSet || s.marks.any Mark.isCancel)
  well : ∀ p ∈ s.run.processes, p.isJoined = true → p.ending = some .ok

/-- The outcome is settled. -/
structure Settled (wasSet : Bool) (s : Chronicle) : Prop where
  isCancelled : s.run.isCancelled = true
  failure : s.run.failure = firstFailure s.marks
  wasCancelled : s.run.failure = none → s.run.wasCancelled = (wasSet || cancelledInTime s.marks)
  stopped : s.run.failure = none → ∃ m ∈ s.marks, m.isStop = true
  well : s.run.failure = none → s.run.wasCancelled = false → ∀ p ∈ s.run.processes, p.ending = some .ok

theorem Settled.step (hs : s.Settled wasSet) (hp : s.run.phase ≠ .waiting) (h : s.step? a = some t) :
    t.Settled wasSet ∧ t.run.phase ≠ .waiting := by
  obtain ⟨marks, hgoes, hmarks⟩ := step?_eq_some h
  obtain ⟨hfailure, hwas, hphase, hcancelled⟩ := hgoes.keeps hp
  refine ⟨⟨hcancelled hs.isCancelled, ?_, fun hf => ?_, fun hf => ?_, fun hf hw q hq => ?_⟩, hphase⟩
  · rw [hfailure, hmarks]
    cases hf : s.run.failure with
    | some f => exact (firstFailure_append (hs.failure.symm.trans hf)).symm
    | none => rw [firstFailure, inTime_of_stopped (hs.stopped hf), ← hf, hs.failure, firstFailure]
  · rw [hfailure] at hf
    rw [hwas, hs.wasCancelled hf, hmarks, cancelledInTime, cancelledInTime, inTime_of_stopped (hs.stopped hf)]
  · rw [hfailure] at hf
    obtain ⟨m, hm, hstop⟩ := hs.stopped hf
    exact ⟨m, hmarks ▸ List.mem_append_left _ hm, hstop⟩
  · rw [hfailure] at hf
    rw [hwas] at hw
    have hwell := hs.well hf hw
    rcases hgoes.process hq with hq | ⟨p, hp, ⟨hnone, -, -⟩ | ⟨hsame, -, -⟩⟩
    · exact hwell q hq
    · rw [hwell p hp] at hnone
      cases hnone
    · rw [hsame, hwell p hp]

theorem Waits.well_step (hs : s.Waits wasSet) (hgoes : s.run.Goes a r' marks) (hfine : marks.findSome? Mark.failure? = none) :
    ∀ q ∈ r'.processes, q.isJoined = true → q.ending = some .ok := by
  intro q hq hjoined
  rcases hgoes.process hq with hq | ⟨p, hp, ⟨hnone, -, hsame⟩ | ⟨hsame, hsome, hmark⟩⟩
  · exact hs.well q hq hjoined
  · rw [hs.well p hp (hsame ▸ hjoined)] at hnone
    cases hnone
  · obtain ⟨e, he⟩ := Option.isSome_iff_exists.1 hsome
    rw [he, Option.bind_some, hfine] at hmark
    rw [hsame, he, Ending.eq_ok hmark.symm]

theorem Waits.step (hs : s.Waits wasSet) (hp : s.run.phase = .waiting) (h : s.step? a = some t) :
    t.run.phase = .waiting ∧ t.Waits wasSet ∨ t.run.phase ≠ .waiting ∧ t.Settled wasSet := by
  obtain ⟨marks, hgoes, hmarks⟩ := step?_eq_some h
  rcases hgoes.turns hp with ⟨hw, hfailure, hstop, hfine, hcancelled⟩ | ⟨f, hw, hfailure, hcancelled, hstop, hf⟩ |
    ⟨rfl, hr, hreason⟩
  · refine .inl ⟨hw, ⟨?_, ?_, hfailure.trans hs.failure, ?_, hs.well_step hgoes hfine⟩⟩
    · rw [hmarks]
      exact List.forall_mem_append.2 ⟨hs.unstopped, hstop⟩
    · rw [hmarks, List.findSome?_append, hs.unfailed, hfine]
      rfl
    · rw [hcancelled, hs.isCancelled, hmarks, List.any_append, Bool.or_assoc]
  · have hfirst : firstFailure t.marks = some f := by
      rw [hmarks, firstFailure, inTime_of_waiting hs.unstopped, inTime_eq_self hstop, List.findSome?_append,
        hs.unfailed, hf]
      rfl
    exact .inr ⟨by rw [hw]; nofun, ⟨hcancelled, hfailure.trans hfirst.symm, by rw [hfailure]; nofun, by rw [hfailure]; nofun,
      by rw [hfailure]; nofun⟩⟩
  · have hin : inTime t.marks = s.marks := by
      rw [hmarks, inTime_of_waiting hs.unstopped]
      exact List.append_nil _
    refine .inr ⟨by rw [hr]; nofun, ⟨by rw [hr]; rfl, ?_, fun _ => ?_, fun _ => ?_, fun _ hw q hq => ?_⟩⟩
    · rw [firstFailure, hin, hs.unfailed, hr]
      rfl
    · rw [cancelledInTime, hin, ← hs.isCancelled, hr]
      exact Bool.and_true _
    · exact ⟨.stopped, hmarks ▸ List.mem_append_right _ List.mem_cons_self, rfl⟩
    · rw [hr] at hw hq
      have hnot : s.run.isCancelled = false := by simpa [drain] using hw
      rcases hreason with hyes | hall
      · rw [hnot] at hyes
        cases hyes
      · exact hs.well q hq (List.all_eq_true.1 hall q hq)

/-- The books of a run. -/
structure Sound (closers limit : Nat) (wasSet : Bool) (s : Chronicle) : Prop where
  limit : s.run.limit = limit
  count : s.run.closers.length = closers
  ordered : s.run.Ordered
  begun : ∀ i, begun s.marks i = s.run.times i
  outcome : s.run.phase = .waiting ∧ s.Waits wasSet ∨ s.run.phase ≠ .waiting ∧ s.Settled wasSet

theorem start_sound (processes : List String) (closers limit : Nat) (wasSet : Bool) :
    (start processes closers limit wasSet).Sound closers limit wasSet := by
  have hidle : ∀ p ∈ (Run.start processes closers limit wasSet).processes, p.isJoined = false := by
    intro p hp
    obtain ⟨name, -, rfl⟩ := List.mem_map.1 hp
    rfl
  have hnone : ∀ p ∈ (Run.start processes closers limit wasSet).processes, p.isJoined = true → False := by
    intro p hp h
    rw [hidle p hp] at h
    cases h
  refine ⟨rfl, List.length_replicate,
    ⟨fun p hp h => (hnone p hp h).elim, ?_, fun _ => ⟨fun c hc => List.eq_of_mem_replicate hc, rfl⟩,
      Nat.zero_le _, nofun⟩,
    fun i => ?_, .inl ⟨rfl, nofun, rfl, rfl, (Bool.or_false _).symm, fun p hp h => (hnone p hp h).elim⟩⟩
  · rintro (h | h) <;> cases h
  · show 0 = ((List.replicate closers Closer.pending)[i]?.map Closer.times).getD 0
    rw [List.getElem?_replicate]
    split <;> rfl

theorem Sound.step (hs : s.Sound closers limit wasSet) (h : s.step? a = some t) : t.Sound closers limit wasSet := by
  obtain ⟨marks, hgoes, hmarks⟩ := step?_eq_some h
  refine ⟨hgoes.fixed.1.trans hs.limit, hgoes.fixed.2.trans hs.count, hgoes.ordered hs.ordered, fun i => ?_, ?_⟩
  · rw [hgoes.begins, ← hs.begun, hmarks, Run.begun, Run.begun, Run.begun, List.countP_append]
  · rcases hs.outcome with ⟨hp, hw⟩ | ⟨hp, hset⟩
    · exact hw.step hp h
    · exact .inr (hset.step hp h).symm

theorem run_sound (h : (start processes closers limit wasSet).run? steps = some s) : s.Sound closers limit wasSet :=
  run_induction (fun _ _ _ hstep hs => hs.step hstep) h (start_sound processes closers limit wasSet)

/-! ## How a run ends -/

theorem Settled.outcome (hs : s.Settled wasSet) :
    s.run.outcome = verdict (firstFailure s.marks) (wasSet || cancelledInTime s.marks) := by
  rw [Run.outcome, ← hs.failure]
  cases hf : s.run.failure with
  | some f => rfl
  | none =>
    rw [hs.wasCancelled hf]
    rfl

theorem Settled.completed (hs : s.Settled wasSet) (h : s.run.outcome = .completed) :
    ∀ p ∈ s.run.processes, p.ending = some .ok := by
  rw [Run.outcome] at h
  cases hf : s.run.failure with
  | some f =>
    rw [hf] at h
    cases h
  | none =>
    cases hw : s.run.wasCancelled with
    | true =>
      rw [hf, hw] at h
      cases h
    | false => exact hs.well hf hw

theorem outcome_kept (h : s.run? steps = some t) (hp : s.run.phase ≠ .waiting) : t.run.outcome = s.run.outcome := by
  have hkept := run_induction (P := fun u => u.run.phase ≠ .waiting ∧ u.run.outcome = s.run.outcome)
    (fun u a v huv hu => by
      obtain ⟨marks, hgoes, -⟩ := step?_eq_some huv
      obtain ⟨hfailure, hwas, hphase, -⟩ := hgoes.keeps hu.1
      refine ⟨hphase, Eq.trans ?_ hu.2⟩
      rw [Run.outcome, Run.outcome, hfailure, hwas]) h ⟨hp, rfl⟩
  exact hkept.2

theorem exitCode_eq_one (o : RunOutcome) : o.exitCode = 1 ↔ ∃ process f, o = .failed process f := by
  cases o with
  | failed process f => exact ⟨fun _ => ⟨process, f, rfl⟩, fun _ => rfl⟩
  | completed | cancelled => exact ⟨nofun, nofun⟩

theorem Sound.gone_of_begun (hs : s.Sound closers limit wasSet) {i : Nat} (h : .began i ∈ s.marks) :
    ∀ p ∈ s.run.processes, p.ending.isSome = true := by
  have hpos : 0 < s.run.times i := by
    rw [← hs.begun]
    exact List.countP_pos_iff.2 ⟨_, h, beq_self_eq_true i⟩
  have hphase : s.run.phase = .closing ∨ s.run.phase = .ended := by
    have hearly := hs.ordered.early
    cases hp : s.run.phase with
    | closing => exact .inl rfl
    | ended => exact .inr rfl
    | waiting | draining =>
      exfalso
      rw [hp] at hearly
      rw [times] at hpos
      cases hc : s.run.closers[i]? with
      | none => simp [hc] at hpos
      | some c =>
        have hpending := (hearly (by simp)).1 c (List.mem_of_getElem? hc)
        simp [hc, hpending, Closer.times] at hpos
  intro p hp
  exact hs.ordered.joined p hp (List.all_eq_true.1 (hs.ordered.gone hphase) p hp)

theorem Sound.can_begin (hs : s.Sound closers limit wasSet) (hp : s.run.phase = .closing) {i : Nat} (hi : i < closers)
    (hnot : Run.begun s.marks i = 0) : ∃ t, s.step? (.closerBegins i) = some t := by
  rw [← hs.count] at hi
  have hpending : s.run.closers[i]? = some .pending := by
    rw [hs.begun, times, List.getElem?_eq_getElem hi] at hnot
    rw [List.getElem?_eq_getElem hi]
    cases hc : s.run.closers[i] with
    | pending => rfl
    | running | ended | abandoned =>
      rw [hc] at hnot
      cases hnot
  have hstep : s.run.step? (.closerBegins i) = some { s.run with closers := s.run.closers.set i .running } := by
    simp [Run.step?, closerBegins?, hp, hpending]
  exact ⟨_, step?_of_step hstep⟩

theorem Sound.begun_of_ended (hs : s.Sound closers limit wasSet) (hall : ∀ c ∈ s.run.closers, c.isEnded = true) {i : Nat}
    (hi : i < closers) : Run.begun s.marks i = 1 := by
  rw [← hs.count] at hi
  rw [hs.begun, times, List.getElem?_eq_getElem hi]
  have hended := hall _ (List.getElem_mem hi)
  cases hc : s.run.closers[i] with
  | ended e => rfl
  | pending | running | abandoned =>
    rw [hc] at hended
    cases hended

theorem Sound.begun_le_one (hs : s.Sound closers limit wasSet) (i : Nat) : Run.begun s.marks i ≤ 1 := by
  rw [hs.begun, times]
  cases s.run.closers[i]? with
  | none => exact Nat.zero_le _
  | some c => cases c <;> simp [Closer.times]

/-! ## How the closers end -/

theorem exists_step_iff {a : Step} : (∃ t, s.step? a = some t) ↔ ∃ r, s.run.step? a = some r := by
  constructor
  · rintro ⟨t, ht⟩
    obtain ⟨r, hr, -⟩ := Option.map_eq_some_iff.1 ht
    exact ⟨r, hr⟩
  · rintro ⟨r, hr⟩
    exact ⟨_, step?_of_step hr⟩

theorem can_close_iff (hp : s.run.phase = .closing) :
    (∃ t, s.step? .close = some t) ↔ ∀ c ∈ s.run.closers, c.isEnded = true := by
  rw [exists_step_iff]
  constructor
  · rintro ⟨r, hr⟩
    exact List.all_eq_true.1 (Option.ite_none_right_eq_some.1 hr).1.2
  · intro hall
    exact ⟨_, if_pos ⟨hp, List.all_eq_true.2 hall⟩⟩

theorem Sound.can_time_out_iff (hs : s.Sound closers limit wasSet) (hp : s.run.phase = .closing) :
    (∃ t, s.step? .timeout = some t) ↔ s.run.spent = limit := by
  rw [exists_step_iff, ← hs.limit]
  constructor
  · rintro ⟨r, hr⟩
    exact Nat.le_antisymm hs.ordered.within (Option.ite_none_right_eq_some.1 hr).1.2
  · intro hspent
    exact ⟨_, if_pos ⟨hp, Nat.le_of_eq hspent.symm⟩⟩

theorem Sound.can_pass_iff (hs : s.Sound closers limit wasSet) (hp : s.run.phase = .closing) (ms : Nat) :
    (∃ t, s.step? (.pass ms) = some t) ↔ ¬(∀ c ∈ s.run.closers, c.isEnded = true) ∧ s.run.spent + ms ≤ limit := by
  rw [exists_step_iff, ← hs.limit, ← List.all_eq_true, Bool.not_eq_true]
  constructor
  · rintro ⟨r, hr⟩
    exact (Option.ite_none_right_eq_some.1 hr).1.2
  · intro h
    exact ⟨_, if_pos ⟨hp, h⟩⟩

theorem step_pass {ms : Nat} (h : s.step? (.pass ms) = some t) :
    t.run.phase = s.run.phase ∧ t.run.spent = s.run.spent + ms := by
  obtain ⟨r, hr, rfl⟩ := Option.map_eq_some_iff.1 h
  obtain ⟨-, hr⟩ := Option.ite_none_right_eq_some.1 hr
  cases hr
  exact ⟨rfl, rfl⟩

theorem step_end {a : Step} (ha : a = .close ∨ a = .timeout) (h : s.step? a = some t) : t.run.phase = .ended := by
  obtain ⟨r, hr, rfl⟩ := Option.map_eq_some_iff.1 h
  rcases ha with rfl | rfl <;> obtain ⟨-, hr⟩ := Option.ite_none_right_eq_some.1 hr <;> cases hr <;> rfl

/-- The runner gets to the end, if only by waiting until the time is up. -/
theorem Sound.can_end (hs : s.Sound closers limit wasSet) (hp : s.run.phase = .closing) :
    ∃ more t, s.run? more = some t ∧ t.run.phase = .ended := by
  by_cases hall : ∀ c ∈ s.run.closers, c.isEnded = true
  · obtain ⟨t, ht⟩ := (can_close_iff hp).2 hall
    refine ⟨[.close], t, ?_, step_end (.inl rfl) ht⟩
    rw [run?, List.foldlM_cons, ht]
    rfl
  · have hwithin : s.run.spent ≤ limit := hs.limit ▸ hs.ordered.within
    obtain ⟨u, hu⟩ := (hs.can_pass_iff hp (limit - s.run.spent)).2 ⟨hall, by omega⟩
    obtain ⟨hphase, hspent⟩ := step_pass hu
    obtain ⟨t, ht⟩ := ((hs.step hu).can_time_out_iff (hphase.trans hp)).2 (by omega)
    refine ⟨[.pass (limit - s.run.spent), .timeout], t, ?_, step_end (.inr rfl) ht⟩
    rw [run?, List.foldlM_cons, hu, Option.bind_eq_bind, Option.bind_some, List.foldlM_cons, ht]
    rfl

/-- No more time is spent on closers that have all ended. -/
theorem spent_kept (h : s.run? steps = some t) (hp : s.run.phase = .closing ∨ s.run.phase = .ended)
    (hall : ∀ c ∈ s.run.closers, c.isEnded = true) : t.run.spent = s.run.spent := by
  have hkept := run_induction (P := fun u => (u.run.phase = .closing ∨ u.run.phase = .ended) ∧
      (∀ c ∈ u.run.closers, c.isEnded = true) ∧ u.run.spent = s.run.spent)
    (fun u a v huv hu => by
      obtain ⟨marks, hgoes, -⟩ := step?_eq_some huv
      obtain ⟨hphase, hended, hspent⟩ := hgoes.over hu.1 hu.2.1
      exact ⟨hphase, hended, hspent.trans hu.2.2⟩) h ⟨hp, hall, rfl⟩
  exact hkept.2.2

/-- In every run, at any moment. -/
theorem shutdown_exact (processes : List String) (closers limit : Nat) (wasSet : Bool)
    (h : (start processes closers limit wasSet).run? steps = some s) :
    (s.run.phase ≠ .waiting →
      s.run.outcome = verdict (firstFailure s.marks) (wasSet || cancelledInTime s.marks) ∧ s.run.isCancelled = true ∧
      (firstFailure s.marks = none → .stopped ∈ s.marks) ∧
      (s.run.outcome = .completed → ∀ p ∈ s.run.processes, p.ending = some .ok) ∧
      (s.run.outcome.exitCode = 1 ↔ ∃ process f, s.run.outcome = .failed process f) ∧
      ∀ more t, s.run? more = some t → t.run.outcome = s.run.outcome) ∧
    (∀ i, .began i ∈ s.marks → ∀ p ∈ s.run.processes, p.ending.isSome = true) ∧
    (∀ i, Run.begun s.marks i ≤ 1) ∧
    (s.run.phase = .waiting ∨ s.run.phase = .draining → s.run.spent = 0) ∧ s.run.spent ≤ limit ∧
    (s.run.phase = .closing →
      (∀ i < closers, Run.begun s.marks i = 0 → ∃ t, s.step? (.closerBegins i) = some t) ∧
      ((∃ t, s.step? .close = some t) ↔ ∀ c ∈ s.run.closers, c.isEnded = true) ∧
      ((∃ t, s.step? .timeout = some t) ↔ s.run.spent = limit) ∧
      (∀ ms, (∃ t, s.step? (.pass ms) = some t) ↔
        ¬(∀ c ∈ s.run.closers, c.isEnded = true) ∧ s.run.spent + ms ≤ limit) ∧
      ((∀ c ∈ s.run.closers, c.isEnded = true) → ∀ more t, s.run? more = some t → t.run.spent = s.run.spent) ∧
      ∃ more t, s.run? more = some t ∧ t.run.phase = .ended) ∧
    (s.run.phase = .ended →
      ((∀ c ∈ s.run.closers, c.isEnded = true) ∨ s.run.spent = limit) ∧
      ∀ i < closers, Run.begun s.marks i = 1 ∨ (Run.begun s.marks i = 0 ∧ s.run.spent = limit)) := by
  have hs := run_sound h
  refine ⟨fun hp => ?_, fun i hi => hs.gone_of_begun hi, hs.begun_le_one, fun hp => (hs.ordered.early hp).2,
    hs.limit ▸ hs.ordered.within, fun hp => ?_, fun hp => ?_⟩
  · rcases hs.outcome with ⟨hw, -⟩ | ⟨-, hset⟩
    · exact absurd hw hp
    · refine ⟨hset.outcome, hset.isCancelled, fun hnone => ?_, hset.completed, exitCode_eq_one _,
        fun more t ht => outcome_kept ht hp⟩
      obtain ⟨m, hm, hstop⟩ := hset.stopped (hset.failure.trans hnone)
      rwa [Mark.eq_stopped hstop] at hm
  · exact ⟨fun i hi hnot => hs.can_begin hp hi hnot, can_close_iff hp, hs.can_time_out_iff hp, hs.can_pass_iff hp,
      fun hall more t ht => spent_kept ht (.inl hp) hall, hs.can_end hp⟩
  · have hend := hs.ordered.atEnd hp
    rw [hs.limit] at hend
    refine ⟨hend, fun i hi => ?_⟩
    rcases hend with hall | hspent
    · exact .inl (hs.begun_of_ended hall hi)
    · have hle := hs.begun_le_one i
      by_cases hone : Run.begun s.marks i = 1
      · exact .inl hone
      · exact .inr ⟨by omega, hspent⟩

/-- A crash is seen first; then somebody cancels, another process is seen to have failed, and of two closers one
has its turn before the time is up. -/
def sampleSteps : List Step :=
  [.finish 0 (.failed (.of "down")), .finish 1 (.crashed "task 2"), .join 1, .cancel, .join 0, .startClosers,
    .closerBegins 0, .pass 7, .closerEnds 0 .ok, .pass 3, .timeout]

theorem shutdown_exact_crashed : ∃ s, (start ["ingest", "probe"] 2 10 false).run? sampleSteps = some s ∧
    s.run.outcome = .failed "<panicked>" (.of "process panicked: task 2") ∧ s.run.outcome.exitCode = 1 ∧
    Run.begun s.marks 0 = 1 ∧ Run.begun s.marks 1 = 0 ∧ s.run.phase = .ended ∧ s.run.spent = 10 ∧
    ∀ more t, s.run? more = some t → t.run.outcome = s.run.outcome := by
  obtain ⟨s, hrun, hphase, hfirst, h0, h1⟩ : ∃ s, (start ["ingest", "probe"] 2 10 false).run? sampleSteps = some s ∧
      s.run.phase = .ended ∧
      firstFailure s.marks = some ("<panicked>", .of ("process panicked: " ++ "task 2")) ∧
      Run.begun s.marks 0 = 1 ∧ Run.begun s.marks 1 = 0 :=
    ⟨_, rfl, rfl, rfl, rfl, rfl⟩
  obtain ⟨hsettled, -, -, -, -, -, hend⟩ := shutdown_exact ["ingest", "probe"] 2 10 false hrun
  obtain ⟨houtcome, -, -, -, hcode, hlater⟩ := hsettled (by rw [hphase]; nofun)
  have hfailed : s.run.outcome = .failed "<panicked>" (.of "process panicked: task 2") := by
    rw [houtcome, hfirst]
    rfl
  -- the second closer has not begun, so the time was up
  have hspent : s.run.spent = 10 := by
    rcases (hend hphase).2 1 (by decide) with hone | ⟨-, hspent⟩
    · rw [h1] at hone
      cases hone
    · exact hspent
  exact ⟨s, hrun, hfailed, hcode.2 ⟨_, _, hfailed⟩, h0, h1, hphase, hspent, hlater⟩

/-- With no time for the closers, the only one may never begin. -/
theorem closers_unbegun :
    ∃ s, (start [] 1 0 false).run? [.stopWaiting, .startClosers, .timeout] = some s ∧ s.run.phase = .ended ∧
      Run.begun s.marks 0 = 0 :=
  ⟨_, rfl, rfl, rfl⟩

end Chronicle
end Run
end DeviceEvents
