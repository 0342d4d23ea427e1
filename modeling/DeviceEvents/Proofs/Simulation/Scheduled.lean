import DeviceEvents.Proofs.Runner.Shutdown
import DeviceEvents.Simulation.Timetable
/-
  DeviceEvents.Proofs.Simulation.Scheduled — a runner on a virtual clock is a runner.

  Whatever the plans, all that a timetable does to its run are steps of the run
  (`complete_leads`), so what is true of every run is true of it. With no time for the closers
  it has none of them begin (`runClosers_no_time`).
-/

namespace DeviceEvents

/-- `t` comes about from `r` by some steps. -/
def Run.Leads (r t : Run) : Prop := ∃ steps : List Run.Step, steps.foldlM Run.step? r = some t

namespace Run.Leads

variable {r s t : Run}

theorem refl (r : Run) : r.Leads r := ⟨[], rfl⟩

theorem trans (hrs : r.Leads s) (hst : s.Leads t) : r.Leads t := by
  obtain ⟨first, hfirst⟩ := hrs
  obtain ⟨later, hlater⟩ := hst
  refine ⟨first ++ later, ?_⟩
  rw [List.foldlM_append, hfirst]
  exact hlater

theorem step {a : Step} (h : r.step? a = some s) : r.Leads s := by
  refine ⟨[a], ?_⟩
  rw [List.foldlM_cons, h]
  rfl

/-- A step that is left out where it is not possible. -/
theorem tried (a : Step) : r.Leads ((r.step? a).getD r) := by
  cases h : r.step? a with
  | none => exact refl r
  | some s => exact step h

/-- The same for a chronicle of the run. -/
theorem chronicle {s : Chronicle} (h : s.run.Leads t) : ∃ steps marks, s.run? steps = some ⟨t, marks⟩ := by
  obtain ⟨steps, hsteps⟩ := h
  refine ⟨steps, ?_⟩
  induction steps generalizing s with
  | nil =>
    cases hsteps
    exact ⟨s.marks, rfl⟩
  | cons a steps ih =>
    obtain ⟨u, hu, hrest⟩ := Option.bind_eq_some_iff.1 hsteps
    obtain ⟨marks, hmarks⟩ := ih (s := ⟨u, s.marks ++ s.run.marksOf a⟩) hrest
    refine ⟨marks, ?_⟩
    rw [Chronicle.run?, List.foldlM_cons, Chronicle.step?_of_step hu]
    exact hmarks

end Run.Leads

namespace Simulation.Timetable

variable {s t : Timetable}

/-! ## One thing after the other -/

theorem foldl_leads {α : Type} {f : Timetable → α → Timetable} (hf : ∀ (s : Timetable) x, s.run.Leads (f s x).run) (xs : List α)
    (s : Timetable) : s.run.Leads (xs.foldl f s).run := by
  induction xs generalizing s with
  | nil => exact .refl _
  | cons x xs ih => exact (hf s x).trans (ih (f s x))

theorem endProcess_leads (s : Timetable) (i : Nat) (p : Plan) : s.run.Leads (s.endProcess i p).run := by
  unfold endProcess
  cases p.act with
  | cancel => exact Run.Leads.trans (.step (a := .cancel) rfl) (.tried (.finish i _))
  | finish e | wait e | never => exact .tried (.finish i _)

theorem proceed_leads (s : Timetable) (x : Plan × Nat) : s.run.Leads (s.proceed x).run := by
  unfold proceed
  split
  · exact endProcess_leads s x.2 x.1
  · exact .refl _

theorem awaken_run (s : Timetable) (x : Plan × Nat) : (s.awaken x).run = s.run := by
  unfold awaken
  split
  · split <;> rfl
  · rfl

theorem proceedAll_leads (s : Timetable) : s.run.Leads s.proceedAll.run := by
  have hawaken : ∀ (s : Timetable) x, s.run.Leads (s.awaken x).run := fun s x => by
    rw [awaken_run]
    exact .refl _
  exact ((foldl_leads proceed_leads _ s).trans (foldl_leads hawaken _ _)).trans (foldl_leads proceed_leads _ _)

theorem runnerStep_leads (h : s.runnerStep? = some t) : s.run.Leads t.run := by
  unfold runnerStep? at h
  split at h
  · rename_i i rest hi
    obtain ⟨r, hr, rfl⟩ := Option.map_eq_some_iff.1 h
    exact .step (a := .join i) hr
  · obtain ⟨r, hr, rfl⟩ := Option.map_eq_some_iff.1 h
    cases hstop : s.run.stopWaiting? with
    | some u =>
      rw [hstop] at hr
      cases hr
      exact .step (a := .stopWaiting) hstop
    | none =>
      rw [hstop] at hr
      exact .step (a := .startClosers) hr

theorem settle_leads (n : Nat) (s : Timetable) : s.run.Leads (settle n s).run := by
  induction n generalizing s with
  | zero => exact .refl _
  | succ n ih =>
    rw [settle]
    cases h : s.runnerStep? with
    | none => exact .refl _
    | some u => exact ((runnerStep_leads h).trans (proceedAll_leads u)).trans (ih _)

theorem advance_leads (s : Timetable) (time : Nat) : s.run.Leads (s.advance time).run := by
  unfold advance
  refine Run.Leads.trans ?_ ((proceedAll_leads _).trans (settle_leads _ _))
  dsimp only
  split
  · exact .step (a := .cancel) rfl
  · exact .refl _

theorem runProcesses_leads (n : Nat) (s : Timetable) : s.run.Leads (runProcesses n s).run := by
  induction n generalizing s with
  | zero => exact .refl _
  | succ n ih =>
    rw [runProcesses]
    split
    · exact (advance_leads s _).trans (ih _)
    · exact (advance_leads s _).trans (ih _)
    · exact .refl _

/-! ## Closers -/

theorem beginCloser_leads (s : Timetable) (x : Plan × Nat) : s.run.Leads (s.beginCloser x).run := by
  have hrun : (s.beginCloser x).run = (s.run.closerBegins? x.2).getD s.run := by
    unfold beginCloser
    dsimp only
    split <;> rfl
  rw [hrun]
  exact .tried (.closerBegins x.2)

theorem passTo_leads (s : Timetable) (time : Nat) : s.run.Leads (s.passTo time).run := .tried (.pass _)

theorem endCloser_leads (s : Timetable) (x : Plan × Nat × Nat × Ending) : s.run.Leads (s.endCloser x).run :=
  (passTo_leads s x.2.2.1).trans (.tried (.closerEnds x.2.1 x.2.2.2))

theorem closersOver_leads (h : s.closersOver? = some t) : s.run.Leads t.run := by
  obtain ⟨r, hr, rfl⟩ := Option.map_eq_some_iff.1 h
  cases hclose : s.run.close? with
  | some u =>
    rw [hclose] at hr
    cases hr
    exact .step (a := .close) hclose
  | none =>
    rw [hclose] at hr
    exact .step (a := .timeout) hr

/-- The runner looks, and goes on where the closers are not over. -/
theorem closersOver_getD_leads {u : Timetable} (hu : s.run.Leads u.run) : s.run.Leads (s.closersOver?.getD u).run := by
  cases h : s.closersOver? with
  | some t => exact closersOver_leads h
  | none => exact hu

theorem runClosers_leads (s : Timetable) (closers : List Plan) : s.run.Leads (s.runClosers closers).run := by
  refine closersOver_getD_leads ?_
  refine ((foldl_leads beginCloser_leads _ s).trans (foldl_leads endCloser_leads _ _)).trans (closersOver_getD_leads ?_)
  exact (passTo_leads _ _).trans (closersOver_getD_leads (.refl _))

/-- A whole run. -/
theorem complete_leads (plans closers : List Plan) (limit : Nat) (cancelAt : Option Nat) :
    (Run.start (plans.map (·.name)) closers.length limit (cancelAt == some 0)).Leads
      (complete plans closers limit cancelAt).run := by
  let first := start plans closers.length limit cancelAt
  have hprocesses := (settle_leads first.stepLimit first).trans (runProcesses_leads (plans.length + 2) _)
  unfold complete
  dsimp only
  split
  · exact hprocesses.trans (runClosers_leads _ closers)
  · exact hprocesses

/-! ## No time for closers -/

/-- None has its turn, and nothing is logged. -/
theorem runClosers_no_time (s : Timetable) (closers : List Plan) (hp : s.run.phase = .closing) (hlimit : s.run.limit = 0) :
    (s.runClosers closers).run.phase = .ended ∧ (s.runClosers closers).run.times = s.run.times ∧
      (s.runClosers closers).log = s.log := by
  have htimes : Closer.times ∘ Closer.abandon = Closer.times := funext Closer.times_abandon
  unfold runClosers closersOver?
  cases hclose : s.run.close? with
  | some r =>
    obtain ⟨-, hr⟩ := Option.ite_none_right_eq_some.1 hclose
    cases hr
    exact ⟨rfl, rfl, rfl⟩
  | none =>
    rw [Run.timeout?, if_pos ⟨hp, hlimit ▸ Nat.zero_le _⟩]
    refine ⟨rfl, ?_, rfl⟩
    funext i
    simp [Run.times, htimes]

end Simulation.Timetable
end DeviceEvents
