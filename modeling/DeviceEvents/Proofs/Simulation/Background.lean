import DeviceEvents.Proofs.Simulation.Traced
import DeviceEvents.Simulation.Service
/-
  DeviceEvents.Proofs.Simulation.Background — what gets on while a flow waits.

  Writes to the index get on whenever the flow of a world waits. They take time and the results that
  are planned for them, write to partitions and leave dead letters. Nothing of this is what
  the other calls of the flow go by (`Front`), so a world that has waited is to them as it was
  (`waitUntil_aside`, `dispatch_aside`), and a call takes its planned result and does nothing
  else (`call_front`).
-/

namespace DeviceEvents.Simulation

variable {α : Type} {w : World}

/-! ## Plans -/

/-- What is planned for the next calls of a method. -/
def World.plan (w : World) (m : Method) : List (Except Failure Unit) := (w.plans.get? m).getD []

/-- How the first of the calls that are planned fails, if it does. -/
def failure? : List (Except Failure Unit) → Option Failure
  | .error f :: _ => some f
  | _ => none

theorem result_planned (m : Method) (w : World) : result (planned m) w = failure? (w.plan m) := by
  unfold planned World.plan
  simp only [result_bind, result_get, after_get]
  cases hp : w.plans.get? m with
  | none => rfl
  | some rs =>
    cases rs with
    | nil => rfl
    | cons x rest => cases x <;> rfl

theorem plan_planned (m n : Method) (w : World) :
    (after (planned m) w).plan n = if n = m then (w.plan m).tail else w.plan n := by
  unfold planned
  simp only [after_bind, result_get, after_get]
  cases hp : w.plans.get? m with
  | none =>
    by_cases hn : n = m
    · simp [World.plan, hn, hp]
    · simp [hn]
  | some rs =>
    cases rs with
    | nil =>
      by_cases hn : n = m
      · simp [World.plan, hn, hp]
      · simp [hn]
    | cons x rest =>
      simp only [after_modify, after_bind, after_pure]
      by_cases hn : n = m
      · simp [World.plan, hn, hp]
      · simp [World.plan, hn]

/-! ## The front of a world -/

/-- What the calls of a flow go by, as long as they do not write to the index or read it. -/
structure Front where
  supply : Supply
  looks : Nat
  stores : List StoreSettings
  events : Table (String × Uuid) Event
  alternateIds : Table (String × String) Uuid
  failingWrites : List Dimension
  failingScans : List Dimension
  delays : Table Method Nat
  /-- What is planned for the next calls of a method other than writing to the index. -/
  plan : Method → List (Except Failure Unit)
  puts : Nat
  registry : Registry
  window : Window
  counters : Counters

def World.front (w : World) : Front where
  supply := w.supply
  looks := w.looks
  stores := w.stores
  events := w.rows.events
  alternateIds := w.rows.alternateIds
  failingWrites := w.rows.failingWrites
  failingScans := w.rows.failingScans
  delays := w.delays
  plan m := if m = .writeIndexEntry then [] else w.plan m
  puts := w.puts
  registry := w.registry
  window := w.window
  counters := w.counters

/-- The calls that are planned for `m` but the first. -/
def Front.called (p : Front) (m : Method) : Front :=
  { p with plan := fun n => if n = m then (p.plan n).tail else p.plan n }

theorem Front.called_of_nil {p : Front} {m : Method} (h : p.plan m = []) : p.called m = p := by
  have hplan : (fun n => if n = m then (p.plan n).tail else p.plan n) = p.plan := by
    funext n
    by_cases hn : n = m
    · rw [if_pos hn, hn, h]
      rfl
    · rw [if_neg hn]
  unfold Front.called
  rw [hplan]

theorem World.plan_of_front {v : World} {m : Method} (hm : m ≠ .writeIndexEntry) (h : v.front = w.front) :
    v.plan m = w.plan m := by
  have hplan := congrFun (congrArg Front.plan h) m
  simpa only [World.front, if_neg hm] using hplan

theorem planned_front (m : Method) (w : World) : (after (planned m) w).front = w.front.called m := by
  have hplan : (fun n => if n = .writeIndexEntry then [] else (after (planned m) w).plan n) = (w.front.called m).plan := by
    funext n
    show (if n = .writeIndexEntry then [] else (after (planned m) w).plan n) =
      if n = m then (if n = .writeIndexEntry then [] else w.plan n).tail else if n = .writeIndexEntry then [] else w.plan n
    rw [plan_planned]
    by_cases hm : n = m
    · subst hm
      by_cases hn : n = .writeIndexEntry <;> simp [hn]
    · simp only [if_neg hm]
  obtain ⟨plans, hp⟩ := after_planned m w
  rw [hp] at hplan ⊢
  unfold World.front
  rw [hplan]
  rfl

/-! ## Behind it -/

/-- Nothing happens to the front of a world. -/
def Aside (x : Sim α) : Prop := ∀ w, (after x w).front = w.front

theorem aside_forM {f : α → Sim PUnit} (h : ∀ a, Aside (f a)) (xs : List α) : Aside (xs.forM f) := by
  intro w
  induction xs generalizing w with
  | nil => rfl
  | cons x xs ih =>
    show (after (xs.forM f) (after (f x) w)).front = w.front
    rw [ih, h]

theorem planned_aside : Aside (planned .writeIndexEntry) := fun w =>
  (planned_front .writeIndexEntry w).trans (Front.called_of_nil rfl)

theorem performIndexWrite_aside (iw : IndexWrite) : Aside (performIndexWrite iw) := by
  intro w
  have hplanned := planned_aside w
  have hframe := iw.perform_frame (after (planned .writeIndexEntry) w).rows (result (planned .writeIndexEntry) w)
  unfold performIndexWrite
  simp only [after_bind, result_get, after_get, after_modify]
  rw [← hplanned]
  generalize iw.perform (after (planned .writeIndexEntry) w).rows (result (planned .writeIndexEntry) w) = x at hframe ⊢
  obtain ⟨rows, letter⟩ := x
  obtain ⟨hevents, hids, hwrites, hscans⟩ := hframe
  dsimp only at hevents hids hwrites hscans
  cases letter <;> simp [World.front, World.plan, record, hevents, hids, hwrites, hscans]

theorem endIndexWrite_aside (iw : IndexWrite) (limit : Option Nat) (inTime : Bool) :
    Aside (endIndexWrite iw limit inTime) := by
  cases inTime with
  | true => exact performIndexWrite_aside iw
  | false => exact fun w => rfl

theorem endJob_aside (j : Job) : Aside (endJob j) := by
  intro w
  unfold endJob
  cases j.due with
  | none => rfl
  | some d =>
    simp only [after_bind, after_modify]
    exact endIndexWrite_aside ..

theorem endJobs_aside (isDue : Nat → Bool) : Aside (endJobs isDue) := by
  intro w
  unfold endJobs
  simp only [after_bind, result_get, after_get, after_set, List.partition_eq_filter_filter]
  exact aside_forM endJob_aside _ _

theorem beginJob_aside (j : Job) : Aside (beginJob j) := by
  intro w
  unfold beginJob
  simp only [after_bind, result_get, after_get]
  by_cases ht : (indexWriteDue w j.limit).1 ≤ w.clock
  · simp only [ht, if_true]
    exact endIndexWrite_aside ..
  · simp only [ht, if_false]
    rfl

theorem settle_aside : Aside settle := by
  intro w
  unfold settle
  simp only [after_bind, result_get, after_get, after_set, List.partition_eq_filter_filter]
  rw [aside_forM beginJob_aside]
  exact endJobs_aside _ w

theorem waitUntil_aside (time : Nat) : Aside (waitUntil time) := by
  intro w
  unfold waitUntil
  simp only [after_bind, result_get, after_get]
  by_cases ht : w.clock < time
  · simp only [ht, if_true, after_bind, after_modify]
    exact (endJobs_aside _ _).trans (settle_aside w)
  · simp only [ht, if_false]
    rfl

/-- A call takes what is planned for it. -/
theorem call_front {m : Method} (hm : m ≠ .writeIndexEntry) (w : World) :
    result (call m) w = failure? (w.plan m) ∧ (after (call m) w).front = w.front.called m := by
  have hwait := waitUntil_aside (w.clock + w.delay m) w
  unfold call
  simp only [result_bind, after_bind, result_get, after_get]
  rw [result_planned, planned_front, hwait, World.plan_of_front hm hwait]
  exact ⟨rfl, rfl⟩

theorem writeIndexNow_aside (limit : Option Nat) (ws : List IndexWrite) : Aside (writeIndexNow limit ws) := by
  intro w
  have hends : Aside (ws.forM fun iw => endIndexWrite iw limit (indexWriteDue w limit).2) :=
    aside_forM (fun iw => endIndexWrite_aside iw limit _) ws
  unfold writeIndexNow
  simp only [after_bind, result_get, after_get]
  split
  · exact (hends _).trans (waitUntil_aside _ w)
  · exact hends w

theorem dispatch_aside (store : Nat) (a : Assignment) (e : Event) : Aside (dispatch store a e) := by
  intro w
  unfold dispatch
  simp only [after_bind, result_get, after_get]
  by_cases hw : (w.settings store).waitsForIndex = true
  · simp only [hw, if_true]
    exact writeIndexNow_aside _ _ w
  · simp only [hw]
    rfl

/-! ## Writes by ids -/

theorem writeNext_eq {p : Put} {m : Method}
    (h : p.stage = .event ∧ m = .writeEvent ∨ (∃ a, p.stage = .alternateId a) ∧ m = .writeAlternateId) (w : World) :
    result (writeNext p) w = (p.advance (after (call m) w).rows (result (call m) w)).1 ∧
      after (writeNext p) w = { after (call m) w with
        rows := (p.advance (after (call m) w).rows (result (call m) w)).2 } := by
  unfold writeNext
  rcases h with ⟨hs, rfl⟩ | ⟨⟨a, hs⟩, rfl⟩
  · simp only [hs]
    exact ⟨rfl, rfl⟩
  · simp only [hs]
    exact ⟨rfl, rfl⟩

theorem writeNext_done {p : Put} (hp : p.stage = .index ∨ ∃ f, p.stage = .failed f) (w : World) :
    result (writeNext p) w = p ∧ after (writeNext p) w = w := by
  unfold writeNext
  rcases hp with hp | ⟨f, hp⟩
  · simp [hp]
  · simp [hp]

/-! ## Requests -/

variable {r : Request} {a : Assignment}

theorem persist_refused {f : Refusal} (hactive : w.registry.active? r.deviceToken = some a)
    (hcheck : result (r.draft.checkAlternateId (management 0)) w = .error f) :
    result (persist r) w = .error f ∧ after (persist r) w = after (r.draft.checkAlternateId (management 0)) w := by
  unfold persist Request.persist
  simp only [result_bind, after_bind, result_get, after_get, hactive, hcheck, result_pure, after_pure, and_self]

/-- A request with a free alternate id comes to its put. -/
theorem persist_put {v : World} (hactive : w.registry.active? r.deviceToken = some a)
    (hcheck : result (r.draft.checkAlternateId (management 0)) w = .ok ())
    (hv : after (r.draft.checkAlternateId (management 0)) w = v) :
    result (persist r) w = (asRefusal (result (put 0 a r.draft) v)).map (fun _ => ()) ∧
      after (persist r) w = after (put 0 a r.draft) v := by
  have hadd : (management 0).add a r.draft = asRefusal <$> put 0 a r.draft := rfl
  unfold persist Request.persist
  simp only [result_bind, after_bind, result_get, after_get, hactive, hcheck, hv, hadd, result_map, after_map,
    result_pure, after_pure, and_self]

end DeviceEvents.Simulation
