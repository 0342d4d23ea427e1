import DeviceEvents.Proofs.Simulation.Traced
import DeviceEvents.Proofs.Store.FanOut
/-
  DeviceEvents.Proofs.Simulation.Answered — queries in a simulated world.

  In a quiet world no write is under way and no result of a scan is planned, so a query lets
  time pass and changes nothing else. It ends at one of its limits, or with the answer that
  the rows give: `query_answered`.
-/

namespace DeviceEvents.Simulation

variable {α β : Type} {w : World} {limits : Limits} {a : α} {b : β}

structure Quiet (w : World) : Prop where
  jobs : w.jobs = []
  scans : ∀ r rest, w.plans.get? .scanPartition ≠ some (r :: rest)

theorem Quiet.later (h : Quiet w) (c : Nat) : Quiet { w with clock := c } := ⟨h.jobs, h.scans⟩

/-! ## Waiting without jobs -/

theorem after_endJobs_quiet (h : w.jobs = []) (isDue : Nat → Bool) : after (endJobs isDue) w = w := by
  unfold endJobs
  simp only [after_bind, result_get, after_get, after_set, h, List.partition_eq_filter_filter, List.filter_nil, byTime,
    List.mergeSort_nil]
  show ({ w with jobs := [] } : World) = w
  rw [← h]

theorem after_settle_quiet (h : w.jobs = []) : after settle w = w := by
  unfold settle
  simp only [after_bind, result_get, after_get, after_set, after_endJobs_quiet h]
  simp only [h, List.partition_eq_filter_filter, List.filter_nil]
  show ({ w with jobs := [] } : World) = w
  rw [← h]

theorem after_waitUntil_quiet (h : w.jobs = []) (time : Nat) : ∃ c, after (waitUntil time) w = { w with clock := c } := by
  unfold waitUntil
  simp only [after_bind, result_get, after_get]
  by_cases ht : w.clock < time
  · simp only [ht, if_true, after_bind, after_settle_quiet h, after_endJobs_quiet h, after_modify]
    exact ⟨_, rfl⟩
  · simp only [ht, if_false]
    exact ⟨w.clock, rfl⟩

theorem planned_quiet (h : Quiet w) : result (planned .scanPartition) w = none ∧ after (planned .scanPartition) w = w := by
  have hs := h.scans
  unfold planned
  simp only [result_bind, after_bind, result_get, after_get]
  cases hp : w.plans.get? .scanPartition with
  | none => exact ⟨rfl, rfl⟩
  | some rs =>
    cases rs with
    | nil => exact ⟨rfl, rfl⟩
    | cons r rest => exact absurd hp (hs r rest)

/-! ## What a query comes to -/

/-- It gives `a` and only lets time pass, or it is given up at a limit. -/
def Gives (limits : Limits) (w : World) (x : ExceptT Trouble Sim α) (a : α) : Prop :=
  (∃ c, result x.run w = .ok a ∧ after x.run w = { w with clock := c }) ∨
    ∃ l ∈ limits, result x.run w = .error l.2

theorem Gives.pure (a : α) : Gives limits w (Pure.pure a) a := .inl ⟨w.clock, rfl, rfl⟩

theorem Gives.bind {x : ExceptT Trouble Sim α} {f : α → ExceptT Trouble Sim β} (h : Gives limits w x a)
    (h' : ∀ c, Gives limits { w with clock := c } (f a) b) : Gives limits w (x >>= f) b := by
  unfold Gives
  simp only [ExceptT.run_bind, result_bind, after_bind]
  rcases h with ⟨c, hr, ha⟩ | ⟨l, hl, hr⟩
  · rw [hr, ha]
    exact h' c
  · rw [hr]
    exact .inr ⟨l, hl, rfl⟩

theorem before?_mem {l : Nat × Trouble} {time : Nat} (h : limits.before? time = some l) : l ∈ limits := by
  have hfold : ∀ (ls : Limits) (best : Option (Nat × Trouble)), (∀ x, best = some x → x ∈ limits) →
      (∀ x ∈ ls, x ∈ limits) → ∀ x, ls.foldl (fun best l =>
        if l.1 < time ∧ best.all (fun b => decide (l.1 < b.1)) then some l else best) best = some x → x ∈ limits := by
    intro ls
    induction ls with
    | nil => exact fun best hb _ => hb
    | cons y ls ih =>
      intro best hb hls
      apply ih
      · intro x hx
        simp only at hx
        split at hx
        · cases hx
          exact hls y (List.mem_cons_self ..)
        · exact hb x hx
      · intro x hx
        exact hls x (List.mem_cons_of_mem y hx)
  exact hfold limits none (fun _ h => nomatch h) (fun _ h => h) l h

/-- One partition, read in the world. -/
def scanOne (key : PartitionKey) (range : DateRange) : ExceptT Trouble Sim (Except Failure (List Event)) := do
  match ← planned .scanPartition with
  | some f => return .error f
  | none => return (← get).rows.scan key range

theorem scanOne_gives (h : Quiet w) (key : PartitionKey) (range : DateRange) :
    Gives limits w (scanOne key range) (w.rows.scan key range) := by
  have hplanned : Gives limits w (liftM (planned .scanPartition) : ExceptT Trouble Sim (Option Failure)) none := by
    obtain ⟨hr, ha⟩ := planned_quiet h
    exact .inl ⟨w.clock, congrArg Except.ok hr, ha⟩
  apply hplanned.bind
  intro c
  exact .inl ⟨c, rfl, rfl⟩

theorem ofEach_gives (h : Quiet w) (keys : List PartitionKey) (range : DateRange) :
    Gives limits w (Scan.ofEach scanOne keys range) (Query.readingOf w.rows keys range) := by
  induction keys generalizing w with
  | nil => exact Gives.pure _
  | cons k ks ih =>
    apply (scanOne_gives h k range).bind
    intro c
    cases hs : w.rows.scan k range with
    | error f =>
      rw [Query.readingOf_cons_error hs]
      exact Gives.pure _
    | ok es =>
      apply (ih (h.later c)).bind
      intro c'
      show Gives limits _ _ (Query.readingOf w.rows (k :: ks) range)
      cases hrest : Query.readingOf w.rows ks range with
      | error f =>
        rw [Query.readingOf_cons_ok_error hs hrest]
        exact Gives.pure _
      | ok rest =>
        rw [Query.readingOf_cons_ok hs hrest]
        exact Gives.pure _

theorem wait_gives (h : Quiet w) (time : Nat) :
    Gives limits w (liftM (waitUntil time) : ExceptT Trouble Sim Unit) () := by
  obtain ⟨c, hc⟩ := after_waitUntil_quiet h.jobs time
  exact .inl ⟨c, rfl, hc⟩

theorem Gives.get_bind {f : World → ExceptT Trouble Sim α} (h : Gives limits w (f w) a) :
    Gives limits w (get >>= f) a := h

theorem scan_gives (h : Quiet w) (keys : List PartitionKey) (range : DateRange) :
    Gives limits w (scan limits keys range) (Query.readingOf w.rows keys range) := by
  unfold scan
  apply Gives.get_bind
  dsimp only
  cases hl : limits.before? (w.clock + w.delay .scanPartition) with
  | none =>
    apply (wait_gives h (w.clock + w.delay .scanPartition)).bind
    intro c
    exact ofEach_gives (h.later c) keys range
  | some l => exact .inr ⟨l, before?_mem hl, rfl⟩

theorem visit_gives (h : Quiet w) (keys : Int → List PartitionKey) (range : DateRange) (bs : List Int)
    (pager : Pager Event) :
    Gives limits w (Query.visit (fun b => scan limits (keys b) range) bs pager)
      (Id.run (Query.visit (fun b => Query.readingOf w.rows (keys b) range) bs pager)) := by
  induction bs generalizing w pager with
  | nil => exact Gives.pure _
  | cons b bs ih =>
    apply (scan_gives h (keys b) range).bind
    intro c
    cases hs : Query.readingOf w.rows (keys b) range with
    | error f =>
      rw [Query.visit_cons_error hs]
      exact Gives.pure _
    | ok es =>
      rw [Query.visit_cons_ok hs]
      exact ih (h.later c) _

theorem run_gives (limits : Limits) (h : Quiet w) (q : Query) (p : Query.Plan) (now : Instant) :
    Gives limits w (q.run p (scan limits) now) (q.answer p w.rows now) := by
  unfold Query.answer Query.run
  by_cases hids : (Query.distinct q.entities).isEmpty = true
  · simp only [hids, if_true]
    exact Gives.pure _
  · simp only [hids]
    cases p.maxBuckets.filter (· < p.scheme.count q.range now) with
    | some max => exact Gives.pure _
    | none =>
      apply (visit_gives h (p.keys q.dimension (Query.distinct q.entities)) q.range
        (p.scheme.covering q.range now) (.ofPage q.page)).bind
      intro c
      simp only [bind, Id.run]
      cases Query.visit (m := Id) (fun b =>
          Query.readingOf w.rows (p.keys q.dimension (Query.distinct q.entities) b) q.range)
          (p.scheme.covering q.range now) (.ofPage q.page) with
      | error f => exact Gives.pure _
      | ok pager => exact Gives.pure _

/-- A query in a quiet world is given up at a limit, or answers as the rows as they are. -/
theorem query_answered (h : Quiet w) (store : Nat) (q : Query) (cancelAfter : Option Nat) :
    result (query store q cancelAfter) w = q.answer (w.settings store).plan w.rows w.today ∨
      ∃ l ∈ limitsOf (w.settings store) w.clock cancelAfter, result (query store q cancelAfter) w = .error l.2 := by
  have hlooked : Quiet { w with looks := w.looks + 1 } := ⟨h.jobs, h.scans⟩
  unfold query
  simp only [result_bind, result_get, after_get, after_set]
  rcases run_gives (limitsOf (w.settings store) w.clock cancelAfter) hlooked q (w.settings store).plan w.today with
    ⟨c, hr, -⟩ | ⟨l, hl, hr⟩
  · left
    rw [hr]
    rfl
  · right
    refine ⟨l, hl, ?_⟩
    rw [hr]
    rfl

end DeviceEvents.Simulation
