import DeviceEvents.Proofs.Store.Conservation
import DeviceEvents.Simulation.Stores
/-
  DeviceEvents.Proofs.Simulation.Traced — what a simulated world does is traffic.

  A world shows some traffic (`Shows`) when their rows and dead letters are the same, the
  writes under way are the jobs of the world and those that its flow has in hand, and every
  job belongs to a call of its store. Whatever stores do in the world, the traffic can follow:
  - waiting ends writes and nothing else (`waitUntil_goes`, `settle_goes`, `endJobs_goes`);
  - `put_goes`: a put is a call, its writes by the ids and its writes to the index, and the
    put has succeeded as traffic if it answers with its event;
  - `flush_goes`: after a flush none of the writes of the store is under way.
-/

namespace DeviceEvents.Simulation

variable {α β : Type}

/-! ## What is done in a world -/

def result (m : Sim α) (w : World) : α := (m w).1

def after (m : Sim α) (w : World) : World := (m w).2

@[simp] theorem result_bind (m : Sim α) (f : α → Sim β) (w : World) :
    result (m >>= f) w = result (f (result m w)) (after m w) := rfl

@[simp] theorem after_bind (m : Sim α) (f : α → Sim β) (w : World) :
    after (m >>= f) w = after (f (result m w)) (after m w) := rfl

@[simp] theorem result_pure (a : α) (w : World) : result (pure a : Sim α) w = a := rfl

@[simp] theorem after_pure (a : α) (w : World) : after (pure a : Sim α) w = w := rfl

@[simp] theorem result_map (f : α → β) (m : Sim α) (w : World) : result (f <$> m) w = f (result m w) := rfl

@[simp] theorem after_map (f : α → β) (m : Sim α) (w : World) : after (f <$> m) w = after m w := rfl

@[simp] theorem result_get (w : World) : result (get : Sim World) w = w := rfl

@[simp] theorem after_get (w : World) : after (get : Sim World) w = w := rfl

@[simp] theorem after_set (v w : World) : after (set v : Sim PUnit) w = v := rfl

@[simp] theorem after_modify (f : World → World) (w : World) : after (modify f : Sim PUnit) w = f w := rfl

theorem after_planned (m : Method) (w : World) : ∃ plans, after (planned m) w = { w with plans } := by
  unfold planned
  simp only [after_bind, result_get, after_get]
  split
  · exact ⟨_, rfl⟩
  · exact ⟨_, rfl⟩

/-- The world in which a write to the index has ended. -/
def World.ended (w : World) (iw : IndexWrite) (f : Option Failure) : World :=
  { w with
    rows := (iw.perform w.rows f).1
    records := w.records ++ (iw.perform w.rows f).2.toList.map Record.lost }

theorem chain_of (message : String) : (Failure.of message).chain = message := rfl

theorem after_performIndexWrite (iw : IndexWrite) (w : World) :
    ∃ f plans, after (performIndexWrite iw) w = { w.ended iw f with plans } := by
  obtain ⟨plans, hp⟩ := after_planned .writeIndexEntry w
  refine ⟨result (planned .writeIndexEntry) w, plans, ?_⟩
  unfold performIndexWrite World.ended
  simp only [after_bind, hp, result_get, after_get, after_modify]
  rcases iw.perform w.rows (result (planned .writeIndexEntry) w) with ⟨rows, letter⟩
  cases letter with
  | none => simp
  | some l => rfl

theorem after_endIndexWrite (iw : IndexWrite) (limit : Option Nat) (inTime : Bool) (w : World) :
    ∃ f plans, after (endIndexWrite iw limit inTime) w = { w.ended iw f with plans } := by
  cases inTime with
  | true => exact after_performIndexWrite iw w
  | false =>
    refine ⟨some (.of (IndexWrite.timeoutCause (limit.getD 0))), w.plans, ?_⟩
    simp [endIndexWrite, record, World.ended, IndexWrite.perform, chain_of]

/-! ## Worlds that show traffic -/

def Record.letter? : Record → Option DeadLetter
  | .lost l => some l
  | .undecoded _ => none

/-- The job is a write of a call that does not wait for it. -/
def Backed (stores : Nat → StoreSettings) (s : Traffic) (j : Job) : Prop :=
  ∃ c ∈ s.calls, c.store = j.store ∧ c.dispatched = true ∧ (stores c.store).waitsForIndex = false ∧
    j.write ∈ c.writes stores

/-- The flow has some writes in hand, which are under way like the jobs. -/
structure Shows (stores : Nat → StoreSettings) (supply : Supply) (w : World) (hand : List IndexWrite) (s : Traffic) :
    Prop where
  settings : ∀ i, w.settings i = stores i
  supplied : w.supply = supply
  rows : s.rows = w.rows
  pending : s.pending.Perm (hand ++ w.jobs.map (·.write))
  letters : s.letters = w.records.filterMap Record.letter?
  numbered : s.calls.map (·.id) = (List.range w.puts).map supply.eventId
  jobs : ∀ j ∈ w.jobs, Backed stores s j

/-- Traffic can go on from `s`, with the calls as they are, to what `w` shows. -/
def Along (stores : Nat → StoreSettings) (supply : Supply) (s : Traffic) (w : World) (hand : List IndexWrite) : Prop :=
  ∃ s', Traffic.Run stores true s s' ∧ s'.calls = s.calls ∧ Shows stores supply w hand s'

/-- Whatever traffic a world shows can go along with what is done. -/
def Goes (hand hand' : List IndexWrite) (m : Sim α) : Prop :=
  ∀ stores supply w s, Shows stores supply w hand s → Along stores supply s (after m w) hand'

variable {stores : Nat → StoreSettings} {supply : Supply} {w w' : World} {hand hand' hand'' : List IndexWrite}
  {s s' : Traffic}

theorem Shows.along (h : Shows stores supply w hand s) : Along stores supply s w hand := ⟨s, .refl, rfl, h⟩

theorem Along.trans (h : Along stores supply s w hand)
    (h' : ∀ t, t.calls = s.calls → Shows stores supply w hand t → Along stores supply t w' hand') :
    Along stores supply s w' hand' := by
  obtain ⟨t, hrun, hcalls, hshows⟩ := h
  obtain ⟨u, hrun', hcalls', hshows'⟩ := h' t hcalls hshows
  exact ⟨u, hrun.trans hrun', hcalls'.trans hcalls, hshows'⟩

theorem Goes.bind {m : Sim α} {f : α → Sim β} (h : Goes hand hand' m) (h' : ∀ a, Goes hand' hand'' (f a)) :
    Goes hand hand'' (m >>= f) := by
  intro stores supply w s hs
  exact (h stores supply w s hs).trans fun t _ ht => h' _ stores supply _ t ht

/-- Clock, plans and whatever else the traffic does not have. -/
theorem Shows.of_frame (h : Shows stores supply w hand s) (hs : w'.stores = w.stores) (hsu : w'.supply = w.supply)
    (hr : w'.rows = w.rows) (hj : w'.jobs = w.jobs) (hp : w'.puts = w.puts) (hl : w'.records = w.records) :
    Shows stores supply w' hand s := by
  refine ⟨?_, hsu.trans h.supplied, h.rows.trans hr.symm, ?_, ?_, ?_, ?_⟩
  · intro i
    unfold World.settings
    rw [hs]
    exact h.settings i
  · rw [hj]
    exact h.pending
  · rw [hl]
    exact h.letters
  · rw [hp]
    exact h.numbered
  · rw [hj]
    exact h.jobs

/-! ## Waiting -/

theorem Shows.ended {iw : IndexWrite} (h : Shows stores supply w (iw :: hand) s) (f : Option Failure) :
    Along stores supply s (w.ended iw f) hand := by
  have hmem : iw ∈ s.pending := h.pending.mem_iff.2 (List.mem_append_left _ (List.mem_cons_self ..))
  refine ⟨s.written iw f, .single (.write s iw f hmem fun h => nomatch h), rfl, h.settings, h.supplied, ?_, ?_, ?_,
    h.numbered, h.jobs⟩
  · show (iw.perform s.rows f).1 = (iw.perform w.rows f).1
    rw [h.rows]
  · have hperm := h.pending.erase iw
    rwa [List.cons_append, List.erase_cons_head] at hperm
  · show s.letters ++ (iw.perform s.rows f).2.toList = (w.records ++ _).filterMap Record.letter?
    rw [h.letters, h.rows, List.filterMap_append]
    cases (iw.perform w.rows f).2 <;> simp [Record.letter?]

theorem endIndexWrite_goes (iw : IndexWrite) (limit : Option Nat) (inTime : Bool) :
    Goes (iw :: hand) hand (endIndexWrite iw limit inTime) := by
  intro stores supply w s h
  obtain ⟨f, plans, he⟩ := after_endIndexWrite iw limit inTime w
  rw [he]
  refine (h.ended f).trans ?_
  intro t _ ht
  exact ⟨t, .refl, rfl, ht.of_frame rfl rfl rfl rfl rfl rfl⟩

theorem endJob_goes {j : Job} (hj : j.due.isSome) : Goes (j.write :: hand) hand (endJob j) := by
  intro stores supply w s h
  unfold endJob
  cases hd : j.due with
  | none =>
    rw [hd] at hj
    cases hj
  | some d =>
    obtain ⟨time, inTime⟩ := d
    simp only [after_bind, after_modify]
    apply endIndexWrite_goes j.write j.limit inTime
    exact h.of_frame rfl rfl rfl rfl rfl rfl

theorem endAll_goes {js : List Job} (h : ∀ j ∈ js, j.due.isSome) :
    Goes (js.map (·.write) ++ hand) hand (js.forM endJob) := by
  induction js with
  | nil =>
    intro stores supply w s hs
    exact hs.along
  | cons j js ih =>
    show Goes _ _ (endJob j >>= fun _ => js.forM endJob)
    apply Goes.bind (endJob_goes (h j (List.mem_cons_self ..)))
    intro _
    exact ih fun i hi => h i (List.mem_cons_of_mem j hi)

theorem byTime_perm (js : List Job) : (byTime js).Perm js := List.mergeSort_perm _ _

/-- The flow takes jobs in hand. -/
theorem Shows.take (h : Shows stores supply w hand s) {now later js : List Job} (hjobs : w.jobs.Perm (now ++ later))
    (hjs : js.Perm now) : Shows stores supply { w with jobs := later } (js.map (·.write) ++ hand) s := by
  refine ⟨h.settings, h.supplied, h.rows, ?_, h.letters, h.numbered, ?_⟩
  · refine h.pending.trans ?_
    show (hand ++ w.jobs.map (·.write)).Perm (js.map (·.write) ++ hand ++ later.map (·.write))
    refine ((hjobs.map (·.write)).append_left hand).trans ?_
    rw [List.map_append, ← List.append_assoc]
    refine List.Perm.append_right _ (List.perm_append_comm.trans ?_)
    exact (hjs.symm.map _).append_right hand
  · intro j hj
    exact h.jobs j (hjobs.mem_iff.2 (List.mem_append_right _ hj))

theorem endJobs_goes (isDue : Nat → Bool) : Goes hand hand (endJobs isDue) := by
  intro stores supply w s h
  unfold endJobs
  simp only [after_bind, result_get, after_get, after_set, List.partition_eq_filter_filter]
  apply endAll_goes
  · intro j hj
    have hdue := (List.mem_filter.1 ((byTime_perm _).mem_iff.1 hj)).2
    cases hd : j.due with
    | none => simp [hd] at hdue
    | some d => rfl
  · exact h.take (List.filter_append_perm _ _).symm (byTime_perm _)

theorem beginJob_goes {j : Job} (h : Shows stores supply w (j.write :: hand) s) (hj : Backed stores s j) :
    Along stores supply s (after (beginJob j) w) hand := by
  unfold beginJob
  simp only [after_bind, result_get, after_get]
  by_cases ht : (indexWriteDue w j.limit).1 ≤ w.clock
  · simp only [ht, if_true]
    exact endIndexWrite_goes j.write j.limit _ stores supply w s h
  · simp only [ht, if_false]
    refine Shows.along ⟨h.settings, h.supplied, h.rows, ?_, h.letters, h.numbered, ?_⟩
    · refine h.pending.trans ?_
      simp only [after_set, List.map_append, List.map_cons, List.map_nil, ← List.append_assoc]
      exact (List.perm_append_singleton _ _).symm
    · intro i hi
      rcases List.mem_append.1 hi with hi | hi
      · exact h.jobs i hi
      · rw [List.mem_singleton.1 hi]
        exact hj

theorem beginAll_goes {js : List Job} (h : Shows stores supply w (js.map (·.write) ++ hand) s)
    (hjs : ∀ j ∈ js, Backed stores s j) : Along stores supply s (after (js.forM beginJob) w) hand := by
  induction js generalizing w s with
  | nil => exact h.along
  | cons j js ih =>
    show Along stores supply s (after (js.forM beginJob) (after (beginJob j) w)) hand
    refine (beginJob_goes h (hjs j (List.mem_cons_self ..))).trans ?_
    intro t hcalls ht
    apply ih ht
    intro i hi
    unfold Backed
    rw [hcalls]
    exact hjs i (List.mem_cons_of_mem j hi)

theorem settle_goes : Goes hand hand settle := by
  intro stores supply w s h
  unfold settle
  simp only [after_bind, result_get, after_get, after_set, List.partition_eq_filter_filter]
  refine (endJobs_goes (fun time => decide (time ≤ w.clock)) stores supply w s h).trans ?_
  intro t _ ht
  apply beginAll_goes
  · exact ht.take (List.filter_append_perm _ _).symm (.refl _)
  · intro j hj
    exact ht.jobs j (List.mem_filter.1 hj).1

theorem waitUntil_goes (time : Nat) : Goes hand hand (waitUntil time) := by
  intro stores supply w s h
  unfold waitUntil
  simp only [after_bind, result_get, after_get]
  by_cases ht : w.clock < time
  · simp only [ht, if_true, after_bind, after_modify]
    refine (settle_goes stores supply w s h).trans ?_
    intro t _ ht
    refine (endJobs_goes (fun t => decide (t < time)) stores supply _ t ht).trans ?_
    intro u _ hu
    exact ⟨u, .refl, rfl, hu.of_frame rfl rfl rfl rfl rfl rfl⟩
  · simp only [ht, if_false]
    exact h.along

theorem planned_goes (m : Method) : Goes hand hand (planned m) := by
  intro stores supply w s h
  obtain ⟨plans, he⟩ := after_planned m w
  rw [he]
  exact ⟨s, .refl, rfl, h.of_frame rfl rfl rfl rfl rfl rfl⟩

theorem call_goes (m : Method) : Goes hand hand (call m) := by
  intro stores supply w s h
  unfold call
  simp only [after_bind, result_get, after_get]
  refine (waitUntil_goes (w.clock + w.delay m) stores supply w s h).trans ?_
  intro t _ ht
  exact planned_goes m stores supply _ t ht

/-! ## Puts -/

/-- The ids of the first `n` events are different. -/
def Supply.Apart (g : Supply) (n : Nat) : Prop := ∀ i j, i < j → j < n → g.eventId i ≠ g.eventId j

theorem Supply.Apart.of_le {g : Supply} {m n : Nat} (h : g.Apart n) (hm : m ≤ n) : g.Apart m := fun i j hij hj =>
  h i j hij (Nat.lt_of_lt_of_le hj hm)

/-- One id after the other, a second apart. -/
def sampleSupply : Supply where
  eventId n := .ofNat (0x550e8400e29b41d4a716446655440000 + n)
  date n := (Instant.of? (1714557600 + n) 250000000).getD .epoch

theorem sampleSupply_apart {n : Nat} (hn : n ≤ 0x10000) : sampleSupply.Apart n := by
  have hval : ∀ k, k < 0x10000 → (sampleSupply.eventId k).code.val = 0x550e8400e29b41d4a716446655440000 + k := by
    intro k hk
    show (0x550e8400e29b41d4a716446655440000 + k) % 0x100000000000000000000000000000000 = _
    omega
  intro i j hij hj h
  have hcodes := congrArg (fun u : Uuid => u.code.val) h
  rw [hval i (by omega), hval j (by omega)] at hcodes
  omega

/-- A call whose writes are not handed out backs no job, so it may go on. -/
theorem Backed.replaced {cs ds : List Call} {c c' : Call} {j : Job} (h : Backed stores s j)
    (hc : s.calls = cs ++ c :: ds) (hd : c.dispatched = false) (hc' : s'.calls = cs ++ c' :: ds) :
    Backed stores s' j := by
  obtain ⟨b, hb, hbs, hbd, hbw, hbj⟩ := h
  refine ⟨b, ?_, hbs, hbd, hbw, hbj⟩
  rw [hc] at hb
  rw [hc']
  simp only [List.mem_append, List.mem_cons] at hb ⊢
  rcases hb with hb | rfl | hb
  · exact .inl hb
  · rw [hd] at hbd
    cases hbd
  · exact .inr (.inr hb)

theorem Shows.numbered_replaced {cs ds : List Call} {c c' : Call} (h : Shows stores supply w hand s)
    (hc : s.calls = cs ++ c :: ds) (hid : c'.id = c.id) :
    (cs ++ c' :: ds).map (·.id) = (List.range w.puts).map supply.eventId := by
  rw [← h.numbered, hc]
  simp [hid]

theorem Shows.puts_eq (h : Shows stores supply w hand s) : w.puts = s.calls.length := by
  have hlen := congrArg List.length h.numbered
  rw [List.length_map, List.length_map, List.length_range] at hlen
  exact hlen.symm

theorem Shows.advanced {cs : List Call} {c : Call} (h : Shows stores supply w hand s) (hc : s.calls = cs ++ [c])
    (hd : c.dispatched = false) (f : Option Failure) :
    Shows stores supply { w with rows := ((c.put stores).advance w.rows f).2 } hand (s.advanced stores cs c [] f) := by
  refine ⟨h.settings, h.supplied, ?_, h.pending, h.letters, h.numbered_replaced hc rfl, ?_⟩
  · show ((c.put stores).advance s.rows f).2 = _
    rw [h.rows]
  · intro j hj
    exact (h.jobs j hj).replaced hc hd rfl

theorem advance_put (p : Put) (r : Rows) (f : Option Failure) :
    (p.advance r f).1 = { p with stage := (p.advance r f).1.stage } := by
  rcases p.advance_cases r f with ⟨-, -, he⟩ | ⟨a, -, -, he⟩ | ⟨g, -, -, he⟩ | ⟨-, he⟩ <;> rw [he]

/-- How far a put comes by one write. -/
def Onward : PutStage → PutStage → Prop
  | .event, t => t ≠ .event
  | .alternateId _, t => t = .index ∨ ∃ f, t = .failed f
  | t, t' => t' = t

theorem advance_onward (p : Put) (r : Rows) (f : Option Failure) : Onward p.stage (p.advance r f).1.stage := by
  rcases p.advance_cases r f with ⟨hs, -, he⟩ | ⟨a, hs, -, he⟩ | ⟨g, -, hs | ⟨a, hs⟩, he⟩ | ⟨hs | ⟨g, hs⟩, he⟩
  · rw [he, hs]
    cases p.event.alternateId <;> simp [Onward]
  · rw [he, hs]
    exact .inl rfl
  · rw [he, hs]
    simp [Onward]
  · rw [he, hs]
    exact .inr ⟨g, rfl⟩
  · rw [he, hs]
    rfl
  · rw [he, hs]
    rfl

theorem writeNext_goes {cs : List Call} {c : Call} (h : Shows stores supply w hand s) (hc : s.calls = cs ++ [c])
    (hd : c.dispatched = false) :
    ∃ t s', Onward c.stage t ∧ result (writeNext (c.put stores)) w = Call.put stores { c with stage := t } ∧
      Traffic.Run stores true s s' ∧ s'.calls = cs ++ [{ c with stage := t }] ∧
      Shows stores supply (after (writeNext (c.put stores)) w) hand s' := by
  have hwrite : ∀ m, ∃ t s', Onward c.stage t ∧
      ((c.put stores).advance (after (call m) w).rows (result (call m) w)).1 = Call.put stores { c with stage := t } ∧
      Traffic.Run stores true s s' ∧ s'.calls = cs ++ [{ c with stage := t }] ∧
      Shows stores supply { after (call m) w with
        rows := ((c.put stores).advance (after (call m) w).rows (result (call m) w)).2 } hand s' := by
    intro m
    obtain ⟨t, hrun, hcalls, ht⟩ := call_goes m stores supply w s h
    have htc := hcalls.trans hc
    have hadv := ht.advanced htc hd (result (call m) w)
    refine ⟨_, t.advanced stores cs c [] (result (call m) w), advance_onward (c.put stores) t.rows _, ?_, ?_, rfl, hadv⟩
    · rw [← ht.rows]
      exact advance_put (c.put stores) t.rows _
    · exact hrun.tail (.advance t cs c [] _ htc fun h => nomatch h)
  unfold writeNext
  cases hs : c.stage with
  | event =>
    have hp : (c.put stores).stage = .event := hs
    rw [← hs]
    simp only [hp]
    exact hwrite .writeEvent
  | alternateId b =>
    have hp : (c.put stores).stage = .alternateId b := hs
    rw [← hs]
    simp only [hp]
    exact hwrite .writeAlternateId
  | index =>
    have hp : (c.put stores).stage = .index := hs
    simp only [hp]
    refine ⟨.index, s, rfl, ?_, .refl, ?_, h⟩
    · rw [← hs]
      rfl
    · rw [hc, ← hs]
  | failed f =>
    have hp : (c.put stores).stage = .failed f := hs
    simp only [hp]
    refine ⟨.failed f, s, rfl, ?_, .refl, ?_, h⟩
    · rw [← hs]
      rfl
    · rw [hc, ← hs]

theorem endEach_goes (ws : List IndexWrite) (limit : Option Nat) (inTime : Bool) :
    Goes (ws ++ hand) hand (ws.forM fun iw => endIndexWrite iw limit inTime) := by
  induction ws with
  | nil =>
    intro stores supply w s hs
    exact hs.along
  | cons iw ws ih =>
    show Goes _ _ (endIndexWrite iw limit inTime >>= fun _ => ws.forM fun iw => endIndexWrite iw limit inTime)
    apply Goes.bind (endIndexWrite_goes iw limit inTime)
    intro _
    exact ih

theorem writeIndexNow_goes (limit : Option Nat) (ws : List IndexWrite) : Goes ws [] (writeIndexNow limit ws) := by
  intro stores supply w s h
  rw [← List.append_nil ws] at h
  unfold writeIndexNow
  simp only [after_bind, result_get, after_get]
  split
  · refine (waitUntil_goes (indexWriteDue w limit).1 stores supply w s h).trans ?_
    intro t _ ht
    exact endEach_goes ws limit _ stores supply _ t ht
  · exact endEach_goes ws limit _ stores supply w s h

/-- No job belongs to a call that waits for its writes. -/
theorem Shows.waited {c : Call} (h : Shows stores supply w [] s) (hi : Traffic.Inv s) (hc : c ∈ s.calls)
    (hw : (stores c.store).waitsForIndex = true) : ∀ v ∈ s.pending, v.event.id ≠ c.id := by
  intro v hv hid
  obtain ⟨j, hj, rfl⟩ := List.mem_map.1 (h.pending.mem_iff.1 hv)
  obtain ⟨b, hb, -, -, hbw, hbj⟩ := h.jobs j hj
  have hbc : b = c := hi.eq_of_id hb hc (by rw [Call.event_of_mem_writes hbj] at hid; exact hid)
  rw [hbc, hw] at hbw
  cases hbw

theorem dispatch_goes {cs : List Call} {c : Call} (h : Shows stores supply w [] s) (hi : Traffic.Inv s)
    (hc : s.calls = cs ++ [c]) (hs : c.stage = .index) (hd : c.dispatched = false) :
    ∃ s', Traffic.Run stores true s s' ∧ s'.calls = cs ++ [{ c with dispatched := true }] ∧
      Shows stores supply (after (dispatch c.store c.assignment c.event) w) [] s' ∧
      s'.Succeeded stores { c with dispatched := true } := by
  have hstep : Traffic.Step stores true s (s.handedOut stores cs c []) := .handOut s cs c [] hc hs hd
  have hmem : ({ c with dispatched := true } : Call) ∈ (s.handedOut stores cs c []).calls := by
    simp [Traffic.handedOut]
  have hbacked : ∀ j ∈ w.jobs, Backed stores (s.handedOut stores cs c []) j := fun j hj =>
    (h.jobs j hj).replaced hc hd rfl
  have hnumbered := h.numbered_replaced hc (rfl : ({ c with dispatched := true } : Call).id = c.id)
  unfold dispatch
  simp only [after_bind, result_get, after_get, h.settings]
  cases hw : (stores c.store).waitsForIndex with
  | true =>
    simp only [if_true]
    have hshows : Shows stores supply w (c.writes stores) (s.handedOut stores cs c []) := by
      refine ⟨h.settings, h.supplied, h.rows, ?_, h.letters, hnumbered, hbacked⟩
      exact (h.pending.append_right _).trans List.perm_append_comm
    obtain ⟨t, hrun, hcalls, ht⟩ := writeIndexNow_goes _ _ stores supply w _ hshows
    have hrun' : Traffic.Run stores true s t := .head hstep hrun
    refine ⟨t, hrun', hcalls, ht, rfl, ?_⟩
    intro _
    exact ht.waited (Traffic.run_inv hrun' hi) (hcalls ▸ hmem) hw
  | false =>
    simp only [Bool.false_eq_true, if_false]
    refine ⟨_, .single hstep, rfl, ⟨h.settings, h.supplied, h.rows, ?_, h.letters, hnumbered, ?_⟩, rfl, ?_⟩
    · show (s.pending ++ c.writes stores).Perm ([] ++ (w.jobs ++ _).map (·.write))
      simp only [List.map_append, List.map_map, List.nil_append]
      exact (h.pending.append_right _).trans (.of_eq (by simp [Function.comp_def, Call.writes]))
    · intro j hj
      rcases List.mem_append.1 hj with hj | hj
      · exact hbacked j hj
      · obtain ⟨v, hv, rfl⟩ := List.mem_map.1 hj
        exact ⟨_, hmem, rfl, rfl, hw, hv⟩
    · intro hw'
      have hwaits : (stores c.store).waitsForIndex = true := hw'
      rw [hw] at hwaits
      cases hwaits

theorem onward_twice {t t' : PutStage} (h : Onward .event t) (h' : Onward t t') : t' = .index ∨ ∃ f, t' = .failed f := by
  cases t with
  | event => exact absurd rfl h
  | alternateId a => exact h'
  | index => exact .inl h'
  | failed f => exact .inr ⟨f, h'⟩

theorem Shows.nextId (h : Shows stores supply w hand s) : w.nextId = supply.eventId w.puts := by
  rw [World.nextId, h.supplied]

theorem Shows.called (h : Shows stores supply w hand s) (store : Nat) (a : Assignment) (d : Draft) :
    Shows stores supply { w with puts := w.puts + 1, looks := w.looks + 1 } hand (s.called store a d w.nextId w.today) := by
  refine ⟨h.settings, h.supplied, h.rows, h.pending, h.letters, ?_, ?_⟩
  · show (s.calls ++ [(⟨store, a, d, w.nextId, w.today, .event, false⟩ : Call)]).map (·.id) =
      (List.range (w.puts + 1)).map supply.eventId
    rw [List.map_append, List.range_succ, List.map_append, h.numbered, List.map_singleton, h.nextId]
    rfl
  · intro j hj
    obtain ⟨b, hb, hrest⟩ := h.jobs j hj
    exact ⟨b, List.mem_append_left _ hb, hrest⟩

/-- A put is a call of the traffic, and succeeds as one. -/
theorem put_goes (store : Nat) (a : Assignment) (d : Draft) (h : Shows stores supply w [] s) (hi : Traffic.Inv s)
    (hn : supply.Apart (w.puts + 1)) :
    ∃ s' c, Traffic.Run stores true s s' ∧ s'.calls = s.calls ++ [c] ∧
      Shows stores supply (after (put store a d) w) [] s' ∧ c.store = store ∧ c.assignment = a ∧ c.draft = d ∧
      (result (put store a d) w = .ok c.event ∧ s'.Succeeded stores c ∨
        ∃ f, result (put store a d) w = .error (.backend f) ∧ c.stage = .failed f ∧ c.dispatched = false) := by
  have hfresh : ∀ c ∈ s.calls, c.id ≠ w.nextId := by
    intro c hc hid
    have hmem : c.id ∈ (List.range w.puts).map supply.eventId := h.numbered ▸ List.mem_map_of_mem hc
    obtain ⟨n, hlt, hcn⟩ := List.mem_map.1 hmem
    exact hn n w.puts (List.mem_range.1 hlt) (Nat.lt_succ_self _) (hcn.trans (hid.trans h.nextId))
  have hcall : Traffic.Step stores true s (s.called store a d w.nextId w.today) :=
    .call s store a d _ w.today hfresh
  obtain ⟨t₁, s₁, ho₁, hr₁, hrun₁, hc₁, hs₁⟩ := writeNext_goes (h.called store a d) rfl rfl
  obtain ⟨t₂, s₂, ho₂, hr₂, hrun₂, hc₂, hs₂⟩ := writeNext_goes hs₁ hc₁ rfl
  have hrun : Traffic.Run stores true s s₂ := .head hcall (hrun₁.trans hrun₂)
  have hput : Put.ofEvent (w.settings store).tenant (d.toEvent a w.nextId w.today) =
      Call.put stores ⟨store, a, d, w.nextId, w.today, .event, false⟩ := by
    rw [h.settings]
    rfl
  unfold put
  simp only [after_bind, result_bind, result_get, after_get, after_set, hput, hr₁, hr₂]
  rcases onward_twice ho₁ ho₂ with rfl | ⟨f, rfl⟩
  · obtain ⟨s₃, hrun₃, hc₃, hs₃, hsucc⟩ := dispatch_goes hs₂ (Traffic.run_inv hrun hi) hc₂ rfl rfl
    exact ⟨s₃, _, hrun.trans hrun₃, hc₃, hs₃, rfl, rfl, rfl, .inl ⟨rfl, hsucc⟩⟩
  · exact ⟨s₂, _, hrun, hc₂, hs₂, rfl, rfl, rfl, .inr ⟨f, rfl, rfl, rfl⟩⟩

/-! ## Flushes -/

theorem jobs_endIndexWrite (iw : IndexWrite) (limit : Option Nat) (inTime : Bool) (w : World) :
    (after (endIndexWrite iw limit inTime) w).jobs = w.jobs := by
  obtain ⟨f, plans, he⟩ := after_endIndexWrite iw limit inTime w
  rw [he]
  rfl

theorem jobs_endAll (js : List Job) (w : World) : (after (js.forM endJob) w).jobs = w.jobs := by
  induction js generalizing w with
  | nil => rfl
  | cons j js ih =>
    show (after (js.forM endJob) (after (endJob j) w)).jobs = w.jobs
    rw [ih]
    unfold endJob
    cases j.due with
    | none => rfl
    | some d => exact jobs_endIndexWrite ..

theorem jobs_endJobs (isDue : Nat → Bool) (w : World) :
    (after (endJobs isDue) w).jobs = w.jobs.filter fun j => !j.due.any fun d => isDue d.1 := by
  unfold endJobs
  simp only [after_bind, result_get, after_get, after_set, List.partition_eq_filter_filter]
  rw [jobs_endAll]
  rfl

/-- Jobs begin with a moment at which they are due. -/
theorem begun_beginAll {js : List Job} (h : ∀ j ∈ w.jobs, j.due.isSome) :
    ∀ j ∈ (after (js.forM beginJob) w).jobs, j.due.isSome := by
  induction js generalizing w with
  | nil => exact h
  | cons i js ih =>
    show ∀ j ∈ (after (js.forM beginJob) (after (beginJob i) w)).jobs, j.due.isSome
    apply ih
    intro j hj
    unfold beginJob at hj
    simp only [after_bind, result_get, after_get] at hj
    by_cases ht : (indexWriteDue w i.limit).1 ≤ w.clock
    · simp only [ht, if_true] at hj
      rw [jobs_endIndexWrite] at hj
      exact h j hj
    · simp only [ht, if_false] at hj
      rcases List.mem_append.1 hj with hj | hj
      · exact h j hj
      · rw [List.mem_singleton.1 hj]
        rfl

theorem begun_settle (w : World) : ∀ j ∈ (after settle w).jobs, j.due.isSome := by
  unfold settle
  simp only [after_bind, result_get, after_get, after_set, List.partition_eq_filter_filter]
  apply begun_beginAll
  intro j hj
  have hd := (List.mem_filter.1 hj).2
  cases hdue : j.due with
  | none => simp [hdue] at hd
  | some d => rfl

theorem jobs_flush (store : Nat) (w : World) : ∀ j ∈ (after (flush store) w).jobs, j.store ≠ store := by
  intro j hj hstore
  unfold flush at hj
  simp only [after_bind, result_get, after_get] at hj
  by_cases hany : w.jobs.any (·.store == store) = true
  · simp only [hany, if_true, after_bind, result_get, after_get] at hj
    -- every job of the store is due at one of the moments that the flush waits for
    have hdue : ∀ i ∈ (after settle w).jobs, i.store = store → ∃ d, i.due = some d ∧
        d.1 ∈ (after settle w).jobs.filterMap fun i => if i.store == store then i.due.map (·.1) else none := by
      intro i hi his
      obtain ⟨d, hd⟩ := Option.isSome_iff_exists.1 (begun_settle w i hi)
      exact ⟨d, hd, List.mem_filterMap.2 ⟨i, hi, by simp [his, hd]⟩⟩
    cases hmax : ((after settle w).jobs.filterMap fun i => if i.store == store then i.due.map (·.1) else none).max? with
    | none =>
      simp only [hmax, after_pure] at hj
      obtain ⟨d, -, hmem⟩ := hdue j hj hstore
      rw [List.max?_eq_none_iff.1 hmax] at hmem
      cases hmem
    | some last =>
      simp only [hmax, jobs_endJobs] at hj
      obtain ⟨hj, hlate⟩ := List.mem_filter.1 hj
      obtain ⟨d, hd, hmem⟩ := hdue j hj hstore
      have hle := (List.max?_eq_some_iff.1 hmax).2 d.1 hmem
      simp [hd, hle] at hlate
  · simp only [hany] at hj
    exact hany (List.any_eq_true.2 ⟨j, hj, by simp [hstore]⟩)

theorem flush_along (store : Nat) (h : Shows stores supply w [] s) : Along stores supply s (after (flush store) w) [] := by
  unfold flush
  simp only [after_bind, result_get, after_get]
  by_cases hany : w.jobs.any (·.store == store) = true
  · simp only [hany, if_true, after_bind, result_get, after_get]
    refine (settle_goes stores supply w s h).trans ?_
    intro t _ ht
    split
    · exact endJobs_goes _ stores supply _ t ht
    · exact ht.along
  · simp only [hany]
    exact h.along

/-- After a flush none of the writes of the store is under way. -/
theorem flush_goes (store : Nat) (h : Shows stores supply w [] s) (hi : Traffic.Inv s) :
    ∃ s', Traffic.Run stores true s s' ∧ s'.calls = s.calls ∧ Shows stores supply (after (flush store) w) [] s' ∧
      s'.Flushed stores store := by
  obtain ⟨s', hrun, hcalls, hs⟩ := flush_along store h
  refine ⟨s', hrun, hcalls, hs, ?_⟩
  intro c hc hstore _ v hv hid
  obtain ⟨j, hj, rfl⟩ := List.mem_map.1 (hs.pending.mem_iff.1 hv)
  obtain ⟨b, hb, hbs, -, -, hbj⟩ := hs.jobs j hj
  have hi' := Traffic.run_inv hrun hi
  have hbc : b = c := hi'.eq_of_id hb hc (by rw [Call.event_of_mem_writes hbj] at hid; exact hid)
  rw [hbc] at hbs
  exact jobs_flush store w j hj (hbs.symm.trans hstore)

/-! ## Everything that is done with stores -/

inductive StoreAct where
  | put (store : Nat) (a : Assignment) (d : Draft)
  | flush (store : Nat)
  | wait (time : Nat)
  | failWrites (d : Dimension)
  | failScans (d : Dimension)
  | clearFailures
  /-- What the next calls of a method give. -/
  | plan (m : Method) (rs : List (Except Failure Unit))
  | delay (m : Method) (ms : Nat)

def StoreAct.perform (w : World) : StoreAct → World
  | .put store a d => after (Simulation.put store a d) w
  | .flush store => after (Simulation.flush store) w
  | .wait time => after (waitUntil time) w
  | .failWrites d => { w with rows := w.rows.failWrites d }
  | .failScans d => { w with rows := w.rows.failScans d }
  | .clearFailures => { w with rows := w.rows.clearFailures }
  | .plan m rs => { w with plans := w.plans.insert m rs }
  | .delay m ms => { w with delays := w.delays.insert m ms }

theorem act_goes (act : StoreAct) (h : Shows stores supply w [] s) (hi : Traffic.Inv s)
    (hn : supply.Apart (s.calls.length + 1)) :
    ∃ s', Traffic.Run stores true s s' ∧ s'.calls.length ≤ s.calls.length + 1 ∧
      Shows stores supply (act.perform w) [] s' := by
  cases act with
  | put store a d =>
    obtain ⟨s', c, hrun, hcalls, hs, -⟩ := put_goes store a d h hi (h.puts_eq ▸ hn)
    refine ⟨s', hrun, ?_, hs⟩
    rw [hcalls, List.length_append]
    rfl
  | flush store =>
    obtain ⟨s', hrun, hcalls, hs⟩ := flush_along store h
    exact ⟨s', hrun, hcalls ▸ Nat.le_succ _, hs⟩
  | wait time =>
    obtain ⟨s', hrun, hcalls, hs⟩ := waitUntil_goes time stores supply w s h
    exact ⟨s', hrun, hcalls ▸ Nat.le_succ _, hs⟩
  | failWrites d =>
    refine ⟨_, .single (.failWrites s d rfl), Nat.le_succ _, h.settings, h.supplied, ?_, h.pending, h.letters, h.numbered,
      h.jobs⟩
    exact congrArg (·.failWrites d) h.rows
  | failScans d =>
    refine ⟨_, .single (.failScans s d rfl), Nat.le_succ _, h.settings, h.supplied, ?_, h.pending, h.letters, h.numbered,
      h.jobs⟩
    exact congrArg (·.failScans d) h.rows
  | clearFailures =>
    refine ⟨_, .single (.clearFailures s), Nat.le_succ _, h.settings, h.supplied, ?_, h.pending, h.letters, h.numbered,
      h.jobs⟩
    exact congrArg (·.clearFailures) h.rows
  | plan m rs => exact ⟨s, .refl, Nat.le_succ _, h.of_frame rfl rfl rfl rfl rfl rfl⟩
  | delay m ms => exact ⟨s, .refl, Nat.le_succ _, h.of_frame rfl rfl rfl rfl rfl rfl⟩

theorem acts_go (acts : List StoreAct) (h : Shows stores supply w [] s) (hi : Traffic.Inv s)
    (hn : supply.Apart (s.calls.length + acts.length)) :
    ∃ s', Traffic.Run stores true s s' ∧ Shows stores supply (acts.foldl StoreAct.perform w) [] s' := by
  induction acts generalizing w s with
  | nil => exact ⟨s, .refl, h⟩
  | cons act acts ih =>
    rw [List.length_cons] at hn
    obtain ⟨s₁, hrun₁, hlen, hs₁⟩ := act_goes act h hi (hn.of_le (by omega))
    obtain ⟨s₂, hrun₂, hs₂⟩ := ih hs₁ (Traffic.run_inv hrun₁ hi) (hn.of_le (by omega))
    exact ⟨s₂, hrun₁.trans hrun₂, hs₂⟩

/-- Every world that comes of this shows traffic that stores can come to. -/
theorem acts_reach (supply : Supply) (settings : List StoreSettings) (r : Registry) (window : Window) (acts : List StoreAct)
    (hn : supply.Apart acts.length) :
    ∃ s, Traffic.Reach (fun i => settings[i]?.getD {}) true s ∧
      Shows (fun i => settings[i]?.getD {}) supply (acts.foldl StoreAct.perform (.start supply settings r window)) [] s := by
  have hstart : Shows (fun i => settings[i]?.getD {}) supply (.start supply settings r window) [] .start := by
    refine ⟨fun _ => rfl, rfl, rfl, .refl _, rfl, rfl, ?_⟩
    intro j hj
    cases hj
  refine acts_go acts hstart Traffic.start_inv ?_
  rwa [show Traffic.start.calls.length = 0 from rfl, Nat.zero_add]

end DeviceEvents.Simulation
