import DeviceEvents.Proofs.Store.Conservation
/-
  DeviceEvents.Proofs.Store.References — what is on record refers to what is on record.

  Between any two steps of any traffic:
  - a record of an event stays as it was written (`run_event?`), since only the first write of
    its own call could replace it (`step_event?`);
  - an alternate id leads to the event of the last write under it (`eventId?_bind`);
  - an entry of the index is the event on record, under the entity that the event itself
    names and in its bucket (`Recorded.entry`).
-/

namespace DeviceEvents

/-- What an event is associated with in a dimension. -/
def Event.entityFor (e : Event) : Dimension → Option Uuid
  | .assignment => some e.assignmentId
  | .customer => e.customerId
  | .area => e.areaId
  | .asset => e.assetId

theorem Draft.entityFor_toEvent (d : Draft) (a : Assignment) (id : Uuid) (received : Instant) :
    (d.toEvent a id received).entityFor = a.entityFor := by
  funext dim
  cases dim <;> rfl

def Naming.last (ns : List Naming) (tenant alternateId : String) : Option Event :=
  (ns.find? fun n => tenant = n.tenant ∧ alternateId = n.alternateId).map (·.event)

theorem Naming.last_cons (n : Naming) (ns : List Naming) (t a : String) :
    last (n :: ns) t a = if t = n.tenant ∧ a = n.alternateId then some n.event else last ns t a := by
  unfold last
  by_cases h : t = n.tenant ∧ a = n.alternateId
  · rw [if_pos h, List.find?_cons_of_pos (by simpa using h)]
    rfl
  · rw [if_neg h, List.find?_cons_of_neg (by simpa using h)]

theorem Naming.mem_of_last {ns : List Naming} {t a : String} {e : Event} (h : last ns t a = some e) :
    ∃ n ∈ ns, n.tenant = t ∧ n.alternateId = a ∧ n.event = e := by
  unfold last at h
  obtain ⟨n, hn, he⟩ := Option.map_eq_some_iff.1 h
  have hkey := List.find?_some hn
  simp only [decide_eq_true_eq] at hkey
  exact ⟨n, List.mem_of_find?_eq_some hn, hkey.1.symm, hkey.2.symm, he⟩

namespace Traffic

variable {stores : Nat → StoreSettings} {faults : Bool} {s s' : Traffic}

/-- The event of the last write by an alternate id. -/
def lastNamed (s : Traffic) (tenant alternateId : String) : Option Event :=
  Naming.last s.named tenant alternateId

structure Recorded (stores : Nat → StoreSettings) (s : Traffic) : Prop where
  /-- A record comes from a call that has gone on since. -/
  events : ∀ t id e, s.rows.event? t id = some e →
    ∃ c ∈ s.calls, c.stage ≠ .event ∧ c.tenant stores = t ∧ c.id = id ∧ c.event = e
  written : ∀ c ∈ s.calls, (c.stage = .index ∨ ∃ a, c.stage = .alternateId a) →
    s.rows.event? (c.tenant stores) c.id = some c.event
  ids : ∀ t a, s.rows.eventId? t a = (s.lastNamed t a).map (·.id)
  named : ∀ n ∈ s.named, s.rows.event? n.tenant n.event.id = some n.event ∧
    n.event.alternateId = some n.alternateId

theorem start_recorded : Recorded stores .start := by
  refine ⟨?_, ?_, ?_, ?_⟩
  · intro t id e h
    cases h
  · intro c h
    cases h
  · intro t a
    rfl
  · intro n h
    cases h

/-! ## Records stay -/

theorem step_event? (h : Step stores faults s s') (hi : Inv s) (hr : Recorded stores s) {t : String} {id : Uuid}
    {e : Event} (he : s.rows.event? t id = some e) : s'.rows.event? t id = some e := by
  cases h with
  | advance cs c ds f hc _ =>
    show ((c.put stores).advance s.rows f).2.event? t id = some e
    rcases (c.put stores).advance_cases s.rows f with
      ⟨hstage, -, heq⟩ | ⟨a, -, -, heq⟩ | ⟨g, -, -, heq⟩ | ⟨-, heq⟩
    · rw [heq]
      show (s.rows.writeEvent (c.tenant stores) c.event).event? t id = some e
      rw [Rows.event?_writeEvent, if_neg]
      · exact he
      · -- the record comes from a call that is past this write, so not from this one
        intro hx
        obtain ⟨-, hid⟩ := hx
        obtain ⟨b, hb, hne, -, hbid, -⟩ := hr.events t id e he
        have hbc : b = c := hi.eq_of_id hb (by simp [hc]) (hbid.trans hid)
        rw [hbc] at hne
        exact hne hstage
    · rw [heq]
      exact he
    · rw [heq]
      exact he
    · rw [heq]
      exact he
  | write w f _ _ =>
    show (w.perform s.rows f).1.event? t id = some e
    unfold Rows.event?
    rw [(w.perform_frame s.rows f).1]
    exact he
  | call store a d id received _ => exact he
  | handOut cs c ds _ _ _ => exact he
  | failWrites d _ => exact he
  | failScans d _ => exact he
  | clearFailures => exact he

/-! ## One step -/

theorem mem_of_replaced {cs ds : List Call} {b c c' : Call} (h : s.calls = cs ++ c :: ds) (hb : b ∈ s.calls) :
    b = c ∨ b ∈ cs ++ c' :: ds := by
  rw [h] at hb
  simp only [List.mem_append, List.mem_cons] at hb ⊢
  rcases hb with hb | hb | hb
  · exact .inr (.inl hb)
  · exact .inl hb
  · exact .inr (.inr (.inr hb))

theorem writeEvent_recorded {cs ds : List Call} {c : Call} (hc : s.calls = cs ++ c :: ds) (hs : c.stage = .event)
    (hi : Inv s) (hr : Recorded stores s) : Recorded stores (s.advanced stores cs c ds none) := by
  have hmem : c ∈ s.calls := by simp [hc]
  have hkeep : ∀ t id e, s.rows.event? t id = some e → (s.advanced stores cs c ds none).rows.event? t id = some e := by
    intro t id e he
    exact step_event? (.advance s cs c ds none hc fun _ => rfl : Step stores false s _) hi hr he
  have hput := (c.put stores).advance_event s.rows hs
  have hstage : (s.advanced stores cs c ds none).calls =
      cs ++ { c with stage := c.draft.alternateId.elim .index .alternateId } :: ds := by
    simp only [advanced, hput]
    rfl
  have hrows : (s.advanced stores cs c ds none).rows = s.rows.writeEvent (c.tenant stores) c.event := by
    simp only [advanced, hput]
    rfl
  have hnamed : (s.advanced stores cs c ds none).named = s.named := by
    simp [advanced, naming, hs]
  refine ⟨?_, ?_, ?_, ?_⟩
  · intro t id e he
    rw [hrows, Rows.event?_writeEvent] at he
    rw [hstage]
    by_cases h : t = c.tenant stores ∧ id = c.event.id
    · rw [if_pos h] at he
      cases he
      refine ⟨_, List.mem_append_right _ (List.mem_cons_self ..), ?_, h.1.symm, h.2.symm, rfl⟩
      cases c.draft.alternateId <;> simp
    · rw [if_neg h] at he
      obtain ⟨b, hb, hne, hbt, hbid, hbe⟩ := hr.events t id e he
      rcases mem_of_replaced hc hb with rfl | hb
      · exact absurd hs hne
      · exact ⟨b, hb, hne, hbt, hbid, hbe⟩
  · intro x hx hxs
    rw [hstage] at hx
    rcases mem_replaced hc hx with rfl | hx
    · rw [hrows, Rows.event?_writeEvent]
      exact if_pos ⟨rfl, rfl⟩
    · exact hkeep _ _ _ (hr.written x hx hxs)
  · intro t a
    unfold lastNamed
    rw [hnamed, hrows]
    exact hr.ids t a
  · intro n hn
    rw [hnamed] at hn
    exact ⟨hkeep _ _ _ (hr.named n hn).1, (hr.named n hn).2⟩

theorem writeAlternateId_recorded {cs ds : List Call} {c : Call} {a : String} (hc : s.calls = cs ++ c :: ds)
    (hs : c.stage = .alternateId a) (hi : Inv s) (hr : Recorded stores s) :
    Recorded stores (s.advanced stores cs c ds none) := by
  have hmem : c ∈ s.calls := by simp [hc]
  have hadv : s.advanced stores cs c ds none =
      { s with
        rows := s.rows.writeAlternateId (c.tenant stores) a c.event.id
        calls := cs ++ { c with stage := .index } :: ds
        named := ⟨c.tenant stores, a, c.event⟩ :: s.named } := by
    simp only [advanced, naming, (c.put stores).advance_alternateId s.rows hs, hs]
    rfl
  have hevent : ∀ t id, (s.advanced stores cs c ds none).rows.event? t id = s.rows.event? t id := by
    intro t id
    rw [hadv]
    rfl
  refine ⟨?_, ?_, ?_, ?_⟩
  · intro t id e he
    rw [hevent] at he
    obtain ⟨b, hb, hne, hbt, hbid, hbe⟩ := hr.events t id e he
    rw [hadv]
    rcases mem_of_replaced hc hb with rfl | hb
    · exact ⟨{ b with stage := .index }, List.mem_append_right _ (List.mem_cons_self ..), by simp, hbt, hbid, hbe⟩
    · exact ⟨b, hb, hne, hbt, hbid, hbe⟩
  · intro x hx hxs
    rw [hevent]
    rw [hadv] at hx
    rcases mem_replaced hc hx with rfl | hx
    · exact hr.written c hmem (.inr ⟨a, hs⟩)
    · exact hr.written x hx hxs
  · intro t b
    have hids := hr.ids t b
    rw [hadv]
    show (s.rows.writeAlternateId (c.tenant stores) a c.event.id).eventId? t b =
      (Naming.last (⟨c.tenant stores, a, c.event⟩ :: s.named) t b).map (·.id)
    rw [Rows.eventId?_writeAlternateId, Naming.last_cons]
    by_cases h : t = c.tenant stores ∧ b = a
    · rw [if_pos h, if_pos h]
      rfl
    · rw [if_neg h, if_neg h]
      exact hids
  · intro n hn
    rw [hevent]
    rw [hadv] at hn
    rcases List.mem_cons.1 hn with rfl | hn
    · exact ⟨hr.written c hmem (.inr ⟨a, hs⟩), hi.naming c hmem a hs⟩
    · exact hr.named n hn

/-- Steps without a write by an id: whoever has gone on is still there. -/
theorem Recorded.of_frame (hr : Recorded stores s)
    (hon : ∀ c ∈ s.calls, c.stage ≠ .event → ∃ c' ∈ s'.calls, c'.stage ≠ .event ∧
      c'.tenant stores = c.tenant stores ∧ c'.id = c.id ∧ c'.event = c.event)
    (hfrom : ∀ c' ∈ s'.calls, (c'.stage = .index ∨ ∃ a, c'.stage = .alternateId a) → ∃ c ∈ s.calls,
      c.stage = c'.stage ∧ c.tenant stores = c'.tenant stores ∧ c.id = c'.id ∧ c.event = c'.event)
    (hevents : s'.rows.events = s.rows.events) (hids : s'.rows.alternateIds = s.rows.alternateIds)
    (hnamed : s'.named = s.named) : Recorded stores s' := by
  have hevent : ∀ t id, s'.rows.event? t id = s.rows.event? t id := by
    intro t id
    unfold Rows.event?
    rw [hevents]
  refine ⟨?_, ?_, ?_, ?_⟩
  · intro t id e h
    rw [hevent] at h
    obtain ⟨b, hb, hbs, hbt, hbid, hbe⟩ := hr.events t id e h
    obtain ⟨c, hc, hcs, hct, hcid, hce⟩ := hon b hb hbs
    exact ⟨c, hc, hcs, hct.trans hbt, hcid.trans hbid, hce.trans hbe⟩
  · intro x hx hxs
    obtain ⟨b, hb, hbs, hbt, hbid, hbe⟩ := hfrom x hx hxs
    rw [hevent, ← hbt, ← hbid, ← hbe]
    exact hr.written b hb (hbs ▸ hxs)
  · intro t a
    unfold Rows.eventId? lastNamed
    rw [hids, hnamed]
    exact hr.ids t a
  · intro n hn
    rw [hnamed] at hn
    rw [hevent]
    exact hr.named n hn

theorem Recorded.of_replaced {cs ds : List Call} {c c' : Call} (hr : Recorded stores s)
    (hc : s.calls = cs ++ c :: ds) (hcalls : s'.calls = cs ++ c' :: ds)
    (hsame : c'.tenant stores = c.tenant stores ∧ c'.id = c.id ∧ c'.event = c.event)
    (hne : c.stage ≠ .event → c'.stage ≠ .event)
    (hw : (c'.stage = .index ∨ ∃ a, c'.stage = .alternateId a) → c.stage = c'.stage)
    (hevents : s'.rows.events = s.rows.events) (hids : s'.rows.alternateIds = s.rows.alternateIds)
    (hnamed : s'.named = s.named) : Recorded stores s' := by
  obtain ⟨ht, hid, he⟩ := hsame
  refine hr.of_frame (fun b hb hbs => ?_) (fun x hx hxs => ?_) hevents hids hnamed
  · rw [hcalls]
    rcases mem_of_replaced hc hb with rfl | hb
    · exact ⟨c', List.mem_append_right _ (List.mem_cons_self ..), hne hbs, ht, hid, he⟩
    · exact ⟨b, hb, hbs, rfl, rfl, rfl⟩
  · rw [hcalls] at hx
    rcases mem_replaced hc hx with rfl | hx
    · exact ⟨c, by simp [hc], hw hxs, ht.symm, hid.symm, he.symm⟩
    · exact ⟨x, hx, rfl, rfl, rfl, rfl⟩

theorem advance_recorded {cs ds : List Call} {c : Call} (f : Option Failure) (hc : s.calls = cs ++ c :: ds)
    (hi : Inv s) (hr : Recorded stores s) : Recorded stores (s.advanced stores cs c ds f) := by
  rcases (c.put stores).advance_cases s.rows f with
    ⟨hs, rfl, -⟩ | ⟨a, hs, rfl, -⟩ | ⟨g, rfl, -, heq⟩ | ⟨hs, heq⟩
  · exact writeEvent_recorded hc hs hi hr
  · exact writeAlternateId_recorded hc hs hi hr
  · refine hr.of_replaced hc rfl ⟨rfl, rfl, rfl⟩ ?_ ?_ ?_ ?_ ?_
    · rw [heq]
      simp
    · rw [heq]
      simp
    · simp only [advanced, heq]
    · simp only [advanced, heq]
    · simp [advanced, naming]
  · refine hr.of_replaced hc rfl ⟨rfl, rfl, rfl⟩ ?_ ?_ ?_ ?_ ?_
    · rw [heq]
      exact id
    · rw [heq]
      exact fun _ => rfl
    · simp only [advanced, heq]
    · simp only [advanced, heq]
    · have hs : c.stage = .index ∨ ∃ g, c.stage = .failed g := hs
      rcases hs with hs | ⟨g, hs⟩
      · simp [advanced, naming, hs]
      · simp [advanced, naming, hs]

theorem step_recorded (h : Step stores faults s s') (hi : Inv s) (hr : Recorded stores s) : Recorded stores s' := by
  have hon : ∀ c ∈ s.calls, c.stage ≠ .event → ∃ c' ∈ s.calls, c'.stage ≠ .event ∧
      c'.tenant stores = c.tenant stores ∧ c'.id = c.id ∧ c'.event = c.event :=
    fun c hc hs => ⟨c, hc, hs, rfl, rfl, rfl⟩
  have hfrom : ∀ c' ∈ s.calls, (c'.stage = .index ∨ ∃ a, c'.stage = .alternateId a) → ∃ c ∈ s.calls,
      c.stage = c'.stage ∧ c.tenant stores = c'.tenant stores ∧ c.id = c'.id ∧ c.event = c'.event :=
    fun c hc _ => ⟨c, hc, rfl, rfl, rfl, rfl⟩
  cases h with
  | call store a d id received _ =>
    refine hr.of_frame (fun c hc hs => ⟨c, List.mem_append_left _ hc, hs, rfl, rfl, rfl⟩) (fun c hc hs => ?_)
      rfl rfl rfl
    rcases List.mem_append.1 hc with hc | hc
    · exact hfrom c hc hs
    · rw [List.mem_singleton.1 hc] at hs
      rcases hs with hs | ⟨b, hs⟩
      · cases hs
      · cases hs
  | advance cs c ds f hc _ => exact advance_recorded f hc hi hr
  | handOut cs c ds hc _ _ => exact hr.of_replaced hc rfl ⟨rfl, rfl, rfl⟩ id (fun _ => rfl) rfl rfl rfl
  | write w f _ _ =>
    obtain ⟨he, ha, -⟩ := w.perform_frame s.rows f
    exact hr.of_frame hon hfrom he ha rfl
  | failWrites d _ => exact hr.of_frame hon hfrom rfl rfl rfl
  | failScans d _ => exact hr.of_frame hon hfrom rfl rfl rfl
  | clearFailures => exact hr.of_frame hon hfrom rfl rfl rfl

/-! ## Runs -/

theorem run_recorded (h : Run stores faults s s') (hi : Inv s) (hr : Recorded stores s) : Recorded stores s' := by
  induction h with
  | refl => exact hr
  | tail h hs ih => exact step_recorded hs (run_inv h hi) ih

theorem reach_recorded (h : Reach stores faults s) : Recorded stores s := run_recorded h start_inv start_recorded

theorem run_event? (h : Run stores faults s s') (hi : Inv s) (hr : Recorded stores s) {t : String} {id : Uuid}
    {e : Event} (he : s.rows.event? t id = some e) : s'.rows.event? t id = some e := by
  induction h with
  | refl => exact he
  | tail h hs ih => exact step_event? hs (run_inv h hi) (run_recorded h hi hr) ih

/-- An entry of the index, and the call that wrote it. -/
theorem Recorded.entry (hr : Recorded stores s) (hi : Inv s) (ha : Accounts stores s) {k : PartitionKey} {e : Event}
    (he : e ∈ (s.rows.row k).events) :
    s.rows.event? k.tenant e.id = some e ∧ e.entityFor k.dimension = some k.entity ∧
      ∃ c ∈ s.calls, c.dispatched = true ∧ c.event = e ∧ c.tenant stores = k.tenant ∧
        k.bucket = (stores c.store).scheme.bucketOf e.eventDate := by
  obtain ⟨x, hx, -, hw⟩ := (ha.indexed k e).1 he
  have hdue := ha.conserved.mem_iff.2 (List.mem_append_right _ (List.mem_map_of_mem hx))
  obtain ⟨c, hc, hd, hmem⟩ := mem_due.1 hdue
  rw [hw] at hmem
  obtain ⟨d, y, hy, heq⟩ := Call.mem_writes.1 hmem
  injection heq with hk hev
  subst hk hev
  refine ⟨hr.written c hc (.inl (hi.dispatched c hc hd)), ?_, c, hc, hd, rfl, rfl, rfl⟩
  rw [Call.event, Draft.entityFor_toEvent]
  exact hy

/-- The id under an alternate id, read at one moment, finds the event at any later one. -/
theorem eventId?_bind (hr : Recorded stores s) (hi : Inv s) (h : Run stores faults s s') (t a : String) :
    (s.rows.eventId? t a).bind (s'.rows.event? t) = s.lastNamed t a := by
  rw [hr.ids t a]
  cases hl : s.lastNamed t a with
  | none => rfl
  | some e =>
    obtain ⟨n, hn, rfl, -, rfl⟩ := Naming.mem_of_last hl
    exact run_event? h hi hr (hr.named n hn).1

theorem lastNamed_eq_none {t a : String} :
    s.lastNamed t a = none ↔ ∀ n ∈ s.named, ¬(n.tenant = t ∧ n.alternateId = a) := by
  unfold lastNamed Naming.last
  rw [Option.map_eq_none_iff, List.find?_eq_none]
  simp only [decide_eq_true_eq, @eq_comm _ t, @eq_comm _ a]

/-! ## All references -/

/-- Two tenants with buckets of their own widths. -/
def sampleStores : Nat → StoreSettings
  | 0 => {}
  | _ => { tenant := "other", scheme := .ofNanos 60000000000 }

def sampleOf (store id : Nat) (stage : PutStage) : Call :=
  ⟨store, sampleAssignment, sampleDraft, .ofNat id, .epoch, stage, false⟩

def sampleEntry : IndexWrite :=
  ⟨(sampleOf 0 9 .index).key sampleStores .customer (.ofNat 3), (sampleOf 0 9 .index).event⟩

/-- Two calls write one alternate id, the later one first, while another tenant begins. -/
def sampleRenamed : Traffic :=
  let s := (start.called 0 sampleAssignment sampleDraft (.ofNat 9) .epoch).called 0 sampleAssignment sampleDraft (.ofNat 8) .epoch
  let s := s.called 1 sampleAssignment sampleDraft (.ofNat 7) .epoch
  let s := s.advanced sampleStores [] (sampleOf 0 9 .event) [sampleOf 0 8 .event, sampleOf 1 7 .event] none
  let s := s.advanced sampleStores [sampleOf 0 9 (.alternateId "reading-1")] (sampleOf 0 8 .event)
    [sampleOf 1 7 .event] none
  let s := s.advanced sampleStores [sampleOf 0 9 (.alternateId "reading-1")] (sampleOf 0 8 (.alternateId "reading-1"))
    [sampleOf 1 7 .event] none
  let s := s.advanced sampleStores [] (sampleOf 0 9 (.alternateId "reading-1"))
    [sampleOf 0 8 .index, sampleOf 1 7 .event] none
  let s := s.advanced sampleStores [sampleOf 0 9 .index, sampleOf 0 8 .index] (sampleOf 1 7 .event) [] none
  let s := s.handedOut sampleStores [] (sampleOf 0 9 .index)
    [sampleOf 0 8 .index, sampleOf 1 7 (.alternateId "reading-1")]
  s.written sampleEntry none

theorem sampleRenamed_reach : Reach sampleStores false sampleRenamed := by
  refine .tail (.tail (.tail (.tail (.tail (.tail (.tail (.tail (.tail (.single
    (.call _ 0 sampleAssignment sampleDraft (.ofNat 9) .epoch ?_))
    (.call _ 0 sampleAssignment sampleDraft (.ofNat 8) .epoch ?_))
    (.call _ 1 sampleAssignment sampleDraft (.ofNat 7) .epoch ?_))
    (.advance _ [] _ _ none rfl fun _ => rfl)) (.advance _ [_] _ _ none rfl fun _ => rfl))
    (.advance _ [_] _ _ none rfl fun _ => rfl)) (.advance _ [] _ _ none rfl fun _ => rfl))
    (.advance _ [_, _] _ [] none rfl fun _ => rfl)) (.handOut _ [] _ _ rfl rfl rfl))
    (.write _ sampleEntry none ?_ fun _ => rfl)
  · intro c hc
    cases hc
  · decide +kernel
  · decide +kernel
  · decide

/-- Whatever stores share their rows and whatever they do, what refers to an event finds it,
as it was written. -/
theorem references_hold (stores : Nat → StoreSettings) (faults : Bool) (s : Traffic) (h : Reach stores faults s) :
    (∀ t a id, s.rows.eventId? t a = some id →
      ∃ e, s.rows.event? t id = some e ∧ e.id = id ∧ e.alternateId = some a) ∧
    (∀ k, ∀ e ∈ (s.rows.row k).events,
      s.rows.event? k.tenant e.id = some e ∧ e.entityFor k.dimension = some k.entity ∧
        ∃ c ∈ s.calls, c.dispatched = true ∧ c.event = e ∧ c.tenant stores = k.tenant ∧
          k.bucket = (stores c.store).scheme.bucketOf e.eventDate) ∧
    ∀ s', Run stores faults s s' →
      (∀ t id e, s.rows.event? t id = some e → s'.rows.event? t id = some e) ∧
      (∀ t a, (s.rows.eventId? t a).bind (s'.rows.event? t) = s.lastNamed t a ∧
        ((s.rows.eventId? t a).bind (s'.rows.event? t) = none ↔
          ∀ n ∈ s.named, ¬(n.tenant = t ∧ n.alternateId = a))) := by
  have hi := reach_inv h
  have hr := reach_recorded h
  refine ⟨?_, fun k e he => hr.entry hi (reach_accounts h) he, fun s' hs' => ⟨?_, ?_⟩⟩
  · intro t a id hid
    have hbind := eventId?_bind hr hi (.refl : Run stores faults s s) t a
    rw [hid] at hbind
    rw [hr.ids t a, Option.map_eq_some_iff] at hid
    obtain ⟨e, he, rfl⟩ := hid
    refine ⟨e, hbind.trans he, rfl, ?_⟩
    obtain ⟨n, hn, -, rfl, rfl⟩ := Naming.mem_of_last he
    exact (hr.named n hn).2
  · intro t id e he
    exact run_event? hs' hi hr he
  · intro t a
    have hbind := eventId?_bind hr hi hs' t a
    exact ⟨hbind, by rw [hbind, lastNamed_eq_none]⟩

/-- The alternate id leads to the event that took it last, and so does the one entry of the partition of its customer. -/
theorem references_hold_renamed :
    sampleRenamed.rows.eventId? "default" "reading-1" = some (.ofNat 9) ∧
      (sampleRenamed.rows.eventId? "default" "reading-1").bind (sampleRenamed.rows.event? "default") =
        some (sampleOf 0 9 .index).event ∧
      (sampleRenamed.rows.eventId? "other" "reading-1").bind (sampleRenamed.rows.event? "other") = none ∧
      (∃ e, sampleRenamed.rows.event? "default" (.ofNat 9) = some e ∧ e.id = .ofNat 9 ∧
        e.alternateId = some "reading-1") ∧
      (sampleRenamed.rows.row sampleEntry.key).events = [sampleEntry.event] ∧
      sampleRenamed.rows.event? sampleEntry.key.tenant sampleEntry.event.id = some sampleEntry.event ∧
      sampleEntry.event.entityFor sampleEntry.key.dimension = some sampleEntry.key.entity ∧
      ∃ c ∈ sampleRenamed.calls, c.dispatched = true ∧ c.event = sampleEntry.event ∧
        c.tenant sampleStores = sampleEntry.key.tenant ∧
        sampleEntry.key.bucket = (sampleStores c.store).scheme.bucketOf sampleEntry.event.eventDate := by
  have hlast : sampleRenamed.lastNamed "default" "reading-1" = some (sampleOf 0 9 .index).event := by decide
  have hnone : sampleRenamed.lastNamed "other" "reading-1" = none := by decide
  have hid : sampleRenamed.rows.eventId? "default" "reading-1" = some (.ofNat 9) := by decide
  have hentry : (sampleRenamed.rows.row sampleEntry.key).events = [sampleEntry.event] := by decide
  obtain ⟨hnames, hentries, hrun⟩ := references_hold sampleStores false sampleRenamed sampleRenamed_reach
  obtain ⟨-, hget⟩ := hrun sampleRenamed .refl
  exact ⟨hid, (hget _ _).1.trans hlast, (hget _ _).1.trans hnone, hnames _ _ _ hid, hentry,
    hentries _ _ (hentry ▸ List.mem_singleton_self _)⟩

end Traffic
end DeviceEvents
