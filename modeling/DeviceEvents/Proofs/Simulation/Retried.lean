import DeviceEvents.Proofs.Simulation.Background
import DeviceEvents.Proofs.Store.References
/-
  DeviceEvents.Proofs.Simulation.Retried — a request that comes until it is stored.

  A put writes its event by the id and then by the alternate id. Where the second write fails
  the first is not undone, and since the alternate id leads nowhere the request is not taken
  for a duplicate when it comes again: the next attempt writes an event with an id of its own.
  - `put_ends`: how a put ends, and what it has then written by ids;
  - `persist_ends`: the same for a request with an alternate id that is free;
  - `retried_leaves`: attempts that fail until one succeeds leave one more event behind for
    every write by the alternate id that was to fail, and the alternate id leads to the last;
  - `retried_twice`: such a request is stored twice.
  Whatever else gets on in a world does not touch what is written by ids (`Keeps`).
-/

namespace DeviceEvents

namespace Rows

/-- The events of a tenant that carry an alternate id. -/
def carrying (r : Rows) (tenant alternateId : String) : List Event :=
  (r.events.entries.filter fun x => x.1.1 == tenant && x.2.alternateId == some alternateId).map (·.2)

theorem carrying_append {r r' : Rows} {tenant a : String} {es : List Event}
    (h : r'.events.entries = r.events.entries ++ es.map fun e => ((tenant, e.id), e))
    (hes : ∀ e ∈ es, e.alternateId = some a) : r'.carrying tenant a = r.carrying tenant a ++ es := by
  have hall : (es.map fun e => ((tenant, e.id), e)).filter (fun x => x.1.1 == tenant && x.2.alternateId == some a) =
      es.map fun e => ((tenant, e.id), e) := by
    apply List.filter_eq_self.2
    intro x hx
    obtain ⟨e, he, rfl⟩ := List.mem_map.1 hx
    simp [hes e he]
  unfold carrying
  rw [h, List.filter_append, List.map_append, hall, List.map_map]
  exact congrArg _ (List.map_id es)

end Rows

namespace Simulation

variable {α : Type} {w : World}

/-! ## Plans -/

/-- How the calls fail that come before one that does not. -/
def failures : List (Except Failure Unit) → List Failure
  | .error f :: rest => f :: failures rest
  | _ => []

theorem failures_append (fs : List Failure) {xs : List (Except Failure Unit)} (h : failure? xs = none) :
    failures (fs.map .error ++ xs) = fs := by
  induction fs with
  | nil =>
    cases xs with
    | nil => rfl
    | cons x rest =>
      cases x with
      | error f => cases h
      | ok u => rfl
  | cons f fs ih =>
    show f :: failures (fs.map .error ++ xs) = f :: fs
    rw [ih]

theorem failure?_eq_none {xs : List (Except Failure Unit)} : failure? xs = none ↔ failures xs = [] := by
  cases xs with
  | nil => simp [failure?, failures]
  | cons x rest => cases x <;> simp [failure?, failures]

theorem failure?_eq_some {xs : List (Except Failure Unit)} {f : Failure} :
    failure? xs = some f ↔ ∃ rest, xs = .error f :: rest := by
  cases xs with
  | nil => simp [failure?]
  | cons x rest => cases x <;> simp [failure?]

/-! ## What is written by ids -/

/-- What the writes and reads of a world by ids go by. -/
structure Points where
  events : Table (String × Uuid) Event
  alternateIds : Table (String × String) Uuid
  puts : Nat
  looks : Nat
  supply : Supply
  stores : List StoreSettings
  registry : Registry
  /-- What is planned for the next calls of one method. -/
  planned : List (Except Failure Unit)

namespace Points

def tenant (p : Points) (store : Nat) : String := (p.stores[store]?.getD {}).tenant

/-- The event of the next put. -/
def next (p : Points) (a : Assignment) (d : Draft) : Event := d.toEvent a (p.supply.eventId p.puts) (p.supply.date p.looks)

/-- A put has begun. -/
def begun (p : Points) : Points := { p with puts := p.puts + 1, looks := p.looks + 1 }

end Points

def World.points (w : World) (m : Method) : Points where
  events := w.rows.events
  alternateIds := w.rows.alternateIds
  puts := w.puts
  looks := w.looks
  supply := w.supply
  stores := w.stores
  registry := w.registry
  planned := w.plan m

/-- Nothing happens to what is written by ids, and to what is planned for a method. -/
def Keeps (n : Method) (x : Sim α) : Prop := ∀ w, (after x w).points n = w.points n

variable {m n : Method}

theorem World.points_of_front {v : World} (hn : n ≠ .writeIndexEntry) (h : v.front = w.front) : v.points n = w.points n := by
  have hplan := World.plan_of_front hn h
  unfold points
  rw [hplan]
  exact congrArg (fun p : Front => (⟨p.events, p.alternateIds, p.puts, p.looks, p.supply, p.stores, p.registry,
    w.plan n⟩ : Points)) h

theorem Aside.keeps {x : Sim α} (h : Aside x) (hn : n ≠ .writeIndexEntry) : Keeps n x := fun w =>
  World.points_of_front hn (h w)

section

variable (hn : n ≠ .writeIndexEntry)

include hn

theorem points_call (hm : m ≠ .writeIndexEntry) (w : World) :
    (after (call m) w).points n = { w.points n with planned := if n = m then (w.plan n).tail else w.plan n } := by
  have hfront := (call_front hm w).2
  have hplan : (after (call m) w).plan n = if n = m then (w.plan n).tail else w.plan n := by
    have h := congrFun (congrArg Front.plan hfront) n
    simpa only [World.front, Front.called, if_neg hn] using h
  unfold World.points
  rw [hplan]
  exact congrArg (fun p : Front => (⟨p.events, p.alternateIds, p.puts, p.looks, p.supply, p.stores, p.registry,
    if n = m then (w.plan n).tail else w.plan n⟩ : Points)) hfront

theorem call_keeps (hm : m ≠ .writeIndexEntry) (h : n ≠ m) : Keeps n (call m) := by
  intro w
  rw [points_call hn hm, if_neg h]
  rfl

/-- A call takes what is planned for it. -/
theorem call_takes (w : World) : result (call n) w = failure? (w.points n).planned ∧
    (after (call n) w).points n = { w.points n with planned := (w.points n).planned.tail } := by
  rw [points_call hn hn, if_pos rfl]
  exact ⟨(call_front hn w).1, rfl⟩

end

/-! ## Puts -/

/-- How the writes of a put by ids end, and what they leave. -/
inductive Written (tenant : String) (e : Event) (p : Points) : PutStage → Points → Prop
  | unwritten (f : Failure) : Written tenant e p (.failed f) p
  /-- The event is written, and the alternate id does not come to lead to it. -/
  | leftBehind (a : String) (f : Failure) (rest : List (Except Failure Unit)) :
      e.alternateId = some a → p.planned = .error f :: rest →
      Written tenant e p (.failed f) { p with events := p.events.insert (tenant, e.id) e, planned := rest }
  | nameless : e.alternateId = none →
      Written tenant e p .index { p with events := p.events.insert (tenant, e.id) e }
  | named (a : String) : e.alternateId = some a → failure? p.planned = none →
      Written tenant e p .index
        { p with events := p.events.insert (tenant, e.id) e, planned := p.planned.tail,
                 alternateIds := p.alternateIds.insert (tenant, a) e.id }

theorem writeNext_event {p : Put} (hp : p.stage = .event) (w : World) :
    (∃ f, result (writeNext p) w = { p with stage := .failed f } ∧
        (after (writeNext p) w).points .writeAlternateId = w.points .writeAlternateId) ∨
      (result (writeNext p) w = { p with stage := p.event.alternateId.elim .index .alternateId } ∧
        (after (writeNext p) w).points .writeAlternateId = { w.points .writeAlternateId with
          events := w.rows.events.insert (p.tenant, p.event.id) p.event }) := by
  obtain ⟨hr, ha⟩ := writeNext_eq (.inl ⟨hp, rfl⟩) w
  have hcall : (after (call .writeEvent) w).points .writeAlternateId = w.points .writeAlternateId :=
    call_keeps (by decide) (by decide) (by decide) w
  rw [hr, ha]
  cases result (call .writeEvent) w with
  | some f => exact .inl ⟨f, by simp [Put.advance, hp], by simpa [Put.advance, hp] using hcall⟩
  | none =>
    rw [p.advance_event _ hp]
    refine .inr ⟨rfl, ?_⟩
    exact congrArg (fun q : Points => { q with events := q.events.insert (p.tenant, p.event.id) p.event }) hcall

theorem writeNext_alternateId {p : Put} {a : String} (hp : p.stage = .alternateId a) {q : Points}
    (hq : w.points .writeAlternateId = q) :
    (∃ f rest, q.planned = .error f :: rest ∧ result (writeNext p) w = { p with stage := .failed f } ∧
        (after (writeNext p) w).points .writeAlternateId = { q with planned := rest }) ∨
      (failure? q.planned = none ∧ result (writeNext p) w = { p with stage := .index } ∧
        (after (writeNext p) w).points .writeAlternateId =
          { q with planned := q.planned.tail, alternateIds := q.alternateIds.insert (p.tenant, a) p.event.id }) := by
  obtain ⟨hr, ha⟩ := writeNext_eq (.inr ⟨⟨a, hp⟩, rfl⟩) w
  obtain ⟨hfail, hcall⟩ := call_takes (n := .writeAlternateId) (by decide) w
  rw [hq] at hfail hcall
  rw [hr, ha, hfail]
  cases hf : failure? q.planned with
  | some f =>
    left
    obtain ⟨rest, hrest⟩ := failure?_eq_some.1 hf
    rw [hrest, List.tail_cons] at hcall
    exact ⟨f, rest, hrest, by simp [Put.advance, hp], by simpa [Put.advance, hp] using hcall⟩
  | none =>
    right
    rw [p.advance_alternateId _ hp]
    refine ⟨rfl, rfl, ?_⟩
    exact congrArg (fun q : Points => { q with alternateIds := q.alternateIds.insert (p.tenant, a) p.event.id }) hcall

theorem writes_end {p : Put} (hp : p.stage = .event) {q : Points} (hq : w.points .writeAlternateId = q) :
    ∃ t, result (writeNext p >>= writeNext) w = { p with stage := t } ∧
      Written p.tenant p.event q t ((after (writeNext p >>= writeNext) w).points .writeAlternateId) := by
  rw [result_bind, after_bind, ← hq]
  rcases writeNext_event hp w with ⟨f, hr, hv⟩ | ⟨hr, hv⟩
  · obtain ⟨hr', ha'⟩ := writeNext_done (p := { p with stage := .failed f }) (.inr ⟨f, rfl⟩) (after (writeNext p) w)
    rw [hr, hr', ha', hv]
    exact ⟨_, rfl, .unwritten f⟩
  · rw [hr]
    cases hd : p.event.alternateId with
    | none =>
      obtain ⟨hr', ha'⟩ := writeNext_done (p := { p with stage := .index }) (.inl rfl) (after (writeNext p) w)
      rw [Option.elim_none, hr', ha', hv]
      exact ⟨_, rfl, .nameless hd⟩
    | some a =>
      rw [Option.elim_some]
      rcases writeNext_alternateId (p := { p with stage := .alternateId a }) rfl hv with
        ⟨f, rest, hn, hr', ha'⟩ | ⟨hn, hr', ha'⟩
      · rw [hr', ha']
        exact ⟨_, rfl, .leftBehind a f rest hd hn⟩
      · rw [hr', ha']
        exact ⟨_, rfl, .named a hd hn⟩

theorem put_ends (store : Nat) (a : Assignment) (d : Draft) {p : Points} (hp : w.points .writeAlternateId = p)
    {e : Event} (he : p.next a d = e) :
    (∃ f, result (put store a d) w = .error (.backend f) ∧
      Written (p.tenant store) e p.begun (.failed f) ((after (put store a d) w).points .writeAlternateId)) ∨
    (result (put store a d) w = .ok e ∧
      Written (p.tenant store) e p.begun .index ((after (put store a d) w).points .writeAlternateId)) := by
  subst hp
  obtain ⟨t, hr, hw⟩ := writes_end (w := { w with puts := w.puts + 1, looks := w.looks + 1 })
    (p := .ofEvent (w.settings store).tenant e) rfl rfl
  rw [result_bind] at hr
  rw [after_bind] at hw
  have he' : d.toEvent a w.nextId w.today = e := he
  unfold put
  simp only [result_bind, after_bind, result_get, after_get, after_set, he', hr]
  cases t with
  | failed f => exact .inl ⟨f, rfl, hw⟩
  | index =>
    refine .inr ⟨rfl, ?_⟩
    rw [after_bind, after_pure, (dispatch_aside store a e).keeps (by decide)]
    exact hw
  | event => cases hw
  | alternateId a => cases hw

/-- A put that fails writes nothing by ids, or leaves its event behind because the write by the
alternate id has failed. -/
theorem put_error_leaves {store : Nat} {a : Assignment} {d : Draft} {t : Trouble} {e : Event}
    (he : d.toEvent a w.nextId w.today = e) (h : result (put store a d) w = .error t) :
    (after (put store a d) w).rows.alternateIds = w.rows.alternateIds ∧
      ((after (put store a d) w).rows.events = w.rows.events ∨
        (after (put store a d) w).rows.events = w.rows.events.insert ((w.settings store).tenant, e.id) e ∧
          e.alternateId.isSome ∧ ∃ f, failure? (w.plan .writeAlternateId) = some f ∧ t = .backend f) := by
  rcases put_ends store a d (p := w.points .writeAlternateId) rfl he with ⟨f, hr, hw⟩ | ⟨hr, -⟩
  · obtain rfl : .backend f = t := Except.error.inj (hr.symm.trans h)
    generalize hv : (after (put store a d) w).points .writeAlternateId = q at hw
    have hevents : (after (put store a d) w).rows.events = q.events := congrArg Points.events hv
    have hids : (after (put store a d) w).rows.alternateIds = q.alternateIds := congrArg Points.alternateIds hv
    rw [hevents, hids]
    cases hw with
    | unwritten => exact ⟨rfl, .inl rfl⟩
    | leftBehind b _ rest hb hplan =>
      refine ⟨rfl, .inr ⟨rfl, ?_, f, failure?_eq_some.2 ⟨rest, hplan⟩, rfl⟩⟩
      rw [hb]
      rfl
  · rw [hr] at h
    cases h

/-! ## Requests -/

theorem eventId?_points (w : World) (n : Method) (store : Nat) (a : String) :
    w.rows.eventId? (w.settings store).tenant a = (w.points n).alternateIds.get? ((w.points n).tenant store, a) := rfl

theorem event?_points (w : World) (n : Method) (store : Nat) (i : Uuid) :
    w.rows.event? (w.settings store).tenant i = (w.points n).events.get? ((w.points n).tenant store, i) := rfl

theorem getByAlternateId_free (store : Nat) {a : String} {p : Points} (hp : w.points .writeAlternateId = p)
    (hfree : p.alternateIds.get? (p.tenant store, a) = none) :
    ((∃ f, result (getByAlternateId store a) w = .error (.backend f)) ∨
        result (getByAlternateId store a) w = .ok none) ∧
      (after (getByAlternateId store a) w).points .writeAlternateId = p := by
  have hcall : (after (call .readAlternateId) w).points .writeAlternateId = p :=
    (call_keeps (by decide) (by decide) (by decide) w).trans hp
  have hnone : (after (call .readAlternateId) w).rows.eventId?
      ((after (call .readAlternateId) w).settings store).tenant a = none := by
    rw [eventId?_points _ .writeAlternateId, hcall]
    exact hfree
  unfold getByAlternateId
  simp only [result_bind, after_bind]
  cases result (call .readAlternateId) w with
  | some f => exact ⟨.inl ⟨f, rfl⟩, hcall⟩
  | none =>
    simp only [result_bind, after_bind, result_get, after_get, hnone]
    exact ⟨.inr rfl, hcall⟩

theorem getByAlternateId_named (store : Nat) {a : String} {i : Uuid} {e : Event}
    (hplan : failure? (w.plan .readAlternateId) = none) (hplan' : failure? (w.plan .readEvent) = none)
    (hid : w.rows.eventId? (w.settings store).tenant a = some i)
    (he : w.rows.event? (w.settings store).tenant i = some e) :
    result (getByAlternateId store a) w = .ok (some e) := by
  let v := after (call .readAlternateId) w
  obtain ⟨hread, hv⟩ := call_takes (n := .readAlternateId) (by decide) w
  obtain ⟨hread', hu⟩ := call_takes (n := .readEvent) (by decide) v
  have hkept : v.points .readEvent = w.points .readEvent := call_keeps (by decide) (by decide) (by decide) w
  rw [hkept] at hread' hu
  have hr : result (call .readAlternateId) w = none := hread.trans hplan
  have hr' : result (call .readEvent) v = none := hread'.trans hplan'
  have hid' : v.rows.eventId? (v.settings store).tenant a = some i := by
    rw [eventId?_points _ .readAlternateId, hv]
    exact hid
  have he' : (after (call .readEvent) v).rows.event? ((after (call .readEvent) v).settings store).tenant i =
      some e := by
    rw [event?_points _ .readEvent, hu]
    exact he
  unfold getByAlternateId getById
  simp only [result_bind, result_get, after_get, hr]
  rw [hid', result_bind, hr']
  exact congrArg Except.ok he'

theorem checkAlternateId_free {d : Draft} {a : String} (ha : d.alternateId = some a) {p : Points}
    (hp : w.points .writeAlternateId = p) (hfree : p.alternateIds.get? (p.tenant 0, a) = none) :
    ((∃ f, result (d.checkAlternateId (management 0)) w = .error (.eventStoreUnavailable f)) ∨
        result (d.checkAlternateId (management 0)) w = .ok ()) ∧
      (after (d.checkAlternateId (management 0)) w).points .writeAlternateId = p := by
  obtain ⟨hread, hpoints⟩ := getByAlternateId_free 0 hp hfree
  unfold Draft.checkAlternateId management
  simp only [ha, result_bind, after_bind, result_map, after_map]
  rcases hread with ⟨f, hread⟩ | hread
  · rw [hread]
    exact ⟨.inl ⟨f.chain, rfl⟩, hpoints⟩
  · rw [hread]
    exact ⟨.inr rfl, hpoints⟩

/-- How an attempt at a request ends whose alternate id is free. -/
theorem persist_ends {r : Request} {a : Assignment} {alt : String} {p : Points} {e : Event}
    (hp : w.points .writeAlternateId = p) (hactive : p.registry.active? r.deviceToken = some a)
    (halt : r.draft.alternateId = some alt) (hfree : p.alternateIds.get? (p.tenant 0, alt) = none)
    (he : p.next a r.draft = e) :
    (∃ f, result (persist r) w = .error (.eventStoreUnavailable f) ∧
        ((after (persist r) w).points .writeAlternateId = p ∨
          ∃ g, Written (p.tenant 0) e p.begun (.failed g) ((after (persist r) w).points .writeAlternateId))) ∨
    (result (persist r) w = .ok () ∧
      Written (p.tenant 0) e p.begun .index ((after (persist r) w).points .writeAlternateId)) := by
  obtain ⟨hcheck, hpoints⟩ := checkAlternateId_free halt hp hfree
  have hactive' : w.registry.active? r.deviceToken = some a := by
    subst hp
    exact hactive
  rcases hcheck with ⟨f, hcheck⟩ | hcheck
  · obtain ⟨hr, hw⟩ := persist_refused hactive' hcheck
    rw [hr, hw]
    exact .inl ⟨f, rfl, .inl hpoints⟩
  · generalize hv : after (r.draft.checkAlternateId (management 0)) w = v at hpoints
    obtain ⟨hres, haft⟩ := persist_put hactive' hcheck hv
    rw [hres, haft]
    rcases put_ends 0 a r.draft hpoints he with ⟨f, hr, hw⟩ | ⟨hr, hw⟩
    · rw [hr]
      exact .inl ⟨f.chain, rfl, .inr ⟨f, hw⟩⟩
    · rw [hr]
      exact .inr ⟨rfl, hw⟩

/-! ## What attempts leave behind -/

/-- The next `k` puts have ids of their own, under which nothing is written. -/
structure Room (p : Points) (k : Nat) : Prop where
  ids : p.supply.Apart (p.puts + k)
  unused : ∀ tenant n, p.puts ≤ n → n < p.puts + k → p.events.get? (tenant, p.supply.eventId n) = none

/-- From `p` to `q` the events `es` have been written, and for each of them the write by the
alternate id has failed. -/
structure Leaves (tenant alternateId : String) (p q : Points) (es : List Event) : Prop where
  events : q.events.entries = p.events.entries ++ es.map fun e => ((tenant, e.id), e)
  carry : ∀ e ∈ es, e.alternateId = some alternateId
  planned : ∃ fs : List Failure, fs.length = es.length ∧ p.planned = fs.map .error ++ q.planned
  alternateIds : q.alternateIds = p.alternateIds
  stores : q.stores = p.stores
  registry : q.registry = p.registry

variable {p q q' : Points} {tenant alt : String} {es es' : List Event} {e : Event} {k : Nat}

theorem Room.of_le {k' : Nat} (h : Room p k) (hk : k' ≤ k) : Room p k' :=
  ⟨h.ids.of_le (by omega), fun t n hn hlt => h.unused t n hn (by omega)⟩

theorem Room.begun (h : Room p (k + 1)) : Room p.begun k := by
  have hputs : p.begun.puts + k = p.puts + (k + 1) := Nat.succ_add_eq_add_succ p.puts k
  refine ⟨?_, ?_⟩
  · rw [hputs]
    exact h.ids
  · intro t n hn hlt
    rw [hputs] at hlt
    exact h.unused t n (Nat.le_of_succ_le hn) hlt

/-- An event is written, and no later one has its id. -/
theorem Room.written (h : Room p (k + 1)) (he : e.id = p.supply.eventId p.puts) (fs : List (Except Failure Unit)) :
    Room { p.begun with events := p.events.insert (tenant, e.id) e, planned := fs } k := by
  refine ⟨h.begun.ids, ?_⟩
  intro t n hn hlt
  have hputs : p.puts < n := hn
  have hlt' : n < p.puts + (k + 1) := Nat.succ_add_eq_add_succ p.puts k ▸ hlt
  show (p.events.insert (tenant, e.id) e).get? (t, p.supply.eventId n) = none
  rw [Table.get?_insert, if_neg]
  · exact h.unused t n (Nat.le_of_lt hputs) hlt'
  · intro hkey
    have hid : p.supply.eventId n = p.supply.eventId p.puts := (congrArg Prod.snd hkey).trans he
    exact h.ids p.puts n hputs hlt' hid.symm

/-- There is room in every world that stores come to. -/
theorem Shows.room {stores : Nat → StoreSettings} {supply : Supply} {hand : List IndexWrite} {s : Traffic}
    (h : Shows stores supply w hand s) (hr : Traffic.Recorded stores s) (hk : supply.Apart (w.puts + k)) (m : Method) :
    Room (w.points m) k := by
  obtain rfl := h.supplied
  refine ⟨hk, ?_⟩
  intro t n hn hlt
  show w.rows.event? t (w.supply.eventId n) = none
  cases he : w.rows.event? t (w.supply.eventId n) with
  | none => rfl
  | some e =>
    rw [← h.rows] at he
    obtain ⟨c, hc, -, -, hid, -⟩ := hr.events t _ e he
    have hmem : c.id ∈ (List.range w.puts).map w.supply.eventId := h.numbered ▸ List.mem_map_of_mem hc
    obtain ⟨i, hi, hci⟩ := List.mem_map.1 hmem
    exact absurd (hci.trans hid) (hk i n (Nat.lt_of_lt_of_le (List.mem_range.1 hi) hn) hlt)

theorem acts_room (supply : Supply) (settings : List StoreSettings) (r : Registry) (window : Window)
    (acts : List StoreAct) (hn : supply.Apart acts.length)
    (hk : supply.Apart ((acts.foldl StoreAct.perform (.start supply settings r window)).puts + k)) (m : Method) :
    Room ((acts.foldl StoreAct.perform (.start supply settings r window)).points m) k := by
  obtain ⟨s, hs, hshows⟩ := acts_reach supply settings r window acts hn
  exact hshows.room (Traffic.reach_recorded hs) hk m

theorem Leaves.refl (p : Points) : Leaves tenant alt p p [] :=
  ⟨(List.append_nil _).symm, fun _ h => (nomatch h), ⟨[], rfl, rfl⟩, rfl, rfl, rfl⟩

theorem Leaves.begun (p : Points) : Leaves tenant alt p p.begun [] :=
  ⟨(List.append_nil _).symm, fun _ h => (nomatch h), ⟨[], rfl, rfl⟩, rfl, rfl, rfl⟩

theorem Leaves.trans (h : Leaves tenant alt p q es) (h' : Leaves tenant alt q q' es') :
    Leaves tenant alt p q' (es ++ es') := by
  obtain ⟨fs, hlen, hfs⟩ := h.planned
  obtain ⟨fs', hlen', hfs'⟩ := h'.planned
  refine ⟨?_, ?_, ⟨fs ++ fs', ?_, ?_⟩, h'.alternateIds.trans h.alternateIds, h'.stores.trans h.stores,
    h'.registry.trans h.registry⟩
  · rw [h'.events, h.events, List.map_append, List.append_assoc]
  · intro e he
    rcases List.mem_append.1 he with he | he
    · exact h.carry e he
    · exact h'.carry e he
  · rw [List.length_append, List.length_append, hlen, hlen']
  · rw [hfs, hfs', List.map_append, List.append_assoc]

/-- So many events are left behind as writes by the alternate id have failed. -/
theorem Leaves.length_eq (h : Leaves tenant alt p q es) (hq : failure? q.planned = none) :
    es.length = (failures p.planned).length := by
  obtain ⟨fs, hlen, hfs⟩ := h.planned
  rw [hfs, failures_append fs hq, hlen]

/-- Those that carry the alternate id, once one more event is written. -/
theorem Leaves.carrying {r r' : Rows} (h : Leaves tenant alt p q es) (hr : r.events = p.events)
    (hnew : q.events.get? (tenant, e.id) = none) (he : e.alternateId = some alt)
    (hr' : r'.events = q.events.insert (tenant, e.id) e) :
    r'.carrying tenant alt = r.carrying tenant alt ++ es ++ [e] := by
  rw [List.append_assoc]
  apply Rows.carrying_append
  · rw [hr', hr, Table.entries_insert hnew, h.events, List.map_append, List.append_assoc]
    rfl
  · intro x hx
    rcases List.mem_append.1 hx with hx | hx
    · exact h.carry x hx
    · rw [List.mem_singleton.1 hx]
      exact he

/-- A put that fails leaves its event behind just if it was the write by the alternate id that failed. -/
theorem Written.failed_leaves {f : Failure} (h : Written tenant e p.begun (.failed f) q)
    (hid : e.id = p.supply.eventId p.puts) (halt : e.alternateId = some alt) (hroom : Room p (k + 1)) :
    Room q k ∧ ∃ es, Leaves tenant alt p q es := by
  cases h with
  | unwritten f => exact ⟨hroom.begun, [], .begun p⟩
  | leftBehind a f rest ha hrest =>
    refine ⟨hroom.written hid rest, [e], ?_, ?_, ⟨[f], rfl, hrest⟩, rfl, rfl, rfl⟩
    · apply Table.entries_insert
      rw [hid]
      exact hroom.unused tenant p.puts (Nat.le_refl _) (by omega)
    · intro x hx
      rw [List.mem_singleton.1 hx]
      exact halt

/-! ## Requests that come again -/

/-- A request that is persisted again and again. -/
def attempts (r : Request) : Nat → Sim (List (Except Refusal Unit))
  | 0 => return []
  | n + 1 => do
    let x ← persist r
    return x :: (← attempts r n)

theorem attempts_inactive {r : Request} (h : w.registry.active? r.deviceToken = none) (k : Nat) :
    result (attempts r k) w = List.replicate k (.error (.assignmentNotFound r.deviceToken)) := by
  have hr : result (persist r) w = .error (.assignmentNotFound r.deviceToken) := by
    unfold persist Request.persist
    simp only [result_bind, result_get, after_get, h, result_pure]
  have ha : after (persist r) w = w := by
    unfold persist Request.persist
    simp only [after_bind, result_get, after_get, h, after_pure]
  induction k with
  | zero => rfl
  | succ k ih =>
    show result (persist r) w :: result (attempts r k) (after (persist r) w) = _
    rw [hr, ha, ih]
    rfl

/-- Attempts that fail and one that succeeds: some events are left behind, and the last is stored. -/
theorem attempts_end {r : Request} {a : Assignment} (halt : r.draft.alternateId = some alt) (fs : List Refusal)
    {w : World} {p : Points} (hp : w.points .writeAlternateId = p) (hactive : p.registry.active? r.deviceToken = some a)
    (hfree : p.alternateIds.get? (p.tenant 0, alt) = none) (hroom : Room p (fs.length + 1))
    (hrun : result (attempts r (fs.length + 1)) w = fs.map .error ++ [.ok ()]) :
    (∀ f ∈ fs, f.isTransient = true) ∧ ∃ es q e, Leaves (p.tenant 0) alt p q es ∧ e.alternateId = some alt ∧
      q.events.get? (p.tenant 0, e.id) = none ∧ Written (p.tenant 0) e q .index
        ((after (attempts r (fs.length + 1)) w).points .writeAlternateId) := by
  -- the alternate id stays free and there is room for one attempt less, so the rest goes the same way
  induction fs generalizing w p with
  | nil =>
    have hok : result (persist r) w = .ok () := (List.cons.inj hrun).1
    rcases persist_ends hp hactive halt hfree rfl with ⟨f, hr, -⟩ | ⟨-, hw⟩
    · rw [hok] at hr
      cases hr
    · refine ⟨fun f hf => (nomatch hf), [], p.begun, p.next a r.draft, .begun p, halt, ?_, hw⟩
      exact hroom.unused _ p.puts (Nat.le_refl _) (Nat.lt_succ_self _)
  | cons f fs ih =>
    obtain ⟨hf, hrest⟩ := List.cons.inj (show result (persist r) w ::
      result (attempts r (fs.length + 1)) (after (persist r) w) = .error f :: (fs.map .error ++ [.ok ()]) from hrun)
    rcases persist_ends hp hactive halt hfree rfl with ⟨g, hr, hend⟩ | ⟨hr, -⟩
    · rw [hf] at hr
      cases hr
      obtain ⟨q, hq, hqroom, es, hleaves⟩ : ∃ q, (after (persist r) w).points .writeAlternateId = q ∧
          Room q (fs.length + 1) ∧ ∃ es, Leaves (p.tenant 0) alt p q es := by
        refine ⟨_, rfl, ?_⟩
        rcases hend with hkept | ⟨g, hw⟩
        · rw [hkept]
          exact ⟨hroom.of_le (Nat.le_succ _), [], .refl p⟩
        · exact hw.failed_leaves rfl halt hroom
      have htenant : q.tenant 0 = p.tenant 0 := by
        unfold Points.tenant
        rw [hleaves.stores]
      obtain ⟨htransient, es', q', e, hleaves', halt', hnew, hw⟩ := ih hq (hleaves.registry ▸ hactive)
        (by rw [hleaves.alternateIds, htenant, hfree]) hqroom hrest
      rw [htenant] at hleaves' hnew hw
      refine ⟨?_, es ++ es', q', e, hleaves.trans hleaves', halt', hnew, hw⟩
      intro x hx
      rcases List.mem_cons.1 hx with rfl | hx
      · rfl
      · exact htransient x hx
    · rw [hf] at hr
      cases hr

/-- A request comes until it is stored, and its alternate id was free. For every write by the
alternate id that was to fail an event is left behind that carries it, and it leads to the last. -/
theorem retried_leaves {w : World} {r : Request} {alt : String} (halt : r.draft.alternateId = some alt)
    (hfree : w.rows.eventId? (w.settings 0).tenant alt = none) (fs : List Refusal)
    (hroom : Room (w.points .writeAlternateId) (fs.length + 1))
    (hrun : result (attempts r (fs.length + 1)) w = fs.map .error ++ [.ok ()]) :
    let v := after (attempts r (fs.length + 1)) w
    (∀ f ∈ fs, f.isTransient = true) ∧ ∃ left e,
      v.rows.carrying (w.settings 0).tenant alt = w.rows.carrying (w.settings 0).tenant alt ++ left ++ [e] ∧
      left.length = (failures (w.plan .writeAlternateId)).length ∧
      (failure? (v.plan .readAlternateId) = none → failure? (v.plan .readEvent) = none →
        result (getByAlternateId 0 alt) v = .ok (some e)) ∧
      (left = [] ↔ failure? (w.plan .writeAlternateId) = none) := by
  intro v
  cases hactive : w.registry.active? r.deviceToken with
  | none =>
    -- without an assignment the last attempt fails as well
    rw [attempts_inactive hactive] at hrun
    have hok : (.ok () : Except Refusal Unit) ∈
        List.replicate (fs.length + 1) (.error (.assignmentNotFound r.deviceToken)) := by
      rw [hrun]
      exact List.mem_append_right _ (List.mem_singleton_self _)
    cases List.eq_of_mem_replicate hok
  | some a =>
    obtain ⟨htransient, left, q, e, hleaves, hcarry, hnew, hw⟩ := attempts_end halt fs rfl hactive hfree hroom hrun
    generalize hv : v.points .writeAlternateId = u at hw
    cases hw with
    | nameless hnone =>
      rw [hcarry] at hnone
      cases hnone
    | named b hb hplan =>
      obtain rfl : alt = b := Option.some.inj (hcarry.symm.trans hb)
      have hevents : v.rows.events = q.events.insert ((w.settings 0).tenant, e.id) e := congrArg Points.events hv
      have hids : v.rows.alternateIds = q.alternateIds.insert ((w.settings 0).tenant, alt) e.id :=
        congrArg Points.alternateIds hv
      have htenant : (v.settings 0).tenant = (w.settings 0).tenant := by
        unfold World.settings
        rw [show v.stores = w.stores from (congrArg Points.stores hv).trans hleaves.stores]
      have hlen : left.length = (failures (w.plan .writeAlternateId)).length := hleaves.length_eq hplan
      refine ⟨htransient, left, e, hleaves.carrying rfl hnew hcarry hevents, hlen, ?_, ?_⟩
      · intro hread hread'
        apply getByAlternateId_named 0 hread hread'
        · rw [htenant, Rows.eventId?, hids, Table.get?_insert, if_pos rfl]
        · rw [htenant, Rows.event?, hevents, Table.get?_insert, if_pos rfl]
      · rw [failure?_eq_none, ← List.length_eq_zero_iff, ← List.length_eq_zero_iff, hlen]

/-! The alternate id is not written the first time. -/

def sampleRetried : Request := ⟨"sensor", none, sampleDraft⟩

def sampleWorld : World :=
  StoreAct.perform (.start sampleSupply [{}] (.ofList [sampleAssignment]) (.ofCapacity 1))
    (.plan .writeAlternateId [.error (.of "down")])

theorem sampleWorld_room : Room (sampleWorld.points .writeAlternateId) 2 :=
  acts_room _ _ _ _ [.plan .writeAlternateId [.error (.of "down")]] (sampleSupply_apart (by decide))
    (sampleSupply_apart (by decide)) _

theorem retried_leaves_one :
    let v := after (attempts sampleRetried 2) sampleWorld
    ∃ left e, v.rows.carrying "default" "reading-1" = left ++ [e] ∧ left.length = 1 ∧
      result (getByAlternateId 0 "reading-1") v = .ok (some e) := by
  intro v
  obtain ⟨-, left, e, hcarry, hlen, hread, -⟩ := retried_leaves (r := sampleRetried) rfl rfl
    [.eventStoreUnavailable "down"] sampleWorld_room (by decide +kernel)
  exact ⟨left, e, hcarry, hlen, hread (by decide +kernel) (by decide +kernel)⟩

/-- Both attempts have written an event, though the first one has failed. -/
theorem retried_twice :
    sampleWorld.rows.carrying "default" "reading-1" = [] ∧ sampleWorld.rows.eventId? "default" "reading-1" = none ∧
      result (attempts sampleRetried 2) sampleWorld = [.error (.eventStoreUnavailable "down"), .ok ()] ∧
      ((after (attempts sampleRetried 1) sampleWorld).rows.carrying "default" "reading-1").map (·.id) =
        [sampleSupply.eventId 0] ∧
      ((after (attempts sampleRetried 2) sampleWorld).rows.carrying "default" "reading-1").map (·.id) =
        [sampleSupply.eventId 0, sampleSupply.eventId 1] :=
  ⟨rfl, rfl, by decide +kernel, by decide +kernel, by decide +kernel⟩

end Simulation
end DeviceEvents
