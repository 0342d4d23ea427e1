import DeviceEvents.Proofs.Event.PayloadText
import DeviceEvents.Proofs.Ingest.Attended
import DeviceEvents.Proofs.Ingest.Redelivery
import DeviceEvents.Proofs.Simulation.Background
import DeviceEvents.Simulation.Service
/-
  DeviceEvents.Proofs.Simulation.Ingested — what a worker has stored.

  A worker is fed with payloads, one at a time, and assignments are inserted in between. What
  is to become of it is kept in a `Ledger`, which knows nothing of stores or of counters: a
  request is admitted when its device has an assignment at that moment and its alternate id,
  if it has one, is that of no request admitted before. `Booked` says that a world and its
  ledger agree. One request keeps them in agreement (`handle_settles`, `settle_checked`),
  hence the requests of a payload (`settleMany_booked`), hence a whole run (`fed_booked`),
  and both ways to deduplicate keep the same ledger.

  `worker_stores_admitted` reads off it what is stored and what is counted. It is assumed that
  no call fails and that the ids given to the stored events are different. Of the dates nothing
  is assumed: every put looks at the date once, and its event has what it finds.
-/

namespace DeviceEvents.Simulation

variable {w : World} {p : Front}

/-! ## Calls that do not fail -/

/-- No results are planned. -/
def Front.Clear (p : Front) : Prop := ∀ m, p.plan m = []

def Front.tenant (p : Front) : String := (p.stores[0]?.getD ({} : StoreSettings)).tenant

/-- The event that an alternate id leads to. -/
def Front.named? (p : Front) (alternateId : String) : Option Event :=
  (p.alternateIds.get? (p.tenant, alternateId)).bind fun id => p.events.get? (p.tenant, id)

/-- The event of the next put. -/
def Front.next (p : Front) (a : Assignment) (d : Draft) : Event :=
  d.toEvent a (p.supply.eventId p.puts) (p.supply.date p.looks)

/-- An event is put. -/
def Front.put (p : Front) (e : Event) : Front :=
  { p with
    puts := p.puts + 1
    looks := p.looks + 1
    events := p.events.insert (p.tenant, e.id) e
    alternateIds := match e.alternateId with
      | none => p.alternateIds
      | some a => p.alternateIds.insert (p.tenant, a) e.id }

theorem eventId?_front (w : World) (a : String) :
    w.rows.eventId? (w.settings 0).tenant a = w.front.alternateIds.get? (w.front.tenant, a) := rfl

theorem event?_front (w : World) (id : Uuid) :
    w.rows.event? (w.settings 0).tenant id = w.front.events.get? (w.front.tenant, id) := rfl

theorem call_clear {m : Method} (hm : m ≠ .writeIndexEntry) (h : w.front.Clear) :
    result (call m) w = none ∧ (after (call m) w).front = w.front := by
  obtain ⟨hr, hf⟩ := call_front hm w
  have hplan : w.plan m = [] := by
    have := h m
    simpa only [World.front, if_neg hm] using this
  rw [hr, hf, hplan, Front.called_of_nil (h m)]
  exact ⟨rfl, rfl⟩

theorem getByAlternateId_clear (h : w.front.Clear) (a : String) :
    result (getByAlternateId 0 a) w = .ok (w.front.named? a) ∧ (after (getByAlternateId 0 a) w).front = w.front := by
  obtain ⟨hr, hf⟩ := call_clear (m := .readAlternateId) (by decide) h
  unfold getByAlternateId Front.named?
  simp only [result_bind, after_bind, hr, result_get, after_get]
  rw [eventId?_front, hf]
  cases w.front.alternateIds.get? (w.front.tenant, a) with
  | none => exact ⟨rfl, hf⟩
  | some id =>
    obtain ⟨hr', hf'⟩ := call_clear (m := .readEvent) (by decide) (w := after (call .readAlternateId) w) (by rwa [hf])
    unfold getById
    simp only [result_bind, after_bind, hr', result_get, after_get, Option.bind_some]
    rw [event?_front, result_pure, after_pure, hf', hf]
    exact ⟨rfl, rfl⟩

theorem writeNext_clear {q : Put} {m : Method} (h : w.front.Clear)
    (hq : q.stage = .event ∧ m = .writeEvent ∨ (∃ a, q.stage = .alternateId a) ∧ m = .writeAlternateId) :
    ∃ v : World, v.front = w.front ∧ result (writeNext q) w = (q.advance v.rows none).1 ∧
      after (writeNext q) w = { v with rows := (q.advance v.rows none).2 } := by
  have hm : m ≠ .writeIndexEntry := by
    rcases hq with ⟨-, rfl⟩ | ⟨-, rfl⟩ <;> decide
  obtain ⟨hr, hf⟩ := call_clear hm h
  obtain ⟨hr', ha'⟩ := writeNext_eq hq w
  rw [hr] at hr' ha'
  exact ⟨after (call m) w, hf, hr', ha'⟩

/-- Both writes of a put by the ids. -/
theorem writes_clear (h : w.front.Clear) (e : Event) :
    result (writeNext (.ofEvent w.front.tenant e) >>= writeNext) w = ⟨w.front.tenant, e, .index⟩ ∧
      (after (writeNext (.ofEvent w.front.tenant e) >>= writeNext) w).front =
        { w.front.put e with puts := w.front.puts, looks := w.front.looks } := by
  obtain ⟨v, hv, hr, ha⟩ := writeNext_clear (q := .ofEvent w.front.tenant e) h (.inl ⟨rfl, rfl⟩)
  rw [Put.advance_event _ _ rfl] at hr ha
  rw [result_bind, after_bind, hr, ha]
  -- the world in which the event is written
  let v' : World := { v with rows := v.rows.writeEvent w.front.tenant e }
  have hv' : v'.front = { w.front with events := w.front.events.insert (w.front.tenant, e.id) e } :=
    congrArg (fun p : Front => { p with events := p.events.insert (w.front.tenant, e.id) e }) hv
  show result (writeNext ⟨w.front.tenant, e, e.alternateId.elim .index .alternateId⟩) v' = ⟨w.front.tenant, e, .index⟩ ∧
    (after (writeNext ⟨w.front.tenant, e, e.alternateId.elim .index .alternateId⟩) v').front = _
  unfold Front.put
  cases hd : e.alternateId with
  | none =>
    obtain ⟨hr', ha'⟩ := writeNext_done (p := ⟨w.front.tenant, e, .index⟩) (.inl rfl) v'
    rw [Option.elim_none, hr', ha', hv']
    exact ⟨rfl, rfl⟩
  | some a =>
    obtain ⟨u, hu, hr', ha'⟩ := writeNext_clear (w := v') (q := ⟨w.front.tenant, e, .alternateId a⟩)
      (by rw [hv']; exact h) (.inr ⟨⟨a, rfl⟩, rfl⟩)
    rw [Put.advance_alternateId _ _ rfl] at hr' ha'
    rw [Option.elim_some, hr', ha']
    refine ⟨rfl, ?_⟩
    exact congrArg (fun p : Front => { p with alternateIds := p.alternateIds.insert (w.front.tenant, a) e.id })
      (hu.trans hv')

theorem put_clear (hp : w.front = p) (h : p.Clear) (a : Assignment) (d : Draft) {e : Event}
    (he : p.next a d = e) :
    result (put 0 a d) w = .ok e ∧ (after (put 0 a d) w).front = p.put e := by
  subst hp
  obtain ⟨hr, ha⟩ := writes_clear (w := { w with puts := w.puts + 1, looks := w.looks + 1 }) h e
  rw [result_bind] at hr
  rw [after_bind] at ha
  have he' : d.toEvent a w.nextId w.today = e := he
  have htenant : (w.settings 0).tenant = ({ w with puts := w.puts + 1, looks := w.looks + 1 } : World).front.tenant := rfl
  unfold put
  simp only [result_bind, after_bind, result_get, after_get, after_set, he', htenant, hr]
  rw [result_pure, after_pure, dispatch_aside 0 a e, ha]
  exact ⟨rfl, rfl⟩

/-- The alternate id of a request leads to an event. -/
def Front.repeats (p : Front) (r : Request) : Bool := (r.draft.alternateId.bind p.named?).isSome

theorem isDuplicate_clear (h : w.front.Clear) (r : Request) :
    let d := Deduplicator.byAlternateId (management 0).byAlternateId
    result (d.isDuplicate r) w = .ok (w.front.repeats r) ∧ (after (d.isDuplicate r) w).front = w.front := by
  intro d
  simp only [d, Deduplicator.byAlternateId, Front.repeats]
  cases ha : r.draft.alternateId with
  | none => exact ⟨rfl, rfl⟩
  | some a =>
    obtain ⟨hr, hf⟩ := getByAlternateId_clear h a
    simp only [management, result_bind, after_bind, result_map, after_map, result_pure, after_pure, hr]
    exact ⟨rfl, hf⟩

theorem checkAlternateId_clear (h : w.front.Clear) (r : Request) :
    (w.front.repeats r = false → result (r.draft.checkAlternateId (management 0)) w = .ok ()) ∧
      (w.front.repeats r = true → ∃ a, result (r.draft.checkAlternateId (management 0)) w = .error (.duplicateAlternateId a)) ∧
      (after (r.draft.checkAlternateId (management 0)) w).front = w.front := by
  unfold Draft.checkAlternateId Front.repeats
  cases ha : r.draft.alternateId with
  | none => exact ⟨fun _ => rfl, nofun, rfl⟩
  | some a =>
    obtain ⟨hr, hf⟩ := getByAlternateId_clear h a
    simp only [management, result_bind, after_bind, result_map, after_map, hr, Option.bind_some]
    cases w.front.named? a with
    | none => exact ⟨fun _ => rfl, nofun, hf⟩
    | some e => exact ⟨nofun, fun _ => ⟨a, rfl⟩, hf⟩

/-- A request is stored if its device has an assignment and its alternate id is free. -/
theorem persist_clear (h : w.front.Clear) (r : Request) :
    (∃ a, w.front.registry.active? r.deviceToken = some a ∧ w.front.repeats r = false ∧ result (persist r) w = .ok () ∧
        ∀ e, w.front.next a r.draft = e →
          (after (persist r) w).front = w.front.put e) ∨
      ((w.front.registry.active? r.deviceToken = none ∨ w.front.repeats r = true) ∧
        (∃ f, result (persist r) w = .error f ∧ f.isTransient = false) ∧ (after (persist r) w).front = w.front) := by
  cases hactive : w.registry.active? r.deviceToken with
  | none =>
    refine .inr ⟨.inl hactive, ?_⟩
    unfold persist Request.persist
    simp only [result_bind, after_bind, result_get, after_get, hactive]
    exact ⟨⟨_, rfl, rfl⟩, rfl⟩
  | some a =>
    obtain ⟨hfree, htaken, hf⟩ := checkAlternateId_clear h r
    cases hrep : w.front.repeats r with
    | true =>
      obtain ⟨alt, hcheck⟩ := htaken hrep
      obtain ⟨hres, haft⟩ := persist_refused hactive hcheck
      rw [hres, haft]
      exact .inr ⟨.inr rfl, ⟨_, rfl, rfl⟩, hf⟩
    | false =>
      generalize hv : after (r.draft.checkAlternateId (management 0)) w = v at hf
      obtain ⟨hres, haft⟩ := persist_put hactive (hfree hrep) hv
      have hput {e : Event} (he : w.front.next a r.draft = e) :=
        put_clear hf h a r.draft he
      rw [hres, haft, (hput rfl).1]
      exact .inl ⟨a, hactive, rfl, rfl, fun e he => (hput he).2⟩

/-! ## The reference -/

/-- What is to become of requests that come one after the other. -/
structure Ledger where
  registry : Registry
  /-- The requests to be stored, each with its assignment at that moment. -/
  admitted : List (Request × Assignment)
  /-- How many had an alternate id that was stored already. -/
  repeated : Nat
  /-- How many others had a device without an assignment. -/
  unassigned : Nat

namespace Ledger

def start (r : Registry) : Ledger := ⟨r, [], 0, 0⟩

def carries (l : Ledger) (a : String) : Bool := l.admitted.any fun x => x.1.draft.alternateId == some a

def repeats (l : Ledger) (r : Request) : Bool := r.draft.alternateId.any l.carries

def take (l : Ledger) (r : Request) : Ledger :=
  if l.repeats r then { l with repeated := l.repeated + 1 }
  else match l.registry.active? r.deviceToken with
    | some a => { l with admitted := l.admitted ++ [(r, a)] }
    | none => { l with unassigned := l.unassigned + 1 }

end Ledger

/-- What a worker is fed with, and what may happen in between. -/
inductive Feeding where
  | payload (source : String) (x : Inbound)
  | assign (a : Assignment)

def Ledger.feed (l : Ledger) : Feeding → Ledger
  | .payload _ x =>
    match Envelope.decode x.payload x.hints with
    | .ok rs => rs.foldl take l
    | .error _ => l
  | .assign a => { l with registry := l.registry.insert a }

def Ledger.after (r : Registry) (fs : List Feeding) : Ledger := fs.foldl feed (start r)

def feed (k : DeduplicatorKind) : Feeding → Sim Unit
  | .payload source x => discard (receive k source x.payload x.hints)
  | .assign a => modify fun w => { w with registry := w.registry.insert a }

/-- A worker is fed with one thing after the other. -/
def fed (k : DeduplicatorKind) (fs : List Feeding) : Sim Unit := fs.forM (feed k)

namespace Ledger

variable {l : Ledger} {r : Request} {a : Assignment}

theorem take_repeated (h : l.repeats r = true) : l.take r = { l with repeated := l.repeated + 1 } := if_pos h

theorem take_unassigned (h : l.repeats r = false) (ha : l.registry.active? r.deviceToken = none) :
    l.take r = { l with unassigned := l.unassigned + 1 } := by
  rw [take, h, ha]
  rfl

theorem take_admitted (h : l.repeats r = false) (ha : l.registry.active? r.deviceToken = some a) :
    l.take r = { l with admitted := l.admitted ++ [(r, a)] } := by
  rw [take, h, ha]
  rfl

theorem feed_decoded {l : Ledger} {source : String} {payload : ByteArray} {hints : Hints} {rs : List Request}
    (h : Envelope.decode payload hints = .ok rs) : l.feed (.payload source ⟨payload, hints⟩) = rs.foldl take l := by
  simp only [feed, h]

theorem admitted_take (l : Ledger) (r : Request) : l.admitted <+: (l.take r).admitted := by
  unfold take
  split
  · exact List.prefix_refl _
  · split
    · exact List.prefix_append _ _
    · exact List.prefix_refl _

/-- Nothing that is admitted is taken back. -/
theorem admitted_foldl {α : Type} {g : Ledger → α → Ledger} (h : ∀ l x, l.admitted <+: (g l x).admitted)
    (l : Ledger) (xs : List α) : l.admitted <+: (xs.foldl g l).admitted := by
  induction xs generalizing l with
  | nil => exact List.prefix_refl _
  | cons x xs ih => exact (h l x).trans (ih (g l x))

theorem admitted_feed (l : Ledger) (f : Feeding) : l.admitted <+: (l.feed f).admitted := by
  cases f with
  | payload source x =>
    simp only [feed]
    split
    · exact admitted_foldl admitted_take l _
    · exact List.prefix_refl _
  | assign a => exact List.prefix_refl _

end Ledger

/-! ## A world and its ledger -/

theorem Supply.Apart.fresh {g : Supply} {m n : Nat} (h : g.Apart n) (hm : m < n) :
    g.eventId m ∉ (List.range m).map g.eventId := by
  intro hmem
  obtain ⟨i, hi, hid⟩ := List.mem_map.1 hmem
  exact h i m (List.mem_range.1 hi) hm hid

namespace Ledger

/-- What is stored of a ledger, where somebody has looked at the date `looked` times before. -/
def events (l : Ledger) (supply : Supply) (looked : Nat) : List Event :=
  l.admitted.mapIdx fun n x => x.1.draft.toEvent x.2 (supply.eventId n) (supply.date (looked + n))

variable {l : Ledger} {r : Request} {a : Assignment}

theorem events_admit (l : Ledger) (r : Request) (a : Assignment) (supply : Supply) (looked : Nat) {e : Event}
    (he : r.draft.toEvent a (supply.eventId l.admitted.length) (supply.date (looked + l.admitted.length)) = e) :
    events { l with admitted := l.admitted ++ [(r, a)] } supply looked = l.events supply looked ++ [e] := by
  unfold events
  rw [List.mapIdx_concat, he]

theorem ids_events (l : Ledger) (supply : Supply) (looked : Nat) :
    (l.events supply looked).map (·.id) = (List.range l.admitted.length).map supply.eventId := by
  apply List.ext_getElem
  · simp [events]
  · intro n _ _
    simp [events, Draft.toEvent]

theorem carries_admitted (l : Ledger) (r : Request) (a : Assignment) (alt : String) :
    carries { l with admitted := l.admitted ++ [(r, a)] } alt = (l.carries alt || r.draft.alternateId == some alt) := by
  simp [carries]

/-- What is counted of a ledger, depending on whether alternate ids are checked before the requests are handled. -/
structure Counted (checks : Bool) (l : Ledger) (c : Counters) : Prop where
  forwarded : c.forwarded = l.admitted.length
  unjudged : c.deduplicatorErrors = 0
  duplicates : c.duplicates = if checks then l.repeated else 0
  errors : c.handlerErrors = l.unassigned + if checks then 0 else l.repeated

/-- A world and its ledger agree. -/
structure Booked (checks : Bool) (tenant : String) (supply : Supply) (looked : Nat) (l : Ledger) (p : Front) : Prop where
  clear : p.Clear
  sameTenant : p.tenant = tenant
  supplied : p.supply = supply
  registry : p.registry = l.registry
  puts : p.puts = l.admitted.length
  looks : p.looks = looked + l.admitted.length
  events : p.events.entries = (l.events supply looked).map fun e => ((tenant, e.id), e)
  taken : ∀ alt, l.carries alt = true → (p.named? alt).isSome = true
  free : ∀ alt, l.carries alt = false → p.alternateIds.get? (tenant, alt) = none
  counted : l.Counted checks p.counters

end Ledger

theorem Front.alternateId_put (p : Front) (e : Event) (alt : String) :
    (p.put e).alternateIds.get? (p.tenant, alt) =
      if e.alternateId = some alt then some e.id else p.alternateIds.get? (p.tenant, alt) := by
  unfold put
  cases he : e.alternateId with
  | none => rfl
  | some a =>
    show (p.alternateIds.insert (p.tenant, a) e.id).get? (p.tenant, alt) = _
    rw [Table.get?_insert]
    by_cases ha : alt = a
    · rw [ha, if_pos rfl, if_pos rfl]
    · have hne : (p.tenant, alt) ≠ (p.tenant, a) := fun h => ha (congrArg Prod.snd h)
      rw [if_neg hne, if_neg fun h => ha (Option.some.inj h).symm]

theorem Front.isSome_named?_put {e : Event} {alt : String} (h : e.alternateId = some alt ∨ (p.named? alt).isSome = true) :
    ((p.put e).named? alt).isSome = true := by
  have hevents : ∀ id, (p.put e).events.get? (p.tenant, id) =
      if (p.tenant, id) = (p.tenant, e.id) then some e else p.events.get? (p.tenant, id) := fun id =>
    Table.get?_insert p.events (p.tenant, e.id) (p.tenant, id) e
  unfold named?
  show (((p.put e).alternateIds.get? (p.tenant, alt)).bind fun id => (p.put e).events.get? (p.tenant, id)).isSome = true
  rw [alternateId_put]
  by_cases he : e.alternateId = some alt
  · rw [if_pos he, Option.bind_some, hevents, if_pos rfl]
    rfl
  · have hold := h.resolve_left he
    unfold named? at hold
    rw [if_neg he]
    cases hid : p.alternateIds.get? (p.tenant, alt) with
    | none =>
      rw [hid] at hold
      cases hold
    | some id =>
      rw [hid, Option.bind_some] at hold
      rw [Option.bind_some, hevents]
      split
      · rfl
      · exact hold

namespace Ledger

variable {l : Ledger} {r : Request} {a : Assignment} {checks : Bool} {tenant : String} {supply : Supply} {looked : Nat}

theorem Booked.repeats_eq (h : l.Booked checks tenant supply looked p) (r : Request) : p.repeats r = l.repeats r := by
  unfold Front.repeats repeats
  cases r.draft.alternateId with
  | none => rfl
  | some alt =>
    rw [Option.bind_some, Option.any_some]
    cases hc : l.carries alt with
    | true => exact h.taken alt hc
    | false =>
      unfold Front.named?
      rw [h.sameTenant, h.free alt hc]
      rfl

/-- A request is stored. -/
theorem Booked.admit (h : l.Booked checks tenant supply looked p) {e : Event}
    (he : p.next a r.draft = e)
    (hnew : supply.eventId l.admitted.length ∉ (List.range l.admitted.length).map supply.eventId) :
    Booked checks tenant supply looked { l with admitted := l.admitted ++ [(r, a)] }
      { p.put e with counters := p.counters.add .forwarded } := by
  rw [Front.next, h.puts, h.looks, h.supplied] at he
  have hid : e.id = supply.eventId l.admitted.length := congrArg Event.id he.symm
  have halt : e.alternateId = r.draft.alternateId := congrArg Event.alternateId he.symm
  refine ⟨h.clear, h.sameTenant, h.supplied, h.registry, ?_, ?_, ?_, fun alt hc => ?_, fun alt hc => ?_, ?_⟩
  · show p.puts + 1 = (l.admitted ++ [(r, a)]).length
    rw [h.puts, List.length_append, List.length_singleton]
  · show p.looks + 1 = looked + (l.admitted ++ [(r, a)]).length
    rw [h.looks, List.length_append, List.length_singleton, Nat.add_assoc]
  · have hfree : p.events.get? (p.tenant, e.id) = none := by
      cases hg : p.events.get? (p.tenant, e.id) with
      | none => rfl
      | some x =>
        have hm := Table.mem_entries.2 hg
        rw [h.events] at hm
        obtain ⟨y, hy, hkey⟩ := List.mem_map.1 hm
        have hyid : y.id = e.id := congrArg (fun z : (String × Uuid) × Event => z.1.2) hkey
        have hmem : e.id ∈ (l.events supply looked).map (·.id) := hyid ▸ List.mem_map_of_mem hy
        rw [ids_events, hid] at hmem
        exact absurd hmem hnew
    show (p.events.insert (p.tenant, e.id) e).entries = _
    rw [Table.entries_insert hfree, h.events, l.events_admit r a supply looked he, List.map_append, h.sameTenant]
    rfl
  · rw [carries_admitted, Bool.or_eq_true] at hc
    refine Front.isSome_named?_put ?_
    rcases hc with hc | hc
    · exact .inr (h.taken alt hc)
    · exact .inl (halt.trans (eq_of_beq hc))
  · rw [carries_admitted, Bool.or_eq_false_iff] at hc
    have hne : e.alternateId ≠ some alt := by
      rw [halt]
      exact ne_of_beq_false hc.2
    have hput := p.alternateId_put e alt
    rw [if_neg hne, h.sameTenant, h.free alt hc.1] at hput
    exact hput
  · obtain ⟨h₁, h₂, h₃, h₄⟩ := h.counted
    refine ⟨?_, h₂, h₃, h₄⟩
    show p.counters.forwarded + 1 = (l.admitted ++ [(r, a)]).length
    rw [h₁, List.length_append, List.length_singleton]

/-- A request is not stored. -/
theorem Booked.refuse (h : l.Booked checks tenant supply looked p) {l' : Ledger} {c : Counters} (hr : l'.registry = l.registry)
    (ha : l'.admitted = l.admitted) (hc : l'.Counted checks c) :
    l'.Booked checks tenant supply looked { p with counters := c } := by
  obtain ⟨h₁, h₂, h₃, h₄, h₅, h₆, h₇, h₈, h₉, -⟩ := h
  have hcarries : ∀ alt, l'.carries alt = l.carries alt := fun alt => by unfold carries; rw [ha]
  refine ⟨h₁, h₂, h₃, h₄.trans hr.symm, ?_, ?_, ?_, fun alt halt => ?_, fun alt halt => ?_, hc⟩
  · rw [ha]
    exact h₅
  · rw [ha]
    exact h₆
  · rw [show l'.events supply looked = l.events supply looked by unfold Ledger.events; rw [ha]]
    exact h₇
  · rw [hcarries] at halt
    exact h₈ alt halt
  · rw [hcarries] at halt
    exact h₉ alt halt

/-- The handler has refused a request. -/
theorem Booked.rejected (h : l.Booked checks tenant supply looked p) (hchecked : checks = true → l.repeats r = false)
    (hwhy : l.registry.active? r.deviceToken = none ∨ l.repeats r = true) :
    (l.take r).Booked checks tenant supply looked { p with counters := p.counters.add .rejected } := by
  obtain ⟨h₁, h₂, h₃, h₄⟩ := h.counted
  cases hrep : l.repeats r with
  | true =>
    cases checks with
    | true =>
      rw [hchecked rfl] at hrep
      cases hrep
    | false =>
      rw [take_repeated hrep]
      refine h.refuse rfl rfl ⟨h₁, h₂, h₃, ?_⟩
      show p.counters.handlerErrors + 1 = l.unassigned + (l.repeated + 1)
      rw [h₄]
      rfl
  | false =>
    have hactive : l.registry.active? r.deviceToken = none := hwhy.resolve_right (by rw [hrep]; nofun)
    rw [take_unassigned hrep hactive]
    refine h.refuse rfl rfl ⟨h₁, h₂, h₃, ?_⟩
    show p.counters.handlerErrors + 1 = l.unassigned + 1 + if checks then 0 else l.repeated
    omega

/-- The check has found a request to be stored already. -/
theorem Booked.repeated (h : l.Booked true tenant supply looked p) (hrep : l.repeats r = true) :
    (l.take r).Booked true tenant supply looked { p with counters := p.counters.add .duplicate } := by
  obtain ⟨h₁, h₂, h₃, h₄⟩ := h.counted
  rw [take_repeated hrep]
  refine h.refuse rfl rfl ⟨h₁, h₂, ?_, h₄⟩
  show p.counters.duplicates + 1 = l.repeated + 1
  rw [h₃]
  rfl

end Ledger

/-! ## One request -/

section

variable {k : DeduplicatorKind} {source : String} {x : Inbound} {d : Delivery} {r : Request} {rest : List Request}

theorem handleNext_run (k : DeduplicatorKind) (source : String) (x : Inbound) (hd : d.stage = .handling r rest)
    (w : World) :
    Delivery.handleNext ((intake k).services source x) d w =
      ((d.handled (after (persist r) w).counters (result (persist r) w)).1,
        { after (persist r) w with counters := (d.handled (after (persist r) w).counters (result (persist r) w)).2 }) := by
  rw [Delivery.handleNext, hd]
  rfl

theorem judgeNext_run (source : String) (x : Inbound) (hd : d.stage = .judging r rest) (w : World) :
    let m := (Deduplicator.byAlternateId (management 0).byAlternateId).isDuplicate r
    Delivery.judgeNext ((intake .alternateId).services source x) d w =
      ((d.judged (after m w).counters (result m w)).1,
        { after m w with counters := (d.judged (after m w).counters (result m w)).2 }) := by
  rw [Delivery.judgeNext, hd]
  rfl

variable {l : Ledger} {checks : Bool} {tenant : String} {supply : Supply} {looked : Nat}

/-- A request is settled, and the books are kept. -/
def Settled (checks : Bool) (tenant : String) (supply : Supply) (looked : Nat) (l : Ledger) (d : Delivery) (rest : List Request)
    (y : Delivery × World) : Prop :=
  y.1.Faces rest ∧ y.1.deduplicates = d.deduplicates ∧ l.Booked checks tenant supply looked y.2.front

theorem settled_past {v : World} (f : Fate) (h : l.Booked checks tenant supply looked v.front) :
    Settled checks tenant supply looked l d rest (d.past f rest, v) :=
  ⟨Delivery.faces_past d f rest, Delivery.deduplicates_past d f rest, h⟩

/-- The handler takes a request, which has been checked already if requests are checked. -/
theorem handle_settles (hd : d.stage = .handling r rest) (hb : l.Booked checks tenant supply looked w.front)
    (hchecked : checks = true → l.repeats r = false)
    (hids : supply.Apart (l.take r).admitted.length) :
    Settled checks tenant supply looked (l.take r) d rest
      ((Delivery.handleNext ((intake k).services source x) d >>= Delivery.releaseNext ((intake k).services source x)) w) := by
  have rests : ∀ f, Delivery.releaseNext ((intake k).services source x) (d.past f rest) = return (d.past f rest) := fun f =>
    Delivery.releaseNext_rests (by rw [Delivery.stage_past, Delivery.releasing?_turnTo])
  rcases persist_clear hb.clear r with ⟨a, hactive, hfree, hres, hput⟩ | ⟨hwhy, ⟨f, hres, hf⟩, hsame⟩
  · obtain ⟨e, he⟩ : ∃ e, w.front.next a r.draft = e := ⟨_, rfl⟩
    have hfront := hput e he
    have hcounters : (after (persist r) w).counters = w.front.counters := congrArg Front.counters hfront
    have hh := handleNext_run k source x hd w
    rw [hres, Delivery.handled_ok _ hd, hcounters] at hh
    rw [hb.repeats_eq] at hfree
    rw [hb.registry] at hactive
    rw [Ledger.take_admitted hfree hactive] at hids
    have hnew := hids.fresh (m := l.admitted.length) (by simp)
    rw [bind_eq hh, rests, Ledger.take_admitted hfree hactive]
    refine settled_past .forwarded ?_
    show Ledger.Booked _ _ _ _ _ { (after (persist r) w).front with counters := w.front.counters.add .forwarded }
    rw [hfront]
    exact hb.admit he hnew
  · have hcounters : (after (persist r) w).counters = w.front.counters := congrArg Front.counters hsame
    have hh := handleNext_run k source x hd w
    rw [hres, Delivery.handled_rejected _ hd hf, hcounters] at hh
    rw [bind_eq hh, rests]
    refine settled_past .rejected ?_
    show Ledger.Booked _ _ _ _ _ { (after (persist r) w).front with counters := w.front.counters.add .rejected }
    rw [hsame]
    rw [hb.repeats_eq, hb.registry] at hwhy
    exact hb.rejected hchecked hwhy

/-- Without a check every request comes to the handler. -/
theorem settle_unchecked (hd : d.deduplicates = false) (hf : d.Faces (r :: rest))
    (hb : l.Booked false tenant supply looked w.front)
    (hids : supply.Apart (l.take r).admitted.length) :
    Settled false tenant supply looked (l.take r) d rest (Delivery.settleNext ((intake k).services source x) d w) := by
  have hstage : d.stage = .handling r rest := by
    rw [hf, Delivery.stage_turnTo_cons, hd]
    rfl
  rw [Delivery.settleNext, Delivery.judgeNext_rests (by rw [hstage]; rfl), pure_bind]
  exact handle_settles hstage hb (fun h => absurd h Bool.false_ne_true) hids

/-- With a check only what is new does. -/
theorem settle_checked (hd : d.deduplicates = true) (hf : d.Faces (r :: rest)) (hb : l.Booked true tenant supply looked w.front)
    (hids : supply.Apart (l.take r).admitted.length) :
    Settled true tenant supply looked (l.take r) d rest
      (Delivery.settleNext ((intake .alternateId).services source x) d w) := by
  have hstage : d.stage = .judging r rest := by
    rw [hf, Delivery.stage_turnTo_cons, hd]
    rfl
  obtain ⟨hres, hsame⟩ := isDuplicate_clear hb.clear r
  have hj := judgeNext_run source x hstage w
  dsimp only at hj hres hsame
  rw [hres, hb.repeats_eq] at hj
  have hcounters : (after ((Deduplicator.byAlternateId (management 0).byAlternateId).isDuplicate r) w).counters =
    w.front.counters := congrArg Front.counters hsame
  rw [hcounters] at hj
  cases hrep : l.repeats r with
  | true =>
    have rests : Delivery.handleNext ((intake .alternateId).services source x) (d.past .duplicate rest) =
          pure (d.past .duplicate rest) ∧
        Delivery.releaseNext ((intake .alternateId).services source x) (d.past .duplicate rest) =
          pure (d.past .duplicate rest) := by
      refine ⟨Delivery.handleNext_rests ?_, Delivery.releaseNext_rests ?_⟩
      · rw [Delivery.stage_past, Delivery.handling?_turnTo, hd, if_pos rfl]
      · rw [Delivery.stage_past, Delivery.releasing?_turnTo]
    rw [hrep, Delivery.judged_seen _ hstage] at hj
    rw [Delivery.settleNext, bind_eq hj, rests.1, pure_bind, rests.2]
    refine settled_past .duplicate ?_
    show Ledger.Booked _ _ _ _ _ { (after _ w).front with counters := w.front.counters.add .duplicate }
    rw [hsame]
    exact hb.repeated hrep
  | false =>
    rw [hrep, Delivery.judged_new _ hstage] at hj
    rw [Delivery.settleNext, bind_eq hj]
    let v : World := { after ((Deduplicator.byAlternateId (management 0).byAlternateId).isDuplicate r) w with
      counters := w.front.counters }
    have hv : v.front = w.front :=
      congrArg (fun p : Front => { p with counters := w.front.counters }) hsame
    exact handle_settles (w := v) (d := { d with stage := .handling r rest }) rfl (by rwa [hv]) (fun _ => hrep) hids

end

/-! ## Payloads -/

/-- A worker checks alternate ids before it handles requests, or does not. -/
def kindOf (checks : Bool) : DeduplicatorKind := if checks then .alternateId else .none

section

variable {checks : Bool} {tenant : String} {supply : Supply} {looked : Nat} {l : Ledger}

theorem settleMany_booked (source : String) (x : Inbound) (rs : List Request) {d : Delivery} (hd : d.deduplicates = checks)
    (hf : d.Faces rs) (hb : l.Booked checks tenant supply looked w.front)
    (hids : supply.Apart (rs.foldl Ledger.take l).admitted.length) :
    (rs.foldl Ledger.take l).Booked checks tenant supply looked
      (after (Delivery.settleMany ((intake (kindOf checks)).services source x) rs.length d) w).front := by
  induction rs generalizing l d w with
  | nil => exact hb
  | cons r rest ih =>
    have hle := (Ledger.admitted_foldl Ledger.admitted_take (l.take r) rest).length_le
    have hnext : Settled checks tenant supply looked (l.take r) d rest
        (Delivery.settleNext ((intake (kindOf checks)).services source x) d w) := by
      cases checks with
      | false => exact settle_unchecked hd hf hb (hids.of_le hle)
      | true => exact settle_checked hd hf hb (hids.of_le hle)
    obtain ⟨hf', hd', hb'⟩ := hnext
    exact ih (hd'.trans hd) hf' hb' hids

/-- The books do not tell how many payloads have come. -/
theorem Ledger.Booked.counters (hb : l.Booked checks tenant supply looked p) {c : Counters}
    (hc : c.forwarded = p.counters.forwarded ∧ c.deduplicatorErrors = p.counters.deduplicatorErrors ∧
      c.duplicates = p.counters.duplicates ∧ c.handlerErrors = p.counters.handlerErrors) :
    l.Booked checks tenant supply looked { p with counters := c } := by
  obtain ⟨h₁, h₂, h₃, h₄⟩ := hc
  obtain ⟨c₁, c₂, c₃, c₄⟩ := hb.counted
  exact hb.refuse rfl rfl ⟨h₁.trans c₁, h₂.trans c₂, h₃.trans c₃, h₄.trans c₄⟩

theorem after_receive_error (k : DeduplicatorKind) (source : String) {x : Inbound} {u : Undecoded}
    (hx : Envelope.decode x.payload x.hints = .error u) (w : World) :
    (after (receive k source x.payload x.hints) w).front =
      { w.front with counters := w.front.counters.addPayload.addFailedDecode } := by
  have hd : (intake k).decode ⟨x.payload, x.hints⟩ = .error u := hx
  unfold receive Intake.receive
  rw [hd]
  rfl

theorem after_receive_ok (k : DeduplicatorKind) (source : String) {x : Inbound} {rs : List Request}
    (hx : Envelope.decode x.payload x.hints = .ok rs) (w : World) :
    ∃ d : Delivery, d.deduplicates = (deduplicator? k).isSome ∧ d.Faces rs ∧
      after (receive k source x.payload x.hints) w =
        after (Delivery.settleMany ((intake k).services source x) rs.length d)
          { w with counters := w.counters.addPayload.addDecoded rs.length } := by
  have hd : (intake k).decode x = .ok rs := hx
  let d : Delivery := { Delivery.start (deduplicator? k).isSome with outcome := { decoded := rs.length } }
  refine ⟨d.turnTo rs, Delivery.deduplicates_turnTo d rs, Delivery.faces_turnTo d rs, ?_⟩
  unfold receive
  rw [Intake.receive_eq _ _ hd, Intake.settleFirst, hd]
  rfl

theorem receive_booked (source : String) (x : Inbound) (hb : l.Booked checks tenant supply looked w.front)
    (hids : supply.Apart (l.feed (.payload source x)).admitted.length) :
    (l.feed (.payload source x)).Booked checks tenant supply looked
      (after (receive (kindOf checks) source x.payload x.hints) w).front := by
  rw [Ledger.feed] at hids ⊢
  cases hx : Envelope.decode x.payload x.hints with
  | error u =>
    rw [after_receive_error _ source hx]
    exact hb.counters ⟨rfl, rfl, rfl, rfl⟩
  | ok rs =>
    rw [hx] at hids
    obtain ⟨d, hd, hf, ha⟩ := after_receive_ok (kindOf checks) source hx w
    rw [ha]
    have hkind : (deduplicator? (kindOf checks)).isSome = checks := by cases checks <;> rfl
    exact settleMany_booked source x rs (hd.trans hkind) hf (hb.counters ⟨rfl, rfl, rfl, rfl⟩) hids

theorem feed_booked (f : Feeding) (hb : l.Booked checks tenant supply looked w.front)
    (hids : supply.Apart (l.feed f).admitted.length) :
    (l.feed f).Booked checks tenant supply looked (after (feed (kindOf checks) f) w).front := by
  cases f with
  | payload source x => exact receive_booked source x hb hids
  | assign a =>
    obtain ⟨hclear, htenant, hsupply, hregistry, hputs, hlooks, hevents, htaken, hfree, hc⟩ := hb
    refine ⟨hclear, htenant, hsupply, ?_, hputs, hlooks, hevents, htaken, hfree, hc.forwarded, hc.unjudged,
      hc.duplicates, hc.errors⟩
    show w.front.registry.insert a = l.registry.insert a
    rw [hregistry]

theorem fed_booked (fs : List Feeding) (hb : l.Booked checks tenant supply looked w.front)
    (hids : supply.Apart (fs.foldl Ledger.feed l).admitted.length) :
    (fs.foldl Ledger.feed l).Booked checks tenant supply looked (after (fed (kindOf checks) fs) w).front := by
  induction fs generalizing l w with
  | nil => exact hb
  | cons f fs ih =>
    have hle := (Ledger.admitted_foldl Ledger.admitted_feed (l.feed f) fs).length_le
    exact ih (feed_booked f hb (hids.of_le hle)) hids

end

/-! ## What is stored -/

/-- The events of a world in the order in which they were stored. -/
def World.stored (w : World) : List Event := w.rows.events.entries.map (·.2)

/-- Nothing is stored and nothing is to fail. -/
structure World.Blank (w : World) : Prop where
  events : w.rows.events = .empty
  alternateIds : w.rows.alternateIds = .empty
  puts : w.puts = 0
  counters : w.counters = {}
  plan : ∀ m, m ≠ .writeIndexEntry → w.plan m = []

theorem start_blank (supply : Supply) (stores : List StoreSettings) (r : Registry) (window : Window) :
    (World.start supply stores r window).Blank where
  events := rfl
  alternateIds := rfl
  puts := rfl
  counters := rfl
  plan _ _ := rfl

/-- The event that a request becomes under an assignment. -/
structure Becomes (id : Uuid) (today : Instant) (x : Request × Assignment) (e : Event) : Prop where
  id : e.id = id
  deviceId : e.deviceId = x.2.deviceId
  assignmentId : e.assignmentId = x.2.id
  customerId : e.customerId = x.2.customerId
  areaId : e.areaId = x.2.areaId
  assetId : e.assetId = x.2.assetId
  alternateId : e.alternateId = x.1.draft.alternateId
  eventDate : e.eventDate = (x.1.draft.eventDate.map Instant.truncate).getD today.truncate
  receivedDate : e.receivedDate = today.truncate
  metadata : e.metadata = x.1.draft.metadata
  payload : e.payload = x.1.draft.payload

/-- Of requests and assignments come events, with the ids one after the other and a look at the date for each. -/
def Become (supply : Supply) (looked : Nat) (xs : List (Request × Assignment)) (es : List Event) : Prop :=
  List.Forall₂ (fun x e => Becomes (supply.eventId x.2) (supply.date (looked + x.2)) x.1 e) xs.zipIdx es

theorem Become.length_eq {supply : Supply} {looked : Nat} {xs : List (Request × Assignment)} {es : List Event}
    (h : Become supply looked xs es) : xs.length = es.length :=
  List.length_zipIdx.symm.trans (List.Forall₂.length_eq h)

theorem Become.alternateIds_eq {supply : Supply} {looked : Nat} {xs : List (Request × Assignment)} {es : List Event}
    (h : Become supply looked xs es) :
    es.filterMap (·.alternateId) = xs.filterMap (·.1.draft.alternateId) := by
  have hzip : es.filterMap (·.alternateId) = xs.zipIdx.filterMap (·.1.1.draft.alternateId) := by
    unfold Become at h
    generalize xs.zipIdx = ys at h ⊢
    induction h with
    | nil => rfl
    | cons h _ ih => rw [List.filterMap_cons, List.filterMap_cons, h.alternateId, ih]
  rw [hzip]
  conv_rhs => rw [← List.zipIdx_map_fst 0 xs, List.filterMap_map]
  rfl

namespace Ledger

variable {l : Ledger}

theorem events_become (l : Ledger) (supply : Supply) (looked : Nat) :
    Become supply looked l.admitted (l.events supply looked) := by
  refine List.forall₂_iff_get.2 ⟨?_, ?_⟩
  · simp [events]
  · intro n h₁ h₂
    simp only [events, List.get_eq_getElem, List.getElem_mapIdx, List.getElem_zipIdx, Nat.zero_add]
    exact ⟨rfl, rfl, rfl, rfl, rfl, rfl, rfl, rfl, rfl, rfl, rfl⟩

/-- No alternate id is admitted twice. -/
def Single (l : Ledger) : Prop := (l.admitted.filterMap (·.1.draft.alternateId)).Nodup

theorem take_single (h : l.Single) (r : Request) : (l.take r).Single := by
  cases hrep : l.repeats r with
  | true =>
    rw [take_repeated hrep]
    exact h
  | false =>
    cases hactive : l.registry.active? r.deviceToken with
    | none =>
      rw [take_unassigned hrep hactive]
      exact h
    | some a =>
      rw [take_admitted hrep hactive]
      unfold Single at h ⊢
      rw [List.filterMap_append]
      cases halt : r.draft.alternateId with
      | none => simpa [halt] using h
      | some alt =>
        have hfree : l.carries alt = false := by simpa [repeats, halt] using hrep
        have hone : [(r, a)].filterMap (·.1.draft.alternateId) = [alt] := by simp [halt]
        rw [hone, List.nodup_append]
        refine ⟨h, List.nodup_singleton alt, ?_⟩
        intro b hb c hc hbc
        rw [List.mem_singleton] at hc
        obtain ⟨x, hx, hxb⟩ := List.mem_filterMap.1 hb
        have hcarries : l.carries alt = true := by
          refine List.any_eq_true.2 ⟨x, hx, ?_⟩
          rw [hxb, hbc, hc]
          exact beq_self_eq_true _
        rw [hfree] at hcarries
        cases hcarries

theorem takes_single (h : l.Single) (rs : List Request) : (rs.foldl take l).Single := by
  induction rs generalizing l with
  | nil => exact h
  | cons r rs ih => exact ih (take_single h r)

theorem feed_single (h : l.Single) (f : Feeding) : (l.feed f).Single := by
  cases f with
  | payload source x =>
    simp only [feed]
    split
    · exact takes_single h _
    · exact h
  | assign a => exact h

theorem after_single (r : Registry) (fs : List Feeding) : (after r fs).Single := by
  have h : ∀ l : Ledger, l.Single → (fs.foldl feed l).Single := by
    induction fs with
    | nil => exact fun l h => h
    | cons f fs ih => exact fun l h => ih _ (feed_single h f)
  exact h (start r) List.nodup_nil

/-- What is stored of a ledger that a world agrees with. -/
theorem Booked.stored_eq {checks : Bool} {tenant : String} {supply : Supply} {looked : Nat} {w : World}
    (h : l.Booked checks tenant supply looked w.front) : w.stored = l.events supply looked := by
  unfold World.stored
  rw [show w.rows.events.entries = _ from h.events, List.map_map]
  exact List.map_id _

end Ledger

/-- What is known of a worker that has been fed. -/
structure Ingested (w : World) (fs : List Feeding) (k : DeduplicatorKind) : Prop where
  /-- One event for every request that the reference admits, and in the same order. -/
  stored : Become w.supply w.looks (Ledger.after w.registry fs).admitted (after (fed k fs) w).stored
  alternateIds : ((after (fed k fs) w).stored.filterMap (·.alternateId)).Nodup
  forwarded : (after (fed k fs) w).counters.forwarded = (after (fed k fs) w).stored.length
  /-- A payload that does not decode adds nothing. -/
  undecoded : ∀ source x u, Envelope.decode x.payload x.hints = .error u →
    (after (fed k (fs ++ [.payload source x])) w).stored = (after (fed k fs) w).stored

theorem after_fed_append (k : DeduplicatorKind) (fs : List Feeding) (f : Feeding) (w : World) :
    after (fed k (fs ++ [f])) w = after (feed k f) (after (fed k fs) w) := by
  induction fs generalizing w with
  | nil => rfl
  | cons g fs ih => exact ih (after (feed k g) w)

theorem blank_booked (hw : w.Blank) (checks : Bool) :
    (Ledger.start w.registry).Booked checks w.front.tenant w.supply w.looks w.front where
  clear m := by
    show (if m = .writeIndexEntry then [] else w.plan m) = []
    by_cases hm : m = .writeIndexEntry
    · rw [if_pos hm]
    · rw [if_neg hm, hw.plan m hm]
  sameTenant := rfl
  supplied := rfl
  registry := rfl
  puts := hw.puts
  looks := rfl
  events := by
    show w.rows.events.entries = []
    rw [hw.events]
    rfl
  taken _ h := nomatch h
  free _ _ := by
    show w.rows.alternateIds.get? _ = none
    rw [hw.alternateIds]
    rfl
  counted := by
    show Ledger.Counted checks (Ledger.start w.registry) w.counters
    rw [hw.counters]
    cases checks <;> exact ⟨rfl, rfl, rfl, rfl⟩

section

variable (hw : w.Blank) (fs : List Feeding) (hids : w.supply.Apart (Ledger.after w.registry fs).admitted.length)

include hw hids

theorem after_fed_booked (checks : Bool) :
    (Ledger.after w.registry fs).Booked checks w.front.tenant w.supply w.looks (after (fed (kindOf checks) fs) w).front :=
  fed_booked fs (blank_booked hw checks) hids

theorem ingested (checks : Bool) : Ingested w fs (kindOf checks) := by
  have hb := after_fed_booked hw fs hids checks
  have hbecome := (Ledger.after w.registry fs).events_become w.supply w.looks
  rw [← hb.stored_eq] at hbecome
  refine ⟨hbecome, ?_, hb.counted.forwarded.trans hbecome.length_eq, fun source x u hx => ?_⟩
  · rw [hbecome.alternateIds_eq]
    exact Ledger.after_single w.registry fs
  · rw [after_fed_append]
    have hfront := after_receive_error (kindOf checks) source hx (after (fed (kindOf checks) fs) w)
    exact congrArg (fun p : Front => p.events.entries.map (·.2)) hfront

end

/-- Whatever a worker is fed with, it stores what the reference admits, whether it checks alternate ids or not; and
without the check just that many more requests are errors as would have been duplicates with it. -/
theorem worker_stores_admitted {w : World} (hw : w.Blank) (fs : List Feeding)
    (hids : w.supply.Apart (Ledger.after w.registry fs).admitted.length) :
    Ingested w fs .none ∧ Ingested w fs .alternateId ∧
      (after (fed .none fs) w).stored = (after (fed .alternateId fs) w).stored ∧
      (after (fed .none fs) w).counters.handlerErrors =
        (after (fed .alternateId fs) w).counters.duplicates +
          (after (fed .alternateId fs) w).counters.handlerErrors := by
  have hu := after_fed_booked hw fs hids false
  have hv := after_fed_booked hw fs hids true
  refine ⟨ingested hw fs hids false, ingested hw fs hids true, hu.stored_eq.trans hv.stored_eq.symm, ?_⟩
  have h₁ : (after (fed .none fs) w).counters.handlerErrors = _ := hu.counted.errors
  have h₂ : (after (fed .alternateId fs) w).counters.duplicates = _ := hv.counted.duplicates
  have h₃ : (after (fed .alternateId fs) w).counters.handlerErrors = _ := hv.counted.errors
  rw [h₁, h₂, h₃, if_pos rfl, if_pos rfl, if_neg nofun]
  omega

def smokeDraft : Draft := ⟨some "a-1", none, .empty, .alert ⟨.device, .info, "smoke", "on \"deck\""⟩⟩

/-- With the alternate id and without one. -/
def smokeRequest : Request := ⟨"d", none, smokeDraft⟩

def namelessRequest : Request := ⟨"d", none, { smokeDraft with alternateId := none }⟩

def smokeAssignment : Assignment := ⟨.ofNat 2, .ofNat 1, "d", none, some (.ofNat 3), none, .active, none⟩

/-- The envelope of a request with these members more. -/
def smokeEnvelope (ms : List (String × Json.Value)) : Json.Value :=
  .obj [("deviceToken", .str "d"), ("type", .str "Alert"),
    ("request", .obj (ms ++ [("type", .str "smoke"), ("message", .str "on \"deck\"")]))]

def namedEnvelope : Json.Value := smokeEnvelope [("alternateId", .str "a-1")]

/-- The request without an assignment, the assignment, and in one payload the request twice and
one without an alternate id. -/
def smokeFeedings : List Feeding :=
  [.payload "mqtt" ⟨namedEnvelope.render.toUTF8, .empty⟩, .assign smokeAssignment,
    .payload "mqtt" ⟨(Json.Value.arr [namedEnvelope, namedEnvelope, smokeEnvelope []]).render.toUTF8, .empty⟩]

theorem smokeFeedings_admitted :
    (Ledger.after .empty smokeFeedings).admitted =
      [(smokeRequest, smokeAssignment), (namelessRequest, smokeAssignment)] := by
  have hlegible : namedEnvelope.Legible := by
    intro n h
    simp [namedEnvelope, smokeEnvelope, Json.Value.tokens, Json.Value.memberTokens] at h
  have hlegible' : (Json.Value.arr [namedEnvelope, namedEnvelope, smokeEnvelope []]).Legible := by
    intro n h
    simp [namedEnvelope, smokeEnvelope, Json.Value.tokens, Json.Value.memberTokens, Json.Value.itemTokens] at h
  have hone : Envelope.decode namedEnvelope.render.toUTF8 .empty = .ok [smokeRequest] := by
    rw [Envelope.decode_render hlegible (by decide)]
    rfl
  have hthree : Envelope.decode (Json.Value.arr [namedEnvelope, namedEnvelope, smokeEnvelope []]).render.toUTF8 .empty =
      .ok [smokeRequest, smokeRequest, namelessRequest] := by
    rw [Envelope.decode_render hlegible' (by decide)]
    rfl
  unfold Ledger.after smokeFeedings
  rw [List.foldl_cons, List.foldl_cons, List.foldl_cons, List.foldl_nil, Ledger.feed_decoded hone,
    Ledger.feed_decoded hthree]
  rfl

/-- Of four requests two are stored: the first comes too early, and the third carries the alternate id of the second. -/
theorem worker_stores_admitted_once :
    let w := World.start sampleSupply [{}] .empty (.ofCapacity 1)
    w.Blank ∧ w.supply.Apart (Ledger.after w.registry smokeFeedings).admitted.length ∧
      (Ledger.after w.registry smokeFeedings).admitted =
        [(smokeRequest, smokeAssignment), (namelessRequest, smokeAssignment)] ∧
      Ingested w smokeFeedings .none ∧ Ingested w smokeFeedings .alternateId ∧
      (after (fed .none smokeFeedings) w).stored = (after (fed .alternateId smokeFeedings) w).stored ∧
      (after (fed .none smokeFeedings) w).counters.handlerErrors =
        (after (fed .alternateId smokeFeedings) w).counters.duplicates +
          (after (fed .alternateId smokeFeedings) w).counters.handlerErrors := by
  intro w
  have hw : w.Blank := start_blank sampleSupply [{}] .empty (.ofCapacity 1)
  have hadmitted : (Ledger.after w.registry smokeFeedings).admitted =
      [(smokeRequest, smokeAssignment), (namelessRequest, smokeAssignment)] := smokeFeedings_admitted
  have hids : w.supply.Apart (Ledger.after w.registry smokeFeedings).admitted.length := by
    rw [hadmitted]
    exact sampleSupply_apart (by decide)
  exact ⟨hw, hids, hadmitted, worker_stores_admitted hw smokeFeedings hids⟩

end DeviceEvents.Simulation
