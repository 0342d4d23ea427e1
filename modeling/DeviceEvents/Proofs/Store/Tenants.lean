import DeviceEvents.Proofs.Store.FanOut
import DeviceEvents.Proofs.Store.Traffic
/-
  DeviceEvents.Proofs.Store.Tenants — stores of several tenants over the same rows.

  Actors. Any number of stores, each with its own settings, share their rows. At every store
  operations are begun at any time: puts, reads by an id, queries, flushes. Each then gets on
  step by step, one access to the rows at a time: a write or read by an id, one scan of a
  partition (the scans of a bucket in any order), one write to the index. Any access may fail
  from outside, and a query may be given up. Whoever makes all writes or scans of a dimension
  fail on purpose, or ends that, does so for everybody. The ids of events are those that the
  puts are given, so two tenants may well have the same.

  What a store knows itself is on its desk: its operations with their answers, the writes to
  the index that are under way, its dead letters. A run is any list of such acts.

  Proved: a run and the same run without all acts of the other tenants leave the stores of a
  tenant with the same desks (`tenants_apart`). Every access carries the tenant of its store
  (`Desk.Within`); one that does reads nothing that others have written (`SameFor`) and writes
  nothing that others read.
-/

namespace DeviceEvents

/-! ## Queries that wait for their scans -/

/-- An answer, or partitions that are to be read before the query goes on. -/
inductive Asking (α : Type) where
  | done (a : α)
  | scans (ks : List PartitionKey) (range : DateRange) (go : Except Failure (List Event) → Asking α)

namespace Asking

variable {α β : Type}

def bind : Asking α → (α → Asking β) → Asking β
  | .done a, f => f a
  | .scans ks range go, f => .scans ks range fun x => (go x).bind f

instance : Monad Asking where
  pure := .done
  bind := bind

/-- Scans that are waited for. -/
def scan : Scan Asking := fun ks range => .scans ks range .done

/-- What comes of it if the rows stay as they are. -/
def answer (r : Rows) : Asking α → α
  | .done a => a
  | .scans ks range go => (go (Query.readingOf r ks range)).answer r

/-- The partitions that are to be read next. -/
def keys : Asking α → List PartitionKey
  | .done _ => []
  | .scans ks _ _ => ks

/-- All that is ever to be read is of one tenant. -/
def Within (t : String) : Asking α → Prop
  | .done _ => True
  | .scans ks _ go => (∀ k ∈ ks, k.tenant = t) ∧ ∀ x, (go x).Within t

theorem answer_bind (r : Rows) (a : Asking α) (f : α → Asking β) : (a >>= f).answer r = (f (a.answer r)).answer r := by
  induction a with
  | done a => rfl
  | scans ks range go ih => exact ih _

theorem within_bind {t : String} {a : Asking α} {f : α → Asking β} (ha : a.Within t) (hf : ∀ x, (f x).Within t) :
    (a >>= f).Within t := by
  induction a with
  | done a => exact hf a
  | scans ks range go ih => exact ⟨ha.1, fun x => ih x (ha.2 x)⟩

theorem within_visit {t : String} {keys : Int → List PartitionKey} (range : DateRange)
    (h : ∀ b, ∀ k ∈ keys b, k.tenant = t) (bs : List Int) (pager : Pager Event) :
    (Query.visit (fun b => scan (keys b) range) bs pager).Within t := by
  induction bs generalizing pager with
  | nil => trivial
  | cons b bs ih =>
    refine within_bind ⟨h b, fun _ => trivial⟩ fun x => ?_
    cases x with
    | error f => trivial
    | ok es => exact ih _

/-- A query looks for nothing but what is its tenant's. -/
theorem within_run (q : Query) (p : Query.Plan) (now : Instant) : (q.run p scan now).Within p.tenant := by
  have hkeys : ∀ b, ∀ k ∈ p.keys q.dimension (Query.distinct q.entities) b, k.tenant = p.tenant := by
    intro b k hk
    obtain ⟨entity, -, rfl⟩ := List.mem_map.1 hk
    rfl
  unfold Query.run
  dsimp only
  split
  · trivial
  · split
    · trivial
    · refine within_bind (within_visit q.range hkeys _ _) fun x => ?_
      cases x <;> trivial

theorem answer_visit (r : Rows) (keys : Int → List PartitionKey) (range : DateRange) (bs : List Int) (pager : Pager Event) :
    (Query.visit (fun b => scan (keys b) range) bs pager).answer r =
      Id.run (Query.visit (fun b => Query.readingOf r (keys b) range) bs pager) := by
  induction bs generalizing pager with
  | nil => rfl
  | cons b bs ih =>
    rw [Query.visit, Query.visit, answer_bind]
    cases h : Query.readingOf r (keys b) range with
    | error f =>
      have hscan : (scan (keys b) range).answer r = .error f := h
      rw [hscan]
      rfl
    | ok es =>
      have hscan : (scan (keys b) range).answer r = .ok es := h
      rw [hscan]
      exact ih _

/-- Read at one go, it is the answer of the query. -/
theorem answer_run (r : Rows) (q : Query) (p : Query.Plan) (now : Instant) :
    (q.run p scan now).answer r = q.answer p r now := by
  unfold Query.answer Query.run
  dsimp only
  split
  · rfl
  · cases p.maxBuckets.filter (· < p.scheme.count q.range now) with
    | some max => rfl
    | none =>
      have hvisit := answer_visit r (p.keys q.dimension (Query.distinct q.entities)) q.range
        (p.scheme.covering q.range now) (.ofPage q.page)
      dsimp only
      rw [answer_bind, hvisit]
      simp only [Id.run]
      cases Query.visit (m := Id) (fun b =>
          Query.readingOf r (p.keys q.dimension (Query.distinct q.entities) b) q.range)
          (p.scheme.covering q.range now) (.ofPage q.page) with
      | error f => rfl
      | ok pager => rfl

end Asking

/-! ## What a store has on its desk -/

inductive Operation where
  | put (a : Assignment) (d : Draft) (id : Uuid) (received : Instant)
  | getById (id : Uuid)
  | getByAlternateId (alternateId : String)
  | query (q : Query) (now : Instant)
  | flush

inductive Reply where
  | stored (r : Except Trouble Event)
  | found (r : Except Trouble (Option Event))
  | results (r : Except Trouble (Results Event))
  | flushed

/-- An operation under way. -/
inductive Errand where
  | putting (p : Put) (a : Assignment)
  /-- Its writes to the index are handed out. -/
  | indexing (e : Event)
  | reading (id : Uuid)
  | looking (alternateId : String)
  /-- With what has been read of the partitions so far. -/
  | asking (read : List (Option (List Event))) (q : Asking (Except Trouble (Results Event)))
  | flushing
  | done (r : Reply)

structure Desk where
  errands : List Errand
  /-- The writes to the index that are under way, and from which operation. -/
  pending : List (Nat × IndexWrite)
  letters : List DeadLetter

namespace Errand

def reply? : Errand → Option Reply
  | .done r => some r
  | _ => none

def ask (q : Asking (Except Trouble (Results Event))) : Errand := .asking (q.keys.map fun _ => none) q

def begin (s : StoreSettings) : Operation → Errand
  | .put a d id received => .putting (.ofEvent s.tenant (d.toEvent a id received)) a
  | .getById id => .reading id
  | .getByAlternateId a => .looking a
  | .query q now => .ask (q.run s.plan Asking.scan now)
  | .flush => .flushing

/-- The next step, with the writes that are handed out. One that has to wait gives nothing. -/
def proceed? (s : StoreSettings) (r : Rows) (waits : Bool) (f : Option Failure) :
    Errand → Option ((Errand × List IndexWrite) × Rows)
  | .putting p a =>
    match p.stage with
    | .event | .alternateId _ => some ((.putting (p.advance r f).1 a, []), (p.advance r f).2)
    | .failed g => some ((.done (.stored (.error (.backend g))), []), r)
    | .index => some ((.indexing p.event, indexWrites s a p.event), r)
  | .indexing e => if waits then none else some ((.done (.stored (.ok e)), []), r)
  | .reading id =>
    match f with
    | some g => some ((.done (.found (.error (.backend g))), []), r)
    | none => some ((.done (.found (.ok (r.event? s.tenant id))), []), r)
  | .looking a =>
    match f with
    | some g => some ((.done (.found (.error (.backend g))), []), r)
    | none =>
      match r.eventId? s.tenant a with
      | some id => some ((.reading id, []), r)
      | none => some ((.done (.found (.ok none)), []), r)
  | .asking read (.scans _ _ go) =>
    if read.all (·.isSome) then some ((.ask (go (.ok (read.flatMap (·.getD [])))), []), r) else none
  | .asking _ (.done x) => some ((.done (.results x), []), r)
  | .flushing => if waits then none else some ((.done .flushed, []), r)
  | .done _ => none

/-- One of the scans that a query waits for. The first that fails ends all. -/
def scan? (r : Rows) (j : Nat) (f : Option Failure) : Errand → Option Errand
  | .asking read (.scans ks range go) =>
    match ks[j]?, read[j]? with
    | some k, some none =>
      match f with
      | some g => some (.ask (go (.error g)))
      | none =>
        match r.scan k range with
        | .error g => some (.ask (go (.error g)))
        | .ok es => some (.asking (read.set j (some es)) (.scans ks range go))
    | _, _ => none
  | _ => none

/-- A query is given up at its limit, or because it is cancelled. -/
def giveUp? (s : StoreSettings) (cancelled : Bool) : Errand → Option Errand
  | .asking _ _ =>
    if cancelled then some (.done (.results (.error .cancelled)))
    else s.queryLimit.map fun limit => .done (.results (.error (.timeout (limit * 1000000))))
  | _ => none

end Errand

namespace Desk

def empty : Desk := ⟨[], [], []⟩

inductive Act where
  | begin (o : Operation)
  | proceed (i : Nat) (f : Option Failure)
  | scan (i j : Nat) (f : Option Failure)
  | giveUp (i : Nat) (cancelled : Bool)
  /-- A write to the index ends. -/
  | write (j : Nat) (f : Option Failure)

/-- A put may wait for its own writes to the index, a flush for those that nobody waits for. -/
def waits (s : StoreSettings) (d : Desk) (i : Nat) : Errand → Bool
  | .indexing _ => s.waitsForIndex && d.pending.any (·.1 == i)
  | .flushing => !s.waitsForIndex && !d.pending.isEmpty
  | _ => false

def replace (d : Desk) (i : Nat) (e : Errand) : Desk := { d with errands := d.errands.set i e }

def handOut (d : Desk) (i : Nat) (ws : List IndexWrite) : Desk :=
  { d with pending := d.pending ++ ws.map (i, ·) }

def endWrite (d : Desk) (j : Nat) (letter : Option DeadLetter) : Desk :=
  { d with pending := d.pending.eraseIdx j, letters := d.letters ++ letter.toList }

def step? (s : StoreSettings) (r : Rows) (d : Desk) : Act → Option (Desk × Rows)
  | .begin o => some ({ d with errands := d.errands ++ [.begin s o] }, r)
  | .proceed i f =>
    d.errands[i]?.bind fun e =>
      (e.proceed? s r (d.waits s i e) f).map fun t => ((d.replace i t.1.1).handOut i t.1.2, t.2)
  | .scan i j f => d.errands[i]?.bind fun e => (e.scan? r j f).map fun e' => (d.replace i e', r)
  | .giveUp i cancelled => d.errands[i]?.bind fun e => (e.giveUp? s cancelled).map fun e' => (d.replace i e', r)
  | .write j f => d.pending[j]?.map fun x => (d.endWrite j (x.2.perform r f).2, (x.2.perform r f).1)

end Desk

/-! ## What a tenant sees of the rows -/

/-- A tenant can tell no difference. -/
structure Rows.SameFor (t : String) (r r' : Rows) : Prop where
  event : ∀ id, r.event? t id = r'.event? t id
  eventId : ∀ a, r.eventId? t a = r'.eventId? t a
  row : ∀ k, k.tenant = t → r.row k = r'.row k
  failingWrites : r.failingWrites = r'.failingWrites
  failingScans : r.failingScans = r'.failingScans

namespace Rows.SameFor

variable {t : String} {r r' : Rows}

theorem refl (t : String) (r : Rows) : SameFor t r r := ⟨fun _ => rfl, fun _ => rfl, fun _ _ => rfl, rfl, rfl⟩

theorem trans {r'' : Rows} (h : SameFor t r r') (h' : SameFor t r' r'') : SameFor t r r'' where
  event id := (h.event id).trans (h'.event id)
  eventId a := (h.eventId a).trans (h'.eventId a)
  row k hk := (h.row k hk).trans (h'.row k hk)
  failingWrites := h.failingWrites.trans h'.failingWrites
  failingScans := h.failingScans.trans h'.failingScans

theorem scan (h : SameFor t r r') {k : PartitionKey} (hk : k.tenant = t) (range : DateRange) :
    r.scan k range = r'.scan k range := by
  rw [Rows.scan_eq, Rows.scan_eq, h.failingScans, h.row k hk]

/-! The same write on both sides. -/

theorem writeEvent (h : SameFor t r r') (u : String) (e : Event) : SameFor t (r.writeEvent u e) (r'.writeEvent u e) where
  event id := by rw [event?_writeEvent, event?_writeEvent, h.event]
  eventId := h.eventId
  row := h.row
  failingWrites := h.failingWrites
  failingScans := h.failingScans

theorem writeAlternateId (h : SameFor t r r') (u a : String) (id : Uuid) :
    SameFor t (r.writeAlternateId u a id) (r'.writeAlternateId u a id) where
  event := h.event
  eventId b := by rw [eventId?_writeAlternateId, eventId?_writeAlternateId, h.eventId]
  row := h.row
  failingWrites := h.failingWrites
  failingScans := h.failingScans

theorem insert (h : SameFor t r r') (k : PartitionKey) (e : Event) :
    SameFor t { r with partitions := r.partitions.insert k ((r.row k).insert e) }
      { r' with partitions := r'.partitions.insert k ((r'.row k).insert e) } where
  event := h.event
  eventId := h.eventId
  row l hl := by
    rw [row_insert, row_insert]
    by_cases hk : l = k
    · rw [if_pos hk, if_pos hk, h.row k (hk ▸ hl)]
    · rw [if_neg hk, if_neg hk, h.row l hl]
  failingWrites := h.failingWrites
  failingScans := h.failingScans

theorem advance (h : SameFor t r r') (p : Put) (f : Option Failure) :
    (p.advance r f).1 = (p.advance r' f).1 ∧ SameFor t (p.advance r f).2 (p.advance r' f).2 := by
  unfold Put.advance
  cases f with
  | some g => cases p.stage <;> exact ⟨rfl, h⟩
  | none =>
    cases p.stage with
    | event => exact ⟨rfl, h.writeEvent _ _⟩
    | alternateId a => exact ⟨rfl, h.writeAlternateId _ _ _⟩
    | index | failed => exact ⟨rfl, h⟩

theorem perform (h : SameFor t r r') (w : IndexWrite) (f : Option Failure) :
    (w.perform r f).2 = (w.perform r' f).2 ∧ SameFor t (w.perform r f).1 (w.perform r' f).1 := by
  cases f with
  | some g => exact ⟨rfl, h⟩
  | none =>
    unfold IndexWrite.perform writeIndexEntry
    by_cases hd : w.key.dimension ∈ r.failingWrites
    · have hd' : w.key.dimension ∈ r'.failingWrites := h.failingWrites ▸ hd
      simp only [if_pos hd, if_pos hd']
      exact ⟨trivial, h⟩
    · have hd' : w.key.dimension ∉ r'.failingWrites := h.failingWrites ▸ hd
      simp only [if_neg hd, if_neg hd']
      exact ⟨trivial, h.insert _ _⟩

/-! A write of somebody else. -/

theorem advance_other (p : Put) (hp : p.tenant ≠ t) (r : Rows) (f : Option Failure) : SameFor t (p.advance r f).2 r := by
  rcases p.advance_cases r f with ⟨-, -, he⟩ | ⟨a, -, -, he⟩ | ⟨g, -, -, he⟩ | ⟨-, he⟩
  · rw [he]
    refine ⟨fun id => ?_, fun _ => rfl, fun _ _ => rfl, rfl, rfl⟩
    rw [event?_writeEvent, if_neg fun h => hp h.1.symm]
  · rw [he]
    refine ⟨fun _ => rfl, fun b => ?_, fun _ _ => rfl, rfl, rfl⟩
    rw [eventId?_writeAlternateId, if_neg fun h => hp h.1.symm]
  · rw [he]
    exact refl t r
  · rw [he]
    exact refl t r

theorem perform_other (w : IndexWrite) (hw : w.key.tenant ≠ t) (r : Rows) (f : Option Failure) :
    SameFor t (w.perform r f).1 r := by
  rcases w.perform_cases r f with ⟨-, -, he⟩ | ⟨cause, -, he⟩
  · rw [he]
    refine ⟨fun _ => rfl, fun _ => rfl, fun k hk => ?_, rfl, rfl⟩
    have hne : k ≠ w.key := by
      rintro rfl
      exact hw hk
    rw [row_insert, if_neg hne]
  · rw [he]
    exact refl t r

end Rows.SameFor
/-! ## One step at a desk -/

/-- Every access that is still to come carries the tenant. -/
def Errand.Within (t : String) : Errand → Prop
  | .putting p _ => p.tenant = t
  | .asking _ q => q.Within t
  | _ => True

structure Desk.Within (t : String) (d : Desk) : Prop where
  errands : ∀ e ∈ d.errands, e.Within t
  pending : ∀ x ∈ d.pending, x.2.key.tenant = t

namespace Errand

variable {s : StoreSettings} {r r' r₁ : Rows} {waits : Bool} {f : Option Failure} {e e₁ : Errand} {ws : List IndexWrite}

theorem within_begin (s : StoreSettings) (o : Operation) : (begin s o).Within s.tenant := by
  cases o with
  | put => rfl
  | query q now => exact Asking.within_run q s.plan now
  | getById | getByAlternateId | flush => trivial

theorem tenant_advance (p : Put) (r : Rows) (f : Option Failure) : (p.advance r f).1.tenant = p.tenant := by
  rcases p.advance_cases r f with ⟨-, -, he⟩ | ⟨a, -, -, he⟩ | ⟨g, -, -, he⟩ | ⟨-, he⟩ <;> rw [he]

/-- What a step at a store has to do with others: it does the same whatever they have written, and writes nothing
that they see. -/
structure Apart {α : Type} (t : String) (step : Rows → Option (α × Rows)) (r : Rows) (x : α) (r₁ : Rows) : Prop where
  same : ∀ r', r.SameFor t r' → ∃ r₁', step r' = some (x, r₁') ∧ r₁.SameFor t r₁'
  unseen : ∀ u, u ≠ t → r₁.SameFor u r

/-- A step that only reads. -/
theorem Apart.of_read {α : Type} {t : String} {step : Rows → Option (α × Rows)} {x : α}
    (h : ∀ r', r.SameFor t r' → step r' = some (x, r')) : Apart t step r x r :=
  ⟨fun r' hr => ⟨r', h r' hr, hr⟩, fun u _ => .refl u r⟩

theorem proceed_within (he : e.Within s.tenant) (h : e.proceed? s r waits f = some ((e₁, ws), r₁)) :
    e₁.Within s.tenant ∧ (∀ w ∈ ws, w.key.tenant = s.tenant) ∧
      Apart s.tenant (fun r' => e.proceed? s r' waits f) r (e₁, ws) r₁ := by
  cases e with
  | putting p a =>
    have hp : p.tenant = s.tenant := he
    cases hs : p.stage with
    | event | alternateId b =>
      simp only [proceed?, hs] at h ⊢
      cases h
      refine ⟨(tenant_advance p r f).trans hp, by simp, ⟨fun r' hr => ?_, fun u hu => ?_⟩⟩
      · obtain ⟨hsame, hrows⟩ := hr.advance p f
        exact ⟨_, by rw [hsame], hrows⟩
      · exact .advance_other p (by rw [hp]; exact hu.symm) r f
    | failed g =>
      simp only [proceed?, hs] at h ⊢
      cases h
      exact ⟨trivial, by simp, .of_read fun _ _ => rfl⟩
    | index =>
      simp only [proceed?, hs] at h ⊢
      cases h
      refine ⟨trivial, fun w hw => ?_, .of_read fun _ _ => rfl⟩
      obtain ⟨d, x, -, rfl⟩ := mem_indexWrites.1 hw
      rfl
  | indexing | flushing =>
    cases waits with
    | true => cases h
    | false =>
      cases h
      exact ⟨trivial, by simp, .of_read fun _ _ => rfl⟩
  | reading id =>
    cases f with
    | some g =>
      cases h
      exact ⟨trivial, by simp, .of_read fun _ _ => rfl⟩
    | none =>
      cases h
      exact ⟨trivial, by simp, .of_read fun r' hr => by simp only [proceed?, hr.event id]⟩
  | looking a =>
    cases f with
    | some g =>
      cases h
      exact ⟨trivial, by simp, .of_read fun _ _ => rfl⟩
    | none =>
      have hlook := fun r' (hr : r.SameFor s.tenant r') => hr.eventId a
      simp only [proceed?] at h ⊢
      cases hid : r.eventId? s.tenant a with
      | some id =>
        rw [hid] at h
        cases h
        exact ⟨trivial, by simp, .of_read fun r' hr => by rw [← hlook r' hr, hid]⟩
      | none =>
        rw [hid] at h
        cases h
        exact ⟨trivial, by simp, .of_read fun r' hr => by rw [← hlook r' hr, hid]⟩
  | asking read q =>
    cases q with
    | done x =>
      cases h
      exact ⟨trivial, by simp, .of_read fun _ _ => rfl⟩
    | scans ks range go =>
      obtain ⟨hall, hr⟩ := Option.ite_none_right_eq_some.1 h
      cases hr
      exact ⟨he.2 _, by simp, .of_read fun _ _ => by simp only [proceed?, if_pos hall]⟩
  | done => cases h

theorem scan_within {i : Nat} (he : e.Within s.tenant) (h : e.scan? r i f = some e₁) :
    e₁.Within s.tenant ∧ ∀ r', r.SameFor s.tenant r' → e.scan? r' i f = some e₁ := by
  cases e with
  | asking read q =>
    cases q with
    | done x => cases h
    | scans ks range go =>
      simp only [scan?] at h ⊢
      split at h
      · rename_i k hk hread
        have htenant : k.tenant = s.tenant := he.1 k (List.mem_of_getElem? hk)
        cases f with
        | some g =>
          cases h
          exact ⟨he.2 _, fun _ _ => rfl⟩
        | none =>
          cases hscan : r.scan k range with
          | error g =>
            simp only [hscan] at h
            cases h
            exact ⟨he.2 _, fun r' hr => by rw [← hr.scan htenant, hscan]⟩
          | ok es =>
            simp only [hscan] at h
            cases h
            exact ⟨he, fun r' hr => by rw [← hr.scan htenant, hscan]⟩
      · cases h
  | _ => cases h

theorem giveUp_within {cancelled : Bool} (h : e.giveUp? s cancelled = some e₁) : e₁.Within s.tenant := by
  cases e with
  | asking read q =>
    cases cancelled with
    | true =>
      cases h
      trivial
    | false =>
      obtain ⟨limit, -, rfl⟩ := Option.map_eq_some_iff.1 h
      trivial
  | _ => cases h

end Errand
namespace Desk

variable {s : StoreSettings} {r r₁ : Rows} {d d₁ : Desk} {a : Act}

theorem within_replace {t : String} (hd : d.Within t) (i : Nat) {e : Errand} (he : e.Within t) : (d.replace i e).Within t where
  errands x hx := by
    rcases List.mem_or_eq_of_mem_set hx with hx | rfl
    · exact hd.errands x hx
    · exact he
  pending := hd.pending

theorem within_handOut {t : String} (hd : d.Within t) (i : Nat) {ws : List IndexWrite}
    (hws : ∀ w ∈ ws, w.key.tenant = t) : (d.handOut i ws).Within t where
  errands := hd.errands
  pending x hx := by
    rcases List.mem_append.1 hx with hx | hx
    · exact hd.pending x hx
    · obtain ⟨w, hw, rfl⟩ := List.mem_map.1 hx
      exact hws w hw

theorem step_within (hd : d.Within s.tenant) (h : step? s r d a = some (d₁, r₁)) :
    d₁.Within s.tenant ∧ Errand.Apart s.tenant (fun r' => step? s r' d a) r d₁ r₁ := by
  cases a with
  | begin o =>
    cases h
    refine ⟨⟨fun e he => ?_, hd.pending⟩, .of_read fun _ _ => rfl⟩
    rcases List.mem_append.1 he with he | he
    · exact hd.errands e he
    · rw [List.mem_singleton.1 he]
      exact Errand.within_begin s o
  | proceed i f =>
    obtain ⟨e, he, hmap⟩ := Option.bind_eq_some_iff.1 h
    obtain ⟨⟨⟨e₁, ws⟩, r₂⟩, hproceed, heq⟩ := Option.map_eq_some_iff.1 hmap
    cases heq
    obtain ⟨he₁, hws, hapart⟩ := Errand.proceed_within (hd.errands e (List.mem_of_getElem? he)) hproceed
    refine ⟨within_handOut (within_replace hd i he₁) i hws, ⟨fun r' hr => ?_, hapart.unseen⟩⟩
    obtain ⟨r₁', hproceed', hsame⟩ := hapart.same r' hr
    exact ⟨r₁', by simp only [step?, he, Option.bind_some, hproceed', Option.map_some], hsame⟩
  | scan i j f =>
    obtain ⟨e, he, hmap⟩ := Option.bind_eq_some_iff.1 h
    obtain ⟨e₁, hscan, heq⟩ := Option.map_eq_some_iff.1 hmap
    cases heq
    obtain ⟨he₁, hsame⟩ := Errand.scan_within (hd.errands e (List.mem_of_getElem? he)) hscan
    exact ⟨within_replace hd i he₁, .of_read fun r' hr => by
      simp only [step?, he, Option.bind_some, hsame r' hr, Option.map_some]⟩
  | giveUp i cancelled =>
    obtain ⟨e, he, hmap⟩ := Option.bind_eq_some_iff.1 h
    obtain ⟨e₁, hgive, heq⟩ := Option.map_eq_some_iff.1 hmap
    cases heq
    exact ⟨within_replace hd i (Errand.giveUp_within hgive), .of_read fun r' _ => by
      simp only [step?, he, Option.bind_some, hgive, Option.map_some]⟩
  | write j f =>
    obtain ⟨x, hx, heq⟩ := Option.map_eq_some_iff.1 h
    cases heq
    have hkey := hd.pending x (List.mem_of_getElem? hx)
    refine ⟨⟨hd.errands, fun y hy => hd.pending y (List.mem_of_mem_eraseIdx hy)⟩, ⟨fun r' hr => ?_, fun u hu => ?_⟩⟩
    · obtain ⟨hletter, hrows⟩ := hr.perform x.2 f
      exact ⟨_, by simp only [step?, hx, Option.map_some, hletter], hrows⟩
    · exact .perform_other x.2 (by rw [hkey]; exact hu.symm) r f

end Desk

/-! ## All stores together -/

structure Shared where
  rows : Rows
  desks : Nat → Desk

namespace Shared

inductive Act where
  | desk (store : Nat) (a : Desk.Act)
  | failWrites (d : Dimension)
  | failScans (d : Dimension)
  | clearFailures

variable (stores : Nat → StoreSettings)

def start : Shared := ⟨.empty, fun _ => .empty⟩

def step? (s : Shared) : Act → Option Shared
  | .desk n a =>
    (Desk.step? (stores n) s.rows (s.desks n) a).map fun t => ⟨t.2, Function.update s.desks n t.1⟩
  | .failWrites d => some { s with rows := s.rows.failWrites d }
  | .failScans d => some { s with rows := s.rows.failScans d }
  | .clearFailures => some { s with rows := s.rows.clearFailures }

def run? (s : Shared) (acts : List Act) : Option Shared := acts.foldlM (step? stores) s

/-- Is it an act at a store of the tenant, or one that is everybody's? -/
def concerns (t : String) : Act → Bool
  | .desk n _ => (stores n).tenant == t
  | _ => true

/-- Two runs that are the same as far as one tenant is concerned. -/
structure Alike (t : String) (s s' : Shared) : Prop where
  rows : s.rows.SameFor t s'.rows
  desks : ∀ n, (stores n).tenant = t → s.desks n = s'.desks n
  within : ∀ n, (s.desks n).Within (stores n).tenant

variable {stores} {t : String} {s s' s₁ : Shared} {act : Act} {acts : List Act}

/-- An act of the tenant, or of nobody in particular, does the same in both. -/
theorem Alike.both (h : Alike stores t s s') (hact : concerns stores t act = true) (hs : s.step? stores act = some s₁) :
    ∃ s₁', s'.step? stores act = some s₁' ∧ Alike stores t s₁ s₁' := by
  cases act with
  | desk n a =>
    obtain ⟨⟨d₁, r₁⟩, hstep, rfl⟩ := Option.map_eq_some_iff.1 hs
    have htenant : (stores n).tenant = t := by simpa [concerns] using hact
    obtain ⟨hwithin, hapart⟩ := Desk.step_within (h.within n) hstep
    obtain ⟨r₁', hr₁', hsame⟩ := hapart.same s'.rows (htenant.symm ▸ h.rows)
    refine ⟨⟨r₁', Function.update s'.desks n d₁⟩, ?_, htenant ▸ hsame, fun k hk => ?_, fun k => ?_⟩
    · rw [step?, ← h.desks n htenant, hr₁']
      rfl
    · by_cases hkn : k = n
      · subst hkn
        simp
      · simp [hkn, h.desks k hk]
    · by_cases hkn : k = n
      · subst hkn
        simpa using hwithin
      · simpa [hkn] using h.within k
  | failWrites d =>
    cases hs
    have hr := h.rows
    exact ⟨_, rfl, ⟨hr.event, hr.eventId, hr.row, congrArg (d :: ·) hr.failingWrites, hr.failingScans⟩, h.desks, h.within⟩
  | failScans d =>
    cases hs
    have hr := h.rows
    exact ⟨_, rfl, ⟨hr.event, hr.eventId, hr.row, hr.failingWrites, congrArg (d :: ·) hr.failingScans⟩, h.desks, h.within⟩
  | clearFailures =>
    cases hs
    have hr := h.rows
    exact ⟨_, rfl, ⟨hr.event, hr.eventId, hr.row, rfl, rfl⟩, h.desks, h.within⟩

/-- An act of another tenant can be left out. -/
theorem Alike.one (h : Alike stores t s s') (hact : concerns stores t act = false) (hs : s.step? stores act = some s₁) :
    Alike stores t s₁ s' := by
  cases act with
  | desk n a =>
    obtain ⟨⟨d₁, r₁⟩, hstep, rfl⟩ := Option.map_eq_some_iff.1 hs
    have htenant : (stores n).tenant ≠ t := by simpa [concerns] using hact
    obtain ⟨hwithin, hapart⟩ := Desk.step_within (h.within n) hstep
    refine ⟨(hapart.unseen t htenant.symm).trans h.rows, fun k hk => ?_, fun k => ?_⟩
    · have hkn : k ≠ n := by
        rintro rfl
        exact htenant hk
      simp [hkn, h.desks k hk]
    · by_cases hkn : k = n
      · subst hkn
        simpa using hwithin
      · simpa [hkn] using h.within k
  | failWrites | failScans | clearFailures => cases hact

theorem Alike.run (h : Alike stores t s s') (hs : s.run? stores acts = some s₁) :
    ∃ s₁', s'.run? stores (acts.filter (concerns stores t)) = some s₁' ∧ Alike stores t s₁ s₁' := by
  induction acts generalizing s s' with
  | nil =>
    cases hs
    exact ⟨s', rfl, h⟩
  | cons act acts ih =>
    obtain ⟨s₂, hs₂, hrest⟩ := Option.bind_eq_some_iff.1 hs
    cases hact : concerns stores t act with
    | true =>
      obtain ⟨s₂', hs₂', h₂⟩ := h.both hact hs₂
      obtain ⟨s₁', hs₁', h₁⟩ := ih h₂ hrest
      refine ⟨s₁', ?_, h₁⟩
      rw [List.filter_cons_of_pos hact, run?, List.foldlM_cons, hs₂']
      exact hs₁'
    | false =>
      obtain ⟨s₁', hs₁', h₁⟩ := ih (h.one hact hs₂) hrest
      refine ⟨s₁', ?_, h₁⟩
      rw [List.filter_cons_of_neg (by rw [hact]; exact Bool.false_ne_true)]
      exact hs₁'

theorem start_alike (stores : Nat → StoreSettings) (t : String) : Alike stores t start start where
  rows := .refl t .empty
  desks _ _ := rfl
  within _ := ⟨fun _ h => absurd h List.not_mem_nil, fun _ h => absurd h List.not_mem_nil⟩

/-- Without all that other tenants do, a tenant's stores have the same operations with the same answers, the same
writes under way and the same dead letters. -/
theorem tenants_apart (stores : Nat → StoreSettings) (t : String) (h : start.run? stores acts = some s) :
    ∃ s', start.run? stores (acts.filter (concerns stores t)) = some s' ∧
      ∀ n, (stores n).tenant = t → s'.desks n = s.desks n := by
  obtain ⟨s', hs', halike⟩ := (start_alike stores t).run h
  exact ⟨s', hs', fun n hn => (halike.desks n hn).symm⟩

def sampleTenants (n : Nat) : StoreSettings := { tenant := if n = 0 then "acme" else "globex" }

def samplePut : Desk.Act := .begin (.put sampleAssignment sampleDraft (.ofNat 9) .epoch)

def sampleQuery : Query := ⟨.assignment, [sampleAssignment.id], ⟨some .epoch, some .epoch⟩, .first⟩

/-- Two tenants put the same event under the same ids. Meanwhile writes to one index begin to fail. In the end the first
tenant asks for the event. -/
def sampleActs : List Act :=
  [.desk 0 samplePut, .desk 0 (.proceed 0 none), .desk 0 (.proceed 0 none), .desk 0 (.proceed 0 none),
    .desk 1 samplePut, .desk 1 (.proceed 0 none), .desk 0 (.write 0 none), .desk 1 (.proceed 0 none),
    .failWrites .customer, .desk 1 (.proceed 0 none), .desk 1 (.write 0 none), .desk 0 (.write 0 none),
    .desk 1 (.write 0 (some (.of "down"))), .desk 0 (.proceed 0 none), .desk 0 (.begin (.query sampleQuery .epoch)),
    .desk 0 (.scan 1 0 none), .desk 0 (.proceed 1 none), .desk 0 (.proceed 1 none)]

theorem tenants_apart_same_ids : ∃ s s', start.run? sampleTenants sampleActs = some s ∧
    start.run? sampleTenants (sampleActs.filter (concerns sampleTenants "acme")) = some s' ∧ s'.desks 0 = s.desks 0 ∧
    (s.desks 0).errands.all (·.reply?.isSome) = true ∧ (s.desks 1).letters.length = 1 ∧
    (s.desks 0).letters = [⟨.ofNat 9, .customer, .ofNat 3, "injected write failure for customer index"⟩] := by
  obtain ⟨s, hrun, hreplies, hothers, hletters⟩ : ∃ s, start.run? sampleTenants sampleActs = some s ∧
      (s.desks 0).errands.all (·.reply?.isSome) = true ∧ (s.desks 1).letters.length = 1 ∧
      (s.desks 0).letters = [⟨.ofNat 9, .customer, .ofNat 3, "injected write failure for customer index"⟩] :=
    ⟨_, rfl, rfl, rfl, rfl⟩
  obtain ⟨s', hrun', hdesks⟩ := tenants_apart sampleTenants "acme" hrun
  exact ⟨s, s', hrun, hrun', hdesks 0 rfl, hreplies, hothers, hletters⟩

end Shared
end DeviceEvents
