import DeviceEvents.Proofs.Store.Entries
import Mathlib.Logic.Relation
/-
  DeviceEvents.Proofs.Store.Traffic — puts of any number of stores that share their rows.

  Actors. Calls of `put`, each at a store of its own settings; writes to the index, which go
  on by themselves once their call has handed them out; and whoever makes the rows fail on
  purpose or ends that. A step is one write of one of them (`Step`), so steps of any calls
  alternate in any way. With `faults` a write may also fail from outside, as one does that
  runs into its limit; then it has no effect.

  A put has succeeded (`Succeeded`) when its writes are handed out or, if its store waits for
  them, have ended. A flush of a store returns at a moment when none of the writes that
  the store does not wait for is under way (`Flushed`).

  The ids of events are told apart by whoever makes them: a call brings one that no other has.
  `ended` and `named` are history that no step looks at.
-/

namespace DeviceEvents

structure Call where
  store : Nat
  assignment : Assignment
  draft : Draft
  id : Uuid
  received : Instant
  stage : PutStage
  /-- The writes to the index are handed out. -/
  dispatched : Bool

namespace Call

variable (stores : Nat → StoreSettings)

def tenant (c : Call) : String := (stores c.store).tenant

def event (c : Call) : Event := c.draft.toEvent c.assignment c.id c.received

def put (c : Call) : Put := ⟨c.tenant stores, c.event, c.stage⟩

/-- The writes to the index that the call hands out. -/
def writes (c : Call) : List IndexWrite := indexWrites (stores c.store) c.assignment c.event

end Call

/-- A write by an alternate id that came about. -/
structure Naming where
  tenant : String
  alternateId : String
  event : Event

/-- A write to the index that has ended. -/
structure Ended where
  write : IndexWrite
  /-- The failure from outside that it was given. -/
  given : Option Failure
  letter : Option DeadLetter

structure Traffic where
  rows : Rows
  calls : List Call
  /-- The writes to the index that are handed out and have not ended. -/
  pending : List IndexWrite
  letters : List DeadLetter
  /-- In the order in which they ended. -/
  ended : List Ended
  /-- The newest first. -/
  named : List Naming

namespace Traffic

def start : Traffic := ⟨.empty, [], [], [], [], []⟩

variable (stores : Nat → StoreSettings)

/-! ## Steps -/

def called (s : Traffic) (store : Nat) (a : Assignment) (d : Draft) (id : Uuid) (received : Instant) : Traffic :=
  { s with calls := s.calls ++ [⟨store, a, d, id, received, .event, false⟩] }

/-- What the next write by an id of `c` puts on record. -/
def naming (c : Call) (f : Option Failure) : List Naming :=
  match c.stage, f with
  | .alternateId a, none => [⟨c.tenant stores, a, c.event⟩]
  | _, _ => []

/-- The next write by an id of `c`, which was called after `cs` and before `ds`. -/
def advanced (s : Traffic) (cs : List Call) (c : Call) (ds : List Call) (f : Option Failure) : Traffic :=
  { s with
    rows := ((c.put stores).advance s.rows f).2
    calls := cs ++ { c with stage := ((c.put stores).advance s.rows f).1.stage } :: ds
    named := naming stores c f ++ s.named }

def handedOut (s : Traffic) (cs : List Call) (c : Call) (ds : List Call) : Traffic :=
  { s with
    calls := cs ++ { c with dispatched := true } :: ds
    pending := s.pending ++ c.writes stores }

def written (s : Traffic) (w : IndexWrite) (f : Option Failure) : Traffic :=
  { s with
    rows := (w.perform s.rows f).1
    pending := s.pending.erase w
    letters := s.letters ++ (w.perform s.rows f).2.toList
    ended := s.ended ++ [⟨w, f, (w.perform s.rows f).2⟩] }

variable (faults : Bool)

inductive Step : Traffic → Traffic → Prop
  | call (s : Traffic) (store : Nat) (a : Assignment) (d : Draft) (id : Uuid) (received : Instant) :
      (∀ c ∈ s.calls, c.id ≠ id) → Step s (s.called store a d id received)
  | advance (s : Traffic) (cs : List Call) (c : Call) (ds : List Call) (f : Option Failure) :
      s.calls = cs ++ c :: ds → (faults = false → f = none) → Step s (s.advanced stores cs c ds f)
  | handOut (s : Traffic) (cs : List Call) (c : Call) (ds : List Call) :
      s.calls = cs ++ c :: ds → c.stage = .index → c.dispatched = false → Step s (s.handedOut stores cs c ds)
  | write (s : Traffic) (w : IndexWrite) (f : Option Failure) :
      w ∈ s.pending → (faults = false → f = none) → Step s (s.written w f)
  | failWrites (s : Traffic) (d : Dimension) :
      faults = true → Step s { s with rows := s.rows.failWrites d }
  | failScans (s : Traffic) (d : Dimension) :
      faults = true → Step s { s with rows := s.rows.failScans d }
  | clearFailures (s : Traffic) : Step s { s with rows := s.rows.clearFailures }

abbrev Run : Traffic → Traffic → Prop := Relation.ReflTransGen (Step stores faults)

def Reach (s : Traffic) : Prop := Run stores faults .start s

/-! ## Calls and flushes from outside -/

def Succeeded (s : Traffic) (c : Call) : Prop :=
  c.dispatched = true ∧
    ((stores c.store).waitsForIndex = true → ∀ w ∈ s.pending, w.event.id ≠ c.id)

def Flushed (s : Traffic) (store : Nat) : Prop :=
  ∀ c ∈ s.calls, c.store = store → (stores c.store).waitsForIndex = false →
    ∀ w ∈ s.pending, w.event.id ≠ c.id

/-- The writes to the index that have been handed out. -/
def due (s : Traffic) : List IndexWrite := (s.calls.filter (·.dispatched)).flatMap (·.writes stores)

end Traffic

/-! ## One write -/

namespace Put

theorem advance_frame (p : Put) (r : Rows) (f : Option Failure) :
    (p.advance r f).2.partitions = r.partitions ∧ (p.advance r f).2.failingWrites = r.failingWrites ∧
      (p.advance r f).2.failingScans = r.failingScans := by
  unfold advance
  cases f <;> cases p.stage <;> exact ⟨rfl, rfl, rfl⟩

theorem advance_event (p : Put) (r : Rows) (h : p.stage = .event) :
    p.advance r none =
      ({ p with stage := p.event.alternateId.elim .index .alternateId }, r.writeEvent p.tenant p.event) := by
  cases ha : p.event.alternateId <;> simp [advance, h, ha]

theorem advance_alternateId (p : Put) (r : Rows) {a : String} (h : p.stage = .alternateId a) :
    p.advance r none = ({ p with stage := .index }, r.writeAlternateId p.tenant a p.event.id) := by
  simp [advance, h]

theorem advance_index (p : Put) (r : Rows) (f : Option Failure) (h : p.stage = .index) : p.advance r f = (p, r) := by
  unfold advance
  rw [h]
  cases f <;> rfl

/-- Everything that the next write by an id can do. -/
theorem advance_cases (p : Put) (r : Rows) (f : Option Failure) :
    (p.stage = .event ∧ f = none ∧ p.advance r f =
        ({ p with stage := p.event.alternateId.elim .index .alternateId }, r.writeEvent p.tenant p.event)) ∨
      (∃ a, p.stage = .alternateId a ∧ f = none ∧ p.advance r f =
        ({ p with stage := .index }, r.writeAlternateId p.tenant a p.event.id)) ∨
      (∃ g, f = some g ∧ (p.stage = .event ∨ ∃ a, p.stage = .alternateId a) ∧
        p.advance r f = ({ p with stage := .failed g }, r)) ∨
      ((p.stage = .index ∨ ∃ g, p.stage = .failed g) ∧ p.advance r f = (p, r)) := by
  cases hs : p.stage with
  | event =>
    cases f with
    | none => exact .inl ⟨rfl, rfl, p.advance_event r hs⟩
    | some g => exact .inr (.inr (.inl ⟨g, rfl, .inl rfl, by simp [advance, hs]⟩))
  | alternateId a =>
    cases f with
    | none => exact .inr (.inl ⟨a, rfl, rfl, p.advance_alternateId r hs⟩)
    | some g => exact .inr (.inr (.inl ⟨g, rfl, .inr ⟨a, rfl⟩, by simp [advance, hs]⟩))
  | index => exact .inr (.inr (.inr ⟨.inl rfl, p.advance_index r f hs⟩))
  | failed g => exact .inr (.inr (.inr ⟨.inr ⟨g, rfl⟩, by cases f <;> simp [advance, hs]⟩))

end Put

namespace IndexWrite

/-- Everything that a write to the index can do. -/
theorem perform_cases (w : IndexWrite) (r : Rows) (f : Option Failure) :
    (f = none ∧ w.key.dimension ∉ r.failingWrites ∧ w.perform r f =
        ({ r with partitions := r.partitions.insert w.key ((r.row w.key).insert w.event) }, none)) ∨
      (∃ cause, (f = none → w.key.dimension ∈ r.failingWrites) ∧
        w.perform r f = (r, some (w.lost cause))) := by
  cases f with
  | some f => exact .inr ⟨f.chain, fun h => (nomatch h), rfl⟩
  | none =>
    by_cases h : w.key.dimension ∈ r.failingWrites
    · refine .inr ⟨(Rows.writeFailure w.key.dimension).chain, fun _ => h, ?_⟩
      simp [perform, Rows.writeIndexEntry, h]
    · refine .inl ⟨rfl, h, ?_⟩
      simp [perform, Rows.writeIndexEntry, h]

theorem perform_frame (w : IndexWrite) (r : Rows) (f : Option Failure) :
    (w.perform r f).1.events = r.events ∧ (w.perform r f).1.alternateIds = r.alternateIds ∧
      (w.perform r f).1.failingWrites = r.failingWrites ∧ (w.perform r f).1.failingScans = r.failingScans := by
  rcases w.perform_cases r f with ⟨-, -, he⟩ | ⟨cause, -, he⟩
  · rw [he]
    exact ⟨rfl, rfl, rfl, rfl⟩
  · rw [he]
    exact ⟨rfl, rfl, rfl, rfl⟩

/-- Whether a write is lost hangs on what fails, not on what the index holds. -/
theorem letter_congr (w : IndexWrite) {r r' : Rows} (f : Option Failure)
    (h : ∀ d, d ∈ r.failingWrites ↔ d ∈ r'.failingWrites) : (w.perform r f).2 = (w.perform r' f).2 := by
  cases f with
  | some f => rfl
  | none =>
    by_cases hd : w.key.dimension ∈ r.failingWrites
    · simp [perform, Rows.writeIndexEntry, hd, (h _).1 hd]
    · simp [perform, Rows.writeIndexEntry, hd, mt (h _).2 hd]

/-- A write to a free place adds its entry or leaves a letter. -/
theorem mem_row_perform (w : IndexWrite) (r : Rows) (f : Option Failure)
    (hfree : ∀ x ∈ (r.row w.key).events, ¬x.SamePlace w.event) (k : PartitionKey) (e : Event) :
    e ∈ ((w.perform r f).1.row k).events ↔
      e ∈ (r.row k).events ∨ ((w.perform r f).2 = none ∧ w = ⟨k, e⟩) := by
  rcases w.perform_cases r f with ⟨-, -, he⟩ | ⟨cause, -, he⟩
  · rw [he, Rows.row_insert]
    by_cases hk : k = w.key
    · subst hk
      rw [if_pos rfl, WideRow.mem_insert]
      constructor
      · intro h
        rcases h with rfl | ⟨hx, -⟩
        · exact .inr ⟨rfl, rfl⟩
        · exact .inl hx
      · intro h
        rcases h with hx | ⟨-, hwe⟩
        · exact .inr ⟨hx, hfree e hx⟩
        · rw [hwe]
          exact .inl rfl
    · rw [if_neg hk]
      constructor
      · exact .inl
      · intro h
        rcases h with hx | ⟨-, hwe⟩
        · exact hx
        · exact absurd (congrArg IndexWrite.key hwe).symm hk
  · rw [he]
    simp

end IndexWrite

/-- The writes of an event: one for every dimension in which its assignment has an entity. -/
theorem mem_indexWrites {s : StoreSettings} {a : Assignment} {e : Event} {w : IndexWrite} :
    w ∈ indexWrites s a e ↔ ∃ d x, a.entityFor d = some x ∧
      w = ⟨⟨s.tenant, d, x, s.scheme.bucketOf e.eventDate⟩, e⟩ := by
  simp only [indexWrites, List.mem_filterMap, Option.map_eq_some_iff]
  constructor
  · intro h
    obtain ⟨d, -, x, hx, rfl⟩ := h
    exact ⟨d, x, hx, rfl⟩
  · intro h
    obtain ⟨d, x, hx, rfl⟩ := h
    exact ⟨d, by cases d <;> decide, x, hx, rfl⟩

theorem pairwise_indexWrites (s : StoreSettings) (a : Assignment) (e : Event) :
    (indexWrites s a e).Pairwise fun v w => v.key.dimension ≠ w.key.dimension := by
  have hall : Dimension.all.Pairwise (· ≠ ·) := by decide
  refine hall.filterMap _ ?_
  intro d d' hne v hv w hw
  obtain ⟨x, -, rfl⟩ := Option.map_eq_some_iff.1 hv
  obtain ⟨y, -, rfl⟩ := Option.map_eq_some_iff.1 hw
  exact hne

namespace Traffic

variable {stores : Nat → StoreSettings} {faults : Bool} {s s' : Traffic}

/-! ## What holds of the calls -/

structure Inv (s : Traffic) : Prop where
  ids : (s.calls.map (·.id)).Nodup
  naming : ∀ c ∈ s.calls, ∀ a, c.stage = .alternateId a → c.draft.alternateId = some a
  dispatched : ∀ c ∈ s.calls, c.dispatched = true → c.stage = .index

theorem start_inv : Inv .start :=
  ⟨.nil, fun _ h => (nomatch h), fun _ h => (nomatch h)⟩

/-- A call that takes a step keeps everything but its progress. -/
theorem ids_replaced {cs ds : List Call} {c c' : Call} (h : s.calls = cs ++ c :: ds) (hid : c'.id = c.id)
    (hi : Inv s) : ((cs ++ c' :: ds).map (·.id)).Nodup := by
  have hids := hi.ids
  rw [h] at hids
  simpa [hid] using hids

theorem mem_replaced {cs ds : List Call} {c c' x : Call} (h : s.calls = cs ++ c :: ds)
    (hx : x ∈ cs ++ c' :: ds) : x = c' ∨ x ∈ s.calls := by
  rw [h]
  simp only [List.mem_append, List.mem_cons] at hx ⊢
  rcases hx with hx | rfl | hx
  · exact .inr (.inl hx)
  · exact .inl rfl
  · exact .inr (.inr (.inr hx))

theorem advance_inv {cs ds : List Call} {c : Call} (f : Option Failure) (h : s.calls = cs ++ c :: ds)
    (hi : Inv s) : Inv (s.advanced stores cs c ds f) := by
  have hc : c ∈ s.calls := by simp [h]
  refine ⟨ids_replaced h rfl hi, ?_, ?_⟩
  · intro x hx a ha
    rcases mem_replaced h hx with rfl | hx
    · rcases (c.put stores).advance_cases s.rows f with
        ⟨-, -, he⟩ | ⟨b, -, -, he⟩ | ⟨g, -, -, he⟩ | ⟨-, he⟩
      · rw [he] at ha
        show c.draft.alternateId = some a
        have hd : (c.put stores).event.alternateId = c.draft.alternateId := rfl
        rw [hd] at ha
        cases hal : c.draft.alternateId with
        | none => simp [hal] at ha
        | some b => simpa [hal] using ha
      · simp [he] at ha
      · simp [he] at ha
      · rw [he] at ha
        exact hi.naming c hc a ha
    · exact hi.naming x hx a ha
  · intro x hx hd
    rcases mem_replaced h hx with rfl | hx
    · have hs : (c.put stores).stage = .index := hi.dispatched c hc hd
      rw [(c.put stores).advance_index s.rows f hs]
      exact hs
    · exact hi.dispatched x hx hd

theorem step_inv (h : Step stores faults s s') (hi : Inv s) : Inv s' := by
  cases h with
  | call store a d id received hid =>
    have hmem : ∀ x ∈ (s.called store a d id received).calls,
        x ∈ s.calls ∨ x = ⟨store, a, d, id, received, .event, false⟩ := fun x hx => by
      simpa [called] using hx
    refine ⟨?_, ?_, ?_⟩
    · simp only [called, List.map_append, List.map_cons, List.map_nil]
      refine List.nodup_append.2 ⟨hi.ids, by simp, ?_⟩
      rintro _ hx y hy rfl
      obtain ⟨c, hc, hx⟩ := List.mem_map.1 hx
      exact hid c hc (hx.trans (by simpa using hy))
    · intro x hx b hb
      rcases hmem x hx with hx | rfl
      · exact hi.naming x hx b hb
      · cases hb
    · intro x hx hd
      rcases hmem x hx with hx | rfl
      · exact hi.dispatched x hx hd
      · cases hd
  | advance cs c ds f hc _ => exact advance_inv f hc hi
  | handOut cs c ds hc hs _ =>
    refine ⟨ids_replaced hc rfl hi, ?_, ?_⟩
    · intro x hx a ha
      rcases mem_replaced hc hx with rfl | hx
      · exact hi.naming c (by simp [hc]) a ha
      · exact hi.naming x hx a ha
    · intro x hx hd
      rcases mem_replaced hc hx with rfl | hx
      · exact hs
      · exact hi.dispatched x hx hd
  | write w f _ _ => exact ⟨hi.ids, hi.naming, hi.dispatched⟩
  | failWrites d _ => exact ⟨hi.ids, hi.naming, hi.dispatched⟩
  | failScans d _ => exact ⟨hi.ids, hi.naming, hi.dispatched⟩
  | clearFailures => exact ⟨hi.ids, hi.naming, hi.dispatched⟩

theorem run_inv (h : Run stores faults s s') (hi : Inv s) : Inv s' := by
  induction h with
  | refl => exact hi
  | tail _ hs ih => exact step_inv hs ih

theorem reach_inv (h : Reach stores faults s) : Inv s := run_inv h start_inv

theorem Inv.eq_of_id (hi : Inv s) {b c : Call} (hb : b ∈ s.calls) (hc : c ∈ s.calls) (h : b.id = c.id) :
    b = c := List.inj_on_of_nodup_map hi.ids hb hc h

end Traffic
end DeviceEvents
