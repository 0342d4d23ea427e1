import DeviceEvents.Event.Basic
import DeviceEvents.Search
/-
  DeviceEvents.Store.WideRow — the events of one partition, oldest first.

  A row is ordered by event date, then by id, and holds one event for a date and an id. A
  range of dates is one piece of it: from the least id at its start to the greatest at its
  end. Bounds that are crossed are no piece, so a range that is inverted is not looked up
  (`between?_bounds_eq_none_iff`).
-/

namespace DeviceEvents

/-- A place in a row. -/
structure Place where
  date : Instant
  id : Uuid

namespace Place

instance : LT Place := ⟨fun a b => a.date < b.date ∨ (a.date = b.date ∧ a.id < b.id)⟩

instance (a b : Place) : Decidable (a < b) := inferInstanceAs (Decidable (_ ∨ _))

theorem lt_trans {a b c : Place} (h : a < b) (h' : b < c) : a < c := by
  rcases h with h | ⟨h, hi⟩ <;> rcases h' with h' | ⟨h', hi'⟩
  · exact .inl (Instant.lt_trans h h')
  · exact .inl (h' ▸ h)
  · exact .inl (h ▸ h')
  · exact .inr ⟨h.trans h', Uuid.lt_trans hi hi'⟩

/-- The first place of a date. -/
def first (t : Instant) : Place := ⟨t, .nil⟩

/-- The last place of a date. -/
def last (t : Instant) : Place := ⟨t, .max⟩

theorem lt_first_iff {a : Place} {t : Instant} : a < first t ↔ a.date < t := by
  constructor
  · intro h
    rcases h with h | ⟨-, h⟩
    · exact h
    · exact absurd h (Uuid.not_lt_nil _)
  · exact .inl

theorem last_lt_iff {a : Place} {t : Instant} : last t < a ↔ t < a.date := by
  constructor
  · intro h
    rcases h with h | ⟨-, h⟩
    · exact h
    · exact absurd h (Uuid.not_max_lt _)
  · exact .inl

end Place

namespace DateRange

def lower? (r : DateRange) : Option Place := r.start.map .first

def upper? (r : DateRange) : Option Place := r.stop.map .last

end DateRange

namespace Event

def place (e : Event) : Place := ⟨e.eventDate, e.id⟩

/-- Stands before `b` in a row. -/
def Precedes (a b : Event) : Prop := a.place < b.place

instance (a b : Event) : Decidable (a.Precedes b) := inferInstanceAs (Decidable (a.place < b.place))

theorem precedes_iff {a b : Event} :
    a.Precedes b ↔ a.eventDate < b.eventDate ∨ (a.eventDate = b.eventDate ∧ a.id < b.id) := .rfl

/-- The same date and the same id: one place in a row. -/
def SamePlace (a b : Event) : Prop := a.eventDate = b.eventDate ∧ a.id = b.id

instance (a b : Event) : Decidable (a.SamePlace b) := inferInstanceAs (Decidable (_ ∧ _))

theorem Precedes.trans {a b c : Event} (h : a.Precedes b) (h' : b.Precedes c) : a.Precedes c :=
  Place.lt_trans h h'

theorem precedes_trichotomy (a b : Event) : a.Precedes b ∨ a.SamePlace b ∨ b.Precedes a := by
  rcases Instant.lt_trichotomy a.eventDate b.eventDate with h | h | h
  · exact .inl (.inl h)
  · rcases Uuid.lt_trichotomy a.id b.id with h' | h' | h'
    · exact .inl (.inr ⟨h, h'⟩)
    · exact .inr (.inl ⟨h, h'⟩)
    · exact .inr (.inr (.inr ⟨h.symm, h'⟩))
  · exact .inr (.inr (.inl h))

theorem SamePlace.precedes_iff {a b c : Event} (h : a.SamePlace b) :
    a.Precedes c ↔ b.Precedes c := by
  unfold Precedes place
  rw [h.1, h.2]

theorem SamePlace.iff_precedes {a b c : Event} (h : a.SamePlace b) :
    c.Precedes a ↔ c.Precedes b := by
  unfold Precedes place
  rw [h.1, h.2]

end Event

structure WideRow where
  events : List Event
  ascending : events.Pairwise Event.Precedes

namespace WideRow

def empty : WideRow := ⟨[], .nil⟩

def insertAt (e : Event) : List Event → List Event
  | [] => [e]
  | f :: es =>
    if e.Precedes f then e :: f :: es
    else if e.SamePlace f then e :: es
    else f :: insertAt e es

theorem mem_insertAt {e x : Event} {es : List Event} (h : x ∈ insertAt e es) :
    x = e ∨ x ∈ es := by
  induction es with
  | nil => simpa [insertAt] using h
  | cons f es ih =>
    simp only [insertAt] at h
    split at h
    · simpa using h
    · split at h
      · rcases List.mem_cons.1 h with h | h
        · exact .inl h
        · exact .inr (List.mem_cons_of_mem _ h)
      · rcases List.mem_cons.1 h with h | h
        · exact .inr (h ▸ List.mem_cons_self ..)
        · exact (ih h).imp id (List.mem_cons_of_mem _)

theorem ascending_insertAt (e : Event) {es : List Event} (h : es.Pairwise Event.Precedes) :
    (insertAt e es).Pairwise Event.Precedes := by
  induction es with
  | nil => simp [insertAt]
  | cons f es ih =>
    have ⟨hf, hes⟩ := List.pairwise_cons.1 h
    simp only [insertAt]
    split
    · rename_i hlt
      refine List.pairwise_cons.2 ⟨fun x hx => ?_, h⟩
      rcases List.mem_cons.1 hx with rfl | hx
      · exact hlt
      · exact hlt.trans (hf x hx)
    · rename_i hlt
      split
      · rename_i hs
        exact List.pairwise_cons.2 ⟨fun x hx => hs.precedes_iff.2 (hf x hx), hes⟩
      · rename_i hs
        refine List.pairwise_cons.2 ⟨fun x hx => ?_, ih hes⟩
        rcases mem_insertAt hx with rfl | hx
        · rcases Event.precedes_trichotomy x f with h' | h' | h'
          · exact absurd h' hlt
          · exact absurd h' hs
          · exact h'
        · exact hf x hx

/-- With `e` at its place, in the stead of the event that was there. -/
def insert (r : WideRow) (e : Event) : WideRow :=
  ⟨insertAt e r.events, ascending_insertAt e r.ascending⟩

/-- Are the bounds in the wrong order? -/
def crossed (lower upper : Option Place) : Bool := lower.any fun a => upper.any fun b => decide (b < a)

/-- The piece from one place to another, both included, as far as there are bounds. Of bounds
that are crossed no row can be asked. -/
def between? (r : WideRow) (lower upper : Option Place) : Option (List Event) :=
  if crossed lower upper then none
  else some ((r.events.dropWhile fun e => lower.any fun a => decide (e.place < a)).takeWhile
    fun e => !upper.any fun b => decide (b < e.place))

/-- The bounds of a range are crossed just if it is inverted. -/
theorem crossed_bounds (range : DateRange) : crossed range.lower? range.upper? = range.isInverted := by
  obtain ⟨start, stop⟩ := range
  cases start with
  | none => rfl
  | some s =>
    cases stop with
    | none => rfl
    | some e => exact decide_eq_decide.2 Place.lt_first_iff

theorem between?_bounds_eq_none_iff (r : WideRow) (range : DateRange) :
    r.between? range.lower? range.upper? = none ↔ range.isInverted = true := by
  unfold between?
  rw [crossed_bounds]
  cases range.isInverted <;> simp

/-- The piece between the ends of a range, both included. -/
def slice? (r : WideRow) (range : DateRange) : Option (List Event) :=
  if range.isInverted then some [] else r.between? range.lower? range.upper?

theorem isSome_slice? (r : WideRow) (range : DateRange) : (r.slice? range).isSome := by
  unfold slice?
  split
  · rfl
  · rename_i h
    exact Option.isSome_iff_ne_none.2 (mt (r.between?_bounds_eq_none_iff range).1 h)

def holds (r : WideRow) (id : Uuid) : Bool := r.events.any fun e => e.id == id

end WideRow
end DeviceEvents
