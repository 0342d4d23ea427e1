import DeviceEvents.Proofs.Instant.Truncation
import DeviceEvents.Proofs.Store.Newest
import DeviceEvents.Store.EventStore
/-
  DeviceEvents.Proofs.Store.Entries — what the index holds.

  An entry is an event under a key, the same pair that a write to the index brings. A row
  holds one event for a place (`eq_of_samePlace`), so what is in it settles what it is
  (`WideRow.ext_mem`), and a scan is a filter (`slice?_eq_filter`).
-/

namespace DeviceEvents

section Lists

variable {α : Type} {p : α → Bool} {l : List α}

theorem takeWhile_eq_filter (h : l.Pairwise fun a b => p b = true → p a = true) :
    l.takeWhile p = l.filter p := by
  induction l with
  | nil => rfl
  | cons a l ih =>
    obtain ⟨ha, hl⟩ := List.pairwise_cons.1 h
    cases hp : p a with
    | true => rw [List.takeWhile_cons_of_pos hp, List.filter_cons_of_pos hp, ih hl]
    | false =>
      have hn : l.filter p = [] := List.filter_eq_nil_iff.2 fun b hb hb' => by simp [ha b hb hb'] at hp
      rw [List.takeWhile_cons_of_neg (by simp [hp]), List.filter_cons_of_neg (by simp [hp]), hn]

theorem dropWhile_eq_filter (h : l.Pairwise fun a b => p b = true → p a = true) :
    l.dropWhile p = l.filter fun a => !p a := by
  induction l with
  | nil => rfl
  | cons a l ih =>
    obtain ⟨ha, hl⟩ := List.pairwise_cons.1 h
    cases hp : p a with
    | true => rw [List.dropWhile_cons_of_pos hp, List.filter_cons_of_neg (by simp [hp]), ih hl]
    | false =>
      have hall : l.filter (fun b => !p b) = l := List.filter_eq_self.2 fun b hb => by
        cases hb' : p b with
        | true => simp [ha b hb hb'] at hp
        | false => rfl
      rw [List.dropWhile_cons_of_neg (by simp [hp]), List.filter_cons_of_pos (by simp [hp]), hall]

end Lists

/-! ## One row -/

theorem DateRange.contains_of_isInverted {range : DateRange} (h : range.isInverted = true) (t : Instant) :
    range.contains t = false := by
  obtain ⟨start, stop⟩ := range
  cases start with
  | none => cases h
  | some a =>
    cases stop with
    | none => cases h
    | some b =>
      have hba : b < a := of_decide_eq_true h
      rw [Instant.lt_def] at hba
      simp only [contains, Option.all_some, Bool.and_eq_false_iff, decide_eq_false_iff_not, Instant.le_def]
      omega

namespace WideRow

theorem nodup_events (r : WideRow) : r.events.Nodup := by
  refine List.Pairwise.imp ?_ r.ascending
  rintro a _ h rfl
  exact Event.not_precedes_self a h

theorem eq_of_samePlace {r : WideRow} {a b : Event} (ha : a ∈ r.events) (hb : b ∈ r.events)
    (h : a.SamePlace b) : a = b := by
  have h₁ : r.events.Pairwise fun a b => a.SamePlace b → a = b :=
    r.ascending.imp fun h hs => absurd hs h.not_samePlace
  have h₂ : r.events.Pairwise (flip fun a b => a.SamePlace b → a = b) :=
    r.ascending.imp fun h hs => absurd hs.symm h.not_samePlace
  exact h₁.forall_of_forall_of_flip (fun _ _ _ => rfl) h₂ ha hb h

theorem ext_mem {r s : WideRow} (h : ∀ e, e ∈ r.events ↔ e ∈ s.events) : r = s := by
  have he : r.events = s.events := List.Perm.eq_of_pairwise
    (fun _ _ _ _ hab hba => absurd hba hab.asymm) r.ascending s.ascending
    ((List.perm_ext_iff_of_nodup r.nodup_events s.nodup_events).2 h)
  cases r
  cases s
  cases he
  rfl

theorem mem_insertAt_iff {e x : Event} {es : List Event} (h : es.Pairwise Event.Precedes) :
    x ∈ insertAt e es ↔ x = e ∨ (x ∈ es ∧ ¬x.SamePlace e) := by
  induction es with
  | nil => simp [insertAt]
  | cons f es ih =>
    obtain ⟨hf, hes⟩ := List.pairwise_cons.1 h
    simp only [insertAt]
    split
    · rename_i hlt
      -- everything from `f` on stands behind `e`
      have hn : ∀ x ∈ f :: es, ¬x.SamePlace e := by
        intro x hx hs
        rcases List.mem_cons.1 hx with rfl | hx
        · exact hlt.not_samePlace hs.symm
        · exact (hlt.trans (hf x hx)).not_samePlace hs.symm
      rw [List.mem_cons]
      exact or_congr_right ⟨fun hx => ⟨hx, hn x hx⟩, fun hx => hx.1⟩
    · split
      · rename_i hs
        have hn : ∀ x ∈ es, ¬x.SamePlace e := fun x hx hx' =>
          (hs.precedes_iff.2 (hf x hx)).not_samePlace hx'.symm
        rw [List.mem_cons, List.mem_cons]
        apply or_congr_right
        constructor
        · intro hx
          exact ⟨.inr hx, hn x hx⟩
        · intro hx
          obtain ⟨rfl | hx, hne⟩ := hx
          · exact absurd hs.symm hne
          · exact hx
      · rename_i hs
        rw [List.mem_cons, List.mem_cons, ih hes]
        constructor
        · intro hx
          rcases hx with rfl | rfl | ⟨hx, hne⟩
          · exact .inr ⟨.inl rfl, fun h' => hs h'.symm⟩
          · exact .inl rfl
          · exact .inr ⟨.inr hx, hne⟩
        · intro hx
          rcases hx with rfl | ⟨rfl | hx, hne⟩
          · exact .inr (.inl rfl)
          · exact .inl rfl
          · exact .inr (.inr ⟨hx, hne⟩)

theorem mem_insert {r : WideRow} {e x : Event} :
    x ∈ (r.insert e).events ↔ x = e ∨ (x ∈ r.events ∧ ¬x.SamePlace e) := mem_insertAt_iff r.ascending

theorem holds_iff {r : WideRow} {id : Uuid} : r.holds id = true ↔ ∃ e ∈ r.events, e.id = id := by
  simp [holds]

theorem slice?_eq_filter (r : WideRow) (range : DateRange) :
    r.slice? range = some (r.events.filter fun e => range.contains e.eventDate) := by
  have hcontains : ∀ e : Event, range.contains e.eventDate =
      (!(range.upper?.any fun b => decide (b < e.place)) && !(range.lower?.any fun a => decide (e.place < a))) := by
    intro e
    unfold DateRange.contains DateRange.lower? DateRange.upper?
    rw [Bool.and_comm]
    congr 1
    · cases range.stop with
      | none => rfl
      | some s => simp [Place.last_lt_iff, Event.place, ← Instant.not_lt]
    · cases range.start with
      | none => rfl
      | some s => simp [Place.lt_first_iff, Event.place, ← Instant.not_lt]
  unfold slice?
  split
  · rename_i hinv
    rw [eq_comm, Option.some_inj, List.filter_eq_nil_iff]
    intro e _
    simp [DateRange.contains_of_isInverted hinv]
  · rename_i hinv
    have hlo : r.events.Pairwise fun a b => (range.lower?.any fun x => decide (b.place < x)) = true →
        (range.lower?.any fun x => decide (a.place < x)) = true := by
      refine r.ascending.imp fun {a b} h => ?_
      cases range.lower? with
      | none => exact id
      | some x => simpa using Place.lt_trans h
    have hhi : r.events.Pairwise fun a b => (!range.upper?.any fun x => decide (x < b.place)) = true →
        (!range.upper?.any fun x => decide (x < a.place)) = true := by
      refine r.ascending.imp fun {a b} h => ?_
      cases range.upper? with
      | none => exact id
      | some x => simpa using mt fun h' => Place.lt_trans h' h
    rw [between?, crossed_bounds, if_neg hinv, dropWhile_eq_filter hlo,
      takeWhile_eq_filter (hhi.sublist List.filter_sublist), List.filter_filter]
    simp only [hcontains]

end WideRow

/-! ## All rows -/

namespace Rows

/-- What the index holds, as the writes that bring it there. -/
def entries (r : Rows) : List IndexWrite :=
  r.partitions.entries.flatMap fun x => x.2.events.map (⟨x.1, ·⟩)

theorem mem_entries {r : Rows} {w : IndexWrite} : w ∈ r.entries ↔ w.event ∈ (r.row w.key).events := by
  simp only [entries, List.mem_flatMap, List.mem_map]
  constructor
  · intro h
    obtain ⟨⟨k, row⟩, hx, e, he, rfl⟩ := h
    have hrow := Table.mem_entries.1 hx
    simpa [Rows.row, hrow] using he
  · intro he
    cases hrow : r.partitions.get? w.key with
    | none => simp [row, hrow, WideRow.empty] at he
    | some row =>
      refine ⟨(w.key, row), Table.mem_entries.2 hrow, w.event, ?_, rfl⟩
      simpa [Rows.row, hrow] using he

theorem nodup_entries (r : Rows) : r.entries.Nodup := by
  refine List.nodup_flatMap.2 ⟨?_, ?_⟩
  · intro x _
    refine x.2.nodup_events.map ?_
    intro a b h
    injection h
  · refine (List.pairwise_map.1 r.partitions.distinct).imp fun {x y} hne w hx hy => ?_
    obtain ⟨e, -, rfl⟩ := List.mem_map.1 hx
    obtain ⟨f, -, hf⟩ := List.mem_map.1 hy
    injection hf with hk
    exact hne hk.symm

theorem row_insert (r : Rows) (k l : PartitionKey) (row : WideRow) :
    ({ r with partitions := r.partitions.insert k row } : Rows).row l = if l = k then row else r.row l := by
  unfold Rows.row
  rw [Table.get?_insert]
  split <;> rfl

theorem event?_writeEvent (r : Rows) (tenant t : String) (e : Event) (id : Uuid) :
    (r.writeEvent tenant e).event? t id = if t = tenant ∧ id = e.id then some e else r.event? t id := by
  simp only [event?, writeEvent, Table.get?_insert, Prod.mk.injEq]

theorem eventId?_writeAlternateId (r : Rows) (tenant a t b : String) (id : Uuid) :
    (r.writeAlternateId tenant a id).eventId? t b = if t = tenant ∧ b = a then some id else r.eventId? t b := by
  simp only [eventId?, writeAlternateId, Table.get?_insert, Prod.mk.injEq]

theorem mem_partitionsOf {r : Rows} {k : PartitionKey} {id : Uuid} :
    k ∈ r.partitionsOf id ↔ ∃ e ∈ (r.row k).events, e.id = id := by
  simp only [partitionsOf, List.mem_mergeSort, List.mem_map, List.mem_filter, WideRow.holds_iff]
  constructor
  · intro h
    obtain ⟨⟨k, row⟩, ⟨hx, e, he, hid⟩, rfl⟩ := h
    have hrow := Table.mem_entries.1 hx
    exact ⟨e, by simpa [Rows.row, hrow] using he, hid⟩
  · intro h
    obtain ⟨e, he, hid⟩ := h
    cases hrow : r.partitions.get? k with
    | none => simp [row, hrow, WideRow.empty] at he
    | some row => exact ⟨(k, row), ⟨Table.mem_entries.2 hrow, e, by simpa [Rows.row, hrow] using he, hid⟩, rfl⟩

theorem scan?_eq (r : Rows) (k : PartitionKey) (range : DateRange) :
    r.scan? k range = some (if k.dimension ∈ r.failingScans then .error (scanFailure k.dimension)
      else .ok ((r.row k).events.filter fun e => range.contains e.eventDate)) := by
  unfold scan? row
  split
  · rfl
  · cases r.partitions.get? k with
    | none => rfl
    | some row => simp only [WideRow.slice?_eq_filter, Option.map_some, Option.getD_some]

theorem scan?_eq_scan (r : Rows) (k : PartitionKey) (range : DateRange) :
    r.scan? k range = some (r.scan k range) := (Option.some_get _).symm

theorem scan_eq (r : Rows) (k : PartitionKey) (range : DateRange) :
    r.scan k range = if k.dimension ∈ r.failingScans then .error (scanFailure k.dimension)
      else .ok ((r.row k).events.filter fun e => range.contains e.eventDate) :=
  Option.some_inj.1 ((r.scan?_eq_scan k range).symm.trans (r.scan?_eq k range))

end Rows

/-! ## A sample -/

def sampleAssignment : Assignment :=
  ⟨.ofNat 1, .ofNat 2, "sensor", some (.ofNat 3), none, none, .active, none⟩

def sampleDraft : Draft :=
  ⟨some "reading-1", some .epoch, .empty, .stateChange ⟨"door", "state", none, some "open"⟩⟩

def sampleEvent : Event := sampleDraft.toEvent sampleAssignment (.ofNat 9) .epoch

end DeviceEvents
