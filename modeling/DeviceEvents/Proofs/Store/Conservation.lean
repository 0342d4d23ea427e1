import DeviceEvents.Proofs.Store.Traffic
/-
  DeviceEvents.Proofs.Store.Conservation — no association of an event is lost or doubled.

  Every write to the index that a call hands out is under way or has ended (`conserved`), and
  one that has ended is an entry of the index or a dead letter (`Accounts`). Writes that are
  handed out differ in event or in dimension (`due_pairwise`), so each of them is accounted
  for by itself: `Accounts.settled`.
-/

namespace DeviceEvents

/-- Of two events, or of one event in two dimensions. -/
def IndexWrite.Apart (v w : IndexWrite) : Prop :=
  v.event.id = w.event.id → v.key.dimension ≠ w.key.dimension

theorem IndexWrite.Apart.symm {v w : IndexWrite} (h : v.Apart w) : w.Apart v := fun hid hd =>
  h hid.symm hd.symm

namespace Call

variable {stores : Nat → StoreSettings} {c : Call}

/-- Where the index keeps the event of a call by an entity. -/
def key (stores : Nat → StoreSettings) (c : Call) (d : Dimension) (x : Uuid) : PartitionKey :=
  ⟨c.tenant stores, d, x, (stores c.store).scheme.bucketOf c.event.eventDate⟩

theorem mem_writes {w : IndexWrite} :
    w ∈ c.writes stores ↔ ∃ d x, c.assignment.entityFor d = some x ∧ w = ⟨c.key stores d x, c.event⟩ :=
  mem_indexWrites

theorem event_of_mem_writes {w : IndexWrite} (h : w ∈ c.writes stores) : w.event = c.event := by
  obtain ⟨d, x, -, rfl⟩ := mem_writes.1 h
  rfl

end Call

namespace Traffic

variable {stores : Nat → StoreSettings} {faults : Bool} {s s' : Traffic}

/-! ## What is handed out -/

theorem mem_due {w : IndexWrite} :
    w ∈ s.due stores ↔ ∃ c ∈ s.calls, c.dispatched = true ∧ w ∈ c.writes stores := by
  simp [due, and_assoc]

theorem due_pairwise (hi : Inv s) : (s.due stores).Pairwise IndexWrite.Apart := by
  refine List.pairwise_flatMap.2 ⟨?_, ?_⟩
  · intro c _
    refine List.Pairwise.imp ?_ (pairwise_indexWrites (stores c.store) c.assignment c.event)
    intro v w h _
    exact h
  · refine ((List.pairwise_map.1 hi.ids).filter _).imp fun {b c} hne v hv w hw hid => ?_
    rw [Call.event_of_mem_writes hv, Call.event_of_mem_writes hw] at hid
    exact absurd hid hne

theorem due_called (store : Nat) (a : Assignment) (d : Draft) (id : Uuid) (received : Instant) :
    (s.called store a d id received).due stores = s.due stores := by
  simp [due, called]

theorem due_advanced {cs ds : List Call} {c : Call} (f : Option Failure) (h : s.calls = cs ++ c :: ds) :
    (s.advanced stores cs c ds f).due stores = s.due stores := by
  cases hd : c.dispatched <;> simp [due, advanced, h, hd, Call.writes, Call.event]

theorem due_handedOut {cs ds : List Call} {c : Call} (h : s.calls = cs ++ c :: ds)
    (hd : c.dispatched = false) :
    ((s.handedOut stores cs c ds).due stores).Perm (s.due stores ++ c.writes stores) := by
  have hw : Call.writes stores { c with dispatched := true } = c.writes stores := rfl
  simp only [due, handedOut, h, List.filter_append, List.filter_cons, hd, Bool.false_eq_true, if_false,
    if_true, List.flatMap_append, List.flatMap_cons, hw, List.append_assoc]
  exact List.Perm.append_left _ List.perm_append_comm

/-! ## The accounts -/

structure Accounts (stores : Nat → StoreSettings) (s : Traffic) : Prop where
  conserved : (s.due stores).Perm (s.pending ++ s.ended.map (·.write))
  letters : s.letters = s.ended.filterMap (·.letter)
  /-- A letter tells what write was lost. -/
  lost : ∀ x ∈ s.ended, ∀ l, x.letter = some l → ∃ cause, l = x.write.lost cause
  indexed : ∀ k e, e ∈ (s.rows.row k).events ↔ ∃ x ∈ s.ended, x.letter = none ∧ x.write = ⟨k, e⟩

theorem start_accounts : Accounts stores .start := by
  refine ⟨.nil, rfl, fun _ h => (nomatch h), ?_⟩
  intro k e
  constructor
  · intro h
    cases h
  · intro hx
    obtain ⟨_, h, -⟩ := hx
    cases h

theorem Accounts.apart (ha : Accounts stores s) (hi : Inv s) :
    (s.pending ++ s.ended.map (·.write)).Pairwise IndexWrite.Apart :=
  (ha.conserved.pairwise_iff IndexWrite.Apart.symm).1 (due_pairwise hi)

theorem written_accounts {w : IndexWrite} (f : Option Failure) (hw : w ∈ s.pending) (hi : Inv s)
    (ha : Accounts stores s) : Accounts stores (s.written w f) := by
  have hperm : (s.due stores).Perm
      (s.pending.erase w ++ (s.ended ++ [(⟨w, f, (w.perform s.rows f).2⟩ : Ended)]).map (·.write)) := by
    refine ha.conserved.trans (((List.perm_cons_erase hw).append_right _).trans ?_)
    rw [List.map_append, List.map_singleton, ← List.append_assoc]
    exact (List.perm_append_singleton _ _).symm
  have hletters : s.letters ++ (w.perform s.rows f).2.toList =
      (s.ended ++ [(⟨w, f, (w.perform s.rows f).2⟩ : Ended)]).filterMap (·.letter) := by
    rw [List.filterMap_append, ← ha.letters]
    cases (w.perform s.rows f).2 <;> simp
  refine ⟨hperm, hletters, ?_, ?_⟩
  · intro x hx l hl
    rcases List.mem_append.1 hx with hx | hx
    · exact ha.lost x hx l hl
    · rw [List.mem_singleton] at hx
      subst hx
      rcases w.perform_cases s.rows f with ⟨-, -, he⟩ | ⟨cause, -, he⟩
      · simp [he] at hl
      · refine ⟨cause, ?_⟩
        simpa [he, eq_comm] using hl
  · intro k e
    -- what stands in the row came from another write, so not from this place
    have hfree : ∀ x ∈ (s.rows.row w.key).events, ¬x.SamePlace w.event := by
      intro x hx hs
      obtain ⟨y, hy, -, hyw⟩ := (ha.indexed w.key x).1 hx
      have hap := (List.pairwise_append.1 (ha.apart hi)).2.2 w hw y.write (List.mem_map_of_mem hy)
      rw [hyw] at hap
      exact hap hs.2.symm rfl
    show e ∈ ((w.perform s.rows f).1.row k).events ↔ ∃ x ∈ s.ended ++ [_], _
    rw [w.mem_row_perform s.rows f hfree, ha.indexed]
    simp only [List.mem_append, List.mem_singleton, or_and_right, exists_or, exists_eq_left]

/-- Steps by an id, and switching failures on and off, leave the index alone. -/
theorem Accounts.of_frame (ha : Accounts stores s) (hd : (s'.due stores).Perm (s.due stores))
    (hp : s'.pending = s.pending) (he : s'.ended = s.ended) (hl : s'.letters = s.letters)
    (hr : s'.rows.partitions = s.rows.partitions) : Accounts stores s' := by
  have hrow : ∀ k, s'.rows.row k = s.rows.row k := fun k => by
    unfold Rows.row
    rw [hr]
  refine ⟨?_, ?_, ?_, ?_⟩
  · rw [hp, he]
    exact hd.trans ha.conserved
  · rw [hl, he]
    exact ha.letters
  · rw [he]
    exact ha.lost
  · intro k e
    rw [hrow, he]
    exact ha.indexed k e

theorem step_accounts (h : Step stores faults s s') (hi : Inv s) (ha : Accounts stores s) :
    Accounts stores s' := by
  cases h with
  | call store a d id received _ =>
    exact ha.of_frame (.of_eq (due_called ..)) rfl rfl rfl rfl
  | advance cs c ds f hc _ =>
    exact ha.of_frame (.of_eq (due_advanced f hc)) rfl rfl rfl (Put.advance_frame ..).1
  | handOut cs c ds hc _ hd =>
    refine ⟨?_, ha.letters, ha.lost, ha.indexed⟩
    refine (due_handedOut hc hd).trans ((ha.conserved.append_right _).trans ?_)
    simp only [handedOut, List.append_assoc]
    exact List.Perm.append_left _ List.perm_append_comm
  | write w f hw _ => exact written_accounts f hw hi ha
  | failWrites d _ => exact ha.of_frame (.refl _) rfl rfl rfl rfl
  | failScans d _ => exact ha.of_frame (.refl _) rfl rfl rfl rfl
  | clearFailures => exact ha.of_frame (.refl _) rfl rfl rfl rfl

theorem reach_accounts (h : Reach stores faults s) : Accounts stores s := by
  induction h with
  | refl => exact start_accounts
  | tail h hs ih => exact step_accounts hs (reach_inv h) ih

/-! ## One association -/

def entriesOf (s : Traffic) (k : PartitionKey) (id : Uuid) : List Event :=
  (s.rows.row k).events.filter (·.id = id)

def lettersOf (s : Traffic) (id : Uuid) (d : Dimension) : List DeadLetter :=
  s.letters.filter fun l => l.eventId = id ∧ l.dimension = d

theorem Accounts.eq_of_same (ha : Accounts stores s) (hi : Inv s) {x y : Ended} (hx : x ∈ s.ended)
    (hy : y ∈ s.ended) (hid : x.write.event.id = y.write.event.id)
    (hd : x.write.key.dimension = y.write.key.dimension) : x = y := by
  have hap := List.pairwise_map.1 (List.pairwise_append.1 (ha.apart hi)).2.1
  have h₁ : s.ended.Pairwise fun x y => ¬x.write.Apart y.write → x = y := hap.imp fun h hn => absurd h hn
  have h₂ : s.ended.Pairwise (flip fun x y => ¬x.write.Apart y.write → x = y) :=
    hap.imp fun h hn => absurd h.symm hn
  exact h₁.forall_of_forall_of_flip (fun _ _ _ => rfl) h₂ hx hy fun hn => hn hid hd

theorem Accounts.nodup_ended (ha : Accounts stores s) (hi : Inv s) : s.ended.Nodup := by
  have hap := List.pairwise_map.1 (List.pairwise_append.1 (ha.apart hi)).2.1
  refine List.Pairwise.imp ?_ hap
  rintro x _ h rfl
  exact h rfl rfl

theorem eq_singleton {α : Type} {l : List α} {a : α} (hn : l.Nodup) (ha : a ∈ l) (h : ∀ b ∈ l, b = a) :
    l = [a] :=
  List.Perm.singleton_eq ((List.perm_ext_iff_of_nodup (List.nodup_singleton a) hn).2 fun b =>
    ⟨fun hb => List.mem_singleton.1 hb ▸ ha, fun hb => List.mem_singleton.2 (h b hb)⟩) |>.symm

/-- Letters about an event and a dimension come from writes of that event in that dimension. -/
theorem Accounts.lettersOf_eq (ha : Accounts stores s) (id : Uuid) (d : Dimension) :
    s.lettersOf id d = (s.ended.filter fun x =>
      x.write.event.id = id ∧ x.write.key.dimension = d).filterMap (·.letter) := by
  unfold lettersOf
  rw [ha.letters, List.filter_filterMap, List.filterMap_filter]
  refine List.filterMap_congr ?_
  intro x hx
  cases hl : x.letter with
  | none => simp
  | some l =>
    obtain ⟨cause, rfl⟩ := ha.lost x hx l hl
    by_cases h : x.write.event.id = id ∧ x.write.key.dimension = d
    · simp [Option.filter, IndexWrite.lost, h]
    · simp only [Option.filter, IndexWrite.lost, h, decide_false, Bool.false_eq_true, if_false]

theorem Accounts.write_of_ended (ha : Accounts stores s) (hi : Inv s) {c : Call} (hc : c ∈ s.calls)
    {x : Ended} (hx : x ∈ s.ended) (hid : x.write.event.id = c.id) : x.write ∈ c.writes stores := by
  have hdue := ha.conserved.mem_iff.2 (List.mem_append_right _ (List.mem_map_of_mem hx))
  obtain ⟨b, hb, -, hw⟩ := mem_due.1 hdue
  have hbc : b = c := hi.eq_of_id hb hc (by rw [Call.event_of_mem_writes hw] at hid; exact hid)
  exact hbc ▸ hw

/-- The event of a call stands under its own keys only. -/
theorem Accounts.key_of_entry (ha : Accounts stores s) (hi : Inv s) {c : Call} (hc : c ∈ s.calls)
    {k : PartitionKey} {e : Event} (he : e ∈ (s.rows.row k).events) (hid : e.id = c.id) :
    ∃ x, c.assignment.entityFor k.dimension = some x ∧ k = c.key stores k.dimension x := by
  obtain ⟨x, hx, -, hw⟩ := (ha.indexed k e).1 he
  have hmem := ha.write_of_ended hi hc hx (by rw [hw]; exact hid)
  rw [hw] at hmem
  obtain ⟨d, y, hy, heq⟩ := Call.mem_writes.1 hmem
  have hk : k = c.key stores d y := congrArg IndexWrite.key heq
  rw [hk]
  exact ⟨y, hy, rfl⟩

theorem Accounts.lettersOf_ended (ha : Accounts stores s) (hi : Inv s) {y : Ended} (hy : y ∈ s.ended) :
    s.lettersOf y.write.event.id y.write.key.dimension = [y].filterMap (·.letter) := by
  rw [ha.lettersOf_eq]
  congr 1
  refine eq_singleton ((ha.nodup_ended hi).filter _) (List.mem_filter.2 ⟨hy, by simp⟩) ?_
  intro z hz
  obtain ⟨hz, hq⟩ := List.mem_filter.1 hz
  simp only [decide_eq_true_eq] at hq
  exact ha.eq_of_same hi hz hy hq.1 hq.2

/-- What stands where a write goes, of its event, is there by this very write. -/
theorem Accounts.entry_ended (ha : Accounts stores s) (hi : Inv s) {y : Ended} (hy : y ∈ s.ended) {e : Event}
    (he : e ∈ s.entriesOf y.write.key y.write.event.id) : e = y.write.event ∧ y.letter = none := by
  obtain ⟨he, heid⟩ := List.mem_filter.1 he
  obtain ⟨z, hz, hzl, hzw⟩ := (ha.indexed _ e).1 he
  have hzy : z = y := ha.eq_of_same hi hz hy (by rw [hzw]; simpa using heid) (by rw [hzw])
  subst hzy
  exact ⟨congrArg IndexWrite.event hzw.symm, hzl⟩

theorem Accounts.entry_or_letter (ha : Accounts stores s) (hi : Inv s) {y : Ended} (hy : y ∈ s.ended) :
    (s.entriesOf y.write.key y.write.event.id = [y.write.event] ∧
        s.lettersOf y.write.event.id y.write.key.dimension = []) ∨
      (s.entriesOf y.write.key y.write.event.id = [] ∧
        ∃ cause, s.lettersOf y.write.event.id y.write.key.dimension = [y.write.lost cause]) := by
  rw [ha.lettersOf_ended hi hy]
  cases hl : y.letter with
  | none =>
    left
    refine ⟨?_, by simp [hl]⟩
    apply eq_singleton ((s.rows.row y.write.key).nodup_events.filter _)
    · exact List.mem_filter.2 ⟨(ha.indexed _ _).2 ⟨y, hy, hl, rfl⟩, by simp⟩
    · intro e he
      exact (ha.entry_ended hi hy he).1
  | some l =>
    right
    obtain ⟨cause, rfl⟩ := ha.lost y hy l hl
    refine ⟨List.eq_nil_iff_forall_not_mem.2 ?_, cause, by simp [hl]⟩
    intro e he
    have hnone := (ha.entry_ended hi hy he).2
    rw [hl] at hnone
    cases hnone

theorem Accounts.ended_write (ha : Accounts stores s) {c : Call} (hc : c ∈ s.calls) (hd : c.dispatched = true)
    (hp : ∀ w ∈ s.pending, w.event.id ≠ c.id) {d : Dimension} {x : Uuid} (hx : c.assignment.entityFor d = some x) :
    ∃ y ∈ s.ended, y.write = ⟨c.key stores d x, c.event⟩ := by
  have hw : (⟨c.key stores d x, c.event⟩ : IndexWrite) ∈ s.due stores :=
    mem_due.2 ⟨c, hc, hd, Call.mem_writes.2 ⟨d, x, hx, rfl⟩⟩
  rcases List.mem_append.1 (ha.conserved.mem_iff.1 hw) with h | h
  · exact absurd rfl (hp _ h)
  · exact List.mem_map.1 h

theorem Accounts.lettersOf_eq_nil (ha : Accounts stores s) (hi : Inv s) {c : Call} (hc : c ∈ s.calls) {d : Dimension}
    (hnone : c.assignment.entityFor d = none) : s.lettersOf c.id d = [] := by
  have hnil : (s.ended.filter fun x => x.write.event.id = c.id ∧ x.write.key.dimension = d) = [] := by
    refine List.filter_eq_nil_iff.2 ?_
    intro z hz hq
    simp only [decide_eq_true_eq] at hq
    obtain ⟨d', x, hx, heq⟩ := Call.mem_writes.1 (ha.write_of_ended hi hc hz hq.1)
    have hd' : d' = d := by rw [← hq.2, heq]; rfl
    rw [hd', hnone] at hx
    cases hx
  rw [ha.lettersOf_eq, hnil]
  rfl

theorem Accounts.entriesOf_eq_nil (ha : Accounts stores s) (hi : Inv s) {c : Call} (hc : c ∈ s.calls) {k : PartitionKey}
    (hnone : c.assignment.entityFor k.dimension = none) : s.entriesOf k c.id = [] := by
  refine List.filter_eq_nil_iff.2 ?_
  intro e he hid
  obtain ⟨x, hx, -⟩ := ha.key_of_entry hi hc he (by simpa using hid)
  rw [hnone] at hx
  cases hx

/-- A call whose writes have all ended: each of them is an entry or a letter. -/
theorem Accounts.settled (ha : Accounts stores s) (hi : Inv s) {c : Call} (hc : c ∈ s.calls)
    (hd : c.dispatched = true) (hp : ∀ w ∈ s.pending, w.event.id ≠ c.id) {d : Dimension} {x : Uuid}
    (hx : c.assignment.entityFor d = some x) :
    (s.entriesOf (c.key stores d x) c.id = [c.event] ∧ s.lettersOf c.id d = []) ∨
      (s.entriesOf (c.key stores d x) c.id = [] ∧ ∃ cause, s.lettersOf c.id d = [⟨c.id, d, x, cause⟩]) := by
  obtain ⟨y, hy, hyw⟩ := ha.ended_write hc hd hp hx
  have h := ha.entry_or_letter hi hy
  rw [hyw] at h
  exact h

/-! ## Calls whose writes are handed out -/

theorem step_dispatched (h : Step stores faults s s') (hi : Inv s) {c : Call} (hc : c ∈ s.calls)
    (hd : c.dispatched = true) : c ∈ s'.calls := by
  have hstage := hi.dispatched c hc hd
  cases h with
  | call store a d id received _ => exact List.mem_append_left _ hc
  | advance cs b ds f hb _ =>
    rw [hb] at hc
    simp only [List.mem_append, List.mem_cons] at hc
    show c ∈ cs ++ _ :: ds
    simp only [List.mem_append, List.mem_cons]
    rcases hc with hc | rfl | hc
    · exact .inl hc
    · refine .inr (.inl ?_)
      have hstay : ((c.put stores).advance s.rows f).1.stage = c.stage := by
        rw [(c.put stores).advance_index s.rows f hstage]
        rfl
      rw [hstay]
    · exact .inr (.inr hc)
  | handOut cs b ds hb _ hbd =>
    rw [hb] at hc
    show c ∈ cs ++ _ :: ds
    simp only [List.mem_append, List.mem_cons] at hc ⊢
    rcases hc with hc | rfl | hc
    · exact .inl hc
    · rw [hd] at hbd
      cases hbd
    · exact .inr (.inr hc)
  | write w f _ _ => exact hc
  | failWrites d _ => exact hc
  | failScans d _ => exact hc
  | clearFailures => exact hc

theorem step_pending (h : Step stores faults s s') {w : IndexWrite} (hw : w ∈ s'.pending) :
    w ∈ s.pending ∨ ∃ c ∈ s.calls, c.dispatched = false ∧ w ∈ c.writes stores := by
  cases h with
  | handOut cs c ds hc _ hd =>
    rcases List.mem_append.1 hw with hw | hw
    · exact .inl hw
    · exact .inr ⟨c, by simp [hc], hd, hw⟩
  | write v f _ _ => exact .inl (List.mem_of_mem_erase hw)
  | call store a d id received _ => exact .inl hw
  | advance cs c ds f _ _ => exact .inl hw
  | failWrites d _ => exact .inl hw
  | failScans d _ => exact .inl hw
  | clearFailures => exact .inl hw

/-- Once the writes of a call are handed out and have ended, that stays so. -/
theorem run_stays_ended (hr : Run stores faults s s') (hi : Inv s) {c : Call} (hc : c ∈ s.calls)
    (hd : c.dispatched = true) :
    c ∈ s'.calls ∧ ((∀ w ∈ s.pending, w.event.id ≠ c.id) → ∀ w ∈ s'.pending, w.event.id ≠ c.id) := by
  induction hr with
  | refl => exact ⟨hc, id⟩
  | tail hr hs ih =>
    obtain ⟨hc', hp'⟩ := ih
    have hi' := run_inv hr hi
    refine ⟨step_dispatched hs hi' hc' hd, ?_⟩
    intro hp w hw hid
    rcases step_pending hs hw with hw | ⟨b, hb, hbd, hw⟩
    · exact hp' hp w hw hid
    · have hbc := hi'.eq_of_id hb hc' (by rw [Call.event_of_mem_writes hw] at hid; exact hid)
      rw [hbc, hd] at hbd
      cases hbd

end Traffic
end DeviceEvents
