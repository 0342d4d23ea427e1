import DeviceEvents.Proofs.Store.Conservation
import DeviceEvents.Proofs.Store.FanOut
/-
  DeviceEvents.Proofs.Store.Completeness — queries find everything that was put.

  One store, none of whose writes fails. Once no write is under way, the index holds what its
  puts were to write, no more and no less (`mem_entries_iff`), and a query of a closed range
  whose start is in no leap second looks into every bucket that a date of the range can have.
  So what it finds are the writes of the puts that match (`found_perm_matching`), and bucket
  after bucket comes to newest first over all (`found_newest_first`), since plain dates in a
  later bucket are later.
-/

namespace DeviceEvents

namespace Traffic

variable {σ : StoreSettings} {s s' : Traffic}

/-! ## Nothing fails -/

structure Sound (s : Traffic) : Prop where
  failingWrites : s.rows.failingWrites = []
  failingScans : s.rows.failingScans = []
  kept : ∀ x ∈ s.ended, x.letter = none

theorem start_sound : Sound .start := by
  refine ⟨rfl, rfl, ?_⟩
  intro x h
  cases h

theorem step_sound {stores : Nat → StoreSettings} (h : Step stores false s s') (hs : Sound s) : Sound s' := by
  cases h with
  | call store a d id received _ => exact ⟨hs.failingWrites, hs.failingScans, hs.kept⟩
  | advance cs c ds f _ _ =>
    obtain ⟨-, hw, hsc⟩ := (c.put stores).advance_frame s.rows f
    exact ⟨hw.trans hs.failingWrites, hsc.trans hs.failingScans, hs.kept⟩
  | handOut cs c ds _ _ _ => exact ⟨hs.failingWrites, hs.failingScans, hs.kept⟩
  | write w f _ hf =>
    obtain ⟨-, -, hw, hsc⟩ := w.perform_frame s.rows f
    refine ⟨hw.trans hs.failingWrites, hsc.trans hs.failingScans, ?_⟩
    intro x hx
    rcases List.mem_append.1 hx with hx | hx
    · exact hs.kept x hx
    · rw [List.mem_singleton.1 hx]
      rcases w.perform_cases s.rows f with ⟨-, -, he⟩ | ⟨cause, hfail, -⟩
      · rw [he]
      · have hin := hfail (hf rfl)
        rw [hs.failingWrites] at hin
        cases hin
  | failWrites d h => cases h
  | failScans d h => cases h
  | clearFailures => exact ⟨rfl, rfl, hs.kept⟩

theorem reach_sound {stores : Nat → StoreSettings} (h : Reach stores false s) : Sound s := by
  induction h with
  | refl => exact start_sound
  | tail _ hs ih => exact step_sound hs ih

/-- The index holds the writes that were handed out. -/
theorem mem_entries_iff {stores : Nat → StoreSettings} (h : Reach stores false s) (hp : s.pending = [])
    {w : IndexWrite} : w ∈ s.rows.entries ↔ ∃ c ∈ s.calls, c.dispatched = true ∧ w ∈ c.writes stores := by
  have ha := reach_accounts h
  have hdue := ha.conserved
  rw [hp, List.nil_append] at hdue
  rw [← mem_due, hdue.mem_iff, Rows.mem_entries, ha.indexed, List.mem_map]
  constructor
  · intro hx
    obtain ⟨x, hx, -, hw⟩ := hx
    exact ⟨x, hx, hw⟩
  · intro hx
    obtain ⟨x, hx, hw⟩ := hx
    exact ⟨x, hx, (reach_sound h).kept x hx, hw⟩

end Traffic

/-! ## Puts that match -/

/-- The put went through, by one of these entities and with a date in the range. -/
def Call.meets (q : Query) (c : Call) : Bool :=
  c.dispatched && (c.assignment.entityFor q.dimension).any q.entities.contains && q.range.contains c.event.eventDate

def Call.writeIn (σ : StoreSettings) (d : Dimension) (c : Call) : Option IndexWrite :=
  (c.assignment.entityFor d).map fun x => ⟨c.key (fun _ => σ) d x, c.event⟩

theorem Draft.eventDate_isPlain (d : Draft) (a : Assignment) (id : Uuid) (received : Instant) :
    (d.toEvent a id received).eventDate.IsPlain := by
  unfold Draft.toEvent
  cases d.eventDate with
  | none => exact Instant.truncate_isPlain received
  | some t => exact Instant.truncate_isPlain t

namespace Query

variable {q : Query} {σ : StoreSettings} {s : Traffic} {start stop : Instant} (now : Instant)

/-- What a write must be like for a query to ask for it. -/
theorem asksFor_write (hr : q.range = .between start stop) (hs : start.nano < 1000000000) {c : Call} {d : Dimension}
    {x : Uuid} : q.asksFor σ.plan now ⟨c.key (fun _ => σ) d x, c.event⟩ = true ↔
      d = q.dimension ∧ x ∈ q.entities ∧ q.range.contains c.event.eventDate = true := by
  simp only [asksFor, Bool.and_eq_true, beq_iff_eq, List.contains_iff_mem]
  constructor
  · intro h
    obtain ⟨⟨⟨⟨-, hd⟩, hx⟩, -⟩, hc⟩ := h
    exact ⟨hd, hx, hc⟩
  · intro h
    obtain ⟨hd, hx, hc⟩ := h
    refine ⟨⟨⟨⟨rfl, hd⟩, hx⟩, ?_⟩, hc⟩
    rw [hr] at hc ⊢
    exact σ.scheme.bucketOf_mem_covering hs (c.draft.eventDate_isPlain ..) hc

theorem mem_asked (h : Traffic.Reach (fun _ => σ) false s) (hp : s.pending = []) (hr : q.range = .between start stop)
    (hs : start.nano < 1000000000) {w : IndexWrite} :
    w ∈ s.rows.entries.filter (q.asksFor σ.plan now) ↔
      w ∈ (s.calls.filter (·.meets q)).filterMap (·.writeIn σ q.dimension) := by
  simp only [List.mem_filter, List.mem_filterMap, Traffic.mem_entries_iff h hp, Call.mem_writes, Call.writeIn,
    Option.map_eq_some_iff, Call.meets, Bool.and_eq_true, Option.any_eq_true, List.contains_iff_mem]
  constructor
  · intro hx
    obtain ⟨⟨c, hc, hd, dim, x, hx, rfl⟩, hask⟩ := hx
    obtain ⟨rfl, hmem, hcont⟩ := (asksFor_write now hr hs).1 hask
    exact ⟨c, ⟨hc, ⟨hd, x, hx, hmem⟩, hcont⟩, x, hx, rfl⟩
  · intro hx
    obtain ⟨c, ⟨hc, ⟨hd, y, hy, hmem⟩, hcont⟩, x, hx, rfl⟩ := hx
    have hyx : y = x := Option.some.inj (hy.symm.trans hx)
    exact ⟨⟨c, hc, hd, q.dimension, x, hx, rfl⟩, (asksFor_write now hr hs).2 ⟨rfl, hyx ▸ hmem, hcont⟩⟩

theorem nodup_matching (hi : Traffic.Inv s) :
    ((s.calls.filter (·.meets q)).filterMap (·.writeIn σ q.dimension)).Nodup := by
  refine List.Pairwise.filterMap _ (fun b c hne v hv w hw hvw => ?_) ((List.pairwise_map.1 hi.ids).filter _)
  obtain ⟨x, -, rfl⟩ := Option.map_eq_some_iff.1 hv
  obtain ⟨y, -, rfl⟩ := Option.map_eq_some_iff.1 hw
  injection hvw with _ hev
  exact hne (congrArg Event.id hev)

/-- What the query finds is what the puts that match have written. -/
theorem found_perm_matching (h : Traffic.Reach (fun _ => σ) false s) (hp : s.pending = [])
    (hr : q.range = .between start stop) (hs : start.nano < 1000000000) :
    (q.found σ.plan s.rows now).Perm ((s.calls.filter (·.meets q)).filterMap (·.writeIn σ q.dimension)) := by
  refine (q.found_perm σ.plan s.rows now).trans ?_
  exact (List.perm_ext_iff_of_nodup (s.rows.nodup_entries.filter _) (nodup_matching (Traffic.reach_inv h))).2
    fun _ => mem_asked now h hp hr hs

theorem events_matching (cs : List Call) :
    ((cs.filter (·.meets q)).filterMap (·.writeIn σ q.dimension)).map (·.event) =
      (cs.filter (·.meets q)).map (·.event) := by
  rw [List.map_filterMap, ← List.filterMap_eq_map]
  refine List.filterMap_congr ?_
  intro c hc
  have hm := (List.mem_filter.1 hc).2
  simp only [Call.meets, Bool.and_eq_true] at hm
  cases hx : c.assignment.entityFor q.dimension with
  | none => simp [hx] at hm
  | some x => simp [Call.writeIn, hx]

/-- Later buckets hold later dates, so the order in each makes the order of all. -/
theorem found_newest_first (h : Traffic.Reach (fun _ => σ) false s) (hp : s.pending = [])
    (hr : q.range = .between start stop) (hs : start.nano < 1000000000) :
    ((q.found σ.plan s.rows now).map (·.event)).Pairwise fun e f => f.Precedes e := by
  have hperm := found_perm_matching now h hp hr hs
  have hn := hperm.nodup_iff.2 (nodup_matching (Traffic.reach_inv h))
  rw [List.pairwise_map]
  refine (hn.and (q.pairwise_found σ.plan s.rows now)).imp_of_mem fun {v w} hv hw ⟨hne, hle⟩ => ?_
  obtain ⟨b, hb, hbv⟩ := List.mem_filterMap.1 (hperm.mem_iff.1 hv)
  obtain ⟨c, hc, hcw⟩ := List.mem_filterMap.1 (hperm.mem_iff.1 hw)
  obtain ⟨x, hx, rfl⟩ := Option.map_eq_some_iff.1 hbv
  obtain ⟨y, hy, rfl⟩ := Option.map_eq_some_iff.1 hcw
  rcases hle with hbucket | ⟨-, hnp, -⟩
  · -- a date that is not earlier would have no earlier bucket
    left
    apply Instant.not_le.1
    intro hdate
    exact absurd (σ.scheme.bucketOf_le (b.draft.eventDate_isPlain ..) hdate) (Int.not_le.2 hbucket)
  · rcases Event.precedes_trichotomy b.event c.event with hp' | hsame | hp'
    · exact absurd hp' hnp
    · have hbc : b = c := (Traffic.reach_inv h).eq_of_id (List.mem_filter.1 hb).1 (List.mem_filter.1 hc).1 hsame.2
      subst hbc
      have hxy : x = y := Option.some.inj (hx.symm.trans hy)
      subst hxy
      exact absurd rfl hne
    · exact hp'

/-- The events that a query of a closed range finds, on whatever page. -/
def foundBetween (σ : StoreSettings) (r : Rows) (d : Dimension) (ids : List Uuid) (start stop now : Instant) :
    List Event :=
  ((⟨d, ids, .between start stop, .all⟩ : Query).found σ.plan r now).map (·.event)

/-- A closed range has the same buckets at any moment. -/
theorem answer_between (d : Dimension) {ids : List Uuid} (page : Page) {now₀ : Instant}
    (h : Traffic.Reach (fun _ => σ) false s) (hids : ids ≠ [])
    (hb : ∀ max ∈ σ.maxBuckets, σ.scheme.count (.between start stop) now₀ ≤ max) :
    (⟨d, ids, .between start stop, page⟩ : Query).answer σ.plan s.rows now =
      .ok ⟨page.slice (foundBetween σ s.rows d ids start stop now₀),
        (foundBetween σ s.rows d ids start stop now₀).length⟩ := by
  have hscan : d ∉ s.rows.failingScans := by
    rw [(Traffic.reach_sound h).failingScans]
    exact List.not_mem_nil
  rw [foundBetween, List.length_map]
  exact answer_eq_reference (q := ⟨d, ids, .between start stop, page⟩) hids hscan hb

/-! ## Every event, once -/

/-- Part of a millisecond before 1970. -/
def sampleEarly : Instant := ⟨-1, 999999999, by decide, by decide, by decide⟩

/-- In a leap second. -/
def sampleLeap : Instant := ⟨59, 1500000000, by decide, by decide, by decide⟩

def samplePut (id : Nat) (t : Instant) (stage : PutStage) (dispatched : Bool) : Call :=
  ⟨0, sampleAssignment, { sampleDraft with alternateId := none, eventDate := some t }, .ofNat id, .epoch, stage,
    dispatched⟩

def samplePutWrite (id : Nat) (t : Instant) (d : Dimension) (x : Uuid) : IndexWrite :=
  ⟨(samplePut id t .index true).key (fun _ => {}) d x, (samplePut id t .index true).event⟩

/-- A put from its call to its last write, while no other is under way. -/
def filed (s : Traffic) (id : Nat) (t : Instant) : Traffic :=
  let s' := s.called 0 sampleAssignment (samplePut id t .event false).draft (.ofNat id) .epoch
  let s' := s'.advanced (fun _ => {}) s.calls (samplePut id t .event false) [] none
  let s' := s'.handedOut (fun _ => {}) s.calls (samplePut id t .index false) []
  let s' := s'.written (samplePutWrite id t .assignment (.ofNat 1)) none
  s'.written (samplePutWrite id t .customer (.ofNat 3)) none

theorem filed_reach {s : Traffic} (h : Traffic.Reach (fun _ => {}) false s) {id : Nat} {t : Instant}
    (hid : ∀ c ∈ s.calls, c.id ≠ .ofNat id) : Traffic.Reach (fun _ => {}) false (filed s id t) := by
  have hwrites : (samplePut id t .index false).writes (fun _ => {}) =
      [samplePutWrite id t .assignment (.ofNat 1), samplePutWrite id t .customer (.ofNat 3)] := rfl
  refine .tail (.tail (.tail (.tail (.tail h
    (.call _ 0 sampleAssignment _ (.ofNat id) .epoch hid)) (.advance _ s.calls _ [] none rfl fun _ => rfl))
    (.handOut _ s.calls _ [] rfl rfl rfl)) (.write _ _ none ?_ fun _ => rfl)) (.write _ _ none ?_ fun _ => rfl)
  · show _ ∈ s.pending ++ (samplePut id t .index false).writes (fun _ => {})
    simp [hwrites]
  · show _ ∈ (s.pending ++ (samplePut id t .index false).writes (fun _ => {})).erase _
    have hne : samplePutWrite id t .customer (.ofNat 3) ≠ samplePutWrite id t .assignment (.ofNat 1) := by
      intro heq
      have hd : Dimension.customer = .assignment := congrArg (·.key.dimension) heq
      cases hd
    rw [List.mem_erase_of_ne hne]
    simp [hwrites]

/-- Two puts, the index writes of the later one first. -/
def sampleStored : Traffic :=
  let s := Traffic.start.called 0 sampleAssignment (samplePut 9 sampleEarly .event false).draft (.ofNat 9) .epoch
  let s := s.called 0 sampleAssignment (samplePut 8 sampleLeap .event false).draft (.ofNat 8) .epoch
  let s := s.advanced (fun _ => {}) [] (samplePut 9 sampleEarly .event false) [samplePut 8 sampleLeap .event false] none
  let s := s.advanced (fun _ => {}) [samplePut 9 sampleEarly .index false] (samplePut 8 sampleLeap .event false) [] none
  let s := s.handedOut (fun _ => {}) [] (samplePut 9 sampleEarly .index false) [samplePut 8 sampleLeap .index false]
  let s := s.handedOut (fun _ => {}) [samplePut 9 sampleEarly .index true] (samplePut 8 sampleLeap .index false) []
  let s := s.written (samplePutWrite 8 sampleLeap .customer (.ofNat 3)) none
  let s := s.written (samplePutWrite 8 sampleLeap .assignment (.ofNat 1)) none
  let s := s.written (samplePutWrite 9 sampleEarly .assignment (.ofNat 1)) none
  s.written (samplePutWrite 9 sampleEarly .customer (.ofNat 3)) none

theorem sampleStored_reach : Traffic.Reach (fun _ => {}) false sampleStored := by
  refine .tail (.tail (.tail (.tail (.tail (.tail (.tail (.tail (.tail (.single
    (.call _ 0 sampleAssignment _ (.ofNat 9) .epoch ?_)) (.call _ 0 sampleAssignment _ (.ofNat 8) .epoch ?_))
    (.advance _ [] _ _ none rfl fun _ => rfl)) (.advance _ [_] _ [] none rfl fun _ => rfl))
    (.handOut _ [] _ _ rfl rfl rfl)) (.handOut _ [_] _ [] rfl rfl rfl))
    (.write _ _ none ?_ fun _ => rfl)) (.write _ _ none ?_ fun _ => rfl)) (.write _ _ none ?_ fun _ => rfl))
    (.write _ _ none ?_ fun _ => rfl)
  · intro c hc
    cases hc
  · decide +kernel
  · decide
  · decide
  · decide
  · decide

/-- After a flush a query lists the events that were put by one of the entities with a date in
the range, each once and newest first, and its pages put together are the whole list. -/
theorem query_complete (σ : StoreSettings) (s : Traffic) (h : Traffic.Reach (fun _ => σ) false s) (hp : s.pending = [])
    (d : Dimension) (ids : List Uuid) (hids : ids ≠ []) (start stop now₀ : Instant) (hs : start.nano < 1000000000)
    (hb : ∀ max ∈ σ.maxBuckets, σ.scheme.count (.between start stop) now₀ ≤ max) :
    ∃ es : List Event,
      es.Perm ((s.calls.filter fun c => c.dispatched ∧ (∃ x ∈ ids, c.assignment.entityFor d = some x) ∧
        start ≤ c.event.eventDate ∧ c.event.eventDate ≤ stop).map (·.event)) ∧
      es.Pairwise (fun e f => f.Precedes e) ∧
      (∀ page now, (⟨d, ids, .between start stop, page⟩ : Query).answer σ.plan s.rows now =
        .ok ⟨page.slice es, es.length⟩) ∧
      ∀ size ≠ 0, ∀ n < UInt32.size, ∀ (nows : Nat → Instant) (answers : Nat → Results Event),
        (∀ i < n, (⟨d, ids, .between start stop, .after i size⟩ : Query).answer σ.plan s.rows (nows i) =
          .ok (answers i)) →
        ((List.range n).flatMap fun i => (answers i).results) = es.take (n * size.toNat) ∧
          (es.length ≤ n * size.toNat → ((List.range n).flatMap fun i => (answers i).results) = es) := by
  have hanswer := fun page now => answer_between now d page h hids hb
  refine ⟨foundBetween σ s.rows d ids start stop now₀, ?_, found_newest_first now₀ h hp rfl hs, hanswer, ?_⟩
  · have hperm := (found_perm_matching (q := ⟨d, ids, .between start stop, .all⟩) now₀ h hp rfl hs).map
      (·.event)
    rw [events_matching] at hperm
    refine hperm.trans (.of_eq (congrArg _ (List.filter_congr fun c _ => ?_)))
    rw [Bool.eq_iff_iff]
    simp only [Call.meets, DateRange.contains, DateRange.between, Bool.and_eq_true, Option.any_eq_true,
      List.contains_iff_mem, Option.all_some, decide_eq_true_eq, and_assoc]
    simp only [and_comm]
  · intro size hsize n hn nows answers ha
    have hpages : ((List.range n).flatMap fun i => (answers i).results) =
        (List.range n).flatMap fun i => (Page.after i size).slice (foundBetween σ s.rows d ids start stop now₀) := by
      refine List.flatMap_congr ?_
      intro i hi
      have heq := (ha i (List.mem_range.1 hi)).symm.trans (hanswer (.after i size) (nows i))
      injection heq with heq
      rw [heq]
    rw [hpages, Page.slices_append hsize _ hn]
    exact ⟨rfl, List.take_of_length_le⟩

theorem query_complete_two_puts :
    (⟨.assignment, [.ofNat 77, .ofNat 1, .ofNat 1], .between ⟨-10, 0, by decide, by decide, by decide⟩ sampleLeap.truncate,
        .first⟩ : Query).answer (StoreSettings.plan {}) sampleStored.rows .epoch =
      .ok ⟨[(samplePut 8 sampleLeap .index true).event, (samplePut 9 sampleEarly .index true).event], 2⟩ := by
  obtain ⟨es, hperm, hnewest, hanswer, -⟩ := query_complete {} sampleStored sampleStored_reach (by decide) .assignment
    [.ofNat 77, .ofNat 1, .ofNat 1] (by decide) ⟨-10, 0, by decide, by decide, by decide⟩ sampleLeap.truncate .epoch
    (by decide) (by decide)
  have hes : es = [(samplePut 8 sampleLeap .index true).event, (samplePut 9 sampleEarly .index true).event] := by
    refine List.Perm.eq_of_pairwise (fun _ _ _ _ h h' => absurd h' h.asymm) hnewest ?_ (hperm.trans ?_)
    · decide
    · decide
  rw [hanswer, hes]
  rfl

end Query
end DeviceEvents
