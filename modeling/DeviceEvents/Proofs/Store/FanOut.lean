import DeviceEvents.Proofs.Store.Covering
import DeviceEvents.Proofs.Store.Entries
import DeviceEvents.Proofs.Store.Paging
/-
  DeviceEvents.Proofs.Store.FanOut — a query against what the index holds.

  The query goes from bucket to bucket and from entity to entity. What comes of it can be said
  in one line (`reference`): of all entries take those that are asked for, put them in order
  and show the page.
  - `answer_eq_reference`: over rows that nobody changes meanwhile and whose scans do not fail,
    a query that does not span too many buckets gives just that, whatever the rows hold. The
    others say what is the matter (`answer_eq`), and none breaks off (`answer?_eq`).
  - `pairwise_found`, `found_perm`: the order that the reference puts them in is the one in
    which the query comes upon them, and it leaves no two entries in doubt (`Leads.antisymm`).
-/

namespace DeviceEvents.Query

/-! ## The reference -/

/-- Reads the rows as they are. -/
def readingOf (r : Rows) : Scan Id := Scan.ofEach fun k range => pure (r.scan k range)

/-- The answer over rows that nobody changes meanwhile. -/
def answer (q : Query) (p : Plan) (r : Rows) (now : Instant) : Except Trouble (Results Event) :=
  Id.run (q.run p (readingOf r) now)

/-- Reads the rows as they are, and breaks off at what no row can be asked. -/
def readingOf? (r : Rows) : Scan Option := Scan.ofEach r.scan?

/-- The answer over rows that nobody changes meanwhile, unless it breaks off. -/
def answer? (q : Query) (p : Plan) (r : Rows) (now : Instant) : Option (Except Trouble (Results Event)) :=
  q.run p (readingOf? r) now

def asksFor (q : Query) (p : Plan) (now : Instant) (w : IndexWrite) : Bool :=
  w.key.tenant == p.tenant && w.key.dimension == q.dimension && q.entities.contains w.key.entity &&
    (p.scheme.covering q.range now).contains w.key.bucket && q.range.contains w.event.eventDate

/-- May `v` stand before `w` in an answer? Newer buckets come first, in a bucket newer events,
and of events with one date and one id that of the entity that is named first. -/
def Leads (q : Query) (v w : IndexWrite) : Prop :=
  w.key.bucket < v.key.bucket ∨ (v.key.bucket = w.key.bucket ∧ ¬v.event.Precedes w.event ∧
    (v.event.SamePlace w.event → q.entities.idxOf v.key.entity ≤ q.entities.idxOf w.key.entity))

instance (q : Query) (v w : IndexWrite) : Decidable (q.Leads v w) := by
  unfold Leads
  infer_instance

/-- The entries that are asked for, as they are listed. -/
def found (q : Query) (p : Plan) (r : Rows) (now : Instant) : List IndexWrite :=
  (r.entries.filter (q.asksFor p now)).mergeSort fun v w => decide (q.Leads v w)

def reference (q : Query) (p : Plan) (r : Rows) (now : Instant) : Results Event :=
  ⟨q.page.slice ((q.found p r now).map (·.event)), (q.found p r now).length⟩

/-! ## The order of an answer -/

theorem leads_trans (q : Query) (u v w : IndexWrite) (h : q.Leads u v) (h' : q.Leads v w) : q.Leads u w := by
  rcases h with h | ⟨hb, hp, hr⟩ <;> rcases h' with h' | ⟨hb', hp', hr'⟩
  · exact .inl (by omega)
  · exact .inl (by omega)
  · exact .inl (by omega)
  · have huw : ¬u.event.Precedes w.event :=
      newerFirst_iff.1 (newerFirst_trans _ _ _ (newerFirst_iff.2 hp) (newerFirst_iff.2 hp'))
    refine .inr ⟨by omega, huw, ?_⟩
    intro hs
    have hvu : ¬v.event.Precedes u.event := fun h => hp' (hs.iff_precedes.1 h)
    have huv := Event.samePlace_of_not_precedes hp hvu
    have hvw : v.event.SamePlace w.event := ⟨huv.1.symm.trans hs.1, huv.2.symm.trans hs.2⟩
    exact Nat.le_trans (hr huv) (hr' hvw)

theorem leads_total (q : Query) (v w : IndexWrite) : q.Leads v w ∨ q.Leads w v := by
  unfold Leads
  rcases Int.lt_trichotomy v.key.bucket w.key.bucket with h | h | h
  · exact .inr (.inl h)
  · rcases Event.precedes_trichotomy v.event w.event with hp | hs | hp
    · exact .inr (.inr ⟨h.symm, hp.asymm, fun hs => absurd hs.symm hp.not_samePlace⟩)
    · have hv : ¬v.event.Precedes w.event := fun hp => hp.not_samePlace hs
      have hw : ¬w.event.Precedes v.event := fun hp => hp.not_samePlace hs.symm
      rcases Nat.le_total (q.entities.idxOf v.key.entity) (q.entities.idxOf w.key.entity) with hi | hi
      · exact .inl (.inr ⟨h, hv, fun _ => hi⟩)
      · exact .inr (.inr ⟨h.symm, hw, fun _ => hi⟩)
    · exact .inl (.inr ⟨h, hp.asymm, fun hs => absurd hs.symm hp.not_samePlace⟩)
  · exact .inl (.inl h)

/-- Entries that are asked for and may stand in either order are one entry. -/
theorem Leads.antisymm {q : Query} {p : Plan} {r : Rows} {now : Instant} {v w : IndexWrite}
    (hv : v ∈ r.entries.filter (q.asksFor p now)) (hw : w ∈ r.entries.filter (q.asksFor p now))
    (h : q.Leads v w) (h' : q.Leads w v) : v = w := by
  obtain ⟨hv, hqv⟩ := List.mem_filter.1 hv
  obtain ⟨hw, hqw⟩ := List.mem_filter.1 hw
  simp only [asksFor, Bool.and_eq_true, beq_iff_eq, List.contains_iff_mem] at hqv hqw
  rcases h with h | ⟨hb, hp, hr⟩ <;> rcases h' with h' | ⟨hb', hp', hr'⟩
  · omega
  · omega
  · omega
  · have hs := Event.samePlace_of_not_precedes hp hp'
    have hi := Nat.le_antisymm (hr hs) (hr' hs.symm)
    have he : v.key.entity = w.key.entity := (List.idxOf_inj hqv.1.1.2).1 hi
    have hk : v.key = w.key := by
      cases hvk : v.key
      cases hwk : w.key
      simp_all
    have hev : v.event = w.event :=
      WideRow.eq_of_samePlace (Rows.mem_entries.1 hv) (hk ▸ Rows.mem_entries.1 hw) hs
    cases v
    cases w
    simp_all

theorem found_perm (q : Query) (p : Plan) (r : Rows) (now : Instant) :
    (q.found p r now).Perm (r.entries.filter (q.asksFor p now)) := List.mergeSort_perm _ _

theorem mem_found {q : Query} {p : Plan} {r : Rows} {now : Instant} {w : IndexWrite} :
    w ∈ q.found p r now ↔ w ∈ r.entries ∧ q.asksFor p now w = true :=
  (q.found_perm p r now).mem_iff.trans List.mem_filter

theorem pairwise_found (q : Query) (p : Plan) (r : Rows) (now : Instant) :
    (q.found p r now).Pairwise q.Leads := by
  have h : (q.found p r now).Pairwise fun v w => decide (q.Leads v w) = true := List.pairwise_mergeSort
    (fun u v w h h' => decide_eq_true (leads_trans q u v w (of_decide_eq_true h) (of_decide_eq_true h')))
    (fun v w => by simpa using leads_total q v w) (r.entries.filter (q.asksFor p now))
  exact h.imp fun h => of_decide_eq_true h

/-! ## The entities, each once -/

theorem mem_distinctFrom {seen as : List Uuid} {x : Uuid} :
    x ∈ distinctFrom seen as ↔ x ∈ as ∧ x ∉ seen := by
  induction as generalizing seen with
  | nil => simp [distinctFrom]
  | cons a as ih =>
    simp only [distinctFrom]
    split
    · rename_i ha
      rw [ih, List.mem_cons]
      constructor
      · intro h
        obtain ⟨hx, hs⟩ := h
        exact ⟨.inr hx, hs⟩
      · intro h
        obtain ⟨rfl | hx, hs⟩ := h
        · exact absurd ha hs
        · exact ⟨hx, hs⟩
    · rename_i ha
      rw [List.mem_cons, ih, List.mem_cons, List.mem_cons, not_or]
      constructor
      · intro h
        rcases h with rfl | ⟨hx, -, hs⟩
        · exact ⟨.inl rfl, ha⟩
        · exact ⟨.inr hx, hs⟩
      · intro h
        obtain ⟨rfl | hx, hs⟩ := h
        · exact .inl rfl
        · by_cases hxa : x = a
          · exact .inl hxa
          · exact .inr ⟨hx, hxa, hs⟩

theorem pairwise_distinctFrom (seen as : List Uuid) :
    (distinctFrom seen as).Pairwise fun x y => as.idxOf x < as.idxOf y := by
  induction as generalizing seen with
  | nil => exact .nil
  | cons a as ih =>
    -- behind `a` every other entity stands one further
    have hstep : ∀ {x y}, x ≠ a → y ≠ a → as.idxOf x < as.idxOf y →
        (a :: as).idxOf x < (a :: as).idxOf y := by
      intro x y hx hy h
      rw [List.idxOf_cons_ne _ (Ne.symm hx), List.idxOf_cons_ne _ (Ne.symm hy)]
      omega
    simp only [distinctFrom]
    split
    · rename_i ha
      refine (ih seen).imp_of_mem fun {x y} hx hy h => hstep ?_ ?_ h
      · rintro rfl
        exact (mem_distinctFrom.1 hx).2 ha
      · rintro rfl
        exact (mem_distinctFrom.1 hy).2 ha
    · rename_i ha
      have hne : ∀ {x}, x ∈ distinctFrom (a :: seen) as → x ≠ a := by
        rintro x hx rfl
        exact (mem_distinctFrom.1 hx).2 (List.mem_cons_self ..)
      refine List.pairwise_cons.2 ⟨fun y hy => ?_, (ih (a :: seen)).imp_of_mem fun hx hy h =>
        hstep (hne hx) (hne hy) h⟩
      rw [List.idxOf_cons_self, List.idxOf_cons_ne _ (Ne.symm (hne hy))]
      omega

theorem mem_distinct {as : List Uuid} {x : Uuid} : x ∈ distinct as ↔ x ∈ as := by
  simp [distinct, mem_distinctFrom]

theorem pairwise_distinct (as : List Uuid) :
    (distinct as).Pairwise fun x y => as.idxOf x < as.idxOf y := pairwise_distinctFrom [] as

/-! ## One bucket -/

variable (q : Query) (p : Plan) (r : Rows)

/-- The entries of a row in the range. -/
def inRow (k : PartitionKey) : List IndexWrite :=
  ((r.row k).events.filter fun e => q.range.contains e.eventDate).map (⟨k, ·⟩)

/-- The entries of a bucket, in the order of the scans. -/
def inBucket (b : Int) : List IndexWrite :=
  (p.keys q.dimension (distinct q.entities) b).flatMap (q.inRow r)

/-- The entries of all buckets, as the query hands them to the pager. -/
def visited (now : Instant) : List IndexWrite :=
  (p.scheme.covering q.range now).flatMap fun b =>
    (q.inBucket p r b).mergeSort fun v w => newerFirst v.event w.event

theorem mem_inBucket {b : Int} {w : IndexWrite} :
    w ∈ q.inBucket p r b ↔ w ∈ r.entries ∧ w.key.tenant = p.tenant ∧ w.key.dimension = q.dimension ∧
      w.key.entity ∈ q.entities ∧ w.key.bucket = b ∧ q.range.contains w.event.eventDate = true := by
  simp only [inBucket, inRow, Plan.keys, List.mem_flatMap, List.mem_map, List.mem_filter, mem_distinct,
    Rows.mem_entries]
  constructor
  · intro h
    obtain ⟨k, ⟨x, hx, rfl⟩, e, ⟨he, hr⟩, rfl⟩ := h
    exact ⟨he, rfl, rfl, hx, rfl, hr⟩
  · intro h
    obtain ⟨he, ht, hd, hx, hb, hr⟩ := h
    have hk : (⟨p.tenant, q.dimension, w.key.entity, b⟩ : PartitionKey) = w.key := by
      rw [← ht, ← hd, ← hb]
    exact ⟨w.key, ⟨w.key.entity, hx, hk⟩, w.event, ⟨he, hr⟩, rfl⟩

/-- What one bucket lists before sorting goes by entities in their order. -/
theorem pairwise_inBucket (b : Int) :
    (q.inBucket p r b).Pairwise fun v w => q.entities.idxOf v.key.entity < q.entities.idxOf w.key.entity ∨
      (v.key = w.key ∧ v.event ≠ w.event) := by
  refine List.pairwise_flatMap.2 ⟨?_, ?_⟩
  · intro k _
    refine List.pairwise_map.2 ((List.Pairwise.filter _ (r.row k).nodup_events).imp fun hne => ?_)
    exact .inr ⟨rfl, hne⟩
  · refine List.pairwise_map.2 ((pairwise_distinct q.entities).imp fun {x y} h v hv w hw => ?_)
    obtain ⟨e, -, rfl⟩ := List.mem_map.1 hv
    obtain ⟨f, -, rfl⟩ := List.mem_map.1 hw
    exact .inl h

theorem nodup_inBucket (b : Int) : (q.inBucket p r b).Nodup := by
  refine List.Pairwise.imp ?_ (q.pairwise_inBucket p r b)
  rintro v _ h rfl
  rcases h with h | ⟨-, h⟩
  · exact Nat.lt_irrefl _ h
  · exact h rfl

theorem pairwise_sorted_bucket (b : Int) :
    ((q.inBucket p r b).mergeSort fun v w => newerFirst v.event w.event).Pairwise q.Leads := by
  have hbefore : (q.inBucket p r b).Pairwise fun v w => newerFirst w.event v.event = true →
      v.event.SamePlace w.event → q.entities.idxOf v.key.entity ≤ q.entities.idxOf w.key.entity := by
    refine (q.pairwise_inBucket p r b).imp fun {v w} h _ _ => ?_
    rcases h with h | ⟨h, -⟩
    · exact Nat.le_of_lt h
    · rw [h]
  have hs := pairwise_mergeSort_stable (fun v w : IndexWrite => newerFirst v.event w.event)
    (fun _ _ _ => newerFirst_trans _ _ _) (fun _ _ => newerFirst_total _ _) hbefore
  refine hs.imp_of_mem fun {v w} hv hw ⟨hle, htie⟩ => ?_
  have hbv := ((q.mem_inBucket p r).1 (List.mem_mergeSort.1 hv)).2.2.2.2.1
  have hbw := ((q.mem_inBucket p r).1 (List.mem_mergeSort.1 hw)).2.2.2.2.1
  refine .inr ⟨hbv.trans hbw.symm, newerFirst_iff.1 hle, ?_⟩
  intro hsame
  exact htie (newerFirst_iff.2 fun hp => hp.not_samePlace hsame.symm) hsame

/-! ## All buckets -/

theorem mem_visited {now : Instant} {w : IndexWrite} :
    w ∈ q.visited p r now ↔ w ∈ r.entries.filter (q.asksFor p now) := by
  simp only [visited, List.mem_flatMap, List.mem_mergeSort, mem_inBucket, List.mem_filter, asksFor,
    Bool.and_eq_true, beq_iff_eq, List.contains_iff_mem]
  constructor
  · intro h
    obtain ⟨b, hb, he, ht, hd, hx, rfl, hr⟩ := h
    exact ⟨he, ⟨⟨⟨ht, hd⟩, hx⟩, hb⟩, hr⟩
  · intro h
    obtain ⟨he, ⟨⟨⟨ht, hd⟩, hx⟩, hb⟩, hr⟩ := h
    exact ⟨w.key.bucket, hb, he, ht, hd, hx, rfl, hr⟩

theorem pairwise_visited (now : Instant) : (q.visited p r now).Pairwise q.Leads := by
  refine List.pairwise_flatMap.2 ⟨fun b _ => q.pairwise_sorted_bucket p r b, ?_⟩
  refine (p.scheme.pairwise_covering q.range now).imp fun {b c} h v hv w hw => .inl ?_
  have hbv := ((q.mem_inBucket p r).1 (List.mem_mergeSort.1 hv)).2.2.2.2.1
  have hbw := ((q.mem_inBucket p r).1 (List.mem_mergeSort.1 hw)).2.2.2.2.1
  omega

theorem nodup_visited (now : Instant) : (q.visited p r now).Nodup := by
  refine List.nodup_flatMap.2 ⟨?_, ?_⟩
  · intro b _
    exact (List.mergeSort_perm _ _).nodup_iff.2 (q.nodup_inBucket p r b)
  · refine (p.scheme.pairwise_covering q.range now).imp fun {b c} h w hv hw => ?_
    have hbv := ((q.mem_inBucket p r).1 (List.mem_mergeSort.1 hv)).2.2.2.2.1
    have hbw := ((q.mem_inBucket p r).1 (List.mem_mergeSort.1 hw)).2.2.2.2.1
    omega

theorem visited_eq_found (now : Instant) : q.visited p r now = q.found p r now := by
  have hn : (r.entries.filter (q.asksFor p now)).Nodup := r.nodup_entries.filter _
  have hperm := (List.perm_ext_iff_of_nodup (q.nodup_visited p r now) hn).2 fun _ => q.mem_visited p r
  refine List.Perm.eq_of_pairwise (fun v w hv hw h h' => ?_) (q.pairwise_visited p r now)
    (q.pairwise_found p r now) (hperm.trans (q.found_perm p r now).symm)
  exact h.antisymm ((q.mem_visited p r).1 hv) ((q.found_perm p r now).mem_iff.1 hw) h'

/-! ## The query -/

section Reading

variable {r : Rows} {k : PartitionKey} {ks : List PartitionKey} {range : DateRange} {es rest : List Event} {f : Failure}

theorem readingOf_cons_error (h : r.scan k range = .error f) : readingOf r (k :: ks) range = .error f := by
  unfold readingOf
  simp only [Scan.ofEach, h, pure_bind]
  rfl

theorem readingOf_cons_ok (h : r.scan k range = .ok es) (h' : readingOf r ks range = .ok rest) :
    readingOf r (k :: ks) range = .ok (es ++ rest) := by
  unfold readingOf at h' ⊢
  simp only [Scan.ofEach, h, h', pure_bind]
  rfl

theorem readingOf_cons_ok_error (h : r.scan k range = .ok es) (h' : readingOf r ks range = .error f) :
    readingOf r (k :: ks) range = .error f := by
  unfold readingOf at h' ⊢
  simp only [Scan.ofEach, h, h', pure_bind]
  rfl

end Reading

theorem readingOf_eq {r : Rows} (ks : List PartitionKey) (range : DateRange)
    (h : ∀ k ∈ ks, k.dimension ∉ r.failingScans) :
    readingOf r ks range =
      .ok (ks.flatMap fun k => (r.row k).events.filter fun e => range.contains e.eventDate) := by
  induction ks with
  | nil => rfl
  | cons k ks ih =>
    have hk := (r.scan_eq k range).trans (if_neg (h k (List.mem_cons_self ..)))
    rw [List.flatMap_cons]
    exact readingOf_cons_ok hk (ih fun l hl => h l (List.mem_cons_of_mem _ hl))

section Visiting

variable {scan : Int → Id (Except Failure (List Event))} {b : Int} {bs : List Int} {pager : Pager Event}

theorem visit_cons_error {f : Failure} (h : scan b = .error f) : visit scan (b :: bs) pager = .error f := by
  simp only [visit, h]
  rfl

theorem visit_cons_ok {es : List Event} (h : scan b = .ok es) :
    visit scan (b :: bs) pager = visit scan bs (pager.extend (sortNewestFirst es)) := by
  simp only [visit, h]
  rfl

end Visiting

theorem visit_eq {scan : Int → Id (Except Failure (List Event))} {es : Int → List Event} (bs : List Int)
    (h : ∀ b, scan b = .ok (es b)) (pager : Pager Event) :
    visit scan bs pager = .ok (pager.extend (bs.flatMap fun b => sortNewestFirst (es b))) := by
  induction bs generalizing pager with
  | nil => rfl
  | cons b bs ih =>
    rw [visit_cons_ok (h b), ih, Pager.extend_append]
    rfl

/-- What the pager is handed is what the entries say. -/
theorem handed_eq (now : Instant) :
    ((p.scheme.covering q.range now).flatMap fun b => sortNewestFirst
      ((p.keys q.dimension (distinct q.entities) b).flatMap fun k =>
        (r.row k).events.filter fun e => q.range.contains e.eventDate)) =
      (q.visited p r now).map (·.event) := by
  rw [visited, List.map_flatMap]
  congr 1
  funext b
  rw [List.map_mergeSort (s := newerFirst) fun _ _ _ _ => rfl]
  unfold sortNewestFirst inBucket inRow
  congr 1
  rw [List.map_flatMap]
  congr 1
  funext k
  simp [Function.comp_def]

theorem distinct_ne_nil {as : List Uuid} (h : as ≠ []) : distinct as ≠ [] := by
  obtain ⟨a, as, rfl⟩ := List.exists_cons_of_ne_nil h
  exact List.ne_nil_of_mem (mem_distinct.2 (List.mem_cons_self ..))

variable {q p r}

theorem answer_eq_reference {now : Instant} (hids : q.entities ≠ []) (hs : q.dimension ∉ r.failingScans)
    (hb : ∀ max ∈ p.maxBuckets, p.scheme.count q.range now ≤ max) :
    q.answer p r now = .ok (q.reference p r now) := by
  have hne : (distinct q.entities).isEmpty = false := by simpa using distinct_ne_nil hids
  have hmax : p.maxBuckets.filter (· < p.scheme.count q.range now) = none := by
    cases hm : p.maxBuckets with
    | none => rfl
    | some max =>
      have := hb max hm
      simpa [Option.filter] using this
  have hscan : ∀ b, readingOf r (p.keys q.dimension (distinct q.entities) b) q.range =
      .ok ((p.keys q.dimension (distinct q.entities) b).flatMap fun k =>
        (r.row k).events.filter fun e => q.range.contains e.eventDate) := by
    intro b
    refine readingOf_eq _ _ ?_
    intro k hk
    obtain ⟨x, -, rfl⟩ := List.mem_map.1 hk
    exact hs
  have hvisit := visit_eq (p.scheme.covering q.range now) hscan (.ofPage q.page)
  unfold answer run
  simp only [hne, hmax, Bool.false_eq_true, if_false, hvisit]
  show Except.ok (Pager.results _) = _
  rw [Pager.results_extend, handed_eq, visited_eq_found, reference, List.length_map]

/-! ## Every answer -/

/-- Why a query is not answered, if so. -/
def trouble? (q : Query) (p : Plan) (r : Rows) (now : Instant) : Option Trouble :=
  if q.entities = [] then none
  else match p.maxBuckets.filter (· < p.scheme.count q.range now) with
    | some max => some (.rangeTooWide (p.scheme.count q.range now) max)
    | none => if q.dimension ∈ r.failingScans then some (.backend (Rows.scanFailure q.dimension)) else none

theorem reference_of_no_entities {now : Instant} (hids : q.entities = []) : q.reference p r now = .empty := by
  have hnil : r.entries.filter (q.asksFor p now) = [] := by
    refine List.filter_eq_nil_iff.2 ?_
    intro w _
    simp [asksFor, hids]
  have hfound : q.found p r now = [] := List.Perm.eq_nil (hnil ▸ q.found_perm p r now)
  simp [reference, hfound, Page.slice, Results.empty]

/-- In the newest bucket the scans of the first entity end a query whose dimension fails. -/
theorem visit_failing {now : Instant} (hids : q.entities ≠ []) (hs : q.dimension ∈ r.failingScans) (pager : Pager Event) :
    visit (fun b => readingOf r (p.keys q.dimension (distinct q.entities) b) q.range) (p.scheme.covering q.range now)
      pager = .error (Rows.scanFailure q.dimension) := by
  obtain ⟨x, xs, hx⟩ := List.exists_cons_of_ne_nil (distinct_ne_nil hids)
  have hnewest : (p.scheme.span q.range now).2 ∈ p.scheme.covering q.range now :=
    p.scheme.mem_covering.2 ⟨p.scheme.span_le q.range now, Int.le_refl _⟩
  obtain ⟨b, bs, hb⟩ := List.exists_cons_of_ne_nil (List.ne_nil_of_mem hnewest)
  rw [hb]
  apply visit_cons_error
  rw [hx]
  apply readingOf_cons_error
  rw [Rows.scan_eq]
  exact if_pos hs

theorem answer_eq (q : Query) (p : Plan) (r : Rows) (now : Instant) :
    q.answer p r now = (q.trouble? p r now).elim (.ok (q.reference p r now)) .error := by
  by_cases hids : q.entities = []
  · have hnone : q.trouble? p r now = none := if_pos hids
    rw [hnone, Option.elim_none, reference_of_no_entities hids]
    simp [answer, run, distinct, distinctFrom, hids]
  · have hne : (distinct q.entities).isEmpty = false := by simpa using distinct_ne_nil hids
    unfold trouble?
    rw [if_neg hids]
    cases hm : p.maxBuckets.filter (· < p.scheme.count q.range now) with
    | some max =>
      simp only [answer, run, hne, hm, Bool.false_eq_true, if_false]
      rfl
    | none =>
      by_cases hs : q.dimension ∈ r.failingScans
      · simp only [answer, run, hne, hm, hs, Bool.false_eq_true, if_false, if_true, visit_failing hids hs]
        rfl
      · simp only [hs, if_false, Option.elim_none]
        refine answer_eq_reference hids hs ?_
        intro max hmax
        rw [Option.mem_def.1 hmax] at hm
        simpa [Option.filter] using hm

/-- The entries that are asked for, once they are in order, are the answer. -/
theorem answer_of_sorted {now : Instant} {l : List IndexWrite} (h : q.trouble? p r now = none)
    (hl : l.Perm (r.entries.filter (q.asksFor p now))) (hs : l.Pairwise q.Leads) :
    q.answer p r now = .ok ⟨q.page.slice (l.map (·.event)), l.length⟩ := by
  have hfound : q.found p r now = l := by
    refine List.Perm.eq_of_pairwise (fun v w hv hw hvw hwv => ?_) (q.pairwise_found p r now) hs
      ((q.found_perm p r now).trans hl.symm)
    exact hvw.antisymm ((q.found_perm p r now).mem_iff.1 hv) (hl.mem_iff.1 hw) hwv
  rw [answer_eq, h, ← hfound]
  rfl

theorem found_of_isInverted {now : Instant} (h : q.range.isInverted = true) : q.found p r now = [] := by
  have hnil : r.entries.filter (q.asksFor p now) = [] := by
    refine List.filter_eq_nil_iff.2 ?_
    intro w _
    simp [asksFor, DateRange.contains_of_isInverted h]
  exact List.Perm.eq_nil (hnil ▸ q.found_perm p r now)

/-! ## No query breaks off -/

theorem readingOf?_eq (r : Rows) (ks : List PartitionKey) (range : DateRange) :
    readingOf? r ks range = some (readingOf r ks range) := by
  induction ks with
  | nil => rfl
  | cons k ks ih =>
    unfold readingOf? at ih ⊢
    simp only [Scan.ofEach, Rows.scan?_eq_scan, ih]
    cases h : r.scan k range with
    | error f =>
      rw [readingOf_cons_error h]
      rfl
    | ok es =>
      cases h' : readingOf r ks range with
      | error f =>
        rw [readingOf_cons_ok_error h h']
        rfl
      | ok rest =>
        rw [readingOf_cons_ok h h']
        rfl

theorem visit_some (scan : Int → Id (Except Failure (List Event))) (bs : List Int) (pager : Pager Event) :
    visit (fun b => some (scan b)) bs pager = some (visit scan bs pager) := by
  induction bs generalizing pager with
  | nil => rfl
  | cons b bs ih =>
    cases h : scan b with
    | error f =>
      rw [visit_cons_error h]
      simp only [visit, h]
      rfl
    | ok es =>
      rw [visit_cons_ok h, ← ih]
      simp only [visit, h]
      rfl

theorem answer?_eq (q : Query) (p : Plan) (r : Rows) (now : Instant) :
    q.answer? p r now = some (q.answer p r now) := by
  have hreading : (fun b => readingOf? r (p.keys q.dimension (distinct q.entities) b) q.range) = fun b =>
      some (readingOf r (p.keys q.dimension (distinct q.entities) b) q.range) :=
    funext fun _ => readingOf?_eq _ _ _
  simp only [answer?, answer, run, hreading, visit_some]
  split
  · rfl
  · split
    · rfl
    · cases visit (fun b => readingOf r (p.keys q.dimension (distinct q.entities) b) q.range)
        (p.scheme.covering q.range now) (.ofPage q.page) <;> rfl

/-! ## The whole answer -/

/-- One event under two entities, in a bucket that is not its own. -/
def sampleRows : Rows :=
  [2, 1].foldl (fun r n => (IndexWrite.perform ⟨⟨"default", .area, .ofNat n, 7⟩, sampleEvent⟩ r none).1) .empty

/-- Of seven hours, to the beginning of that bucket. -/
def sampleQuery : Query :=
  ⟨.area, [.ofNat 1, .ofNat 2, .ofNat 1], ⟨some .epoch, Instant.of? 25200 0⟩, .first⟩

/-- The same hours from their end to their beginning. -/
def sampleInverted : Query := { sampleQuery with range := ⟨Instant.of? 25200 0, some .epoch⟩ }

/-- A query lists the entries that are asked for, in their one order, and counts them. It does
not break off, whatever its range is. -/
theorem query_refines_reference (q : Query) (p : Plan) (r : Rows) (now : Instant) (hids : q.entities ≠ [])
    (hs : q.dimension ∉ r.failingScans) (hb : ∀ max ∈ p.maxBuckets, p.scheme.count q.range now ≤ max) :
    q.answer? p r now = some (.ok (q.reference p r now)) ∧ q.answer p r now = .ok (q.reference p r now) ∧
      (q.reference p r now).total = (r.entries.filter (q.asksFor p now)).length ∧
      (q.found p r now).Perm (r.entries.filter (q.asksFor p now)) ∧ (q.found p r now).Pairwise q.Leads ∧
      (q.range.isInverted = true → q.answer? p r now = some (.ok .empty)) := by
  have hperm := q.found_perm p r now
  have hanswer := answer_eq_reference hids hs hb
  refine ⟨?_, hanswer, hperm.length_eq, hperm, q.pairwise_found p r now, ?_⟩
  · rw [answer?_eq, hanswer]
  · intro hinv
    rw [answer?_eq, hanswer, reference, found_of_isInverted hinv]
    simp [Page.slice, Results.empty]

theorem query_refines_reference_foreign_bucket :
    sampleQuery.answer? ⟨"default", .hourly, some 8⟩ sampleRows .epoch =
        some (.ok (sampleQuery.reference ⟨"default", .hourly, some 8⟩ sampleRows .epoch)) ∧
      (sampleQuery.reference ⟨"default", .hourly, some 8⟩ sampleRows .epoch).total = 2 ∧
      sampleInverted.answer? ⟨"default", .hourly, some 8⟩ sampleRows .epoch = some (.ok .empty) := by
  have hfound : (sampleRows.entries.filter (sampleQuery.asksFor ⟨"default", .hourly, some 8⟩ .epoch)).length = 2 := by
    decide
  have h := query_refines_reference sampleQuery ⟨"default", .hourly, some 8⟩ sampleRows .epoch
    (by decide) (by decide) (by decide)
  have hinv := query_refines_reference sampleInverted ⟨"default", .hourly, some 8⟩ sampleRows .epoch
    (by decide) (by decide) (by decide)
  exact ⟨h.1, h.2.2.1.trans hfound, hinv.2.2.2.2.2 (by decide)⟩

end DeviceEvents.Query
