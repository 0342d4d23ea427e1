import DeviceEvents.Proofs.Stateful
import DeviceEvents.Proofs.Store.Enumeration
import DeviceEvents.Proofs.Store.FanOut
import Mathlib.Data.Finset.Card
import Mathlib.Data.List.Dedup
/-
  DeviceEvents.Proofs.Store.Planning — which partitions a query scans, whatever holds them.

  Actors. A backend answers to the scan of any partition as it likes, with events or with a failure. The scans
  of one bucket are begun side by side, in any order, and joined: if all of them succeed the bucket has what
  they hold, and else a failure of one of them, with the others begun or not (`Backend.Joined`). A query
  waits for one bucket before it turns to the next.

  Proved: what comes of the buckets one after the other (`visit_visited`, by the step lemma of one
  bucket), and from it all of a query: no scan without entities or over a range too wide; else the partitions of
  the range are scanned newest bucket first, none twice, down to the first bucket with a failure; with
  none all of them are, and everything they gave is counted (`planned_exact`).
-/

namespace DeviceEvents.Query

/-- What answers to the scan of a partition. -/
abbrev Backend := PartitionKey → DateRange → Except Failure (List Event)

/-- Programs that note which scans begin. -/
abbrev Noting := StateM (List PartitionKey)

namespace Backend

variable (backend : Backend) (range : DateRange)

def Fails (k : PartitionKey) : Prop := ∃ f, backend k range = .error f

/-- What the scan of a partition gives, which is nothing if it fails. -/
def held (k : PartitionKey) : List Event := (backend k range).toOption.getD []

/-- What may come of scans that are begun side by side: what they give, in the order of the partitions, once all of
them have succeeded, or a failure of one that was begun. -/
inductive Joined (ks : List PartitionKey) : Except Failure (List Event) → List PartitionKey → Prop where
  | all {begun : List PartitionKey} (none : ∀ k ∈ ks, ¬backend.Fails range k) (each : begun.Perm ks) :
      Joined ks (.ok (ks.flatMap (backend.held range))) begun
  | failed {begun : List PartitionKey} {k : PartitionKey} {f : Failure} (some : begun.Subperm ks) (mem : k ∈ begun)
      (failure : backend k range = .error f) : Joined ks (.error f) begun

/-- The scans of a bucket are begun side by side and joined. -/
def Joins (scan : Scan Noting) : Prop :=
  ∀ ks range noted, ∃ answer begun, backend.Joined range ks answer begun ∧
    (scan ks range).run noted = (answer, noted ++ begun)

/-- Scans that answer at once are begun in the order of the partitions, up to the first failure. -/
def inOrder : Scan Noting := Scan.ofEach fun k range => do
  modify (· ++ [k])
  return backend k range

theorem held_of_ok {k : PartitionKey} {es : List Event} (h : backend k range = .ok es) : backend.held range k = es := by
  rw [held, h]
  rfl

theorem not_fails_of_ok {k : PartitionKey} {es : List Event} (h : backend k range = .ok es) : ¬backend.Fails range k := by
  rintro ⟨f, hf⟩
  rw [h] at hf
  cases hf

theorem joins_inOrder : backend.Joins backend.inOrder := by
  intro ks range noted
  induction ks generalizing noted with
  | nil => exact ⟨_, [], .all (fun _ h => nomatch h) .nil, by rw [List.append_nil]; rfl⟩
  | cons k ks ih =>
    have hfirst : (do modify (· ++ [k]); return backend k range : Noting (Except Failure (List Event))) noted =
        (backend k range, noted ++ [k]) := rfl
    cases hk : backend k range with
    | error f =>
      refine ⟨.error f, [k], .failed (List.singleton_subperm_iff.2 List.mem_cons_self) List.mem_cons_self hk, ?_⟩
      refine (bind_eq hfirst).trans ?_
      rw [hk]
      rfl
    | ok es =>
      obtain ⟨answer, begun, hjoined, hrun⟩ := ih (noted ++ [k])
      have hnoted : noted ++ [k] ++ begun = noted ++ k :: begun := by simp
      rw [hnoted] at hrun
      cases hjoined with
      | all none each =>
        refine ⟨_, k :: begun, .all (List.forall_mem_cons.2 ⟨backend.not_fails_of_ok range hk, none⟩) (each.cons k), ?_⟩
        refine (bind_eq hfirst).trans ?_
        rw [hk]
        refine (bind_eq hrun).trans ?_
        rw [List.flatMap_cons, backend.held_of_ok range hk]
        rfl
      | failed some mem failure =>
        refine ⟨_, k :: begun, .failed (List.subperm_cons k |>.2 some) (List.mem_cons_of_mem k mem) failure, ?_⟩
        refine (bind_eq hfirst).trans ?_
        rw [hk]
        exact bind_eq hrun

/-! ## One bucket after the other -/

/-- What may come of buckets that are joined one after the other: what they give, each in order, or the failure of the
first that has one. -/
inductive Visited (keys : Int → List PartitionKey) :
    List Int → Except Failure (List Event) → List PartitionKey → Prop where
  | done : Visited keys [] (.ok []) []
  | next {b : Int} {bs : List Int} {es : List Event} {answer : Except Failure (List Event)}
      {begun trace : List PartitionKey} (bucket : backend.Joined range (keys b) (.ok es) begun)
      (others : Visited keys bs answer trace) :
      Visited keys (b :: bs) (answer.map (sortNewestFirst es ++ ·)) (begun ++ trace)
  | stopped {b : Int} {bs : List Int} {f : Failure} {begun : List PartitionKey}
      (bucket : backend.Joined range (keys b) (.error f) begun) : Visited keys (b :: bs) (.error f) begun

variable {backend range} {keys : Int → List PartitionKey} {bs : List Int} {answer : Except Failure (List Event)}
  {trace : List PartitionKey}

theorem visit_visited {scan : Scan Noting} (hscan : backend.Joins scan) (pager : Pager Event) (noted : List PartitionKey) :
    ∃ answer trace, backend.Visited range keys bs answer trace ∧
      (visit (fun b => scan (keys b) range) bs pager).run noted = (answer.map pager.extend, noted ++ trace) := by
  induction bs generalizing pager noted with
  | nil => exact ⟨_, _, .done, by rw [List.append_nil]; rfl⟩
  | cons b bs ih =>
    obtain ⟨answer, begun, hbucket, hrun⟩ := hscan (keys b) range noted
    cases answer with
    | error f => exact ⟨_, _, .stopped hbucket, bind_eq hrun⟩
    | ok es =>
      obtain ⟨answer, trace, hothers, hvisit⟩ := ih (pager.extend (sortNewestFirst es)) (noted ++ begun)
      refine ⟨_, _, .next hbucket hothers, ?_⟩
      refine (bind_eq hrun).trans (hvisit.trans ?_)
      rw [List.append_assoc]
      cases answer with
      | error f => rfl
      | ok rest => exact congrArg (fun p => (Except.ok p, _)) (Pager.extend_append pager _ _)

theorem Joined.subperm {ks begun : List PartitionKey} (h : backend.Joined range ks answer begun) : begun.Subperm ks := by
  cases h with
  | all none each => exact each.subperm
  | failed some mem failure => exact some

theorem Joined.of_ok {ks begun : List PartitionKey} {es : List Event} (h : backend.Joined range ks (.ok es) begun) :
    begun.Perm ks ∧ (∀ k ∈ ks, ¬backend.Fails range k) ∧ es = ks.flatMap (backend.held range) := by
  cases h with
  | all none each => exact ⟨each, none, rfl⟩

theorem Joined.of_error {ks begun : List PartitionKey} {f : Failure} (h : backend.Joined range ks (.error f) begun) :
    ∃ k ∈ ks, backend.Fails range k := by
  cases h with
  | failed some mem failure => exact ⟨_, some.subset mem, _, failure⟩

/-- Only partitions of the buckets are scanned, and none more often than it is among them. -/
theorem Visited.subperm (h : backend.Visited range keys bs answer trace) : trace.Subperm (bs.flatMap keys) := by
  induction h with
  | done => exact .refl _
  | next bucket others ih =>
    rw [List.flatMap_cons]
    exact ((List.subperm_append_left _).2 ih).trans (bucket.of_ok.1.append_right _).subperm
  | stopped bucket =>
    rw [List.flatMap_cons]
    exact bucket.subperm.trans (List.sublist_append_left _ _).subperm

theorem Visited.fails_iff (h : backend.Visited range keys bs answer trace) :
    (∃ f, answer = .error f) ↔ ∃ k ∈ bs.flatMap keys, backend.Fails range k := by
  induction h with
  | done => simp
  | @next b bs es answer begun trace bucket others ih =>
    have hmap : (∃ f, answer.map (sortNewestFirst es ++ ·) = .error f) ↔ ∃ f, answer = .error f := by
      cases answer <;> simp [Except.map]
    rw [hmap, ih, List.flatMap_cons]
    constructor
    · rintro ⟨k, hk, hf⟩
      exact ⟨k, List.mem_append_right _ hk, hf⟩
    · rintro ⟨k, hk, hf⟩
      rcases List.mem_append.1 hk with hk | hk
      · exact absurd hf (bucket.of_ok.2.1 k hk)
      · exact ⟨k, hk, hf⟩
  | stopped bucket =>
    obtain ⟨k, hk, hf⟩ := bucket.of_error
    refine iff_of_true ⟨_, rfl⟩ ⟨k, ?_, hf⟩
    rw [List.flatMap_cons]
    exact List.mem_append_left _ hk

theorem Visited.of_ok {es : List Event} (h : backend.Visited range keys bs answer trace) (hok : answer = .ok es) :
    trace.Perm (bs.flatMap keys) ∧ es.length = (trace.flatMap (backend.held range)).length := by
  induction h generalizing es with
  | done => cases hok; exact ⟨.nil, rfl⟩
  | @next b bs es' answer begun trace bucket others ih =>
    obtain ⟨hperm, -, rfl⟩ := bucket.of_ok
    cases answer with
    | error f => cases hok
    | ok rest =>
      cases hok
      obtain ⟨hothers, hlength⟩ := ih rfl
      have hbegun := (hperm.flatMap_right (backend.held range)).length_eq
      refine ⟨by rw [List.flatMap_cons]; exact hperm.append hothers, ?_⟩
      rw [List.flatMap_append, List.length_append, List.length_append, ← hlength, hbegun, sortNewestFirst,
        List.length_mergeSort]
  | stopped bucket => cases hok

theorem Visited.exists_ok (h : backend.Visited range keys bs answer trace)
    (hok : ∀ k ∈ bs.flatMap keys, ¬backend.Fails range k) : ∃ es, answer = .ok es := by
  cases answer with
  | ok es => exact ⟨es, rfl⟩
  | error f =>
    obtain ⟨k, hk, hf⟩ := h.fails_iff.1 ⟨f, rfl⟩
    exact absurd hf (hok k hk)

section Order

variable (hkeys : ∀ b, ∀ k ∈ keys b, k.bucket = b)
include hkeys

theorem older_of_mem {b : Int} (hbs : (b :: bs).Pairwise fun b c => c < b) {k : PartitionKey} (hk : k ∈ bs.flatMap keys) :
    k.bucket < b := by
  obtain ⟨c, hc, hk⟩ := List.mem_flatMap.1 hk
  rw [hkeys c k hk]
  exact (List.pairwise_cons.1 hbs).1 c hc

variable (hbs : bs.Pairwise fun b c => c < b) (h : backend.Visited range keys bs answer trace)
include hbs h

theorem Visited.newest_first : trace.Pairwise fun k l => l.bucket ≤ k.bucket := by
  have hbucket : ∀ {b} {begun : List PartitionKey}, begun.Subperm (keys b) →
      begun.Pairwise fun k l => l.bucket ≤ k.bucket := by
    intro b begun hb
    refine List.pairwise_of_forall_mem_list fun k hk l hl => ?_
    rw [hkeys b k (hb.subset hk), hkeys b l (hb.subset hl)]
  induction h with
  | done => exact .nil
  | next bucket others ih =>
    refine List.pairwise_append.2 ⟨hbucket bucket.subperm, ih hbs.of_cons, fun k hk l hl => ?_⟩
    rw [hkeys _ k (bucket.subperm.subset hk)]
    exact Int.le_of_lt (older_of_mem hkeys hbs (others.subperm.subset hl))
  | stopped bucket => exact hbucket bucket.subperm

variable {k l : PartitionKey}

/-- Before a bucket is turned to, all partitions of the newer ones are scanned. -/
theorem Visited.newer_done (hk : k ∈ trace) (hl : l ∈ bs.flatMap keys) (hlt : k.bucket < l.bucket) : l ∈ trace := by
  induction h with
  | done => cases hk
  | next bucket others ih =>
    rw [List.flatMap_cons, List.mem_append] at hl
    rw [List.mem_append] at hk ⊢
    rcases hl with hl | hl
    · exact .inl (bucket.of_ok.1.mem_iff.2 hl)
    · refine .inr (ih hbs.of_cons (hk.resolve_left fun hk => ?_) hl)
      have hlb := older_of_mem hkeys hbs hl
      rw [hkeys _ k (bucket.subperm.subset hk)] at hlt
      omega
  | stopped bucket =>
    rw [List.flatMap_cons, List.mem_append] at hl
    rw [hkeys _ k (bucket.subperm.subset hk)] at hlt
    rcases hl with hl | hl
    · rw [hkeys _ l hl] at hlt
      omega
    · have hlb := older_of_mem hkeys hbs hl
      omega

/-- No bucket older than one with a failure is turned to. -/
theorem Visited.older_left (hk : k ∈ bs.flatMap keys) (hf : backend.Fails range k) (hl : l ∈ trace) :
    k.bucket ≤ l.bucket := by
  induction h with
  | done => cases hl
  | next bucket others ih =>
    rw [List.flatMap_cons, List.mem_append] at hk
    have hk := hk.resolve_left fun hk => bucket.of_ok.2.1 k hk hf
    rcases List.mem_append.1 hl with hl | hl
    · rw [hkeys _ l (bucket.subperm.subset hl)]
      exact Int.le_of_lt (older_of_mem hkeys hbs hk)
    · exact ih hbs.of_cons hk hl
  | stopped bucket =>
    rw [hkeys _ l (bucket.subperm.subset hl)]
    rw [List.flatMap_cons, List.mem_append] at hk
    rcases hk with hk | hk
    · exact Int.le_of_eq (hkeys _ k hk)
    · exact Int.le_of_lt (older_of_mem hkeys hbs hk)

end Order

end Backend

/-! ## A whole query -/

/-- The partitions of a query: those of all its entities, each once, in all buckets of its range. -/
def partitions (q : Query) (p : Plan) (now : Instant) : List PartitionKey :=
  (p.scheme.covering q.range now).flatMap fun b => p.keys q.dimension (distinct q.entities) b

variable {q : Query} {p : Plan} {now : Instant}

theorem mem_keys {b : Int} {k : PartitionKey} : k ∈ p.keys q.dimension (distinct q.entities) b ↔
    k.tenant = p.tenant ∧ k.dimension = q.dimension ∧ k.entity ∈ q.entities ∧ k.bucket = b := by
  simp only [Plan.keys, List.mem_map, mem_distinct]
  constructor
  · rintro ⟨x, hx, rfl⟩
    exact ⟨rfl, rfl, hx, rfl⟩
  · rintro ⟨ht, hd, hx, hb⟩
    exact ⟨k.entity, hx, by rw [← ht, ← hd, ← hb]⟩

theorem mem_partitions {k : PartitionKey} : k ∈ q.partitions p now ↔ k.tenant = p.tenant ∧ k.dimension = q.dimension ∧
    k.entity ∈ q.entities ∧ k.bucket ∈ p.scheme.covering q.range now := by
  simp only [partitions, List.mem_flatMap, mem_keys]
  constructor
  · rintro ⟨b, hb, ht, hd, hx, rfl⟩
    exact ⟨ht, hd, hx, hb⟩
  · rintro ⟨ht, hd, hx, hb⟩
    exact ⟨_, hb, ht, hd, hx, rfl⟩

theorem nodup_distinct (as : List Uuid) : (distinct as).Nodup := by
  refine (pairwise_distinct as).imp ?_
  rintro x _ h rfl
  exact Nat.lt_irrefl _ h

theorem length_distinct (as : List Uuid) : (distinct as).length = as.toFinset.card := by
  rw [← List.toFinset_card_of_nodup (nodup_distinct as)]
  congr 1
  ext x
  rw [List.mem_toFinset, List.mem_toFinset, mem_distinct]

theorem nodup_partitions : (q.partitions p now).Nodup := by
  refine List.nodup_flatMap.2 ⟨fun b _ => ?_, (p.scheme.pairwise_covering q.range now).imp fun {b c} h k hk hl => ?_⟩
  · refine (nodup_distinct q.entities).map fun x y h => ?_
    exact congrArg PartitionKey.entity h
  · have hkb := (mem_keys.1 hk).2.2.2
    have hkc := (mem_keys.1 hl).2.2.2
    omega

theorem length_partitions :
    (q.partitions p now).length = p.scheme.count q.range now * q.entities.toFinset.card := by
  rw [partitions, List.length_flatMap, ← BucketScheme.length_covering, ← length_distinct]
  simp [Plan.keys]

theorem bucket_of_mem_keys (b : Int) : ∀ k ∈ p.keys q.dimension (distinct q.entities) b, k.bucket = b :=
  fun _ hk => (mem_keys.1 hk).2.2.2

theorem run_of_no_entities (scan : Scan Noting) (h : q.entities = []) (noted : List PartitionKey) :
    (q.run p scan now).run noted = (.ok .empty, noted) := by
  simp only [run, h]
  rfl

theorem run_of_too_wide (scan : Scan Noting) (h : q.entities ≠ []) {max : Nat} (hmax : p.maxBuckets = some max)
    (hlt : max < p.scheme.count q.range now) (noted : List PartitionKey) :
    (q.run p scan now).run noted = (.error (.rangeTooWide (p.scheme.count q.range now) max), noted) := by
  have hne : (distinct q.entities).isEmpty = false := by simpa using distinct_ne_nil h
  have hfilter : p.maxBuckets.filter (· < p.scheme.count q.range now) = some max := by
    rw [hmax]
    exact if_pos (decide_eq_true hlt)
  simp only [run, hne, hfilter]
  rfl

/-- What a query answers once its buckets are through. -/
def answerOf (q : Query) (found : Except Failure (List Event)) : Except Trouble (Results Event) :=
  (found.map fun es => ⟨q.page.slice es, es.length⟩).mapError .backend

theorem answerOf_fails_iff {found : Except Failure (List Event)} :
    (∃ f, q.answerOf found = .error (.backend f)) ↔ ∃ f, found = .error f := by
  cases found with
  | ok es =>
    constructor
    · rintro ⟨f, ⟨⟩⟩
    · rintro ⟨f, ⟨⟩⟩
  | error f => exact iff_of_true ⟨f, rfl⟩ ⟨f, rfl⟩

/-- Otherwise a query is what comes of its buckets. -/
theorem run_visited {backend : Backend} {scan : Scan Noting} (hscan : backend.Joins scan) (h : q.entities ≠ [])
    (hmax : ∀ max ∈ p.maxBuckets, p.scheme.count q.range now ≤ max) (noted : List PartitionKey) :
    ∃ answer trace, backend.Visited q.range (p.keys q.dimension (distinct q.entities))
        (p.scheme.covering q.range now) answer trace ∧
      (q.run p scan now).run noted = (q.answerOf answer, noted ++ trace) := by
  have hne : (distinct q.entities).isEmpty = false := by simpa using distinct_ne_nil h
  have hfilter : p.maxBuckets.filter (· < p.scheme.count q.range now) = none := by
    cases hm : p.maxBuckets with
    | none => rfl
    | some max => exact if_neg (by simpa using hmax max hm)
  obtain ⟨answer, trace, hvisited, hvisit⟩ : ∃ answer trace, backend.Visited q.range
      (p.keys q.dimension (distinct q.entities)) (p.scheme.covering q.range now) answer trace ∧
      (visit (fun b => scan (p.keys q.dimension (distinct q.entities) b) q.range) (p.scheme.covering q.range now)
        (.ofPage q.page)).run noted = (answer.map (Pager.ofPage q.page).extend, noted ++ trace) :=
    Backend.visit_visited hscan (.ofPage q.page) noted
  refine ⟨answer, trace, hvisited, ?_⟩
  simp only [run, hne, hfilter]
  refine (bind_eq hvisit).trans ?_
  cases answer with
  | error f => rfl
  | ok es => exact congrArg (fun r => (Except.ok r, _)) (Pager.results_extend q.page es)

/-- A backend that answers as it likes, with the scans of a bucket joined: what a query with `d` different entities over
`n` buckets scans and answers. -/
theorem planned_exact {backend : Backend} {scan : Scan Noting} (hscan : backend.Joins scan) (q : Query) (p : Plan)
    (now : Instant) :
    let d := q.entities.toFinset.card
    let n := p.scheme.count q.range now
    let answer := ((q.run p scan now).run []).1
    let trace := ((q.run p scan now).run []).2
    (d = 0 → answer = .ok .empty ∧ trace = []) ∧
    (∀ max, d ≠ 0 → p.maxBuckets = some max → max < n → answer = .error (.rangeTooWide n max) ∧ trace = []) ∧
    (d ≠ 0 → (∀ max ∈ p.maxBuckets, n ≤ max) →
      trace.Nodup ∧ (∀ k ∈ trace, k ∈ q.partitions p now) ∧ (trace.Pairwise fun k l => l.bucket ≤ k.bucket) ∧
      (∀ k ∈ trace, ∀ l ∈ q.partitions p now, k.bucket < l.bucket → l ∈ trace) ∧
      ((∃ f, answer = .error (.backend f)) ↔ ∃ k ∈ q.partitions p now, backend.Fails q.range k) ∧
      (∀ k ∈ q.partitions p now, backend.Fails q.range k → ∀ l ∈ trace, k.bucket ≤ l.bucket) ∧
      ((∀ k ∈ q.partitions p now, ¬backend.Fails q.range k) → trace.Perm (q.partitions p now) ∧
        trace.length = n * d ∧
        ∃ results, answer = .ok results ∧ results.total = (trace.flatMap (backend.held q.range)).length)) ∧
    ∀ max ∈ p.maxBuckets, trace.length ≤ max * d := by
  intro d n answer trace
  have hd : d = 0 ↔ q.entities = [] := by
    rw [Finset.card_eq_zero, List.toFinset_eq_empty_iff]
  have hnone : d = 0 → answer = .ok .empty ∧ trace = [] := by
    intro h
    have hrun : (q.run p scan now).run [] = (.ok .empty, []) := run_of_no_entities scan (hd.1 h) []
    exact ⟨congrArg Prod.fst hrun, congrArg Prod.snd hrun⟩
  have hwide : ∀ max, d ≠ 0 → p.maxBuckets = some max → max < n →
      answer = .error (.rangeTooWide n max) ∧ trace = [] := by
    intro max h hmax hlt
    have hrun := run_of_too_wide scan (mt hd.2 h) hmax hlt []
    exact ⟨congrArg Prod.fst hrun, congrArg Prod.snd hrun⟩
  have hvisit : d ≠ 0 → (∀ max ∈ p.maxBuckets, n ≤ max) → ∃ found, backend.Visited q.range
      (p.keys q.dimension (distinct q.entities)) (p.scheme.covering q.range now) found trace ∧
      answer = q.answerOf found := by
    intro h hmax
    obtain ⟨found, visited, hvisited, hrun⟩ := run_visited hscan (mt hd.2 h) hmax []
    have htrace : trace = visited := congrArg Prod.snd hrun
    exact ⟨found, htrace ▸ hvisited, congrArg Prod.fst hrun⟩
  refine ⟨hnone, hwide, fun h hmax => ?_, fun max hmax => ?_⟩
  · obtain ⟨found, hvisited, hanswer⟩ := hvisit h hmax
    have hbs := p.scheme.pairwise_covering q.range now
    have hfails : (∃ f, answer = .error (.backend f)) ↔ ∃ k ∈ q.partitions p now, backend.Fails q.range k := by
      rw [hanswer]
      exact answerOf_fails_iff.trans hvisited.fails_iff
    obtain ⟨among, hamong, hsublist⟩ := hvisited.subperm
    refine ⟨hamong.nodup_iff.1 (hsublist.nodup nodup_partitions), fun k hk => hvisited.subperm.subset hk,
      hvisited.newest_first bucket_of_mem_keys hbs,
      fun k hk l hl hlt => hvisited.newer_done bucket_of_mem_keys hbs hk hl hlt, hfails,
      fun k hk hf l hl => hvisited.older_left bucket_of_mem_keys hbs hk hf hl, fun hok => ?_⟩
    obtain ⟨es, hes⟩ := hvisited.exists_ok hok
    obtain ⟨hperm, hlength⟩ := hvisited.of_ok hes
    exact ⟨hperm, hperm.length_eq.trans length_partitions, _, hanswer.trans (congrArg q.answerOf hes), hlength⟩
  · by_cases h : d = 0
    · rw [(hnone h).2]
      exact Nat.zero_le _
    · by_cases hn : n ≤ max
      · obtain ⟨found, hvisited, -⟩ := hvisit h fun m hm => Option.mem_unique hmax hm ▸ hn
        calc trace.length ≤ (q.partitions p now).length := hvisited.subperm.length_le
          _ = n * d := length_partitions
          _ ≤ max * d := Nat.mul_le_mul_right d hn
      · rw [(hwide max h hmax (Nat.lt_of_not_le hn)).2]
        exact Nat.zero_le _

/-- Fails for the second entity in the sixth bucket, and holds one event in every other partition. -/
def sampleBackend : Backend := fun k _ =>
  if k.entity = .ofNat 2 ∧ k.bucket = 5 then .error (.of "down") else .ok [sampleEvent]

theorem planned_exact_sixth_fails :
    sampleBackend.Joins sampleBackend.inOrder ∧
      (∃ f, ((sampleQuery.run ⟨"default", .hourly, some 8⟩ sampleBackend.inOrder .epoch).run []).1 =
        .error (.backend f)) ∧
      ∀ l ∈ ((sampleQuery.run ⟨"default", .hourly, some 8⟩ sampleBackend.inOrder .epoch).run []).2, 5 ≤ l.bucket := by
  have hscan := sampleBackend.joins_inOrder
  have hplanned := (planned_exact hscan sampleQuery ⟨"default", .hourly, some 8⟩ .epoch).2.2.1 (by decide) (by decide)
  have hmem : ⟨"default", .area, .ofNat 2, 5⟩ ∈ sampleQuery.partitions ⟨"default", .hourly, some 8⟩ .epoch := by
    rw [mem_partitions]
    decide
  have hfails : sampleBackend.Fails sampleQuery.range ⟨"default", .area, .ofNat 2, 5⟩ := ⟨.of "down", by decide⟩
  exact ⟨hscan, hplanned.2.2.2.2.1.2 ⟨_, hmem, hfails⟩, hplanned.2.2.2.2.2.1 _ hmem hfails⟩

end DeviceEvents.Query
