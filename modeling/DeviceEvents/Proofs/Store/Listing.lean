import DeviceEvents.Proofs.Store.Completeness
/-
  DeviceEvents.Proofs.Store.Listing — dates on their way from a put to an answer.

  A put cuts its date to milliseconds. The event is filed in the bucket of that, and answers
  are in order of it.
  - `answer_sorted`: every answer of a store has its events newest first, whatever the range and
    the page and whatever fails. What the index holds lies in the bucket of its date
    (`Traffic.filed_by_date`), so a later bucket has later dates.
  - `date_keeps_place`: so two events stand against the order of the dates they were put with
    only if those are cut to the same, or the earlier is in a leap second that runs past the
    later (`leap_listed_later`).
-/

namespace DeviceEvents

namespace Traffic

variable {stores : Nat → StoreSettings} {faults : Bool} {s : Traffic}

theorem Accounts.mem_due_of_entry (ha : Accounts stores s) {w : IndexWrite} (h : w ∈ s.rows.entries) :
    w ∈ s.due stores := by
  obtain ⟨x, hx, -, hw⟩ := (ha.indexed w.key w.event).1 (Rows.mem_entries.1 h)
  have hmem : x.write ∈ s.ended.map (·.write) := List.mem_map_of_mem hx
  rw [hw] at hmem
  exact ha.conserved.mem_iff.2 (List.mem_append_right _ hmem)

/-- Entries lie in the bucket of their date, and that is cut. -/
theorem filed_by_date {σ : StoreSettings} (h : Reach (fun _ => σ) faults s) {w : IndexWrite} (hw : w ∈ s.rows.entries) :
    w.key.bucket = σ.scheme.bucketOf w.event.eventDate ∧ w.event.eventDate.IsPlain := by
  obtain ⟨c, -, -, hc⟩ := mem_due.1 ((reach_accounts h).mem_due_of_entry hw)
  obtain ⟨d, x, -, rfl⟩ := Call.mem_writes.1 hc
  exact ⟨rfl, c.draft.eventDate_isPlain ..⟩

end Traffic

theorem Call.eventDate_of_draft {c : Call} {t : Instant} (h : c.draft.eventDate = some t) :
    c.event.eventDate = t.truncate := by
  simp [Call.event, Draft.toEvent, h]

namespace Query

variable {σ : StoreSettings} {faults : Bool} {s : Traffic} {q : Query} {now : Instant}

theorem found_sorted (h : Traffic.Reach (fun _ => σ) faults s) :
    (q.found σ.plan s.rows now).Pairwise fun v w => ¬v.event.Precedes w.event := by
  refine (q.pairwise_found σ.plan s.rows now).imp_of_mem fun {v w} hv hw hle => ?_
  rcases hle with hbucket | ⟨-, hnot, -⟩
  · obtain ⟨hvb, hvp⟩ := Traffic.filed_by_date h (mem_found.1 hv).1
    have hwb := (Traffic.filed_by_date h (mem_found.1 hw).1).1
    intro hlt
    have hle := σ.scheme.bucketOf_le hvp hlt.eventDate_le
    omega
  · exact hnot

theorem answer_sorted {res : Results Event} (h : Traffic.Reach (fun _ => σ) faults s)
    (hres : q.answer σ.plan s.rows now = .ok res) : res.results.Pairwise fun e f => ¬e.Precedes f := by
  rw [answer_eq] at hres
  cases ht : q.trouble? σ.plan s.rows now with
  | some x =>
    rw [ht] at hres
    cases hres
  | none =>
    rw [ht] at hres
    cases hres
    exact (List.pairwise_map.2 (found_sorted h)).sublist (q.page.slice_sublist _)

/-! ## Dates as they were put -/

/-- The event was put with the date `t`. -/
def PutWith (s : Traffic) (t : Instant) (e : Event) : Prop :=
  ∃ c ∈ s.calls, c.draft.eventDate = some t ∧ c.event = e

theorem PutWith.eventDate {t : Instant} {e : Event} (h : PutWith s t e) : e.eventDate = t.truncate := by
  obtain ⟨c, -, ht, rfl⟩ := h
  exact Call.eventDate_of_draft ht

/-- What tells events whose order is not that of the dates they were put with. -/
theorem listed_against_dates {t u : Instant} {e f : Event} (he : PutWith s t e) (hf : PutWith s u f) (htu : t ≤ u)
    (h : ¬e.Precedes f) : t.RunsPast u ∨ (t.truncate = u.truncate ∧ f.id ≤ e.id) := by
  by_cases hpast : t.RunsPast u
  · exact .inl hpast
  · right
    have hcut := (Instant.truncate_mono_iff htu).2 hpast
    rw [Event.precedes_iff, not_or, he.eventDate, hf.eventDate] at h
    have heq : t.truncate = u.truncate := by
      rcases Instant.lt_trichotomy t.truncate u.truncate with hlt | heq | hlt
      · exact absurd hlt h.1
      · exact heq
      · exact absurd hlt (Instant.not_lt.2 hcut)
    exact ⟨heq, Nat.not_lt.1 fun hid => h.2 ⟨heq, hid⟩⟩

/-- A put with the date `t` and then one with the date `u`. -/
def samplePair (t u : Instant) : Traffic := filed (filed .start 9 t) 8 u

theorem samplePair_reach (t u : Instant) : Traffic.Reach (fun _ => {}) false (samplePair t u) := by
  refine filed_reach (filed_reach .refl fun _ h => nomatch h) ?_
  intro c hc
  rw [List.mem_singleton.1 hc]
  show Uuid.ofNat 9 ≠ .ofNat 8
  decide

def pairAnswer (t u : Instant) : Except Trouble (Results Event) :=
  (⟨.assignment, [.ofNat 1], .between .epoch (.momentAfter 900000000), .all⟩ : Query).answer (StoreSettings.plan {})
    (samplePair t u).rows .epoch

/-- Cut once, a date stays as it is and in its bucket. A plain date loses less than a millisecond
and any other is put off to the next second, which upsets the order with what it runs past. Other
dates that events were put with agree with the order of answers, but that cutting makes some equal. -/
theorem date_keeps_place (t u : Instant) (htu : t ≤ u) :
    (t.truncate.truncate = t.truncate ∧ ∀ s : BucketScheme, s.bucketOf t.truncate = s.bucketOf t) ∧
    ((t.truncate.second = t.second ∧ t.truncate.nano ≤ t.nano ∧ t.nano < t.truncate.nano + 1000000 ↔ t.IsPlain) ∧
      (¬t.IsPlain → t.truncate.second = t.second + 1 ∧ t.truncate.nano = (t.nano / 1000000 - 1000) * 1000000)) ∧
    (t.truncate ≤ u.truncate ↔ ¬t.RunsPast u) ∧
    ∀ (σ : StoreSettings) (faults : Bool) (s : Traffic), Traffic.Reach (fun _ => σ) faults s →
      ∀ (q : Query) (now : Instant) (res : Results Event), q.answer σ.plan s.rows now = .ok res →
        res.results.Pairwise fun e f => PutWith s t e → PutWith s u f →
          t.RunsPast u ∨ (t.truncate = u.truncate ∧ f.id ≤ e.id) := by
  refine ⟨⟨t.truncate_truncate, fun s => s.bucketOf_truncate t⟩,
    ⟨⟨?_, Instant.IsPlain.truncate_within⟩, Instant.truncate_of_not_isPlain⟩, Instant.truncate_mono_iff htu, ?_⟩
  · intro hwithin
    apply Instant.truncate_le_iff.1
    exact .inr ⟨hwithin.1, hwithin.2.1⟩
  · intro σ faults s h q now res hres
    exact (answer_sorted h hres).imp fun hef he hf => listed_against_dates he hf htu hef

/-- Within a millisecond events are in the order of their ids. -/
theorem date_keeps_place_by_id :
    pairAnswer (.momentAfter 100) (.momentAfter 200) = .ok ⟨[(samplePut 9 (.momentAfter 100) .index true).event,
        (samplePut 8 (.momentAfter 200) .index true).event], 2⟩ ∧
      (Instant.momentAfter 100).truncate = (Instant.momentAfter 200).truncate := by
  have hanswer : pairAnswer (.momentAfter 100) (.momentAfter 200) =
      .ok ⟨[(samplePut 9 (.momentAfter 100) .index true).event, (samplePut 8 (.momentAfter 200) .index true).event], 2⟩ :=
    answer_of_sorted (l := [samplePutWrite 9 (.momentAfter 100) .assignment (.ofNat 1),
      samplePutWrite 8 (.momentAfter 200) .assignment (.ofNat 1)])
      (by decide +kernel) (by decide +kernel) (by decide +kernel)
  have hpair := (date_keeps_place (.momentAfter 100) (.momentAfter 200) (by decide)).2.2.2 {} false _
    (samplePair_reach ..) _ .epoch _ hanswer
  obtain ⟨hfirst, -⟩ := List.pairwise_cons.1 hpair
  have hdates := hfirst _ (List.mem_singleton_self _)
    ⟨samplePut 9 (.momentAfter 100) .index true, .head _, rfl, rfl⟩
    ⟨samplePut 8 (.momentAfter 200) .index true, .tail _ (.head _), rfl, rfl⟩
  rcases hdates with hpast | ⟨hcut, -⟩
  · exact absurd hpast (by decide)
  · exact ⟨hanswer, hcut⟩

/-- A leap second is cut to what is later than it and than what comes after it, and its event is
listed as the newer of the two. -/
theorem leap_listed_later :
    Instant.leapMoment < .momentAfter 0 ∧ Instant.leapMoment < Instant.leapMoment.truncate ∧
      ¬Instant.leapMoment.truncate ≤ (Instant.momentAfter 0).truncate ∧
      Traffic.Reach (fun _ => {}) false (samplePair .leapMoment (.momentAfter 0)) ∧
      pairAnswer .leapMoment (.momentAfter 0) =
        .ok ⟨[(samplePut 9 .leapMoment .index true).event, (samplePut 8 (.momentAfter 0) .index true).event], 2⟩ := by
  refine ⟨by decide, by decide, by decide, samplePair_reach _ _, ?_⟩
  exact answer_of_sorted (l := [samplePutWrite 9 .leapMoment .assignment (.ofNat 1),
    samplePutWrite 8 (.momentAfter 0) .assignment (.ofNat 1)])
    (by decide +kernel) (by decide +kernel) (by decide +kernel)

end Query

end DeviceEvents
