import DeviceEvents.Proofs.Store.Conservation
/-
  DeviceEvents.Proofs.Store.Inline — detached writes come to the same as inline ones.

  `inline` makes puts one after the other: each writes its event by its ids and then to the
  index, and only then the next begins. A stretch of traffic in which the set of failing
  dimensions stays the same (`Stretch`), from a moment when no write is under way to another,
  leaves the rows of the index and the dead letters that `inline` would leave, whatever
  happened in between in whatever order: `stretch_agrees`.

  Both are compared with the plain account of what writes add to a base (`Performed`), in
  which the writes do not see each other; `Performed.agree` says that their order does not
  matter.
-/

namespace DeviceEvents

/-! ## Inline puts -/

section

variable (stores : Nat → StoreSettings) (given : IndexWrite → Option Failure)

def performNext (x : Rows × List DeadLetter) (w : IndexWrite) : Rows × List DeadLetter :=
  let (r, l) := w.perform x.1 (given w)
  (r, x.2 ++ l.toList)

/-- Writes the event of a call by its id and, if it has one, by its alternate id. -/
def Call.writeByIds (c : Call) (r : Rows) : Rows :=
  let (p, r) := (Put.ofEvent (c.tenant stores) c.event).advance r none
  (p.advance r none).2

/-- One put from its beginning to its end. -/
def inlinePut (x : Rows × List DeadLetter) (c : Call) : Rows × List DeadLetter :=
  (c.writes stores).foldl (performNext given) (c.writeByIds stores x.1, x.2)

def inline (cs : List Call) (x : Rows × List DeadLetter) : Rows × List DeadLetter :=
  cs.foldl (inlinePut stores given) x

end

/-! ## What writes add to a base -/

section

variable {stores : Nat → StoreSettings} {given : IndexWrite → Option Failure}

structure Performed (given : IndexWrite → Option Failure) (base : Rows × List DeadLetter)
    (ws : List IndexWrite) (x : Rows × List DeadLetter) : Prop where
  failing : ∀ d, d ∈ x.1.failingWrites ↔ d ∈ base.1.failingWrites
  letters : x.2 = base.2 ++ ws.filterMap fun w => (w.perform base.1 (given w)).2
  indexed : ∀ k e, e ∈ (x.1.row k).events ↔
    e ∈ (base.1.row k).events ∨ ∃ w ∈ ws, (w.perform base.1 (given w)).2 = none ∧ w = ⟨k, e⟩

/-- No row of the base has an event in the place of a write. -/
def Free (r : Rows) (ws : List IndexWrite) : Prop :=
  ∀ w ∈ ws, ∀ e ∈ (r.row w.key).events, ¬e.SamePlace w.event

variable {base x y : Rows × List DeadLetter} {ws vs : List IndexWrite}

theorem performed_nil : Performed given base [] base := by
  refine ⟨fun _ => Iff.rfl, by simp, ?_⟩
  intro k e
  simp

theorem Performed.next {w : IndexWrite} (h : Performed given base ws x)
    (hap : (ws ++ [w]).Pairwise IndexWrite.Apart) (hfree : Free base.1 [w]) :
    Performed given base (ws ++ [w]) (performNext given x w) := by
  have hletter : (w.perform x.1 (given w)).2 = (w.perform base.1 (given w)).2 := w.letter_congr _ h.failing
  have hplace : ∀ e ∈ (x.1.row w.key).events, ¬e.SamePlace w.event := by
    intro e he hs
    rcases (h.indexed w.key e).1 he with he | ⟨v, hv, -, rfl⟩
    · exact hfree w (List.mem_singleton_self w) e he hs
    · exact (List.pairwise_append.1 hap).2.2 _ hv w (List.mem_singleton_self w) hs.2 rfl
  refine ⟨?_, ?_, ?_⟩
  · intro d
    show d ∈ (w.perform x.1 (given w)).1.failingWrites ↔ _
    rw [(w.perform_frame x.1 (given w)).2.2.1]
    exact h.failing d
  · show x.2 ++ (w.perform x.1 (given w)).2.toList = _
    rw [hletter, h.letters, List.filterMap_append, List.append_assoc]
    cases h : (w.perform base.1 (given w)).2 <;> simp [h]
  · intro k e
    show e ∈ ((w.perform x.1 (given w)).1.row k).events ↔ _
    rw [w.mem_row_perform x.1 (given w) hplace, hletter, h.indexed]
    simp only [List.mem_append, List.mem_singleton, or_and_right, exists_or, exists_eq_left, or_assoc]

theorem Performed.all (h : Performed given base ws x) (hap : (ws ++ vs).Pairwise IndexWrite.Apart)
    (hfree : Free base.1 vs) : Performed given base (ws ++ vs) (vs.foldl (performNext given) x) := by
  induction vs generalizing ws x with
  | nil => simpa using h
  | cons v vs ih =>
    rw [List.append_cons] at hap
    rw [List.append_cons, List.foldl_cons]
    apply ih
    · apply h.next
      · exact (List.pairwise_append.1 hap).1
      · intro w hw
        exact hfree w (List.mem_cons.2 (.inl (List.mem_singleton.1 hw)))
    · exact hap
    · intro w hw
      exact hfree w (List.mem_cons_of_mem v hw)

theorem Call.writeByIds_frame (stores : Nat → StoreSettings) (c : Call) (r : Rows) :
    (c.writeByIds stores r).partitions = r.partitions ∧ (c.writeByIds stores r).failingWrites = r.failingWrites := by
  unfold Call.writeByIds
  obtain ⟨hp, hf, -⟩ := (Put.ofEvent (c.tenant stores) c.event).advance_frame r none
  obtain ⟨hp', hf', -⟩ := ((Put.ofEvent (c.tenant stores) c.event).advance r none).1.advance_frame
    ((Put.ofEvent (c.tenant stores) c.event).advance r none).2 none
  exact ⟨hp'.trans hp, hf'.trans hf⟩

theorem Performed.put {c : Call} (h : Performed given base ws x)
    (hap : (ws ++ c.writes stores).Pairwise IndexWrite.Apart) (hfree : Free base.1 (c.writes stores)) :
    Performed given base (ws ++ c.writes stores) (inlinePut stores given x c) := by
  obtain ⟨hp, hf⟩ := c.writeByIds_frame stores x.1
  refine Performed.all ⟨?_, h.letters, ?_⟩ hap hfree
  · intro d
    show d ∈ (c.writeByIds stores x.1).failingWrites ↔ _
    rw [hf]
    exact h.failing d
  · intro k e
    show e ∈ ((c.writeByIds stores x.1).row k).events ↔ _
    unfold Rows.row at *
    rw [hp]
    exact h.indexed k e

theorem Performed.puts {cs : List Call} (h : Performed given base ws x)
    (hap : (ws ++ cs.flatMap (·.writes stores)).Pairwise IndexWrite.Apart)
    (hfree : Free base.1 (cs.flatMap (·.writes stores))) :
    Performed given base (ws ++ cs.flatMap (·.writes stores)) (inline stores given cs x) := by
  induction cs generalizing ws x with
  | nil => simpa [inline] using h
  | cons c cs ih =>
    rw [List.flatMap_cons, ← List.append_assoc] at hap
    rw [List.flatMap_cons, ← List.append_assoc]
    rw [List.flatMap_cons] at hfree
    show Performed given base _ (inline stores given cs (inlinePut stores given x c))
    apply ih
    · apply h.put
      · exact (List.pairwise_append.1 hap).1
      · intro w hw
        exact hfree w (List.mem_append_left _ hw)
    · exact hap
    · intro w hw
      exact hfree w (List.mem_append_right _ hw)

/-- The order of writes does not matter. -/
theorem Performed.agree (h : Performed given base ws x) (h' : Performed given base vs y)
    (hp : ws.Perm vs) : (∀ k, x.1.row k = y.1.row k) ∧ x.2.Perm y.2 := by
  constructor
  · intro k
    apply WideRow.ext_mem
    intro e
    rw [h.indexed, h'.indexed]
    simp only [hp.mem_iff]
  · rw [h.letters, h'.letters]
    exact (hp.filterMap _).append_left _

end

namespace Traffic

variable {stores : Nat → StoreSettings} {faults : Bool} {s₀ s t : Traffic}

/-! ## A stretch of traffic -/

/-- Steps that keep the set of dimensions whose writes fail. -/
abbrev Stretch (stores : Nat → StoreSettings) (faults : Bool) : Traffic → Traffic → Prop :=
  Relation.ReflTransGen fun s t =>
    Step stores faults s t ∧ ∀ d, d ∈ t.rows.failingWrites ↔ d ∈ s.rows.failingWrites

theorem Stretch.run (h : Stretch stores faults s₀ s) : Run stores faults s₀ s :=
  Relation.ReflTransGen.mono (fun _ _ h => h.1) _ _ h

/-- The failure from outside that a write got. -/
def given (s : Traffic) (w : IndexWrite) : Option Failure :=
  (s.ended.find? fun x => x.write = w).bind (·.given)

/-- The calls whose writes are handed out in `s` and were not in `s₀`. -/
def dispatchedSince (s₀ s : Traffic) : List Call :=
  s.calls.filter fun c => c.dispatched ∧ c.id ∉ (s₀.calls.filter (·.dispatched)).map (·.id)

theorem Accounts.given_eq (ha : Accounts stores s) (hi : Inv s) {x : Ended} (hx : x ∈ s.ended) :
    s.given x.write = x.given := by
  have hsome : (s.ended.find? fun y => y.write = x.write).isSome := by
    rw [List.find?_isSome]
    exact ⟨x, hx, by simp⟩
  obtain ⟨y, hy⟩ := Option.isSome_iff_exists.1 hsome
  have hw : y.write = x.write := by simpa using List.find?_some hy
  have hyx : y = x := ha.eq_of_same hi (List.mem_of_find?_eq_some hy) hx (by rw [hw]) (by rw [hw])
  unfold given
  rw [hy, hyx]
  rfl

theorem step_ended (h : Step stores faults s t) :
    t.ended = s.ended ∨ ∃ w f, t.ended = s.ended ++ [⟨w, f, (w.perform s.rows f).2⟩] := by
  cases h with
  | write w f _ _ => exact .inr ⟨w, f, rfl⟩
  | call store a d id received _ => exact .inl rfl
  | advance cs c ds f _ _ => exact .inl rfl
  | handOut cs c ds _ _ _ => exact .inl rfl
  | failWrites d _ => exact .inl rfl
  | failScans d _ => exact .inl rfl
  | clearFailures => exact .inl rfl

/-- What ends in a stretch ends as the rows at its beginning decide. -/
theorem stretch_ended (h : Stretch stores faults s₀ s) :
    (∀ d, d ∈ s.rows.failingWrites ↔ d ∈ s₀.rows.failingWrites) ∧
      ∃ new, s.ended = s₀.ended ++ new ∧ ∀ x ∈ new, x.letter = (x.write.perform s₀.rows x.given).2 := by
  induction h with
  | refl => exact ⟨fun _ => Iff.rfl, [], by simp, fun _ h => (nomatch h)⟩
  | tail _ hs ih =>
    obtain ⟨hf, new, hnew, hletter⟩ := ih
    refine ⟨fun d => (hs.2 d).trans (hf d), ?_⟩
    rcases step_ended hs.1 with he | ⟨w, f, he⟩
    · exact ⟨new, he.trans hnew, hletter⟩
    · refine ⟨new ++ [⟨w, f, _⟩], by rw [he, hnew, List.append_assoc], ?_⟩
      intro x hx
      rcases List.mem_append.1 hx with hx | hx
      · exact hletter x hx
      · rw [List.mem_singleton.1 hx]
        exact w.letter_congr f hf

theorem run_dispatched (h : Run stores faults s₀ s) (hi : Inv s₀) {c : Call} (hc : c ∈ s₀.calls)
    (hd : c.dispatched = true) : c ∈ s.calls := (run_stays_ended h hi hc hd).1

theorem due_since (h : Run stores faults s₀ s) (hi : Inv s₀) :
    (s.due stores).Perm (s₀.due stores ++ (dispatchedSince s₀ s).flatMap (·.writes stores)) := by
  have hi' := run_inv h hi
  have hn : ∀ {u : Traffic}, Inv u → u.calls.Nodup := fun hu => hu.ids.of_map _
  have hold : ∀ c, (c ∈ s.calls ∧ c.dispatched = true ∧ c.id ∈ (s₀.calls.filter (·.dispatched)).map (·.id)) ↔
      c ∈ s₀.calls ∧ c.dispatched = true := by
    intro c
    constructor
    · intro hx
      obtain ⟨hc, -, hid⟩ := hx
      obtain ⟨b, hb, hid⟩ := List.mem_map.1 hid
      obtain ⟨hb, hbd⟩ := List.mem_filter.1 hb
      have hbc := hi'.eq_of_id (run_dispatched h hi hb hbd) hc hid
      exact hbc ▸ ⟨hb, hbd⟩
    · intro hx
      obtain ⟨hc, hd⟩ := hx
      exact ⟨run_dispatched h hi hc hd, hd, List.mem_map_of_mem (List.mem_filter.2 ⟨hc, hd⟩)⟩
  have hcalls : (s.calls.filter (·.dispatched)).Perm (s₀.calls.filter (·.dispatched) ++ dispatchedSince s₀ s) := by
    refine (List.perm_ext_iff_of_nodup ((hn hi').filter _) ?_).2 ?_
    · refine List.nodup_append.2 ⟨(hn hi).filter _, (hn hi').filter _, ?_⟩
      intro a ha b hb hab
      subst hab
      simp only [dispatchedSince, List.mem_filter, decide_eq_true_eq] at hb
      exact hb.2.2 (List.mem_map_of_mem ha)
    · intro c
      have := hold c
      simp only [dispatchedSince, List.mem_append, List.mem_filter, decide_eq_true_eq] at this ⊢
      tauto
  rw [due, due, ← List.flatMap_append]
  exact hcalls.flatMap_right _

/-- The writes that ended in a stretch are those of the calls that were dispatched in it. -/
theorem stretch_performed (hr : Reach stores faults s₀) (hp₀ : s₀.pending = []) (h : Stretch stores faults s₀ s)
    (hp : s.pending = []) :
    ∃ ws, ws.Perm ((dispatchedSince s₀ s).flatMap (·.writes stores)) ∧
      Performed s.given (s₀.rows, s₀.letters) ws (s.rows, s.letters) := by
  have hi₀ := reach_inv hr
  have ha₀ := reach_accounts hr
  have hi := run_inv h.run hi₀
  have ha : Accounts stores s := reach_accounts (hr.trans h.run)
  obtain ⟨hf, new, hnew, hletter⟩ := stretch_ended h
  have hgiven : ∀ x ∈ new, (x.write.perform s₀.rows (s.given x.write)).2 = x.letter := by
    intro x hx
    rw [ha.given_eq hi (hnew ▸ List.mem_append_right _ hx), hletter x hx]
  refine ⟨new.map (·.write), ?_, hf, ?_, ?_⟩
  · have h₁ := ha.conserved
    have h₂ := ha₀.conserved
    rw [hp, List.nil_append, hnew, List.map_append] at h₁
    rw [hp₀, List.nil_append] at h₂
    refine (List.perm_append_left_iff (s₀.due stores)).1 ?_
    exact ((h₂.append_right _).trans h₁.symm).trans (due_since h.run hi₀)
  · rw [ha.letters, hnew, List.filterMap_append, ← ha₀.letters, List.filterMap_map]
    refine congrArg _ (List.filterMap_congr fun x hx => (hgiven x hx).symm)
  · intro k e
    show e ∈ (s.rows.row k).events ↔ e ∈ (s₀.rows.row k).events ∨ _
    rw [ha.indexed, ha₀.indexed, hnew]
    simp only [List.mem_append, or_and_right, exists_or, List.mem_map]
    refine or_congr Iff.rfl ⟨?_, ?_⟩
    · intro hx
      obtain ⟨x, hx, hl, hw⟩ := hx
      exact ⟨x.write, ⟨x, hx, rfl⟩, by rw [hgiven x hx, hl], hw⟩
    · intro hx
      obtain ⟨_, ⟨x, hx, rfl⟩, hl, hw⟩ := hx
      exact ⟨x, hx, by rw [← hgiven x hx, hl], hw⟩

theorem stretch_agrees (hr : Reach stores faults s₀) (hp₀ : s₀.pending = []) (h : Stretch stores faults s₀ s)
    (hp : s.pending = []) {cs : List Call} (hcs : cs.Perm (dispatchedSince s₀ s)) :
    (∀ k, s.rows.row k = (inline stores s.given cs (s₀.rows, s₀.letters)).1.row k) ∧
      s.letters.Perm (inline stores s.given cs (s₀.rows, s₀.letters)).2 := by
  have hi₀ := reach_inv hr
  obtain ⟨ws, hws, hperf⟩ := stretch_performed hr hp₀ h hp
  have hcs' : (cs.flatMap (·.writes stores)).Perm ((dispatchedSince s₀ s).flatMap (·.writes stores)) :=
    hcs.flatMap_right _
  have hap : (s₀.due stores ++ cs.flatMap (·.writes stores)).Pairwise IndexWrite.Apart :=
    (((hcs'.append_left _).trans (due_since h.run hi₀).symm).pairwise_iff IndexWrite.Apart.symm).2
      (due_pairwise (run_inv h.run hi₀))
  have hfree : Free s₀.rows (cs.flatMap (·.writes stores)) := by
    intro w hw e he hs
    obtain ⟨y, hy, -, hyw⟩ := ((reach_accounts hr).indexed w.key e).1 he
    have hmem : y.write ∈ s₀.due stores :=
      (reach_accounts hr).conserved.mem_iff.2 (List.mem_append_right _ (List.mem_map_of_mem hy))
    have hne := (List.pairwise_append.1 hap).2.2 _ hmem w hw
    rw [hyw] at hne
    exact hne hs.2 rfl
  have hinline : Performed s.given (s₀.rows, s₀.letters) (cs.flatMap (·.writes stores))
      (inline stores s.given cs (s₀.rows, s₀.letters)) :=
    performed_nil.puts (List.pairwise_append.1 hap).2.1 hfree
  exact hperf.agree hinline (hws.trans hcs'.symm)

/-! ## After a flush -/

/-- A put that had succeeded before a flush has nothing under way once the flush returns. -/
theorem settled_after_flush {s₁ : Traffic} {c : Call} (hr : Reach stores faults s₀) (hc : c ∈ s₀.calls)
    (hs : s₀.Succeeded stores c) (h₁ : Run stores faults s₀ s₁) (hf : s₁.Flushed stores c.store)
    (h : Run stores faults s₁ s) : c ∈ s.calls ∧ ∀ w ∈ s.pending, w.event.id ≠ c.id := by
  have hi₀ := reach_inv hr
  obtain ⟨hc₁, hstay⟩ := run_stays_ended h₁ hi₀ hc hs.1
  obtain ⟨hc', hstay'⟩ := run_stays_ended h (run_inv h₁ hi₀) hc₁ hs.1
  refine ⟨hc', hstay' ?_⟩
  cases hw : (stores c.store).waitsForIndex with
  | true => exact hstay (hs.2 hw)
  | false => exact hf c hc₁ rfl hw

/-! ## A sample -/

def sampleCall (stage : PutStage) (dispatched : Bool) : Call :=
  ⟨0, sampleAssignment, sampleDraft, .ofNat 9, .epoch, stage, dispatched⟩

def sampleWrite (d : Dimension) (x : Uuid) : IndexWrite :=
  ⟨(sampleCall .index true).key (fun _ => {}) d x, (sampleCall .index true).event⟩

/-- Writes by customer fail. -/
def sampleFailing : Traffic := { start with rows := Rows.empty.failWrites .customer }

def sampleHandedOut : Traffic :=
  ((((sampleFailing.called 0 sampleAssignment sampleDraft (.ofNat 9) .epoch).advanced (fun _ => {})
    [] (sampleCall .event false) [] none).advanced (fun _ => {})
    [] (sampleCall (.alternateId "reading-1") false) [] none).handedOut (fun _ => {})
    [] (sampleCall .index false) [])

/-- The write by customer ends first. -/
def sampleEnd : Traffic :=
  (sampleHandedOut.written (sampleWrite .customer (.ofNat 3)) none).written
    (sampleWrite .assignment (.ofNat 1)) none

theorem sampleFailing_reach : Reach (fun _ => {}) true sampleFailing :=
  .single (.failWrites .start .customer rfl)

theorem sampleHandedOut_stretch : Stretch (fun _ => {}) true sampleFailing sampleHandedOut := by
  refine .tail (.tail (.tail (.single ⟨.call _ 0 sampleAssignment sampleDraft (.ofNat 9) .epoch ?_, fun _ => Iff.rfl⟩)
    ⟨.advance _ [] (sampleCall .event false) [] none rfl fun _ => rfl, fun _ => Iff.rfl⟩)
    ⟨.advance _ [] (sampleCall (.alternateId "reading-1") false) [] none rfl fun _ => rfl, fun _ => Iff.rfl⟩)
    ⟨.handOut _ [] (sampleCall .index false) [] rfl rfl rfl, fun _ => Iff.rfl⟩
  intro c hc
  cases hc

theorem sampleEnd_stretch : Stretch (fun _ => {}) true sampleHandedOut sampleEnd := by
  refine .tail (.single ⟨.write _ _ none ?_ fun _ => rfl, fun _ => Iff.rfl⟩) ⟨.write _ _ none ?_ fun _ => rfl, ?_⟩
  · decide
  · decide
  · intro _
    exact Iff.rfl

/-! ## Every association -/

/-- Once a flush has returned, each association of an event put before it is one entry or one
dead letter; and as long as the same dimensions fail, it is what inline puts leave. -/
theorem associations_conserved (stores : Nat → StoreSettings) (faults : Bool) :
    (∀ s₀ s₁ s c, Reach stores faults s₀ → c ∈ s₀.calls → Succeeded stores s₀ c → Run stores faults s₀ s₁ →
      Flushed stores s₁ c.store → Run stores faults s₁ s →
        (∀ d x, c.assignment.entityFor d = some x →
          (s.entriesOf (c.key stores d x) c.id = [c.event] ∧ s.lettersOf c.id d = []) ∨
            (s.entriesOf (c.key stores d x) c.id = [] ∧
              ∃ cause, s.lettersOf c.id d = [⟨c.id, d, x, cause⟩])) ∧
        (∀ d, c.assignment.entityFor d = none →
          s.lettersOf c.id d = [] ∧ ∀ k, k.dimension = d → s.entriesOf k c.id = []) ∧
        ∀ k ∈ s.rows.partitionsOf c.id,
          ∃ x, c.assignment.entityFor k.dimension = some x ∧ k = c.key stores k.dimension x) ∧
    (∀ s₀ s cs, Reach stores faults s₀ → s₀.pending = [] → Stretch stores faults s₀ s → s.pending = [] →
      cs.Perm (dispatchedSince s₀ s) →
        (∀ k, s.rows.row k = (inline stores s.given cs (s₀.rows, s₀.letters)).1.row k) ∧
          s.letters.Perm (inline stores s.given cs (s₀.rows, s₀.letters)).2) := by
  constructor
  · intro s₀ s₁ s c hr hc hs h₁ hf h
    obtain ⟨hc', hp⟩ := settled_after_flush hr hc hs h₁ hf h
    have hreach : Reach stores faults s := (hr.trans h₁).trans h
    have hi := reach_inv hreach
    have ha := reach_accounts hreach
    refine ⟨?_, ?_, ?_⟩
    · intro d x hx
      exact ha.settled hi hc' hs.1 hp hx
    · intro d hd
      exact ⟨ha.lettersOf_eq_nil hi hc' hd, fun k hk => ha.entriesOf_eq_nil hi hc' (hk ▸ hd)⟩
    · intro k hk
      obtain ⟨e, he, hid⟩ := Rows.mem_partitionsOf.1 hk
      exact ha.key_of_entry hi hc' he hid
  · intro s₀ s cs hr hp₀ h hp hcs
    exact stretch_agrees hr hp₀ h hp hcs

theorem associations_conserved_customer_lost :
    (∀ d x, sampleAssignment.entityFor d = some x →
      (sampleEnd.entriesOf ((sampleCall .index true).key (fun _ => {}) d x) (.ofNat 9) = [(sampleCall .index true).event] ∧
          sampleEnd.lettersOf (.ofNat 9) d = []) ∨
        (sampleEnd.entriesOf ((sampleCall .index true).key (fun _ => {}) d x) (.ofNat 9) = [] ∧
          ∃ cause, sampleEnd.lettersOf (.ofNat 9) d = [⟨.ofNat 9, d, x, cause⟩])) ∧
    (∀ k, sampleEnd.rows.row k =
      (inline (fun _ => {}) sampleEnd.given [sampleCall .index true] (sampleFailing.rows, [])).1.row k) ∧
    sampleEnd.letters.Perm
      (inline (fun _ => {}) sampleEnd.given [sampleCall .index true] (sampleFailing.rows, [])).2 := by
  have hpending : sampleEnd.pending = [] := by decide
  have hreach : Reach (fun _ => {}) true sampleHandedOut :=
    sampleFailing_reach.trans sampleHandedOut_stretch.run
  have hflushed : sampleEnd.Flushed (fun _ => {}) 0 := by
    intro c _ _ _ w hw
    rw [hpending] at hw
    cases hw
  obtain ⟨h₁, h₂⟩ := associations_conserved (fun _ => {}) true
  refine ⟨(h₁ sampleHandedOut sampleEnd sampleEnd (sampleCall .index true) hreach (.head _) ⟨rfl, fun h => nomatch h⟩
    sampleEnd_stretch.run hflushed .refl).1, ?_⟩
  exact h₂ sampleFailing sampleEnd [sampleCall .index true] sampleFailing_reach rfl
    (sampleHandedOut_stretch.trans sampleEnd_stretch) hpending (.refl _)

end Traffic
end DeviceEvents
