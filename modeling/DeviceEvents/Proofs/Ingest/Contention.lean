import DeviceEvents.Ingest.Deduplicator
import DeviceEvents.Proofs.Ingest.Inflow
/-
  DeviceEvents.Proofs.Ingest.Contention — payloads side by side that share one window.

  Actors. Transports bring payloads at any time (`arrive`). Each is decoded, reported and handled
  with any result and at any time. The one window answers whoever has a request judged (`judge`)
  or released (`release`), again at any time, and is emptied when the pipeline stops (`stop`); a
  payload that nobody attends to any more just stays where it is. What a step does to the
  fingerprints is told by its marks.

  Proved: a fingerprint once accepted stays a duplicate until as many others are accepted as the
  window takes (`stays_duplicate`), unless the handler gives the request back, or somebody releases
  it who had it in hand before. The last is no mere precaution, for the window releases by
  fingerprint and not by who put it there: one that is pushed out while its request is at the
  handler may be accepted for another payload, and a release by the first takes away what the
  other has brought to its end (`released_by_another`).
-/

namespace DeviceEvents

/-- The deduplicator that the payloads share. -/
def recent : Deduplicator (StateM Window) := .byWindow get set

theorem recent_seen {w : Window} {r : Request} (h : r.fingerprint ∈ w.queue) :
    recent.isDuplicate r w = (.ok true, w) := by
  show ((.ok (w.see r.fingerprint).1, (w.see r.fingerprint).2) : Except Refusal Bool × Window) = _
  rw [Window.see_of_mem h]

theorem recent_new {w : Window} {r : Request} (h : r.fingerprint ∉ w.queue) :
    recent.isDuplicate r w = (.ok false, w.push r.fingerprint h) := by
  show ((.ok (w.see r.fingerprint).1, (w.see r.fingerprint).2) : Except Refusal Bool × Window) = _
  rw [Window.see_of_not_mem h]

/-! ## One answer -/

theorem Heard.answer_of_new? {h : Heard} {r : Request} (hr : h.new? = some r) : h.answer = .judged (.ok false) := by
  unfold new? at hr
  split at hr
  · rfl
  · cases hr

namespace Delivery

/-- With a deduplicator, only what it has called new comes to the handler, and only what the handler
gives back is released. -/
theorem Goes.hands {d d' : Delivery} {c c' : Counters} {a : Answer} (h : d.Goes c a (d', c'))
    (hd : d.deduplicates = true) :
    d'.stage.handling? = Heard.new? ⟨d.stage, a⟩ ∧ d'.stage.releasing? = Heard.retryable? ⟨d.stage, a⟩ ∧
      d'.deduplicates = true := by
  cases h with
  | undecoded u hs | reported u hs =>
    rw [hs]
    exact ⟨rfl, rfl, hd⟩
  | decoded rs hs =>
    rw [handling?_turnTo, releasing?_turnTo, deduplicates_turnTo, hs, if_pos hd]
    exact ⟨rfl, rfl, hd⟩
  | released r rest hs =>
    rw [handling?_turnTo, releasing?_turnTo, deduplicates_turnTo, hs, if_pos hd]
    exact ⟨rfl, rfl, hd⟩
  | new r rest hs =>
    rw [hs]
    exact ⟨rfl, rfl, hd⟩
  | notNew r rest verdict f hs hf =>
    have hnew : Heard.new? ⟨.judging r rest, .judged verdict⟩ = none := by
      cases verdict with
      | error e => rfl
      | ok seen =>
        cases seen with
        | true => rfl
        | false => cases hf
    rw [stage_past, handling?_turnTo, releasing?_turnTo, deduplicates_past, hs, if_pos hd, hnew]
    exact ⟨rfl, (ite_self none).symm, hd⟩
  | handled r rest result f hs hf hne =>
    have hret : Heard.retryable? ⟨.handling r rest, .handled result⟩ = none := by
      refine if_neg fun h => hne hd ?_
      rw [hf] at h
      exact Option.some.inj h
    rw [stage_past, handling?_turnTo, releasing?_turnTo, deduplicates_past, hs, if_pos hd, hret]
    exact ⟨rfl, rfl, hd⟩
  | releasing r rest result hs hf _ =>
    rw [hs]
    exact ⟨rfl, (if_pos hf).symm, hd⟩

end Delivery

/-! ## Side by side -/

structure Contention where
  flow : Inflow
  window : Window

namespace Contention

inductive Act where
  | arrive (source : String) (x : Inbound)
  | decoded (i : Nat) (result : Except Undecoded (List Request))
  | reported (i : Nat)
  /-- The window judges the request that the `i`-th payload asks about. -/
  | judge (i : Nat)
  | handled (i : Nat) (result : Except Refusal Unit)
  /-- The window releases the request that the `i`-th payload gives up. -/
  | release (i : Nat)
  | stop

/-- What a step does to a fingerprint, and for which payload. -/
inductive Mark where
  | accepted (i : Nat) (f : Fingerprint)
  /-- `again`: the handler may take it another time. -/
  | handled (i : Nat) (f : Fingerprint) (again : Bool)
  | released (i : Nat) (f : Fingerprint)
  | cleared
  deriving DecidableEq

def Mark.isAcceptance : Mark → Bool
  | .accepted _ _ => true
  | _ => false

/-- How many fingerprints are accepted. -/
def fresh (marks : List Mark) : Nat := marks.countP Mark.isAcceptance

def start (capacity : Nat) : Contention := ⟨.start true, .ofCapacity capacity⟩

def stage? (s : Contention) (i : Nat) : Option Stage := s.flow.arrivals[i]?.map (·.delivery.stage)

def judging? (s : Contention) (i : Nat) : Option Request := (s.stage? i).bind Stage.judging?

def handling? (s : Contention) (i : Nat) : Option Request := (s.stage? i).bind Stage.handling?

def releasing? (s : Contention) (i : Nat) : Option Request := (s.stage? i).bind Stage.releasing?

/-- The `i`-th payload has had `f` accepted and is not through with it. -/
def Holds (s : Contention) (i : Nat) (f : Fingerprint) : Prop :=
  ∃ r, (s.handling? i = some r ∨ s.releasing? i = some r) ∧ r.fingerprint = f

def judge (s : Contention) (i : Nat) : Contention × List Mark :=
  match s.judging? i with
  | none => (s, [])
  | some r =>
    let (verdict, w) := recent.isDuplicate r s.window
    (⟨s.flow.tell i (.judged verdict), w⟩, match verdict with
      | .ok false => [.accepted i r.fingerprint]
      | _ => [])

def handled (s : Contention) (i : Nat) (result : Except Refusal Unit) : Contention × List Mark :=
  match s.handling? i with
  | none => (s, [])
  | some r =>
    ({ s with flow := s.flow.tell i (.handled result) },
      [.handled i r.fingerprint (decide ((Answer.handled result).fate? = some .retryable))])

def release (s : Contention) (i : Nat) : Contention × List Mark :=
  match s.releasing? i with
  | none => (s, [])
  | some r =>
    (⟨s.flow.tell i .released, (recent.forget r s.window).2⟩, [.released i r.fingerprint])

def step (s : Contention) : Act → Contention × List Mark
  | .arrive source x => ({ s with flow := s.flow.step (.arrive source x) }, [])
  | .decoded i result => ({ s with flow := s.flow.tell i (.decoded result) }, [])
  | .reported i => ({ s with flow := s.flow.tell i .reported }, [])
  | .judge i => s.judge i
  | .handled i result => s.handled i result
  | .release i => s.release i
  | .stop => ({ s with window := (recent.stop s.window).2 }, [.cleared])

/-- With the marks of all steps, the first one first. -/
def run (s : Contention) : List Act → Contention × List Mark
  | [] => (s, [])
  | act :: acts =>
    let (t, marks) := s.step act
    let (u, later) := t.run acts
    (u, marks ++ later)

def after (capacity : Nat) (acts : List Act) : Contention := ((start capacity).run acts).1

variable {s t : Contention} {i k n : Nat} {f : Fingerprint} {r : Request} {answer : Answer}

/-! Who has what in hand. -/

/-- All requests are judged. -/
def Judges (s : Contention) : Prop :=
  s.flow.deduplicates = true ∧ ∀ a ∈ s.flow.arrivals, a.delivery.deduplicates = true

/-- With one more answer to the `i`-th payload, if it waits for it. -/
def told (s : Contention) (i : Nat) (answer : Answer) : Contention := { s with flow := s.flow.tell i answer }

theorem told_cases (s : Contention) (i : Nat) (answer : Answer) :
    s.told i answer = s ∨ ∃ a d c, s.flow.arrivals[i]? = some a ∧ a.delivery.Goes s.flow.counters answer (d, c) ∧
      s.told i answer = { s with flow := { s.flow with counters := c, arrivals := s.flow.arrivals.set i (a.told answer d) } } := by
  unfold told Inflow.tell
  split
  · exact .inl rfl
  · rename_i a ha
    split
    · rename_i hw
      exact .inr ⟨a, _, _, ha, Delivery.answered_goes s.flow.counters hw, rfl⟩
    · exact .inl rfl

theorem Judges.told (h : s.Judges) (i : Nat) (answer : Answer) : (s.told i answer).Judges := by
  rcases s.told_cases i answer with heq | ⟨a, d, c, ha, hg, heq⟩
  · rw [heq]
    exact h
  · rw [heq]
    refine ⟨h.1, fun b hb => ?_⟩
    rcases List.mem_or_eq_of_mem_set hb with hb | rfl
    · exact h.2 b hb
    · exact (hg.hands (h.2 a (List.mem_of_getElem? ha))).2.2

/-- An answer gives a payload a request in hand only when it is new, and has it released only when it
may be taken another time. -/
theorem Judges.hands_told (h : s.Judges) (i : Nat) (answer : Answer) (k : Nat) (r : Request) :
    ((s.told i answer).handling? k = some r →
      s.handling? k = some r ∨ k = i ∧ answer = .judged (.ok false) ∧ s.judging? i = some r) ∧
    ((s.told i answer).releasing? k = some r →
      s.releasing? k = some r ∨ k = i ∧ answer.fate? = some .retryable ∧ s.handling? i = some r) := by
  rcases s.told_cases i answer with heq | ⟨a, d, c, ha, hg, heq⟩
  · rw [heq]
    exact ⟨.inl, .inl⟩
  · obtain ⟨hhand, hrel, -⟩ := hg.hands (h.2 a (List.mem_of_getElem? ha))
    by_cases hk : k = i
    · subst hk
      have hold : s.stage? k = some a.delivery.stage := congrArg (Option.map _) ha
      have hnew : (s.told k answer).stage? k = some d.stage := by
        have hlt : k < s.flow.arrivals.length := (List.getElem?_eq_some_iff.1 ha).1
        rw [heq]
        show ((s.flow.arrivals.set k (a.told answer d))[k]?).map _ = _
        rw [List.getElem?_set_self hlt]
        rfl
      rw [handling?, handling?, judging?, releasing?, releasing?, hnew, hold]
      show (d.stage.handling? = some r → _) ∧ (d.stage.releasing? = some r → _)
      rw [hhand, hrel]
      refine ⟨fun hr => .inr ⟨rfl, ?_, Heard.judging?_of_new? hr⟩, fun hr => ?_⟩
      · exact Heard.answer_of_new? hr
      · unfold Heard.retryable? at hr
        split at hr
        · rename_i hf
          exact .inr ⟨rfl, hf, hr⟩
        · cases hr
    · have hsame : (s.told i answer).stage? k = s.stage? k := by
        rw [heq]
        show ((s.flow.arrivals.set i (a.told answer d))[k]?).map _ = _
        rw [List.getElem?_set_ne fun he => hk he.symm]
        rfl
      rw [handling?, releasing?, hsame]
      exact ⟨.inl, .inl⟩

/-- A payload that has just come has nothing in hand. -/
theorem hands_arrive (s : Contention) (source : String) (x : Inbound) (k : Nat) :
    ((s.step (.arrive source x)).1.handling? k = s.handling? k) ∧
      (s.step (.arrive source x)).1.releasing? k = s.releasing? k := by
  have hstage : (s.step (.arrive source x)).1.stage? k = s.stage? k ∨
      s.stage? k = none ∧ (s.step (.arrive source x)).1.stage? k = some .decoding := by
    rcases Nat.lt_trichotomy k s.flow.arrivals.length with hlt | heq | hgt
    · left
      show ((s.flow.arrivals ++ [_])[k]?).map _ = _
      rw [List.getElem?_append_left hlt]
      rfl
    · right
      subst heq
      refine ⟨by rw [stage?, List.getElem?_eq_none (Nat.le_refl _)]; rfl, ?_⟩
      show ((s.flow.arrivals ++ [_])[s.flow.arrivals.length]?).map _ = _
      rw [List.getElem?_concat_length]
      rfl
    · left
      show ((s.flow.arrivals ++ [_])[k]?).map _ = _
      rw [stage?, List.getElem?_eq_none (by simp; omega), List.getElem?_eq_none (by omega)]
  unfold handling? releasing?
  rcases hstage with hsame | ⟨hnone, hnew⟩
  · rw [hsame]
    exact ⟨rfl, rfl⟩
  · rw [hnone, hnew]
    exact ⟨rfl, rfl⟩

/-! What a step does. -/

theorem step_judge_none (h : s.judging? i = none) : s.step (.judge i) = (s, []) := by
  rw [step, judge, h]

theorem step_judge_seen (h : s.judging? i = some r) (hm : r.fingerprint ∈ s.window.queue) :
    s.step (.judge i) = (s.told i (.judged (.ok true)), []) := by
  simp only [step, judge, h, recent_seen hm]
  rfl

theorem step_judge_new (h : s.judging? i = some r) (hn : r.fingerprint ∉ s.window.queue) :
    s.step (.judge i) = ({ s.told i (.judged (.ok false)) with window := s.window.push r.fingerprint hn },
      [.accepted i r.fingerprint]) := by
  simp only [step, judge, h, recent_new hn]
  rfl

theorem step_handled_none (h : s.handling? i = none) (result : Except Refusal Unit) :
    s.step (.handled i result) = (s, []) := by
  rw [step, handled, h]

theorem step_handled_some (h : s.handling? i = some r) (result : Except Refusal Unit) :
    s.step (.handled i result) = (s.told i (.handled result),
      [.handled i r.fingerprint (decide ((Answer.handled result).fate? = some .retryable))]) := by
  rw [step, handled, h]
  rfl

theorem step_release_none (h : s.releasing? i = none) : s.step (.release i) = (s, []) := by
  rw [step, release, h]

theorem step_release_some (h : s.releasing? i = some r) :
    s.step (.release i) = ({ s.told i .released with window := s.window.forget r.fingerprint },
      [.released i r.fingerprint]) := by
  rw [step, release, h]
  rfl

theorem step_judges (h : s.Judges) (act : Act) : (s.step act).1.Judges := by
  cases act with
  | arrive source x =>
    refine ⟨h.1, fun a ha => ?_⟩
    rcases List.mem_append.1 ha with ha | ha
    · exact h.2 a ha
    · rw [List.mem_singleton.1 ha]
      exact h.1
  | decoded k result => exact h.told k _
  | reported k => exact h.told k _
  | judge k =>
    cases hr : s.judging? k with
    | none =>
      rw [step_judge_none hr]
      exact h
    | some r =>
      by_cases hm : r.fingerprint ∈ s.window.queue
      · rw [step_judge_seen hr hm]
        exact h.told k _
      · rw [step_judge_new hr hm]
        exact h.told k (.judged (.ok false))
  | handled k result =>
    cases hr : s.handling? k with
    | none =>
      rw [step_handled_none hr]
      exact h
    | some r =>
      rw [step_handled_some hr]
      exact h.told k _
  | release k =>
    cases hr : s.releasing? k with
    | none =>
      rw [step_release_none hr]
      exact h
    | some r =>
      rw [step_release_some hr]
      exact h.told k .released
  | stop => exact h

theorem run_judges (h : s.Judges) (acts : List Act) : (s.run acts).1.Judges := by
  induction acts generalizing s with
  | nil => exact h
  | cons act acts ih => exact ih (step_judges h act)

theorem capacity_step (s : Contention) (act : Act) : (s.step act).1.window.capacity = s.window.capacity := by
  cases act with
  | arrive source x | decoded k result | reported k | stop => rfl
  | judge k =>
    cases hr : s.judging? k with
    | none => rw [step_judge_none hr]
    | some r =>
      by_cases hm : r.fingerprint ∈ s.window.queue
      · rw [step_judge_seen hr hm]
        rfl
      · rw [step_judge_new hr hm]
        rfl
  | handled k result =>
    cases hr : s.handling? k with
    | none => rw [step_handled_none hr]
    | some r =>
      rw [step_handled_some hr]
      rfl
  | release k =>
    cases hr : s.releasing? k with
    | none => rw [step_release_none hr]
    | some r =>
      rw [step_release_some hr]
      exact Window.capacity_forget _ _

theorem capacity_run (s : Contention) (acts : List Act) : (s.run acts).1.window.capacity = s.window.capacity := by
  induction acts generalizing s with
  | nil => rfl
  | cons act acts ih => exact (ih _).trans (capacity_step s act)

/-! ## A fingerprint that stays -/

/-- `f` is in the window, and at least `n` others may come before it is pushed out. -/
def Lasts (w : Window) (f : Fingerprint) (n : Nat) : Prop :=
  ∃ older newer, w.queue = older ++ f :: newer ∧ newer.length + n < w.capacity

theorem Lasts.mem {w : Window} (h : Lasts w f n) : f ∈ w.queue := by
  obtain ⟨older, newer, hq, -⟩ := h
  rw [hq]
  exact List.mem_append_right _ List.mem_cons_self

theorem lasts_push {w : Window} (hf : f ∉ w.queue) (hn : n < w.capacity) : Lasts (w.push f hf) f n := by
  refine ⟨w.queue.drop (w.queue.length + 1 - w.capacity), [], ?_, by simpa using hn⟩
  have := w.roomy
  rw [Window.queue_push, List.drop_append_of_le_length (by omega)]

theorem Lasts.push {w : Window} {g : Fingerprint} (h : Lasts w f (n + 1)) (hg : g ∉ w.queue) :
    Lasts (w.push g hg) f n := by
  obtain ⟨older, newer, hq, hlen⟩ := h
  have hsize : w.queue.length = older.length + (newer.length + 1) := by rw [hq, List.length_append, List.length_cons]
  refine ⟨older.drop (w.queue.length + 1 - w.capacity), newer ++ [g], ?_, ?_⟩
  · rw [Window.queue_push, hq, List.append_assoc, ← hq, List.drop_append_of_le_length (by omega)]
    rfl
  · rw [Window.capacity_push, List.length_append, List.length_singleton]
    omega

theorem Lasts.forget {w : Window} {g : Fingerprint} (h : Lasts w f n) (hne : f ≠ g) : Lasts (w.forget g) f n := by
  obtain ⟨older, newer, hq, hlen⟩ := h
  refine ⟨older.filter (· != g), newer.filter (· != g), ?_, ?_⟩
  · rw [Window.queue_forget, hq, List.filter_append, List.filter_cons_of_pos (by simpa using hne)]
  · have := List.length_filter_le (· != g) newer
    rw [Window.capacity_forget]
    omega

/-- The `i`-th payload has had `f` accepted, which at least `n` others do not push out. Whoever else
has it in hand had it before. -/
structure Guarded (others : Nat → Prop) (i : Nat) (f : Fingerprint) (n : Nat) (s : Contention) : Prop where
  judges : s.Judges
  lasts : Lasts s.window f n
  handling : ∀ k r, s.handling? k = some r → r.fingerprint = f → others k ∨ k = i
  releasing : ∀ k r, s.releasing? k = some r → r.fingerprint = f → others k

variable {others : Nat → Prop}

theorem Guarded.told (h : s.Guarded others i f n)
    (hnew : answer = .judged (.ok false) → ∀ r, s.judging? k = some r → r.fingerprint ≠ f)
    (hagain : answer.fate? = some .retryable → ∀ r, s.handling? k = some r → r.fingerprint = f → others k) :
    (s.told k answer).Guarded others i f n where
  judges := h.judges.told k answer
  lasts := h.lasts
  handling j r hj hr := by
    rcases (h.judges.hands_told k answer j r).1 hj with hj | ⟨rfl, hf, hj⟩
    · exact h.handling j r hj hr
    · exact absurd hr (hnew hf r hj)
  releasing j r hj hr := by
    rcases (h.judges.hands_told k answer j r).2 hj with hj | ⟨rfl, hf, hj⟩
    · exact h.releasing j r hj hr
    · exact hagain hf r hj hr

theorem Guarded.ofWindow {w : Window} {m : Nat} (h : s.Guarded others i f n) (hw : Lasts w f m) :
    Guarded others i f m { s with window := w } :=
  ⟨h.judges, hw, h.handling, h.releasing⟩

/-- What one step preserves. -/
theorem step_guarded {act : Act} (h : s.Guarded others i f (fresh (s.step act).2 + n))
    (hstop : .cleared ∉ (s.step act).2) (hkept : .handled i f true ∉ (s.step act).2)
    (hothers : ∀ k, others k → .released k f ∉ (s.step act).2) : (s.step act).1.Guarded others i f n := by
  have idle : ∀ {m : Nat}, s.Guarded others i f (fresh [] + m) → s.Guarded others i f m := fun h => by
    rwa [fresh, List.countP_nil, Nat.zero_add] at h
  cases act with
  | arrive source x =>
    refine ⟨step_judges h.judges _, (idle h).lasts, fun k r hk => ?_, fun k r hk => ?_⟩
    · rw [(hands_arrive s source x k).1] at hk
      exact h.handling k r hk
    · rw [(hands_arrive s source x k).2] at hk
      exact h.releasing k r hk
  | decoded k result => exact (idle h).told nofun nofun
  | reported k => exact (idle h).told nofun nofun
  | judge k =>
    cases hr : s.judging? k with
    | none =>
      rw [step_judge_none hr] at h ⊢
      exact idle h
    | some r =>
      by_cases hm : r.fingerprint ∈ s.window.queue
      · rw [step_judge_seen hr hm] at h ⊢
        exact (idle h).told nofun nofun
      · -- what is accepted is not `f`, for `f` is in the window
        have hne : r.fingerprint ≠ f := fun he => hm (he ▸ h.lasts.mem)
        rw [step_judge_new hr hm] at h ⊢
        have htold : (s.told k (.judged (.ok false))).Guarded others i f (1 + n) := by
          refine h.told (fun _ q hq => ?_) nofun
          rw [hr] at hq
          exact Option.some.inj hq ▸ hne
        rw [Nat.add_comm] at htold
        exact htold.ofWindow (htold.lasts.push hm)
  | handled k result =>
    cases hr : s.handling? k with
    | none =>
      rw [step_handled_none hr] at h ⊢
      exact idle h
    | some r =>
      rw [step_handled_some hr] at h hkept ⊢
      refine (idle h).told nofun fun hf q hq hqf => ?_
      obtain rfl : r = q := Option.some.inj (hr.symm.trans hq)
      rcases h.handling k r hr hqf with ho | rfl
      · exact ho
      · rw [hqf, decide_eq_true hf] at hkept
        exact absurd List.mem_cons_self hkept
  | release k =>
    cases hr : s.releasing? k with
    | none =>
      rw [step_release_none hr] at h ⊢
      exact idle h
    | some r =>
      rw [step_release_some hr] at h hothers ⊢
      have hne : f ≠ r.fingerprint := by
        rintro rfl
        exact hothers k (h.releasing k r hr rfl) List.mem_cons_self
      have htold : (s.told k .released).Guarded others i f n := (idle h).told nofun nofun
      exact htold.ofWindow (htold.lasts.forget hne)
  | stop => exact absurd List.mem_cons_self hstop

/-- What a whole run preserves. -/
theorem run_guarded (acts : List Act) (h : s.Guarded others i f (fresh (s.run acts).2 + n))
    (hstop : .cleared ∉ (s.run acts).2) (hkept : .handled i f true ∉ (s.run acts).2)
    (hothers : ∀ k, others k → .released k f ∉ (s.run acts).2) : (s.run acts).1.Guarded others i f n := by
  induction acts generalizing s with
  | nil =>
    rw [run, fresh, List.countP_nil, Nat.zero_add] at h
    exact h
  | cons act acts ih =>
    have hmarks : (s.run (act :: acts)).2 = (s.step act).2 ++ ((s.step act).1.run acts).2 := rfl
    have hfresh : fresh (s.run (act :: acts)).2 = fresh (s.step act).2 + fresh ((s.step act).1.run acts).2 := by
      rw [hmarks, fresh, List.countP_append]
      rfl
    rw [hfresh, Nat.add_assoc] at h
    rw [hmarks] at hstop hkept hothers
    have hhere := step_guarded h (fun hm => hstop (List.mem_append_left _ hm))
      (fun hm => hkept (List.mem_append_left _ hm)) fun k hk hm => hothers k hk (List.mem_append_left _ hm)
    exact ih hhere (fun hm => hstop (List.mem_append_right _ hm)) (fun hm => hkept (List.mem_append_right _ hm))
      fun k hk hm => hothers k hk (List.mem_append_right _ hm)

theorem after_judges (capacity : Nat) (acts : List Act) : (after capacity acts).Judges :=
  run_judges ⟨rfl, fun _ ha => absurd ha List.not_mem_nil⟩ acts

theorem after_append (capacity : Nat) (before : List Act) (act : Act) (more : List Act) :
    after capacity (before ++ act :: more) = (((after capacity before).step act).1.run more).1 := by
  have hrun : ∀ s : Contention, (s.run (before ++ act :: more)).1 = ((((s.run before).1.step act).1).run more).1 := by
    induction before with
    | nil => exact fun _ => rfl
    | cons first before ih => exact fun s => ih (s.step first).1
  exact hrun (start capacity)

theorem capacity_after (capacity : Nat) (acts : List Act) : (after capacity acts).window.capacity = max capacity 1 :=
  capacity_run (start capacity) acts

/-- Whatever comes before and whatever comes later, and in whatever order it comes: when `f` is accepted for
a payload whose handler does not give it back, it stays a duplicate as long as fewer others are accepted
than the window takes and the pipeline is not stopped, provided that no payload which had it in
hand already releases it. -/
theorem stays_duplicate {capacity i : Nat} {f : Fingerprint} {before later : List Act} {s t : Contention}
    {marks : List Mark} (haccepted : (after capacity before).step (.judge i) = (s, [.accepted i f]))
    (hlater : s.run later = (t, marks)) (hfresh : fresh marks < max capacity 1) (hstop : .cleared ∉ marks)
    (hkept : .handled i f true ∉ marks) (hothers : ∀ k, (after capacity before).Holds k f → .released k f ∉ marks)
    {r : Request} (hr : r.fingerprint = f) : recent.isDuplicate r t.window = (.ok true, t.window) := by
  have hj := after_judges capacity before
  have hcap := capacity_after capacity before
  generalize after capacity before = s₀ at haccepted hothers hj hcap
  cases hq : s₀.judging? i with
  | none =>
    rw [step_judge_none hq] at haccepted
    cases haccepted
  | some q =>
    by_cases hm : q.fingerprint ∈ s₀.window.queue
    · rw [step_judge_seen hq hm] at haccepted
      cases haccepted
    · rw [step_judge_new hq hm] at haccepted
      cases haccepted
      have hs : Guarded (fun k => s₀.Holds k q.fingerprint) i q.fingerprint (fresh marks + 0)
          { s₀.told i (.judged (.ok false)) with window := s₀.window.push q.fingerprint hm } := by
        refine ⟨hj.told i _, lasts_push hm (by rw [hcap]; exact hfresh), fun k p hk hp => ?_, fun k p hk hp => ?_⟩
        · rcases (hj.hands_told i _ k p).1 hk with hk | ⟨rfl, -, -⟩
          · exact .inl ⟨p, .inl hk, hp⟩
          · exact .inr rfl
        · rcases (hj.hands_told i _ k p).2 hk with hk | ⟨-, hf, -⟩
          · exact ⟨p, .inr hk, hp⟩
          · cases hf
      have ht := run_guarded (n := 0) later (by rw [hlater]; exact hs) (by rw [hlater]; exact hstop)
        (by rw [hlater]; exact hkept) (by rw [hlater]; exact hothers)
      rw [hlater] at ht
      exact recent_seen (hr ▸ ht.lasts.mem)

/-! Two requests that come to one window. -/

def comes (i : Nat) (r : Request) : List Act := [.arrive "mqtt" ⟨.empty, .empty⟩, .decoded i (.ok [r])]

/-- Payloads of one transport at the stages given, each with what it has been through. -/
def scene (w : Window) (c : Counters) (as : List ((Outcome × List Heard) × Stage)) : Contention :=
  ⟨⟨true, c, as.map fun a => ⟨"mqtt", ⟨.empty, .empty⟩, ⟨true, a.1.1, a.2⟩, a.1.2⟩⟩, w⟩

variable {q : Request}

theorem first_accepted (capacity : Nat) (h : r.fingerprint ∉ (Window.ofCapacity capacity).queue) :
    ∃ c a, (after capacity (comes 0 r)).step (.judge 0) =
      (scene ((Window.ofCapacity capacity).push r.fingerprint h) c [(a, .handling r [])], [.accepted 0 r.fingerprint]) :=
  ⟨_, (_, _), step_judge_new rfl h⟩

theorem window_for_two (hne : q.fingerprint ≠ r.fingerprint) :
    ∃ s t, (after 2 (comes 0 r)).step (.judge 0) = (s, [.accepted 0 r.fingerprint]) ∧
      s.run (.handled 0 (.ok ()) :: comes 1 q ++ [.judge 1]) =
        (t, [.handled 0 r.fingerprint false, .accepted 1 q.fingerprint]) := by
  have hr : r.fingerprint ∉ (Window.ofCapacity 2).queue := List.not_mem_nil
  let w := (Window.ofCapacity 2).push r.fingerprint hr
  have hq : q.fingerprint ∉ w.queue := by
    rw [show w.queue = [r.fingerprint] from Window.queue_push _ _ hr, List.mem_singleton]
    exact hne
  obtain ⟨c, a, h₁⟩ := first_accepted 2 hr
  obtain ⟨t, h₂⟩ : ∃ t, ((scene w c [(a, .handling r [])]).run (.handled 0 (.ok ()) :: comes 1 q)).1.step (.judge 1) =
      (t, [.accepted 1 q.fingerprint]) := ⟨_, step_judge_new rfl hq⟩
  exact ⟨_, _, h₁, Prod.ext rfl (congrArg (fun p => .handled 0 r.fingerprint false :: p.2 ++ []) h₂)⟩

theorem window_for_one (hne : q.fingerprint ≠ r.fingerprint) :
    ∃ s t, (after 1 (comes 0 r ++ .judge 0 :: comes 1 q ++ .judge 1 :: comes 2 r)).step (.judge 2) =
        (s, [.accepted 2 r.fingerprint]) ∧
      s.run [.handled 2 (.ok ()), .handled 0 (.error (.eventStoreUnavailable "down")), .release 0] =
        (t, [.handled 2 r.fingerprint false, .handled 0 r.fingerprint true, .released 0 r.fingerprint]) ∧
      (recent.isDuplicate r t.window).1 = .ok false := by
  -- a window for one holds what has been accepted last
  have last : ∀ {w : Window} {f : Fingerprint} (h : f ∉ w.queue), w.capacity = 1 → (w.push f h).queue = [f] := by
    intro w f h hcap
    rw [Window.queue_push, hcap, Nat.add_sub_cancel, List.drop_left]
  let w₀ := Window.ofCapacity 1
  have hr : r.fingerprint ∉ w₀.queue := List.not_mem_nil
  let w₁ := w₀.push r.fingerprint hr
  have hq : q.fingerprint ∉ w₁.queue := by
    rw [last hr rfl, List.mem_singleton]
    exact hne
  let w₂ := w₁.push q.fingerprint hq
  have hr' : r.fingerprint ∉ w₂.queue := by
    rw [last hq rfl, List.mem_singleton]
    exact hne.symm
  let w₃ := w₂.push r.fingerprint hr'
  obtain ⟨c₁, a, h₁⟩ := first_accepted 1 hr
  obtain ⟨c₂, b, h₂⟩ : ∃ c b, ((scene w₁ c₁ [(a, .handling r [])]).run (comes 1 q)).1.step (.judge 1) =
      (scene w₂ c [(a, .handling r []), (b, .handling q [])], [.accepted 1 q.fingerprint]) :=
    ⟨_, (_, _), step_judge_new rfl hq⟩
  obtain ⟨c₃, d, h₃⟩ : ∃ c d, ((scene w₂ c₂ [(a, .handling r []), (b, .handling q [])]).run (comes 2 r)).1.step (.judge 2) =
      (scene w₃ c [(a, .handling r []), (b, .handling q []), (d, .handling r [])], [.accepted 2 r.fingerprint]) :=
    ⟨_, (_, _), step_judge_new rfl hr'⟩
  obtain ⟨c₄, d', h₄⟩ : ∃ c d', (scene w₃ c₃ [(a, .handling r []), (b, .handling q []), (d, .handling r [])]).step
      (.handled 2 (.ok ())) = (scene w₃ c [(a, .handling r []), (b, .handling q []), (d', .finished)],
        [.handled 2 r.fingerprint false]) :=
    ⟨_, (_, _), step_handled_some rfl _⟩
  obtain ⟨c₅, a', h₅⟩ : ∃ c a', (scene w₃ c₄ [(a, .handling r []), (b, .handling q []), (d', .finished)]).step
      (.handled 0 (.error (.eventStoreUnavailable "down"))) =
        (scene w₃ c [(a', .releasing r []), (b, .handling q []), (d', .finished)], [.handled 0 r.fingerprint true]) :=
    ⟨_, (_, _), step_handled_some rfl _⟩
  have hgone : r.fingerprint ∉ (w₃.forget r.fingerprint).queue := by
    rw [Window.queue_forget, List.mem_filter]
    rintro ⟨-, hne⟩
    exact absurd hne (by simp)
  obtain ⟨t, h₆, hgone⟩ : ∃ t, (scene w₃ c₅ [(a', .releasing r []), (b, .handling q []), (d', .finished)]).step (.release 0) =
      (t, [.released 0 r.fingerprint]) ∧ r.fingerprint ∉ t.window.queue := by
    refine ⟨_, step_release_some rfl, ?_⟩
    exact hgone
  refine ⟨scene w₃ c₃ [(a, .handling r []), (b, .handling q []), (d, .handling r [])], t, ?_, ?_, by rw [recent_new hgone]⟩
  · rw [after_append, after_append, h₁]
    show (((scene w₁ c₁ [(a, .handling r [])]).run (comes 1 q)).1.step (.judge 1)).1.run (comes 2 r) |>.1.step _ = _
    rw [h₂]
    exact h₃
  · simp only [run, h₄, h₅, h₆, List.cons_append, List.nil_append, List.append_nil]

def sampleCalled (a : String) : Request :=
  ⟨"gauge", none, { Draft.ofPayload (.stateChange ⟨"mode", "set", none, some "on"⟩) with alternateId := some a }⟩

theorem sample_fingerprints : (sampleCalled "b").fingerprint ≠ (sampleCalled "a").fingerprint := by decide +kernel

/-- In a window for two, a request that is through stays a duplicate when another one comes. -/
theorem stays_duplicate_two : ∃ s t,
    (after 2 (comes 0 (sampleCalled "a"))).step (.judge 0) = (s, [.accepted 0 (sampleCalled "a").fingerprint]) ∧
      s.run (.handled 0 (.ok ()) :: comes 1 (sampleCalled "b") ++ [.judge 1]) =
        (t, [.handled 0 (sampleCalled "a").fingerprint false, .accepted 1 (sampleCalled "b").fingerprint]) ∧
      recent.isDuplicate (sampleCalled "a") t.window = (.ok true, t.window) := by
  obtain ⟨s, t, hs, ht⟩ := window_for_two sample_fingerprints
  exact ⟨s, t, hs, ht, stays_duplicate hs ht (by decide) (by simp) (by simp) (fun k _ => by simp) rfl⟩

/-- In a window for one, a request comes a second time when it has been pushed out, but is still at the
handler. The second one gets through, and is then released by the first. -/
theorem released_by_another :
    let r := sampleCalled "a"
    ∃ s t, (after 1 (comes 0 r ++ .judge 0 :: comes 1 (sampleCalled "b") ++ .judge 1 :: comes 2 r)).step (.judge 2) =
        (s, [.accepted 2 r.fingerprint]) ∧
      s.run [.handled 2 (.ok ()), .handled 0 (.error (.eventStoreUnavailable "down")), .release 0] =
        (t, [.handled 2 r.fingerprint false, .handled 0 r.fingerprint true, .released 0 r.fingerprint]) ∧
      (recent.isDuplicate r t.window).1 = .ok false :=
  window_for_one sample_fingerprints

end Contention
end DeviceEvents
