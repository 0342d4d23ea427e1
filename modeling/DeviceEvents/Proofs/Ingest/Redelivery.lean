import DeviceEvents.Ingest.Intake
import DeviceEvents.Proofs.Stateful
import Mathlib.Data.List.Dedup
import Mathlib.Data.List.Perm.Subperm
/-
  DeviceEvents.Proofs.Ingest.Redelivery — a payload that comes again until nothing of it is left.

  Actors. A transport brings one payload, and brings it again as long as the outcome says so. An
  intake judges its requests by a window. A handler answers in any way (`Site`): an answer is
  conclusive unless it may be another one next time, in which case the window forgets the request.

  The window holds the fingerprints of the payload behind all others (`Window.Behind`), so what
  leaves it are others as long as there is room for the payload. With that, settling one request
  (`Settles`) keeps the books (`Settles.kept`): a fingerprint of the payload is in the window if it
  has got its conclusive answer, and has got only one. Main statement: `redelivery_exact`.
-/

namespace DeviceEvents

/-! ## The window -/

namespace Window

/-- The fingerprints among `fs` have come after all others. -/
def Behind (w : Window) (fs : List Fingerprint) : Prop :=
  ∃ others own, w.queue = others ++ own ∧ (∀ f ∈ others, f ∉ fs) ∧ ∀ f ∈ own, f ∈ fs

variable {w : Window} {fs : List Fingerprint} {f : Fingerprint}

theorem behind_of_none (h : ∀ f ∈ fs, f ∉ w.queue) : w.Behind fs :=
  ⟨w.queue, [], (List.append_nil _).symm, fun f hf hfs => h f hfs hf, fun _ hf => nomatch hf⟩

/-- A fresh fingerprint of `fs` drives out others at most. -/
theorem Behind.push (hw : w.Behind fs) (hroom : fs.dedup.length ≤ w.capacity) (hf : f ∈ fs) (h : f ∉ w.queue) :
    (w.push f h).Behind fs ∧ ∀ g ∈ fs, g ∈ (w.push f h).queue ↔ g ∈ w.queue ∨ g = f := by
  obtain ⟨others, own, hq, hothers, hown⟩ := hw
  have hd : (own ++ [f]).Nodup := by
    have hqd := w.distinct
    rw [hq] at hqd h
    refine List.nodup_append.2 ⟨(List.nodup_append.1 hqd).2.1, by simp, ?_⟩
    rintro x hx y hy rfl
    exact h (List.mem_append_right _ (List.mem_singleton.1 hy ▸ hx))
  have hsub : own ++ [f] ⊆ fs.dedup := by
    intro g hg
    rw [List.mem_dedup]
    rcases List.mem_append.1 hg with hg | hg
    · exact hown g hg
    · exact List.mem_singleton.1 hg ▸ hf
  have hlen : own.length + 1 ≤ w.capacity := by
    have := (hd.subperm hsub).length_le
    rw [List.length_append, List.length_singleton] at this
    omega
  have hkept : (w.push f h).queue = others.drop (w.queue.length + 1 - w.capacity) ++ (own ++ [f]) := by
    have hle : w.queue.length + 1 - w.capacity ≤ others.length := by
      rw [hq, List.length_append]
      omega
    rw [queue_push, hq, List.append_assoc, ← hq, List.drop_append_of_le_length hle]
  have hdrop : ∀ g ∈ others.drop (w.queue.length + 1 - w.capacity), g ∉ fs := fun g hg =>
    hothers g (List.mem_of_mem_drop hg)
  refine ⟨⟨_, own ++ [f], hkept, hdrop, fun g hg => List.mem_dedup.1 (hsub hg)⟩, fun g hg => ?_⟩
  have hold : g ∈ w.queue ↔ g ∈ own := by
    rw [hq, List.mem_append, or_iff_right fun ho => hothers g ho hg]
  rw [hold, hkept, List.mem_append, or_iff_right fun ho => hdrop g ho hg, List.mem_append, List.mem_singleton]

theorem Behind.forget (hw : w.Behind fs) (f : Fingerprint) : (w.forget f).Behind fs := by
  obtain ⟨others, own, hq, hothers, hown⟩ := hw
  refine ⟨others.filter (· != f), own.filter (· != f), ?_, ?_, ?_⟩
  · rw [queue_forget, hq, List.filter_append]
  · intro g hg
    exact hothers g (List.mem_filter.1 hg).1
  · intro g hg
    exact hown g (List.mem_filter.1 hg).1

theorem mem_forget {g : Fingerprint} : g ∈ (w.forget f).queue ↔ g ∈ w.queue ∧ g ≠ f := by
  rw [queue_forget, List.mem_filter, bne_iff_ne]

end Window

/-! ## A delivery between two requests -/

namespace Delivery

/-- Between two requests, each of which will be judged. -/
structure Facing (d : Delivery) (todo : List Request) : Prop where
  deduplicates : d.deduplicates = true
  faces : d.Faces todo

theorem Facing.judging {d : Delivery} {r : Request} {rest : List Request} (h : d.Facing (r :: rest)) :
    d.stage = .judging r rest := by
  rw [h.faces, turnTo, h.deduplicates, if_pos rfl]

/-- Nobody is waited for but the deduplicator. -/
theorem Facing.idle {d : Delivery} {todo : List Request} (h : d.Facing todo) :
    d.stage = .finished ∨ ∃ r rest, d.stage = .judging r rest := by
  cases todo with
  | nil => exact .inl h.faces
  | cons r rest => exact .inr ⟨r, rest, h.judging⟩

/-- So nothing else happens on its behalf. -/
theorem Facing.rests {m : Type → Type} [Monad m] {d : Delivery} {todo : List Request} (h : d.Facing todo)
    (s : Services m) : handleNext s d = pure d ∧ releaseNext s d = pure d := by
  unfold handleNext releaseNext
  rcases h.idle with h | ⟨r, rest, h⟩
  · simp only [h, and_self]
  · simp only [h, and_self]

theorem facing_turnTo {d : Delivery} (h : d.deduplicates = true) (todo : List Request) : (d.turnTo todo).Facing todo :=
  ⟨(deduplicates_turnTo d todo).trans h, faces_turnTo d todo⟩

/-- What a delivery sets out with. -/
def outset (rs : List Request) : Delivery :=
  turnTo { start true with outcome := { decoded := rs.length } } rs

theorem facing_outset (rs : List Request) : (outset rs).Facing rs := facing_turnTo rfl rs

theorem retryable_outset (rs : List Request) : (outset rs).outcome.retryable = 0 :=
  congrArg Outcome.retryable (outcome_turnTo { start true with outcome := { decoded := rs.length } } rs)

theorem facing_past {d : Delivery} (h : d.deduplicates = true) (f : Fate) (rest : List Request) :
    (d.past f rest).Facing rest :=
  ⟨(deduplicates_past d f rest).trans h, faces_past d f rest⟩

end Delivery

namespace Intake

variable {m : Type → Type} [Monad m]

/-- A delivery up to where `k` of its requests are settled. -/
def settleFirst (i : Intake m) (source : String) (x : Inbound) (k : Nat) : m Delivery := do
  i.setCounters (← i.counters).addPayload
  let d ← Delivery.note (i.services source x)
    ((Delivery.start (i.services source x).deduplicates).decoded (← i.counters) (i.decode x))
  Delivery.settleMany (i.services source x) k d

theorem receive_eq [LawfulMonad m] (i : Intake m) (source : String) {x : Inbound} {rs : List Request}
    (h : i.decode x = .ok rs) :
    i.receive source x = do return (← i.settleFirst source x rs.length).outcome := by
  unfold receive settleFirst Delivery.receive Delivery.note
  simp only [h, Delivery.decoded, bind_assoc, pure_bind, Delivery.unsettled_turnTo]
  cases rs with
  | nil => rfl
  | cons r rest =>
    simp only [Delivery.turnTo, Delivery.start]
    cases (i.services source x).deduplicates <;> rfl

end Intake

/-! ## The site of a delivery -/

/-- The handler has done with the request, for good or ill. -/
def conclusive : Except Refusal Unit → Bool
  | .ok () => true
  | .error e => !e.isTransient

structure Site (σ : Type) where
  window : Window
  counters : Counters
  /-- What the handler goes by. -/
  rest : σ
  /-- What the handler has answered, the latest last. -/
  answered : List (Request × Except Refusal Unit)

/-- A handler of any kind. -/
structure Answers (σ : Type) where
  handle : String → Inbound → Request → σ → Except Refusal Unit × σ
  report : String → Inbound → Undecoded → σ → σ

namespace Site

variable {σ : Type}

/-- The conclusive answers to requests with a fingerprint. -/
def conclusions (s : Site σ) (f : Fingerprint) : Nat :=
  s.answered.countP fun a => a.1.fingerprint == f && conclusive a.2

def handler (a : Answers σ) : Handler (StateM (Site σ)) where
  handle source x r := do
    let s ← get
    let (answer, rest) := a.handle source x r s.rest
    set { s with rest, answered := s.answered ++ [(r, answer)] }
    return answer
  report source x u := modify fun s => { s with rest := a.report source x u s.rest }

def intake (decode : Inbound → Except Undecoded (List Request)) (a : Answers σ) : Intake (StateM (Site σ)) where
  decode
  deduplicator := some (.byWindow (return (← get).window) fun window => modify fun s => { s with window })
  handler := handler a
  counters := return (← get).counters
  setCounters counters := modify fun s => { s with counters }

variable (decode : Inbound → Except Undecoded (List Request)) (a : Answers σ) (source : String) (x : Inbound)

/-- The site before the `n`-th delivery, counted from 0, of a payload that comes again and again. -/
def before (s : Site σ) : Nat → Site σ
  | 0 => s
  | n + 1 => ((intake decode a).receive source x (before s n)).2

/-- What becomes of the `n`-th delivery. -/
def outcome (s : Site σ) (n : Nat) : Outcome :=
  ((intake decode a).receive source x (before decode a source x s n)).1

/-- The site when `k` requests of a delivery are settled. -/
def partway (s : Site σ) (k : Nat) : Site σ :=
  ((intake decode a).settleFirst source x k s).2

/-! ## One request -/

variable {decode a source x} {fs : List Fingerprint} {s s' : Site σ} {d d' : Delivery}

theorem judgeNext_seen {r : Request} {rest : List Request} (h : d.stage = .judging r rest)
    (hf : r.fingerprint ∈ s.window.queue) :
    Delivery.judgeNext ((intake decode a).services source x) d s =
      (d.past .duplicate rest, { s with counters := s.counters.add .duplicate }) := by
  rw [Delivery.judgeNext, h]
  show ((d.judged s.counters (.ok (s.window.see _).1)).1,
    { s with window := (s.window.see _).2, counters := (d.judged s.counters (.ok (s.window.see _).1)).2 }) = _
  rw [Window.see_of_mem hf, Delivery.judged_seen _ h]

theorem judgeNext_new {r : Request} {rest : List Request} (h : d.stage = .judging r rest)
    (hf : r.fingerprint ∉ s.window.queue) :
    Delivery.judgeNext ((intake decode a).services source x) d s =
      ({ d with stage := .handling r rest }, { s with window := s.window.push r.fingerprint hf }) := by
  rw [Delivery.judgeNext, h]
  show ((d.judged s.counters (.ok (s.window.see _).1)).1,
    { s with window := (s.window.see _).2, counters := (d.judged s.counters (.ok (s.window.see _).1)).2 }) = _
  rw [Window.see_of_not_mem hf, Delivery.judged_new _ h]

theorem handleNext_eq {r : Request} {rest : List Request} (h : d.stage = .handling r rest) {answer : Except Refusal Unit}
    (hans : (a.handle source x r s.rest).1 = answer) :
    Delivery.handleNext ((intake decode a).services source x) d s =
      ((d.handled s.counters answer).1,
        { s with counters := (d.handled s.counters answer).2, rest := (a.handle source x r s.rest).2,
                 answered := s.answered ++ [(r, answer)] }) := by
  rw [Delivery.handleNext, h, ← hans]
  rfl

theorem releaseNext_eq {r : Request} {rest : List Request} (h : d.stage = .releasing r rest) :
    Delivery.releaseNext ((intake decode a).services source x) d s =
      (d.turnTo rest, { s with window := s.window.forget r.fingerprint }) := by
  rw [Delivery.releaseNext, h, ← Delivery.released_eq h]
  rfl

section

variable {r : Request} {rest : List Request} (hd : d.Facing (r :: rest))

include hd

theorem settleNext_duplicate (hf : r.fingerprint ∈ s.window.queue) :
    Delivery.settleNext ((intake decode a).services source x) d s =
      (d.past .duplicate rest, { s with counters := s.counters.add .duplicate }) := by
  have ht := Delivery.facing_past hd.deduplicates .duplicate rest
  rw [Delivery.settleNext, bind_eq (judgeNext_seen hd.judging hf), (ht.rests _).1, pure_bind, (ht.rests _).2]
  rfl

variable (hf : r.fingerprint ∉ s.window.queue)

variable (decode) in
/-- The handler has the last word on the request. -/
theorem settleNext_conclusive {answer : Except Refusal Unit} {t : σ} (hans : a.handle source x r s.rest = (answer, t))
    (hc : conclusive answer = true) :
    ∃ f, f ≠ .retryable ∧ Delivery.settleNext ((intake decode a).services source x) d s =
      (d.past f rest,
        { s with window := s.window.push r.fingerprint hf, counters := s.counters.add f, rest := t,
                 answered := s.answered ++ [(r, answer)] }) := by
  let e : Delivery := { d with stage := .handling r rest }
  let s' : Site σ := { s with window := s.window.push r.fingerprint hf }
  have he : e.stage = .handling r rest := rfl
  have hh : Delivery.handleNext ((intake decode a).services source x) e s' = _ := handleNext_eq he (congrArg Prod.fst hans)
  rw [show (a.handle source x r s'.rest).2 = t from congrArg Prod.snd hans] at hh
  have rests := fun f => ((Delivery.facing_past (d := e) hd.deduplicates f rest).rests
    ((intake decode a).services source x)).2
  rw [Delivery.settleNext, bind_eq (judgeNext_new hd.judging hf), bind_eq hh]
  cases answer with
  | ok _ =>
    refine ⟨.forwarded, nofun, ?_⟩
    rw [Delivery.handled_ok _ he, rests]
    rfl
  | error e =>
    have hp : e.isTransient = false := by simpa [conclusive] using hc
    refine ⟨.rejected, nofun, ?_⟩
    rw [Delivery.handled_rejected _ he hp, rests]
    rfl

variable (decode) in
/-- The handler may say otherwise another time. -/
theorem settleNext_transient {answer : Except Refusal Unit} {t : σ} (hans : a.handle source x r s.rest = (answer, t))
    (hc : conclusive answer = false) :
    Delivery.settleNext ((intake decode a).services source x) d s =
      (d.past .retryable rest,
        { s with window := (s.window.push r.fingerprint hf).forget r.fingerprint, counters := s.counters.add .retryable,
                 rest := t, answered := s.answered ++ [(r, answer)] }) := by
  cases answer with
  | ok _ => exact nomatch hc
  | error f =>
    have htr : f.isTransient = true := by simpa [conclusive] using hc
    let e : Delivery := { d with stage := .handling r rest }
    let s' : Site σ := { s with window := s.window.push r.fingerprint hf }
    have he : e.stage = .handling r rest := rfl
    have hh : Delivery.handleNext ((intake decode a).services source x) e s' = _ := handleNext_eq he (congrArg Prod.fst hans)
    rw [show (a.handle source x r s'.rest).2 = t from congrArg Prod.snd hans] at hh
    rw [Delivery.settleNext, bind_eq (judgeNext_new hd.judging hf), bind_eq hh, Delivery.handled_transient _ he htr,
      if_pos hd.deduplicates, releaseNext_eq rfl]
    rfl

end

/-- Everything that settling one request can do. -/
inductive Settles (r : Request) (s s' : Site σ) : Nat → Prop
  | duplicate : r.fingerprint ∈ s.window.queue → s'.window = s.window → s'.answered = s.answered → Settles r s s' 0
  | concluded (h : r.fingerprint ∉ s.window.queue) (answer : Except Refusal Unit) :
      conclusive answer = true → s'.window = s.window.push r.fingerprint h →
      s'.answered = s.answered ++ [(r, answer)] → Settles r s s' 0
  | released (h : r.fingerprint ∉ s.window.queue) (answer : Except Refusal Unit) :
      conclusive answer = false → s'.window = (s.window.push r.fingerprint h).forget r.fingerprint →
      s'.answered = s.answered ++ [(r, answer)] → Settles r s s' 1

variable (decode a source x) in
theorem settleNext_settles {r : Request} {rest : List Request} (hd : d.Facing (r :: rest)) (s : Site σ) :
    ∃ d' s' n, Delivery.settleNext ((intake decode a).services source x) d s = (d', s') ∧ d'.Facing rest ∧
      d'.outcome.retryable = d.outcome.retryable + n ∧ Settles r s s' n := by
  have facing : ∀ f, (d.past f rest).Facing rest := fun f => Delivery.facing_past hd.deduplicates f rest
  have retryable : ∀ f, (d.past f rest).outcome.retryable = (d.outcome.add f).retryable := fun f =>
    congrArg Outcome.retryable (Delivery.outcome_past d f rest)
  by_cases hf : r.fingerprint ∈ s.window.queue
  · exact ⟨_, _, 0, settleNext_duplicate hd hf, facing _, retryable _, .duplicate hf rfl rfl⟩
  cases hc : conclusive (a.handle source x r s.rest).1 with
  | true =>
    obtain ⟨f, hne, hnext⟩ := settleNext_conclusive decode hd hf rfl hc
    refine ⟨_, _, 0, hnext, facing f, (retryable f).trans ?_, .concluded hf _ hc rfl rfl⟩
    cases f with
    | retryable => exact absurd rfl hne
    | duplicate | unjudged | forwarded | rejected => rfl
  | false => exact ⟨_, _, 1, settleNext_transient decode hd hf rfl hc, facing _, retryable _, .released hf _ hc rfl rfl⟩

/-! ## A whole payload -/

/-- The books of a payload whose fingerprints are `fs`: what has its conclusive answer is in the
window, and nothing has two. -/
structure Kept (fs : List Fingerprint) (s : Site σ) : Prop where
  behind : s.window.Behind fs
  room : fs.dedup.length ≤ s.window.capacity
  concluded : ∀ f ∈ fs, s.conclusions f = if f ∈ s.window.queue then 1 else 0

theorem conclusions_of_answered {r : Request} {answer : Except Refusal Unit} (h : s'.answered = s.answered ++ [(r, answer)])
    (f : Fingerprint) :
    s'.conclusions f = s.conclusions f + if r.fingerprint = f ∧ conclusive answer = true then 1 else 0 := by
  rw [conclusions, h, List.countP_append, List.countP_singleton]
  simp only [conclusions, Bool.and_eq_true, beq_iff_eq]

theorem Settles.kept {r : Request} {n : Nat} (h : Settles r s s' n) (hr : r.fingerprint ∈ fs) (hs : s.Kept fs) :
    s'.Kept fs := by
  cases h with
  | duplicate _ hw ha =>
    refine ⟨hw ▸ hs.behind, hw ▸ hs.room, fun f hf => ?_⟩
    rw [conclusions, ha, hw]
    exact hs.concluded f hf
  | concluded hnew answer hc hw ha =>
    obtain ⟨hbehind, hmem⟩ := hs.behind.push hs.room hr hnew
    refine ⟨hw ▸ hbehind, hw ▸ hs.room, fun f hf => ?_⟩
    rw [conclusions_of_answered ha, hs.concluded f hf, hw]
    simp only [hmem f hf, hc, and_true]
    by_cases he : f = r.fingerprint
    · simp [he, hnew]
    · simp [he, Ne.symm he]
  | released hnew answer hc hw ha =>
    obtain ⟨hbehind, hmem⟩ := hs.behind.push hs.room hr hnew
    refine ⟨hw ▸ hbehind.forget _, ?_, fun f hf => ?_⟩
    · rw [hw, Window.capacity_forget]
      exact hs.room
    rw [conclusions_of_answered ha, hs.concluded f hf, hw]
    simp only [Window.mem_forget, hmem f hf, hc]
    by_cases he : f = r.fingerprint
    · simp [he, hnew]
    · simp [he]

/-- Unless it asks for another time, a request ends up in the window, and takes no place there. -/
theorem Settles.mem {r : Request} (h : Settles r s s' 0) (hr : r.fingerprint ∈ fs) (hs : s.Kept fs) :
    ∀ f ∈ fs, f ∈ s.window.queue ∨ f = r.fingerprint → f ∈ s'.window.queue := by
  intro f hf hor
  cases h with
  | duplicate hold hw _ =>
    rw [hw]
    rcases hor with h | rfl
    · exact h
    · exact hold
  | concluded hnew _ _ hw _ =>
    rw [hw]
    exact ((hs.behind.push hs.room hr hnew).2 f hf).2 hor

theorem settleNext_finished {d : Delivery} (hd : d.Facing []) (s : Site σ) :
    Delivery.settleNext ((intake decode a).services source x) d s = (d, s) := by
  have hj : Delivery.judgeNext ((intake decode a).services source x) d = pure d := by
    rw [Delivery.judgeNext, show d.stage = .finished from hd.faces]
  rw [Delivery.settleNext, hj, pure_bind, (hd.rests _).1, pure_bind, (hd.rests _).2]
  rfl

variable (decode a source x) in
/-- What `k` requests of a delivery come to. -/
theorem settleMany_kept (k : Nat) {todo : List Request} (hd : d.Facing todo) (htodo : ∀ r ∈ todo, r.fingerprint ∈ fs)
    (hs : s.Kept fs) :
    ∃ d' s', Delivery.settleMany ((intake decode a).services source x) k d s = (d', s') ∧ s'.Kept fs ∧
      d.outcome.retryable ≤ d'.outcome.retryable ∧
      (d'.outcome.retryable = d.outcome.retryable →
        ∀ f ∈ fs, f ∈ s.window.queue ∨ f ∈ (todo.take k).map Request.fingerprint → f ∈ s'.window.queue) := by
  induction k generalizing d s todo with
  | zero => exact ⟨d, s, rfl, hs, Nat.le_refl _, fun _ f _ h => h.resolve_right (by simp)⟩
  | succ k ih =>
    cases todo with
    | nil =>
      obtain ⟨d', s', hrun, hkept, hle, hmem⟩ := ih hd htodo hs
      refine ⟨d', s', ?_, hkept, hle, by simpa using hmem⟩
      rw [Delivery.settleMany, bind_eq (settleNext_finished hd s), hrun]
    | cons r rest =>
      obtain ⟨d₁, s₁, n, hnext, hfacing, hn, hsettles⟩ := settleNext_settles decode a source x hd s
      have hr := htodo r List.mem_cons_self
      obtain ⟨d', s', hrun, hkept, hle, hmem⟩ := ih hfacing (fun q hq => htodo q (List.mem_cons_of_mem _ hq))
        (hsettles.kept hr hs)
      refine ⟨d', s', ?_, hkept, by omega, fun heq f hf hor => ?_⟩
      · rw [Delivery.settleMany, bind_eq hnext, hrun]
      · obtain rfl : n = 0 := by omega
        have hfirst := hsettles.mem hr hs f hf
        refine hmem (by omega) f hf ?_
        rcases hor with h | h
        · exact .inl (hfirst (.inl h))
        · rw [List.take_succ_cons, List.map_cons, List.mem_cons] at h
          rcases h with rfl | h
          · exact .inl (hfirst (.inr rfl))
          · exact .inr h

variable (decode a source x) in
/-- What is in the window does not have to come again. -/
theorem settleMany_seen {todo : List Request} (hd : d.Facing todo) (hseen : ∀ r ∈ todo, r.fingerprint ∈ s.window.queue)
    (k : Nat) :
    (Delivery.settleMany ((intake decode a).services source x) k d s).1.outcome.retryable = d.outcome.retryable := by
  induction k generalizing d s todo with
  | zero => rfl
  | succ k ih =>
    cases todo with
    | nil =>
      rw [Delivery.settleMany, bind_eq (settleNext_finished hd s)]
      exact ih hd hseen
    | cons r rest =>
      rw [Delivery.settleMany, bind_eq (settleNext_duplicate hd (hseen r List.mem_cons_self))]
      refine (ih (s := { s with counters := s.counters.add .duplicate })
        (Delivery.facing_past hd.deduplicates .duplicate rest) fun q hq => hseen q (List.mem_cons_of_mem r hq)).trans ?_
      exact (congrArg Outcome.retryable (Delivery.outcome_past d .duplicate rest)).trans rfl

section

variable (a source) {rs : List Request} (hx : decode x = .ok rs)

include hx

theorem settleFirst_eq (s : Site σ) (k : Nat) :
    (intake decode a).settleFirst source x k s =
      Delivery.settleMany ((intake decode a).services source x) k (Delivery.outset rs)
        { s with counters := s.counters.addPayload.addDecoded rs.length } := by
  rw [Intake.settleFirst]
  show Delivery.settleMany ((intake decode a).services source x) k
    ((Delivery.start true).decoded s.counters.addPayload (decode x)).1
    { s with counters := ((Delivery.start true).decoded s.counters.addPayload (decode x)).2 } = _
  rw [hx]
  rfl

theorem receive_of_settled {s' : Site σ}
    (h : Delivery.settleMany ((intake decode a).services source x) rs.length (Delivery.outset rs)
      { s with counters := s.counters.addPayload.addDecoded rs.length } = (d, s')) :
    (intake decode a).receive source x s = (d.outcome, s') := by
  rw [Intake.receive_eq _ _ hx, bind_eq ((settleFirst_eq a source hx s rs.length).trans h)]
  rfl

/-- A payload all of which is in the window does not come again. -/
theorem receive_seen (hseen : ∀ r ∈ rs, r.fingerprint ∈ s.window.queue) :
    ((intake decode a).receive source x s).1.shouldRetry = false := by
  obtain ⟨d, s', hrun⟩ : ∃ d s', Delivery.settleMany ((intake decode a).services source x) rs.length
      (Delivery.outset rs) { s with counters := s.counters.addPayload.addDecoded rs.length } = (d, s') := ⟨_, _, rfl⟩
  have hnone := settleMany_seen decode a source x
    (s := { s with counters := s.counters.addPayload.addDecoded rs.length }) (Delivery.facing_outset rs) hseen rs.length
  rw [hrun, Delivery.retryable_outset] at hnone
  rw [receive_of_settled a source hx hrun, Outcome.shouldRetry, hnone]
  rfl

/-- A delivery up to where `k` of its requests are settled keeps the books, and if none of them
asks for another time, they all are in the window. -/
theorem settleFirst_kept (hs : s.Kept (rs.map Request.fingerprint)) (k : Nat) :
    ∃ d' s', (intake decode a).settleFirst source x k s = (d', s') ∧ s'.Kept (rs.map Request.fingerprint) ∧
      (d'.outcome.retryable = 0 → ∀ r ∈ rs.take k, r.fingerprint ∈ s'.window.queue) := by
  obtain ⟨d', s', hrun, hkept, -, hmem⟩ := settleMany_kept decode a source x k (Delivery.facing_outset rs)
    (fun r hr => List.mem_map_of_mem hr) (s := { s with counters := s.counters.addPayload.addDecoded rs.length })
    ⟨hs.behind, hs.room, hs.concluded⟩
  refine ⟨d', s', (settleFirst_eq a source hx s k).trans hrun, hkept, fun h r hr => ?_⟩
  exact hmem (h.trans (Delivery.retryable_outset rs).symm) _ (List.mem_map_of_mem (List.mem_of_mem_take hr))
    (.inr (List.mem_map_of_mem hr))

/-- A delivery keeps the books, and leaves nothing of the payload out of the window unless it asks
for another one. -/
theorem receive_kept (hs : s.Kept (rs.map Request.fingerprint)) :
    ((intake decode a).receive source x s).2.Kept (rs.map Request.fingerprint) ∧
      (((intake decode a).receive source x s).1.shouldRetry = false →
        ∀ r ∈ rs, r.fingerprint ∈ ((intake decode a).receive source x s).2.window.queue) := by
  obtain ⟨d, s', hrun, hkept, hmem⟩ := settleFirst_kept a source hx hs rs.length
  have hreceive : (intake decode a).receive source x s = (d.outcome, s') :=
    receive_of_settled a source hx ((settleFirst_eq a source hx s rs.length).symm.trans hrun)
  rw [hreceive]
  refine ⟨hkept, fun h r hr => hmem ?_ r (by rwa [List.take_length])⟩
  simpa [Outcome.shouldRetry] using h

theorem before_kept (hs : s.Kept (rs.map Request.fingerprint)) (n : Nat) :
    (before decode a source x s n).Kept (rs.map Request.fingerprint) := by
  induction n with
  | zero => exact hs
  | succ n ih => exact (receive_kept a source hx ih).1

end

/-- A payload comes any number of times, its requests judged by a window that has room for them
and has seen none of them. Whenever `k` requests of the `n`-th delivery are settled, one that is in the
window has got its one conclusive answer, and one that is not has got none. Once a delivery does not ask
for another, all are in the window. -/
theorem redelivery_exact (decode : Inbound → Except Undecoded (List Request)) (a : Answers σ) (source : String)
    {x : Inbound} {rs : List Request} (hx : decode x = .ok rs) {s : Site σ} (hfresh : s.answered = [])
    (hunseen : ∀ r ∈ rs, s.window.contains r.fingerprint = false)
    (hroom : (rs.map Request.fingerprint).dedup.length ≤ s.window.capacity) (n : Nat) :
    (∀ k, ∀ r ∈ rs, (partway decode a source x (before decode a source x s n) k).conclusions r.fingerprint =
      if (partway decode a source x (before decode a source x s n) k).window.contains r.fingerprint then 1 else 0) ∧
    ((outcome decode a source x s n).shouldRetry = false →
      ∀ r ∈ rs, (before decode a source x s (n + 1)).conclusions r.fingerprint = 1 ∧
        (before decode a source x s (n + 1)).window.contains r.fingerprint = true) := by
  have hnone : ∀ f ∈ rs.map Request.fingerprint, f ∉ s.window.queue := by
    rintro f hf
    obtain ⟨r, hr, rfl⟩ := List.mem_map.1 hf
    exact Window.contains_eq_false.1 (hunseen r hr)
  have hs : s.Kept (rs.map Request.fingerprint) := by
    refine ⟨Window.behind_of_none hnone, hroom, fun f hf => ?_⟩
    rw [if_neg (hnone f hf), conclusions, hfresh, List.countP_nil]
  have hn := before_kept a source hx hs n
  refine ⟨fun k r hr => ?_, fun hend r hr => ?_⟩
  · obtain ⟨d, s', hrun, hkept, -⟩ := settleFirst_kept a source hx hn k
    rw [partway, hrun]
    simpa only [Window.contains_iff] using hkept.concluded _ (List.mem_map_of_mem hr)
  · obtain ⟨hkept, hmem⟩ := receive_kept a source hx hn
    have hin := hmem hend r hr
    exact ⟨(hkept.concluded _ (List.mem_map_of_mem hr)).trans (if_pos hin), Window.contains_iff.2 hin⟩

/-! A store that is down when the first request comes. -/

def downOnce : Answers Nat where
  handle _ _ _ n := (if n = 0 then .error (.eventStoreUnavailable "down") else .ok (), n + 1)
  report _ _ _ n := n

section

variable (decode source x) {s : Site Nat} {r : Request} {rest : List Request} (hd : d.Facing (r :: rest))
  (hf : r.fingerprint ∉ s.window.queue)

include hd

theorem settleNext_down (hr : s.rest = 0) :
    ∃ s', Delivery.settleNext ((intake decode downOnce).services source x) d s = (d.past .retryable rest, s') ∧
      s'.window = (s.window.push r.fingerprint hf).forget r.fingerprint ∧ s'.rest ≠ 0 := by
  have hans : downOnce.handle source x r s.rest = (.error (.eventStoreUnavailable "down"), s.rest + 1) := by
    show ((if s.rest = 0 then _ else _), _) = _
    rw [if_pos hr]
  exact ⟨_, settleNext_transient decode hd hf hans rfl, rfl, Nat.succ_ne_zero _⟩

theorem settleNext_up (hr : s.rest ≠ 0) :
    ∃ f s', Delivery.settleNext ((intake decode downOnce).services source x) d s = (d.past f rest, s') ∧
      s'.window = s.window.push r.fingerprint hf ∧ s'.rest ≠ 0 := by
  have hans : downOnce.handle source x r s.rest = (.ok (), s.rest + 1) := by
    show ((if s.rest = 0 then _ else _), _) = _
    rw [if_neg hr]
  obtain ⟨f, -, hnext⟩ := settleNext_conclusive decode hd hf hans rfl
  exact ⟨f, _, hnext, rfl, Nat.succ_ne_zero _⟩

end

variable (source) in
/-- A payload holds one of its two requests twice, and another one has to leave the window for them. -/
theorem down_once {p q : Request} {f : Fingerprint} (hpq : p.fingerprint ≠ q.fingerprint) (hp : p.fingerprint ≠ f)
    (hq : q.fingerprint ≠ f) {s : Site Nat} (hw : s.window.queue = [f]) (hc : s.window.capacity = 2) (hr : s.rest = 0)
    (hx : decode x = .ok [p, q, p]) :
    (outcome decode downOnce source x s 0).shouldRetry = true ∧
      (outcome decode downOnce source x s 1).shouldRetry = false := by
  have hd := Delivery.facing_outset [p, q, p]
  -- the first request is given back, so in its second place it is new again
  obtain ⟨s₁, h₁, hs₁, hr₁⟩ := settleNext_down decode source x hd
    (s := { s with counters := s.counters.addPayload.addDecoded [p, q, p].length }) (by simpa [hw] using hp) hr
  have hc₁ : s₁.window.capacity = 2 := by simp [hs₁, hc]
  have hw₁ : s₁.window.queue = [f] := by simp [hs₁, Window.queue_forget, Window.queue_push, hw, hc, Ne.symm hp]
  have hd₁ := Delivery.facing_past hd.deduplicates .retryable [q, p]
  obtain ⟨f₂, s₂, h₂, hs₂, hr₂⟩ := settleNext_up decode source x hd₁
    (by simpa [hw₁] using hq) hr₁
  have hc₂ : s₂.window.capacity = 2 := by simp [hs₂, hc₁]
  have hw₂ : s₂.window.queue = [f, q.fingerprint] := by simp [hs₂, Window.queue_push, hw₁, hc₁]
  obtain ⟨f₃, s₃, h₃, hs₃, -⟩ := settleNext_up decode source x
    (Delivery.facing_past hd₁.deduplicates f₂ [p]) (by simpa [hw₂] using ⟨hp, hpq⟩) hr₂
  have hw₃ : s₃.window.queue = [q.fingerprint, p.fingerprint] := by simp [hs₃, Window.queue_push, hw₂, hc₂]
  have first := receive_of_settled downOnce source hx (s := s)
    (show Delivery.settleMany ((intake decode downOnce).services source x) 3 _ _ = (_, s₃) by
      rw [Delivery.settleMany, bind_eq h₁, Delivery.settleMany, bind_eq h₂, Delivery.settleMany, bind_eq h₃]
      rfl)
  have hafter : before decode downOnce source x s 1 = s₃ := congrArg Prod.snd first
  constructor
  · have hle : ∀ (o : Outcome) (f : Fate), o.retryable ≤ (o.add f).retryable := fun o f => by
      cases f <;> simp [Outcome.add]
    have hone : 0 < ((Delivery.outset [p, q, p]).outcome.add .retryable).retryable := Nat.succ_pos _
    rw [show outcome decode downOnce source x s 0 = _ from congrArg Prod.fst first, Outcome.shouldRetry,
      decide_eq_true_eq, Delivery.outcome_past, Delivery.outcome_past, Delivery.outcome_past]
    exact Nat.lt_of_lt_of_le hone (Nat.le_trans (hle _ f₂) (hle _ f₃))
  · rw [outcome, hafter]
    exact receive_seen downOnce source hx (by simp [hw₃])

def sampleMode (mode : String) : Request :=
  ⟨"gauge", none, { Draft.ofPayload (.stateChange ⟨"mode", "set", none, some mode⟩) with alternateId := some mode }⟩

/-- One request stands in the payload twice. -/
def sampleModes : List Request := [sampleMode "on", sampleMode "off", sampleMode "on"]

theorem sampleModes_apart : (sampleMode "on").fingerprint ≠ (sampleMode "off").fingerprint ∧
    (sampleMode "on").fingerprint ≠ (sampleMode "idle").fingerprint ∧
    (sampleMode "off").fingerprint ≠ (sampleMode "idle").fingerprint := by
  decide +kernel

/-- A request that has come before is in the window for two. -/
def sampleSite : Site Nat :=
  ⟨(Window.ofCapacity 2).push (sampleMode "idle").fingerprint List.not_mem_nil, {}, 0, []⟩

theorem queue_sampleSite : sampleSite.window.queue = [(sampleMode "idle").fingerprint] :=
  (Window.queue_push (.ofCapacity 2) _ List.not_mem_nil).trans rfl

theorem redelivery_exact_down_once :
    let decode := fun _ => .ok sampleModes
    let x : Inbound := ⟨.empty, .empty⟩
    sampleSite.window.queue = [(sampleMode "idle").fingerprint] ∧
      (outcome decode downOnce "mqtt" x sampleSite 0).shouldRetry = true ∧
      (outcome decode downOnce "mqtt" x sampleSite 1).shouldRetry = false ∧
      (∀ k, ∀ r ∈ sampleModes, (partway decode downOnce "mqtt" x sampleSite k).conclusions r.fingerprint =
        if (partway decode downOnce "mqtt" x sampleSite k).window.contains r.fingerprint then 1 else 0) ∧
      ∀ r ∈ sampleModes, (before decode downOnce "mqtt" x sampleSite 2).conclusions r.fingerprint = 1 ∧
        (before decode downOnce "mqtt" x sampleSite 2).window.contains r.fingerprint = true := by
  intro decode x
  obtain ⟨hpq, hp, hq⟩ := sampleModes_apart
  obtain ⟨hretry, hend⟩ :=
    down_once (x := x) "mqtt" hpq hp hq queue_sampleSite rfl rfl (rfl : decode x = .ok sampleModes)
  have hunseen : ∀ r ∈ sampleModes, sampleSite.window.contains r.fingerprint = false := by
    intro r hr
    rw [Window.contains_eq_false, queue_sampleSite, List.mem_singleton]
    simp only [sampleModes, List.mem_cons, List.not_mem_nil, or_false] at hr
    rcases hr with rfl | rfl | rfl
    · exact hp
    · exact hq
    · exact hp
  have hroom : (sampleModes.map Request.fingerprint).dedup.length ≤ sampleSite.window.capacity := by
    have htwice : (sampleModes.map Request.fingerprint).dedup =
        [(sampleMode "off").fingerprint, (sampleMode "on").fingerprint].dedup :=
      List.dedup_cons_of_mem (List.mem_cons_of_mem _ List.mem_cons_self)
    rw [htwice]
    exact (List.dedup_sublist _).length_le
  have hexact := redelivery_exact decode downOnce "mqtt" (x := x) rfl rfl hunseen hroom
  exact ⟨queue_sampleSite, hretry, hend, (hexact 0).1, (hexact 1).2 hend⟩

end Site
end DeviceEvents
