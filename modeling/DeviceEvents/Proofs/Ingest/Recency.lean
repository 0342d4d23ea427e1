import DeviceEvents.Proofs.Ingest.Contention
/-
  DeviceEvents.Proofs.Ingest.Recency — the window of recent requests is a bounded list, first in first out.

  Actors. One window, and calls that come to it one after another, in any number and order: a request
  is judged, a request is given back, everything is forgotten. The reference is a plain list of
  fingerprints, oldest first, that has no set beside it and puts no loop to the eviction (`Call.leaves`).

  Proved: whatever has been called, the answers and the queue are those of the list, and queue and set
  agree. So an accepted fingerprint is known until as many others are accepted as there is room for, it is
  given back, or everything is forgotten; meeting it again does not change its place, and giving back
  what is not known changes nothing (`window_exact`). Unlike `Contention.stays_duplicate` this says nothing
  about who makes the calls.
-/

namespace DeviceEvents.Recency

inductive Call where
  | judge (r : Request)
  | forget (r : Request)
  | stop

inductive Answer where
  | judged (verdict : Except Refusal Bool)
  | done (result : Except Refusal Unit)

/-- To a request that is now accepted. -/
def Answer.accepts : Answer → Bool
  | .judged (.ok false) => true
  | _ => false

def ask (w : Window) : Call → Answer × Window
  | .judge r =>
    let (verdict, w) := recent.isDuplicate r w
    (.judged verdict, w)
  | .forget r =>
    let (result, w) := recent.forget r w
    (.done result, w)
  | .stop =>
    let (result, w) := recent.stop w
    (.done result, w)

/-- One call after the other, with the answers to all of them. -/
def run (w : Window) : List Call → List Answer × Window
  | [] => ([], w)
  | c :: calls =>
    let (answer, w) := ask w c
    let (answers, w) := run w calls
    (answer :: answers, w)

/-! ## The reference -/

namespace Call

/-- A fresh fingerprint goes to the end, and the oldest one leaves if there is no room for all. -/
def leaves (capacity : Nat) (l : List Fingerprint) : Call → List Fingerprint
  | .judge r =>
    if r.fingerprint ∈ l then l
    else if capacity < (l ++ [r.fingerprint]).length then (l ++ [r.fingerprint]).tail
    else l ++ [r.fingerprint]
  | .forget r => l.erase r.fingerprint
  | .stop => []

def reply (l : List Fingerprint) : Call → Answer
  | .judge r => .judged (.ok (decide (r.fingerprint ∈ l)))
  | .forget _ | .stop => .done (.ok ())

end Call

def reference (capacity : Nat) (l : List Fingerprint) : List Call → List Answer × List Fingerprint
  | [] => ([], l)
  | c :: calls =>
    let (answers, m) := reference capacity (c.leaves capacity l) calls
    (c.reply l :: answers, m)

/-! ## One call -/

variable {w : Window} {r : Request} {f : Fingerprint} {n : Nat}

theorem ask_judge_seen (h : r.fingerprint ∈ w.queue) : ask w (.judge r) = (.judged (.ok true), w) := by
  rw [ask, recent_seen h]

theorem ask_judge_new (h : r.fingerprint ∉ w.queue) :
    ask w (.judge r) = (.judged (.ok false), w.push r.fingerprint h) := by
  rw [ask, recent_new h]

theorem ask_forget (w : Window) (r : Request) : ask w (.forget r) = (.done (.ok ()), w.forget r.fingerprint) := rfl

/-- The window keeps to its capacity, so at most one fingerprint has to leave for a fresh one. -/
theorem queue_push_eq (h : r.fingerprint ∉ w.queue) :
    (w.push r.fingerprint h).queue = (Call.judge r).leaves w.capacity w.queue := by
  have hfits := w.fits
  rw [Window.queue_push, Call.leaves, if_neg h, List.length_append, List.length_singleton]
  split
  · rw [show w.queue.length + 1 - w.capacity = 1 by omega, List.drop_one]
  · rw [show w.queue.length + 1 - w.capacity = 0 by omega, List.drop_zero]

theorem ask_eq (w : Window) (c : Call) :
    ∃ v, ask w c = (c.reply w.queue, v) ∧ v.queue = c.leaves w.capacity w.queue ∧ v.capacity = w.capacity := by
  cases c with
  | judge r =>
    by_cases h : r.fingerprint ∈ w.queue
    · refine ⟨w, ?_, ?_, rfl⟩
      · rw [ask_judge_seen h, Call.reply, decide_eq_true h]
      · rw [Call.leaves, if_pos h]
    · refine ⟨w.push r.fingerprint h, ?_, queue_push_eq h, rfl⟩
      rw [ask_judge_new h, Call.reply, decide_eq_false h]
  | forget r =>
    refine ⟨w.forget r.fingerprint, rfl, ?_, Window.capacity_forget _ _⟩
    rw [Window.queue_forget, Call.leaves, w.distinct.erase_eq_filter]
  | stop => exact ⟨w.clear, rfl, rfl, rfl⟩

/-- What stays while one call is made: accepting another fingerprint takes one place. -/
theorem lasts_ask {c : Call} (hstop : c ≠ .stop) (hforget : ∀ q, c = .forget q → q.fingerprint ≠ f)
    (h : Contention.Lasts w f ([(ask w c).1].countP Answer.accepts + n)) : Contention.Lasts (ask w c).2 f n := by
  cases c with
  | judge r =>
    by_cases hm : r.fingerprint ∈ w.queue
    · rw [ask_judge_seen hm] at h ⊢
      exact Nat.zero_add n ▸ h
    · rw [ask_judge_new hm] at h ⊢
      exact Contention.Lasts.push (Nat.add_comm 1 n ▸ h) hm
  | forget r =>
    rw [ask_forget] at h ⊢
    exact Contention.Lasts.forget (Nat.zero_add n ▸ h) (hforget r rfl).symm
  | stop => exact absurd rfl hstop

/-! ## All calls -/

theorem run_cons (w : Window) (c : Call) (calls : List Call) :
    run w (c :: calls) = ((ask w c).1 :: (run (ask w c).2 calls).1, (run (ask w c).2 calls).2) := rfl

theorem run_eq (w : Window) (calls : List Call) :
    ∃ v, run w calls = ((reference w.capacity w.queue calls).1, v) ∧
      v.queue = (reference w.capacity w.queue calls).2 ∧ v.capacity = w.capacity := by
  induction calls generalizing w with
  | nil => exact ⟨w, rfl, rfl, rfl⟩
  | cons c calls ih =>
    obtain ⟨u, hask, hqueue, hcap⟩ := ask_eq w c
    obtain ⟨v, hrun, hv, hv'⟩ := ih u
    rw [hqueue, hcap] at hrun hv
    refine ⟨v, ?_, hv, hv'.trans hcap⟩
    rw [run_cons, hask, hrun]
    rfl

theorem run_append (w : Window) (before later : List Call) :
    run w (before ++ later) = ((run w before).1 ++ (run (run w before).2 later).1, (run (run w before).2 later).2) := by
  induction before generalizing w with
  | nil => rfl
  | cons c before ih => rw [List.cons_append, run_cons, run_cons, ih, List.cons_append]

theorem length_run (w : Window) (calls : List Call) : (run w calls).1.length = calls.length := by
  induction calls generalizing w with
  | nil => rfl
  | cons c calls ih => rw [run_cons, List.length_cons, ih, List.length_cons]

theorem lasts_run (calls : List Call) (hstop : .stop ∉ calls) (hforget : ∀ q, .forget q ∈ calls → q.fingerprint ≠ f)
    (h : Contention.Lasts w f ((run w calls).1.countP Answer.accepts + n)) : Contention.Lasts (run w calls).2 f n := by
  induction calls generalizing w with
  | nil => exact Nat.zero_add n ▸ h
  | cons c calls ih =>
    have hcount : (run w (c :: calls)).1.countP Answer.accepts =
        [(ask w c).1].countP Answer.accepts + (run (ask w c).2 calls).1.countP Answer.accepts := by
      rw [run_cons, ← List.countP_append, List.singleton_append]
    rw [hcount, Nat.add_assoc] at h
    refine ih (fun hm => hstop (List.mem_cons_of_mem _ hm)) (fun q hq => hforget q (List.mem_cons_of_mem _ hq)) ?_
    refine lasts_ask (fun he => hstop (he ▸ List.mem_cons_self)) (fun q he => hforget q (he ▸ List.mem_cons_self)) h

/-- An accepted request stays a duplicate while there is room for what is accepted after it. -/
theorem accepted_lasts {before later : List Call} (hnew : (recent.isDuplicate r (run w before).2).1 = .ok false)
    (hstop : .stop ∉ later) (hforget : ∀ q, .forget q ∈ later → q.fingerprint ≠ r.fingerprint)
    (hroom : ((run w (before ++ .judge r :: later)).1.drop (before.length + 1)).countP Answer.accepts < w.capacity) :
    r.fingerprint ∈ (run w (before ++ .judge r :: later)).2.queue := by
  obtain ⟨u, hu, -, hcap⟩ := run_eq w before
  have hout : (run w (before ++ .judge r :: later)).1.drop (before.length + 1) =
      (run (ask (run w before).2 (.judge r)).2 later).1 := by
    rw [run_append, run_cons, ← length_run w before, List.drop_length_add_append, List.drop_one, List.tail_cons]
  rw [hout] at hroom
  rw [run_append, run_cons]
  rw [hu] at hnew hroom ⊢
  have hm : r.fingerprint ∉ u.queue := by
    intro hm
    rw [recent_seen hm] at hnew
    cases hnew
  rw [ask_judge_new hm] at hroom ⊢
  refine (lasts_run (n := 0) later hstop hforget ?_).mem
  exact Contention.lasts_push hm (hcap ▸ hroom)

/-- For every capacity and all calls: the answers and the queue are those of the plain list; no fingerprint
is in the queue twice, the members are what is in the queue, and there is room for all of them. A
request that is met again changes nothing, nor does giving back one that is not known; and an
accepted one is a duplicate until the window is stopped, it is given back, or there have been as many
others accepted as the window takes. -/
theorem window_exact (n : Nat) (calls : List Call) :
    ∃ answers w, run (.ofCapacity n) calls = (answers, w) ∧
      (answers, w.queue) = reference (max n 1) [] calls ∧
      w.queue.Nodup ∧ (∀ f, f ∈ w.members ↔ f ∈ w.queue) ∧ w.queue.length ≤ max n 1 ∧
      (∀ r, (recent.isDuplicate r w).1 = .ok true → (recent.isDuplicate r w).2 = w) ∧
      (∀ r, r.fingerprint ∉ w.queue → recent.forget r w = (.ok (), w)) ∧
      ∀ before r later, calls = before ++ .judge r :: later →
        (recent.isDuplicate r (run (.ofCapacity n) before).2).1 = .ok false →
        .stop ∉ later → (∀ q, .forget q ∈ later → q.fingerprint ≠ r.fingerprint) →
        (answers.drop (before.length + 1)).countP Answer.accepts < max n 1 →
        ∀ q, q.fingerprint = r.fingerprint → (recent.isDuplicate q w).1 = .ok true := by
  obtain ⟨w, hrun, hqueue, hcap⟩ := run_eq (.ofCapacity n) calls
  refine ⟨_, w, hrun, Prod.ext rfl hqueue, w.distinct, w.listed, Nat.le_trans w.fits (Nat.le_of_eq hcap), fun r hr => ?_, fun r hr => ?_, ?_⟩
  · by_cases hm : r.fingerprint ∈ w.queue
    · rw [recent_seen hm]
    · rw [recent_new hm] at hr
      cases hr
  · show ((.ok (), w.forget r.fingerprint) : Except Refusal Unit × Window) = _
    rw [Window.forget, if_neg (mt Window.contains_iff.1 hr)]
  · rintro before r later rfl hnew hstop hforget hroom q hq
    have hmem := accepted_lasts hnew hstop hforget (by rw [hrun]; exact hroom)
    rw [hrun] at hmem
    rw [recent_seen (hq ▸ hmem)]

end DeviceEvents.Recency
