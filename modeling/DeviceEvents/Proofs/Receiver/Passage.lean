import DeviceEvents.Receiver.Channel
/-
  DeviceEvents.Proofs.Receiver.Passage — payloads on their way through a channel.

  Actors. Senders, any number of them, get payloads in as long as there is room (`offer`). Workers
  listen, take, hand on and are done with their payloads, each at its own pace; the receiver is
  cancelled at any moment. A run is any list of such steps, each possible where it is made. What a
  step does with a payload is told by its mark.

  Proved, for every run (`passage_exact`): what has been accepted is what has been taken, in that
  order, and what is queued. The marks of one worker are those of whole rounds (taken, handed on
  with its source, completed) and of the round that it is in. Only between rounds does it end, and
  it has no marks after that; when all workers have ended, nothing leaves the queue any more.
  While one of them has not, the next payload can always be taken (`front_taken`). The worker that
  drains a queue on its own makes such rounds (`run?_round`, `drain_eq`).
-/

namespace DeviceEvents.ChannelReceiver

/-! ## Marks -/

/-- What a step does with a payload, and which worker does it. -/
inductive Mark where
  | accepted (x : Inbound)
  | taken (n : Nat) (x : Inbound)
  | handed (n : Nat) (source : String) (x : Inbound)
  | completed (n : Nat) (x : Inbound) (o : Outcome)

namespace Mark

def worker? : Mark → Option Nat
  | .accepted _ => none
  | .taken n _ | .handed n _ _ | .completed n _ _ => some n

def accepted? : Mark → Option Inbound
  | .accepted x => some x
  | _ => none

def taken? : Mark → Option Inbound
  | .taken _ x => some x
  | _ => none

def completedBy? (n : Nat) : Mark → Option (Inbound × Outcome)
  | .completed k x o => if k = n then some (x, o) else none
  | _ => none

/-- The marks of a payload that a worker is through with. -/
def round (source : String) (n : Nat) (c : Inbound × Outcome) : List Mark :=
  [.taken n c.1, .handed n source c.1, .completed n c.1 c.2]

/-- The marks of the round that a worker is in. -/
def begun (source : String) (n : Nat) : ChannelWorker → List Mark
  | .holding x => [.taken n x]
  | .handing x => [.taken n x, .handed n source x]
  | _ => []

end Mark

/-- A step with its marks. -/
def marked? (r : ChannelReceiver) : Step → Option (ChannelReceiver × List Mark)
  | .offer x => (r.offer? x).map (·, [.accepted x])
  | .take n => (r.take? n).map fun t => (t.2, [.taken n t.1])
  | .hand n => (r.hand? n).map fun t => (t.2, [.handed n t.1.1 t.1.2])
  | .finish n o => (r.finish? n).map fun t => (t.2, [.completed n t.1 o])
  | s => (r.step? s).map (·, [])

theorem marked?_step (r : ChannelReceiver) (s : Step) : (r.marked? s).map (·.1) = r.step? s := by
  cases s <;> simp [marked?, step?, Function.comp_def]

def worker (r : ChannelReceiver) (n : Nat) : ChannelWorker := r.workers[n]?.getD .idle

/-- What a step needs and does. -/
inductive Goes (r : ChannelReceiver) : Step → ChannelReceiver → List Mark → Prop where
  | offered (x : Inbound) (h : r.queue.length < r.capacity) :
    Goes r (.offer x) { r with queue := r.queue ++ [x] } [.accepted x]
  | listened (n : Nat) (h : r.workers[n]? = some .idle) (hfree : r.isFree) :
    Goes r (.listen n) (r.setWorker n .listening) []
  | took (n : Nat) (x : Inbound) (rest : List Inbound) (h : r.workers[n]? = some .listening) (hq : r.queue = x :: rest) :
    Goes r (.take n) { r.setWorker n (.holding x) with queue := rest } [.taken n x]
  | gave (n : Nat) (x : Inbound) (h : r.workers[n]? = some (.holding x)) :
    Goes r (.hand n) (r.setWorker n (.handing x)) [.handed n r.source x]
  | finished (n : Nat) (x : Inbound) (o : Outcome) (h : r.workers[n]? = some (.handing x)) :
    Goes r (.finish n o) (r.setWorker n .idle) [.completed n x o]
  | cancelled : Goes r .cancel r.cancel []
  | left (n : Nat) (w : ChannelWorker) (h : r.workers[n]? = some w) (hw : w = .idle ∨ w = .listening)
    (hc : r.cancelled = true) : Goes r (.leave n) (r.setWorker n .ended) []

variable {r r' : ChannelReceiver} {a : Step} {marks : List Mark} {n k : Nat} {w : ChannelWorker} {source : String}

/-- A step is possible exactly if it has what it needs. -/
theorem marked?_iff : r.marked? a = some (r', marks) ↔ r.Goes a r' marks := by
  constructor
  · intro h
    cases a with
    | offer x =>
      by_cases hfull : r.capacity ≤ r.queue.length
      · simp [marked?, offer?, isFull, hfull] at h
      · simp [marked?, offer?, isFull, hfull] at h
        obtain ⟨rfl, rfl⟩ := h
        exact .offered x (by omega)
    | listen n =>
      simp only [marked?, step?, listen?] at h
      split at h
      · rename_i hn
        split at h
        · rename_i hfree
          cases h
          exact .listened n hn hfree
        · cases h
      · cases h
    | take n =>
      simp only [marked?, take?] at h
      split at h
      · rename_i x rest hn hq
        cases h
        exact .took n x rest hn hq
      · cases h
    | hand n =>
      simp only [marked?, hand?] at h
      split at h
      · rename_i x hn
        cases h
        exact .gave n x hn
      · cases h
    | finish n o =>
      simp only [marked?, finish?] at h
      split at h
      · rename_i x hn
        cases h
        exact .finished n x o hn
      · cases h
    | cancel =>
      cases h
      exact .cancelled
    | leave n =>
      simp only [marked?, step?, leave?] at h
      split at h
      · rename_i hn
        split at h
        · rename_i hc
          cases h
          exact .left n _ hn (.inl rfl) hc
        · cases h
      · rename_i hn
        split at h
        · rename_i hc
          cases h
          exact .left n _ hn (.inr rfl) hc
        · cases h
      · cases h
  · intro h
    cases h with
    | offered x h =>
      have hfull : ¬r.capacity ≤ r.queue.length := by omega
      simp [marked?, offer?, isFull, hfull]
    | listened n h hfree => simp [marked?, step?, listen?, h, hfree]
    | took n x rest h hq => simp [marked?, take?, h, hq]
    | gave n x h => simp [marked?, hand?, h]
    | finished n x o h => simp [marked?, finish?, h]
    | cancelled => rfl
    | left n w h hw hc => rcases hw with rfl | rfl <;> simp [marked?, step?, leave?, h, hc]

/-! ## Laws of a step -/

/-- What a worker does in a step. -/
inductive Turn (source : String) (n : Nat) : ChannelWorker → List Mark → ChannelWorker → Prop where
  | listens : Turn source n .idle [] .listening
  | takes (x : Inbound) : Turn source n .listening [.taken n x] (.holding x)
  | gives (x : Inbound) : Turn source n (.holding x) [.handed n source x] (.handing x)
  | finishes (x : Inbound) (o : Outcome) : Turn source n (.handing x) [.completed n x o] .idle
  | leaves (w : ChannelWorker) (h : w = .idle ∨ w = .listening) : Turn source n w [] .ended

theorem Turn.mine {w' : ChannelWorker} (h : Turn source n w marks w') : ∀ m ∈ marks, m.worker? = some n := by
  cases h <;> simp [Mark.worker?]

theorem worker_of_some (h : r.workers[n]? = some w) : r.worker n = w := by
  rw [worker, h, Option.getD_some]

theorem some_of_worker (h : r.worker n = w) (hw : w ≠ .idle) : r.workers[n]? = some w := by
  cases hn : r.workers[n]? with
  | none =>
    rw [worker, hn] at h
    exact absurd h.symm hw
  | some v => rw [← worker_of_some hn, h]

/-- A worker stays as it is, and nothing is done by it, unless it is its turn. -/
theorem Turn.alone {w' : ChannelWorker} (h : Turn r.source n w marks w') (hn : r.workers[n]? = some w)
    (hr' : r'.workers = r.workers.set n w') (k : Nat) :
    Turn r.source k (r.worker k) marks (r'.worker k) ∨ r'.worker k = r.worker k ∧ ∀ m ∈ marks, m.worker? ≠ some k := by
  by_cases hk : k = n
  · subst hk
    obtain ⟨hlt, -⟩ := List.getElem?_eq_some_iff.1 hn
    have hw' : r'.worker k = w' := worker_of_some (by rw [hr', List.getElem?_set_self hlt])
    rw [worker_of_some hn, hw']
    exact .inl h
  · refine .inr ⟨?_, fun m hm hkm => ?_⟩
    · rw [worker, worker, hr', List.getElem?_set_ne (Ne.symm hk)]
    · exact hk (Option.some.inj (hkm.symm.trans (h.mine m hm)))

namespace Goes

variable (h : r.Goes a r' marks)

include h

theorem turn (k : Nat) :
    Turn r.source k (r.worker k) marks (r'.worker k) ∨ r'.worker k = r.worker k ∧ ∀ m ∈ marks, m.worker? ≠ some k := by
  cases h with
  | offered | cancelled => exact .inr ⟨rfl, by simp [Mark.worker?]⟩
  | listened n hn => exact Turn.listens.alone hn rfl k
  | took n x rest hn => exact (Turn.takes x).alone hn rfl k
  | gave n x hn => exact (Turn.gives x).alone hn rfl k
  | finished n x o hn => exact (Turn.finishes x o).alone hn rfl k
  | left n w hn hw => exact (Turn.leaves w hw).alone hn rfl k

theorem fixed : r'.source = r.source ∧ r'.capacity = r.capacity ∧ r'.workers.length = r.workers.length := by
  cases h with
  | offered | cancelled => exact ⟨rfl, rfl, rfl⟩
  | listened | took | gave | finished | left => exact ⟨rfl, rfl, List.length_set⟩

theorem bounded (hr : r.queue.length ≤ r.capacity) : r'.queue.length ≤ r'.capacity := by
  cases h with
  | offered x hroom =>
    show (r.queue ++ [x]).length ≤ r.capacity
    rw [List.length_append, List.length_singleton]
    exact hroom
  | took n x rest hn hq =>
    rw [hq, List.length_cons] at hr
    exact Nat.le_of_succ_le hr
  | listened | gave | finished | cancelled | left => exact hr

/-- What was queued and what comes in is taken or queued. -/
theorem conserves : r.queue ++ marks.filterMap Mark.accepted? = marks.filterMap Mark.taken? ++ r'.queue := by
  cases h with
  | took n x rest hn hq => exact (List.append_nil _).trans hq
  | offered => rfl
  | listened | gave | finished | cancelled | left => exact List.append_nil _

/-- A worker goes on with its round, and begins another one when it is through. -/
theorem rounds (k : Nat) :
    Mark.begun r.source k (r.worker k) ++ marks.filter (·.worker? = some k) =
      (marks.filterMap (Mark.completedBy? k)).flatMap (Mark.round r.source k) ++ Mark.begun r.source k (r'.worker k) := by
  rcases h.turn k with hturn | ⟨hsame, hothers⟩
  · generalize r.worker k = w, r'.worker k = w' at hturn
    cases hturn with
    | leaves w hw => rcases hw with rfl | rfl <;> rfl
    | _ => simp [Mark.begun, Mark.worker?, Mark.completedBy?, Mark.round]
  · have hnone : marks.filter (·.worker? = some k) = [] := by
      rw [List.filter_eq_nil_iff]
      intro m hm
      simpa using hothers m hm
    have hcompleted : marks.filterMap (Mark.completedBy? k) = [] := by
      rw [List.filterMap_eq_nil_iff]
      intro m hm
      cases m with
      | completed n x o => exact if_neg fun hn => hothers _ hm (congrArg some hn)
      | _ => rfl
    rw [hnone, hcompleted, hsame]
    exact List.append_nil _

/-- A worker that has ended does nothing any more. -/
theorem ended (hk : r.worker k = .ended) : r'.worker k = .ended ∧ ∀ m ∈ marks, m.worker? ≠ some k := by
  rcases h.turn k with hturn | ⟨hsame, hothers⟩
  · rw [hk] at hturn
    generalize r'.worker k = w' at hturn
    cases hturn with
    | leaves w hw => rcases hw with hw | hw <;> cases hw
  · exact ⟨hsame.trans hk, hothers⟩

/-- When all workers have ended, nobody takes anything. -/
theorem taken_nil (hall : ∀ n < r.workers.length, r.worker n = .ended) : marks.filterMap Mark.taken? = [] := by
  cases h with
  | took n x rest hn =>
    obtain ⟨hlt, -⟩ := List.getElem?_eq_some_iff.1 hn
    have hended := hall n hlt
    rw [worker_of_some hn] at hended
    cases hended
  | offered | listened | gave | finished | cancelled | left => rfl

end Goes

/-! ## Runs -/

/-- A receiver, and what has been done with payloads so far, the first one first. -/
structure Passage where
  receiver : ChannelReceiver
  marks : List Mark

namespace Passage

def start (source : String) (capacity workers : Nat) : Passage := ⟨create source capacity workers, []⟩

def step? (s : Passage) (a : Step) : Option Passage :=
  (s.receiver.marked? a).map fun t => ⟨t.1, s.marks ++ t.2⟩

def run? (s : Passage) (steps : List Step) : Option Passage := steps.foldlM step? s

/-- What has been accepted, in that order. -/
def accepted (s : Passage) : List Inbound := s.marks.filterMap Mark.accepted?

/-- What the workers have taken, in that order. -/
def taken (s : Passage) : List Inbound := s.marks.filterMap Mark.taken?

def marksOf (s : Passage) (n : Nat) : List Mark := s.marks.filter (·.worker? = some n)

def completedBy (s : Passage) (n : Nat) : List (Inbound × Outcome) := s.marks.filterMap (Mark.completedBy? n)

variable {s t u : Passage} {steps : List Step} {capacity workers : Nat}

theorem step?_of_goes (h : s.receiver.Goes a r' marks) : s.step? a = some ⟨r', s.marks ++ marks⟩ := by
  rw [step?, marked?_iff.2 h]
  rfl

theorem step?_eq_some (h : s.step? a = some t) : ∃ marks, s.receiver.Goes a t.receiver marks ∧ t.marks = s.marks ++ marks := by
  obtain ⟨⟨r', marks⟩, hm, rfl⟩ := Option.map_eq_some_iff.1 h
  exact ⟨marks, marked?_iff.1 hm, rfl⟩

/-- What every step preserves holds after a run. -/
theorem run_induction {P : Passage → Prop} (hstep : ∀ s a t, s.step? a = some t → P s → P t)
    (h : s.run? steps = some t) (hs : P s) : P t := by
  induction steps generalizing s with
  | nil =>
    cases h
    exact hs
  | cons a steps ih =>
    obtain ⟨u, hu, hrest⟩ := Option.bind_eq_some_iff.1 h
    exact ih hrest (hstep s a u hu hs)

/-- The books of a channel. -/
structure Kept (source : String) (capacity workers : Nat) (s : Passage) : Prop where
  source : s.receiver.source = source
  capacity : s.receiver.capacity = max 1 capacity
  workers : s.receiver.workers.length = max 1 workers
  bounded : s.receiver.queue.length ≤ s.receiver.capacity
  conserved : s.accepted = s.taken ++ s.receiver.queue
  rounds : ∀ n, s.marksOf n =
    (s.completedBy n).flatMap (Mark.round s.receiver.source n) ++ Mark.begun s.receiver.source n (s.receiver.worker n)

theorem start_kept (source : String) (capacity workers : Nat) : (start source capacity workers).Kept source capacity workers where
  source := rfl
  capacity := rfl
  workers := List.length_replicate
  bounded := Nat.zero_le _
  conserved := rfl
  rounds n := by
    have hidle : (start source capacity workers).receiver.worker n = .idle := by
      show ((List.replicate _ ChannelWorker.idle)[n]?).getD .idle = .idle
      rw [List.getElem?_replicate]
      split <;> rfl
    rw [hidle]
    rfl

theorem Kept.step (hs : s.Kept source capacity workers) (h : s.step? a = some t) : t.Kept source capacity workers := by
  obtain ⟨marks, hgoes, hmarks⟩ := step?_eq_some h
  obtain ⟨hsource, hcapacity, hworkers⟩ := hgoes.fixed
  refine ⟨hsource.trans hs.source, hcapacity.trans hs.capacity, hworkers.trans hs.workers, hgoes.bounded hs.bounded, ?_,
    fun n => ?_⟩
  · have hconserved := hs.conserved
    simp only [accepted, taken, hmarks, List.filterMap_append] at hconserved ⊢
    rw [hconserved, List.append_assoc, hgoes.conserves, List.append_assoc]
  · have hrounds := hs.rounds n
    simp only [marksOf, completedBy, hmarks, List.filter_append, List.filterMap_append, List.flatMap_append] at hrounds ⊢
    rw [hrounds, hsource, List.append_assoc, hgoes.rounds n, List.append_assoc]

theorem run_kept (h : (start source capacity workers).run? steps = some s) : s.Kept source capacity workers :=
  run_induction (fun _ _ _ hstep hs => hs.step hstep) h (start_kept source capacity workers)

/-! ## When workers have ended -/

/-- What is still true in `t`, which comes later, of those that have ended in `s`. -/
structure Later (s t : Passage) : Prop where
  workers : t.receiver.workers.length = s.receiver.workers.length
  ended : ∀ n, s.receiver.worker n = .ended → t.receiver.worker n = .ended ∧ t.marksOf n = s.marksOf n
  closed : (∀ n < s.receiver.workers.length, s.receiver.worker n = .ended) →
    ∃ more, t.accepted = s.accepted ++ more ∧ t.taken = s.taken ∧ t.receiver.queue = s.receiver.queue ++ more

theorem Later.refl (s : Passage) : Later s s where
  workers := rfl
  ended _ hn := ⟨hn, rfl⟩
  closed _ := ⟨[], (List.append_nil _).symm, rfl, (List.append_nil _).symm⟩

theorem Later.step (hst : Later s t) (h : t.step? a = some u) : Later s u := by
  obtain ⟨marks, hgoes, hmarks⟩ := step?_eq_some h
  refine ⟨hgoes.fixed.2.2.trans hst.workers, fun n hn => ?_, fun hall => ?_⟩
  · obtain ⟨ht, hsame⟩ := hst.ended n hn
    obtain ⟨hu, hothers⟩ := hgoes.ended ht
    have hnone : marks.filter (·.worker? = some n) = [] := by
      rw [List.filter_eq_nil_iff]
      intro m hm
      simpa using hothers m hm
    refine ⟨hu, ?_⟩
    rw [← hsame, marksOf, marksOf, hmarks, List.filter_append, hnone, List.append_nil]
  · obtain ⟨more, haccepted, htaken, hqueue⟩ := hst.closed hall
    have hnone := hgoes.taken_nil fun n hn => (hst.ended n (hall n (hst.workers ▸ hn))).1
    have hgrown := hgoes.conserves
    rw [hnone, List.nil_append] at hgrown
    refine ⟨more ++ marks.filterMap Mark.accepted?, ?_, ?_, ?_⟩
    · rw [← List.append_assoc, ← haccepted, accepted, accepted, hmarks, List.filterMap_append]
    · rw [← htaken, taken, taken, hmarks, List.filterMap_append, hnone, List.append_nil]
    · rw [← List.append_assoc, ← hqueue, hgrown]

/-! ## Nobody is stuck -/

theorem isFree_iff : r.isFree ↔ ∀ k : Nat, r.workers[k]? ≠ some ChannelWorker.listening := by
  simp only [isFree, Bool.not_eq_true', List.any_eq_false]
  constructor
  · intro hall k hk
    exact hall _ (List.mem_of_getElem? hk) rfl
  · intro hall w hw hlistening
    obtain ⟨k, hk⟩ := List.mem_iff_getElem?.1 hw
    cases w with
    | listening => exact hall k hk
    | _ => cases hlistening

theorem isFree_set (hfree : r.isFree) (hr' : r'.workers = r.workers.set n w) (hw : w ≠ .listening) : r'.isFree := by
  rw [isFree_iff] at hfree ⊢
  intro k hk
  rw [hr', List.getElem?_set] at hk
  split at hk
  · split at hk
    · exact hw (Option.some.inj hk)
    · cases hk
  · exact hfree k hk

/-- The workers can go on so that one of them takes `x` and leaves `rest`. -/
def CanTake (s : Passage) (x : Inbound) (rest : List Inbound) : Prop :=
  ∃ steps t, s.run? steps = some t ∧ t.accepted = s.accepted ∧ t.taken = s.taken ++ [x] ∧ t.receiver.queue = rest

theorem CanTake.after {x : Inbound} {rest : List Inbound} (h : s.receiver.Goes a r' marks)
    (haccepted : marks.filterMap Mark.accepted? = []) (htaken : marks.filterMap Mark.taken? = [])
    (ht : CanTake ⟨r', s.marks ++ marks⟩ x rest) : s.CanTake x rest := by
  obtain ⟨steps, t, hrun, hacc, htak, hqueue⟩ := ht
  refine ⟨a :: steps, t, ?_, ?_, ?_, hqueue⟩
  · rw [run?, List.foldlM_cons, step?_of_goes h]
    exact hrun
  · rw [hacc, accepted, List.filterMap_append, haccepted, List.append_nil]
    rfl
  · rw [htak, taken, List.filterMap_append, htaken, List.append_nil]
    rfl

variable {x : Inbound} {rest : List Inbound} (hq : s.receiver.queue = x :: rest)

include hq

theorem canTake_of_listening (hn : s.receiver.workers[n]? = some .listening) : s.CanTake x rest := by
  have hgoes := Goes.took n x rest hn hq
  refine ⟨[.take n], _, (congrArg (· >>= pure) (step?_of_goes hgoes)).trans rfl, ?_, ?_, rfl⟩
  · simp [accepted, Mark.accepted?]
  · simp [taken, Mark.taken?]

theorem canTake_of_idle (hfree : s.receiver.isFree) (hn : s.receiver.workers[n]? = some .idle) : s.CanTake x rest := by
  obtain ⟨hlt, -⟩ := List.getElem?_eq_some_iff.1 hn
  exact .after (.listened n hn hfree) rfl rfl (canTake_of_listening hq (List.getElem?_set_self hlt))

theorem canTake_of_handing {y : Inbound} (hfree : s.receiver.isFree) (hn : s.receiver.workers[n]? = some (.handing y)) :
    s.CanTake x rest := by
  obtain ⟨hlt, -⟩ := List.getElem?_eq_some_iff.1 hn
  exact .after (.finished n y {} hn) rfl rfl
    (canTake_of_idle hq (isFree_set hfree rfl nofun) (List.getElem?_set_self hlt))

/-- While one worker has not ended, the next payload can be taken, without a sender or a cancellation. -/
theorem front_taken (hn : s.receiver.workers[n]? = some w) (hw : w ≠ .ended) : s.CanTake x rest := by
  by_cases hfree : s.receiver.isFree
  · cases w with
    | idle => exact canTake_of_idle hq hfree hn
    | listening => exact canTake_of_listening hq hn
    | holding y =>
      obtain ⟨hlt, -⟩ := List.getElem?_eq_some_iff.1 hn
      exact .after (.gave n y hn) rfl rfl
        (canTake_of_handing hq (isFree_set hfree rfl nofun) (List.getElem?_set_self hlt))
    | handing y => exact canTake_of_handing hq hfree hn
    | ended => exact absurd rfl hw
  · -- somebody is at the receiving end
    rw [isFree_iff] at hfree
    obtain ⟨k, hk⟩ := Classical.not_forall.1 hfree
    exact canTake_of_listening hq (Classical.not_not.1 hk)

omit hq

end Passage

/-! ## One after the other -/

section

variable (hn : r.workers[n]? = some .idle) (hfree : r.isFree)

include hn hfree

theorem serve?_nil (hq : r.queue = []) : r.serve? n = none := by
  obtain ⟨hlt, hidle⟩ := List.getElem?_eq_some_iff.1 hn
  simp [serve?, listen?, hidle, hfree, take?, setWorker, hlt, hq]

/-- A worker that is on its own gets the next payload to the pipeline. -/
theorem serve?_cons {x : Inbound} {rest : List Inbound} (hq : r.queue = x :: rest) :
    r.serve? n = some ((r.source, x), { r.setWorker n (.handing x) with queue := rest }) := by
  obtain ⟨hlt, hidle⟩ := List.getElem?_eq_some_iff.1 hn
  simp [serve?, listen?, hidle, hfree, take?, hand?, setWorker, hlt, hq]

omit hfree in
/-- And it is idle again when the pipeline is done with it. -/
theorem finish?_served (x : Inbound) (rest : List Inbound) :
    ({ r.setWorker n (.handing x) with queue := rest } : ChannelReceiver).finish? n = some (x, { r with queue := rest }) := by
  obtain ⟨hlt, hidle⟩ := List.getElem?_eq_some_iff.1 hn
  simp [finish?, setWorker, hlt, ← hidle]

/-- These are the steps of one round. -/
theorem run?_round {x : Inbound} {rest : List Inbound} (hq : r.queue = x :: rest) (marks : List Mark) (o : Outcome) :
    (⟨r, marks⟩ : Passage).run? [.listen n, .take n, .hand n, .finish n o] =
      some ⟨{ r with queue := rest }, marks ++ Mark.round r.source n (x, o)⟩ := by
  obtain ⟨hlt, hidle⟩ := List.getElem?_eq_some_iff.1 hn
  have hset : r.workers.set n .idle = r.workers := by rw [← hidle, List.set_getElem_self]
  simp [Passage.run?, Passage.step?, marked?, ChannelReceiver.step?, listen?, take?, hand?, finish?, Mark.round, setWorker,
    hidle, hfree, hlt, hq, hset]

/-- So it hands on what is queued, one after the other, with its source. -/
theorem drain_eq {m : Type → Type} [Monad m] [LawfulMonad m] (hand : String → Inbound → m Outcome) (k : Nat) :
    r.drain hand n k = do
      (r.queue.take k).forM fun x => discard (hand r.source x)
      return { r with queue := r.queue.drop k } := by
  induction k generalizing r with
  | zero => simp [drain]
  | succ k ih =>
    cases hq : r.queue with
    | nil =>
      have hr : ({ r with queue := [] } : ChannelReceiver) = r := by rw [← hq]
      rw [drain, serve?_nil hn hfree hq]
      simp [hr]
    | cons x rest =>
      have hrest := ih (r := { r with queue := rest }) hn hfree
      rw [drain, serve?_cons hn hfree hq]
      simp [finish?_served hn, hrest]

end

/-! ## Nothing is lost, nothing comes twice -/

namespace Passage

variable {s : Passage}

/-- Every step of every run keeps the books, whenever it is cancelled and however it goes on. -/
theorem passage_exact (source : String) (capacity workers : Nat) {steps : List Step}
    (h : (start source capacity workers).run? steps = some s) :
    s.accepted = s.taken ++ s.receiver.queue ∧ s.receiver.queue.length ≤ max 1 capacity ∧
      s.receiver.workers.length = max 1 workers ∧
      (∀ n, s.marksOf n = (s.completedBy n).flatMap (Mark.round source n) ++ Mark.begun source n (s.receiver.worker n)) ∧
      (∀ n x, s.receiver.worker n = .holding x →
        ∃ t, s.step? (.hand n) = some t ∧ t.marks = s.marks ++ [.handed n source x]) ∧
      ∀ more t, s.run? more = some t →
        (∀ n, s.receiver.worker n = .ended → t.receiver.worker n = .ended ∧ t.marksOf n = s.marksOf n) ∧
        ((∀ n < max 1 workers, s.receiver.worker n = .ended) →
          ∃ late, t.accepted = s.accepted ++ late ∧ t.taken = s.taken ∧ t.receiver.queue = s.receiver.queue ++ late) := by
  have hs := run_kept h
  refine ⟨hs.conserved, hs.capacity ▸ hs.bounded, hs.workers, fun n => ?_, fun n x hn => ?_, fun more t hmore => ?_⟩
  · have hrounds := hs.rounds n
    rwa [hs.source] at hrounds
  · refine ⟨_, step?_of_goes (.gave n x (some_of_worker hn nofun)), ?_⟩
    rw [hs.source]
  · have hlater : Later s t := run_induction (fun _ _ _ hstep hst => hst.step hstep) hmore (.refl s)
    have hclosed := hlater.closed
    rw [hs.workers] at hclosed
    exact ⟨hlater.ended, hclosed⟩

def sampleInbound (text : String) : Inbound := ⟨text.toUTF8, .empty⟩

/-- Two workers, one of which is listening and the other one handing on when the receiver is cancelled. -/
def sampleSteps : List Step :=
  [.offer (sampleInbound "a"), .listen 1, .take 1, .listen 0, .hand 1, .offer (sampleInbound "b"), .take 0, .finish 1 {},
    .offer (sampleInbound "c"), .listen 1, .cancel, .hand 0, .leave 1, .offer (sampleInbound "d"), .finish 0 {}, .leave 0]

theorem passage_exact_cancelled : ∃ s, (start "embedded" 2 2).run? sampleSteps = some s ∧
    s.accepted = s.taken ++ [sampleInbound "c", sampleInbound "d"] ∧
    s.marksOf 0 = Mark.round "embedded" 0 (sampleInbound "b", {}) ∧
    ∀ more t, s.run? more = some t → t.taken = s.taken := by
  obtain ⟨s, hrun, hqueue, h0, h1, hcompleted⟩ : ∃ s, (start "embedded" 2 2).run? sampleSteps = some s ∧
      s.receiver.queue = [sampleInbound "c", sampleInbound "d"] ∧ s.receiver.worker 0 = .ended ∧
      s.receiver.worker 1 = .ended ∧ s.completedBy 0 = [(sampleInbound "b", {})] :=
    ⟨_, rfl, rfl, rfl, rfl, rfl⟩
  obtain ⟨hconserved, -, -, hrounds, -, hlater⟩ := passage_exact "embedded" 2 2 hrun
  have hall : ∀ n < max 1 2, s.receiver.worker n = .ended
    | 0, _ => h0
    | 1, _ => h1
    | n + 2, hn => absurd hn (by omega)
  refine ⟨s, hrun, hqueue ▸ hconserved, ?_, fun more t hmore => ?_⟩
  · rw [hrounds 0, hcompleted, h0]
    rfl
  · obtain ⟨late, -, htaken, -⟩ := (hlater more t hmore).2 hall
    exact htaken

end Passage
end DeviceEvents.ChannelReceiver
