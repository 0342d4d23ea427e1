import DeviceEvents.Proofs.Ingest.Inflow
/-
  DeviceEvents.Proofs.Ingest.Attended — an intake that takes one payload attends to one delivery.

  An intake knows the answer to whatever a delivery waits for (`Intake.serve`). To take in a
  payload is to give a new delivery such answers, one after another, until it is finished
  (`receive_eq_attend`): so what is known of deliveries side by side is known of the intake.
-/

namespace DeviceEvents

namespace Delivery

variable {m : Type → Type} [Monad m] {s : Services m} {d : Delivery}

theorem judgeNext_rests (h : d.stage.judging? = none) : judgeNext s d = return d := by
  unfold judgeNext
  split
  · rename_i hs
    rw [hs] at h
    cases h
  · rfl

theorem handleNext_rests (h : d.stage.handling? = none) : handleNext s d = return d := by
  unfold handleNext
  split
  · rename_i hs
    rw [hs] at h
    cases h
  · rfl

theorem releaseNext_rests (h : d.stage.releasing? = none) : releaseNext s d = return d := by
  unfold releaseNext
  split
  · rename_i hs
    rw [hs] at h
    cases h
  · rfl

end Delivery

namespace Intake

open Delivery (judgeNext handleNext releaseNext settleMany)

variable {m : Type → Type} [Monad m] (i : Intake m) (source : String) (x : Inbound)

/-- The answer to what a delivery waits for. -/
def serve : Stage → m (Option Answer)
  | .decoding => return some (.decoded (i.decode x))
  | .reporting u => do
    (i.services source x).report u
    return some .reported
  | .judging r _ => return some (.judged (← (i.services source x).judge r))
  | .handling r _ => return some (.handled (← (i.services source x).handle r))
  | .releasing r _ => do
    (i.services source x).release r
    return some .released
  | .finished => return none

def attend (d : Delivery) : m Delivery := do
  match ← i.serve source x d.stage with
  | some answer => Delivery.note (i.services source x) (d.answered (← i.counters) answer)
  | none => return d

def attendMany : Nat → Delivery → m Delivery
  | 0, d => return d
  | n + 1, d => do attendMany n (← i.attend source x d)

/-- Counters that are written back as they were read have not changed. -/
def Keeps (i : Intake m) : Prop := (do i.setCounters (← i.counters)) = (return () : m Unit)

variable [LawfulMonad m] {i source x} {d : Delivery} {r : Request} {rest : List Request}

theorem attend_judging (h : d.stage = .judging r rest) : i.attend source x d = judgeNext (i.services source x) d := by
  simp only [attend, judgeNext, h, serve, bind_assoc, pure_bind]
  rfl

theorem attend_handling (h : d.stage = .handling r rest) : i.attend source x d = handleNext (i.services source x) d := by
  simp only [attend, handleNext, h, serve, bind_assoc, pure_bind]
  rfl

theorem attendMany_finished (h : d.stage = .finished) (n : Nat) : i.attendMany source x n d = return d := by
  induction n with
  | zero => rfl
  | succ n ih =>
    rw [attendMany, attend, h, serve, pure_bind]
    exact (pure_bind d _).trans ih

section

variable (hi : i.Keeps)

include hi

theorem note_same (d : Delivery) : (do Delivery.note (i.services source x) (d, ← i.counters)) = return d := by
  have h : (i.counters >>= i.setCounters) >>= (fun _ => return d) = return d := by
    rw [show i.counters >>= i.setCounters = return () from hi, pure_bind]
  rw [bind_assoc] at h
  exact h

theorem attend_reporting {u : Undecoded} (h : d.stage = .reporting u) :
    i.attend source x d = do
      (i.services source x).report u
      return d.reported := by
  simp only [attend, h, serve, bind_assoc, pure_bind]
  exact congrArg _ (funext fun _ => note_same hi d.reported)

theorem attend_releasing (h : d.stage = .releasing r rest) :
    i.attend source x d = releaseNext (i.services source x) d := by
  simp only [attend, releaseNext, h, serve, bind_assoc, pure_bind]
  exact congrArg _ (funext fun _ => note_same hi d.released)

/-- A request at the handler is settled, given that those after it are. -/
theorem handle_eq_attend (h : d.stage = .handling r rest)
    (ih : ∀ {d : Delivery}, d.Faces rest → ∀ {n}, 3 * rest.length ≤ n →
      settleMany (i.services source x) rest.length d = i.attendMany source x n d)
    {n : Nat} (hn : 3 * rest.length + 2 ≤ n) :
    (do
      let d ← releaseNext (i.services source x) (← handleNext (i.services source x) d)
      settleMany (i.services source x) rest.length d) = i.attendMany source x n d := by
  obtain ⟨n, rfl⟩ := Nat.exists_eq_add_of_le' (Nat.le_trans (Nat.le_add_left 1 _) hn)
  rw [attendMany, attend_handling h, handleNext, h]
  simp only [bind_assoc, Delivery.note, pure_bind]
  refine bind_congr fun result => bind_congr fun c => bind_congr fun _ => ?_
  have hg := Delivery.handled_goes c result h
  generalize d.handled c result = p at hg
  cases hg with
  | handled r' rest' _ f h' _ _ =>
    cases h.symm.trans h'
    have hs : (d.past f rest).stage.releasing? = none := Delivery.stage_past d f rest ▸ Delivery.releasing?_turnTo d rest
    rw [Delivery.releaseNext_rests hs, pure_bind]
    exact ih (Delivery.faces_past d f rest) (by omega)
  | releasing r' rest' _ h' _ _ =>
    cases h.symm.trans h'
    obtain ⟨n, rfl⟩ := Nat.exists_eq_add_of_le' (show 1 ≤ n by omega)
    rw [attendMany, attend_releasing hi rfl, releaseNext]
    simp only [bind_assoc, pure_bind]
    exact bind_congr fun _ => ih (Delivery.faces_turnTo _ rest) (by omega)

/-- Three answers are enough for every request. -/
theorem settleMany_eq_attend (rs : List Request) {d : Delivery} (hd : d.Faces rs) {n : Nat} (hn : 3 * rs.length ≤ n) :
    settleMany (i.services source x) rs.length d = i.attendMany source x n d := by
  induction rs generalizing d n with
  | nil => exact (attendMany_finished hd n).symm
  | cons r rest ih =>
    rw [List.length_cons, settleMany, Delivery.settleNext]
    rw [List.length_cons] at hn
    simp only [bind_assoc]
    have hstage : d.stage = _ := hd.trans (Delivery.stage_turnTo_cons d rest r)
    cases hdd : d.deduplicates with
    | false =>
      have hs : d.stage = .handling r rest := by rwa [hdd, if_neg nofun] at hstage
      have hj : d.stage.judging? = none := by rw [hs]; rfl
      rw [Delivery.judgeNext_rests hj, pure_bind]
      simpa only [bind_assoc] using handle_eq_attend hi hs ih (by omega)
    | true =>
      have hs : d.stage = .judging r rest := by rwa [hdd, if_pos rfl] at hstage
      obtain ⟨n, rfl⟩ := Nat.exists_eq_add_of_le' (show 1 ≤ n by omega)
      rw [attendMany, attend_judging hs, judgeNext, hs]
      simp only [bind_assoc, Delivery.note, pure_bind]
      refine bind_congr fun verdict => bind_congr fun c => bind_congr fun _ => ?_
      have hg := Delivery.judged_goes c verdict hs
      generalize d.judged c verdict = p at hg
      cases hg with
      | new r' rest' h' =>
        cases hs.symm.trans h'
        simpa only [bind_assoc] using handle_eq_attend hi (d := { d with stage := .handling r rest }) rfl ih (by omega)
      | notNew r' rest' _ f h' _ =>
        cases hs.symm.trans h'
        have hh : (d.past f rest).stage.handling? = none := by
          rw [Delivery.stage_past, Delivery.handling?_turnTo, hdd, if_pos rfl]
        have hr : (d.past f rest).stage.releasing? = none := Delivery.stage_past d f rest ▸ Delivery.releasing?_turnTo d rest
        rw [Delivery.handleNext_rests hh, pure_bind, Delivery.releaseNext_rests hr, pure_bind]
        exact ih (Delivery.faces_past d f rest) (by omega)

omit hi in
theorem attend_start (deduplicates : Bool) :
    i.attend source x (.start deduplicates) = (do
      let c ← i.counters
      Delivery.note (i.services source x) ((Delivery.start deduplicates).decoded c (i.decode x))) := by
  simp only [attend, Delivery.start, serve, pure_bind]
  rfl

/-- So many answers are enough for a payload. -/
def enough : Except Undecoded (List Request) → Nat
  | .error _ => 2
  | .ok rs => 3 * rs.length + 1

theorem receive_eq_attend {n : Nat} (hn : enough (i.decode x) ≤ n) :
    i.receive source x = do
      i.setCounters (← i.counters).addPayload
      return (← i.attendMany source x n (.start i.deduplicator.isSome)).outcome := by
  have hn1 : 1 ≤ n := by
    revert hn
    cases i.decode x <;> simp only [enough] <;> omega
  obtain ⟨n, rfl⟩ := Nat.exists_eq_add_of_le' hn1
  rw [receive, Delivery.receive, attendMany, attend_start]
  simp only [bind_assoc, Delivery.note, pure_bind]
  refine bind_congr fun c => bind_congr fun _ => bind_congr fun c => bind_congr fun _ => ?_
  cases hx : i.decode x with
  | error u =>
    rw [hx, enough] at hn
    obtain ⟨n, rfl⟩ := Nat.exists_eq_add_of_le' (show 1 ≤ n by omega)
    let d : Delivery := ((Delivery.start i.deduplicator.isSome).decoded c (.error u)).1
    have hd : d.reported.stage = .finished := rfl
    rw [attendMany, attend_reporting hi (d := d) rfl]
    simp only [bind_assoc, pure_bind, attendMany_finished hd]
    rfl
  | ok rs =>
    rw [hx, enough] at hn
    let d : Delivery := { Delivery.start i.deduplicator.isSome with outcome := { decoded := rs.length } }
    have hd : ((Delivery.start (i.services source x).deduplicates).decoded c (.ok rs)).1 = d.turnTo rs := rfl
    have hd' : ((Delivery.start i.deduplicator.isSome).decoded c (.ok rs)).1 = d.turnTo rs := rfl
    rw [hd, hd']
    split
    · rename_i u hs
      have := d.reporting?_turnTo rs
      rw [hs] at this
      cases this
    · rw [Delivery.unsettled_turnTo, settleMany_eq_attend hi rs (Delivery.faces_turnTo d rs) (show 3 * rs.length ≤ n by omega)]

end

end Intake
end DeviceEvents
