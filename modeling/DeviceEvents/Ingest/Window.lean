import Std.Data.HashSet
import DeviceEvents.Request
/-
  DeviceEvents.Ingest.Window — the fingerprints of the most recent requests.

  A window takes up to `capacity` fingerprints, and at least one. A fresh fingerprint goes to
  the end of the queue, and the oldest one leaves when there are too many. One that is met
  again keeps its place. The members are the fingerprints in the queue.
-/

namespace DeviceEvents

structure Window where
  capacity : Nat
  /-- Oldest first. -/
  queue : List Fingerprint
  members : Std.HashSet Fingerprint
  roomy : 0 < capacity
  fits : queue.length ≤ capacity
  distinct : queue.Nodup
  listed : ∀ f, f ∈ members ↔ f ∈ queue

namespace Window

def ofCapacity (n : Nat) : Window where
  capacity := max n 1
  queue := []
  members := ∅
  roomy := by omega
  fits := Nat.zero_le _
  distinct := .nil
  listed := by simp

def size (w : Window) : Nat := w.queue.length

def contains (w : Window) (f : Fingerprint) : Bool := w.members.contains f

theorem contains_iff {w : Window} {f : Fingerprint} : w.contains f = true ↔ f ∈ w.queue :=
  Std.HashSet.mem_iff_contains.symm.trans (w.listed f)

theorem contains_eq_false {w : Window} {f : Fingerprint} : w.contains f = false ↔ f ∉ w.queue := by
  rw [← contains_iff, Bool.not_eq_true]

/-- Takes the oldest fingerprints out until the window is no longer overfull. -/
def evict (capacity : Nat) : List Fingerprint → Std.HashSet Fingerprint →
    List Fingerprint × Std.HashSet Fingerprint
  | [], members => ([], members)
  | f :: queue, members =>
    if capacity < queue.length + 1 then evict capacity queue (members.erase f)
    else (f :: queue, members)

theorem evict_queue (capacity : Nat) (queue : List Fingerprint) (members : Std.HashSet Fingerprint) :
    (evict capacity queue members).1 = queue.drop (queue.length - capacity) := by
  induction queue generalizing members with
  | nil => simp [evict]
  | cons f queue ih =>
    simp only [evict, List.length_cons]
    split
    · rename_i h
      rw [ih, show queue.length + 1 - capacity = queue.length - capacity + 1 by omega, List.drop_succ_cons]
    · rename_i h
      rw [show queue.length + 1 - capacity = 0 by omega, List.drop_zero]

theorem mem_evict {capacity : Nat} {queue : List Fingerprint} {members : Std.HashSet Fingerprint}
    (hd : queue.Nodup) (h : ∀ f, f ∈ members ↔ f ∈ queue) (f : Fingerprint) :
    f ∈ (evict capacity queue members).2 ↔ f ∈ (evict capacity queue members).1 := by
  induction queue generalizing members with
  | nil => exact h f
  | cons g queue ih =>
    have ⟨hg, hd⟩ := List.nodup_cons.1 hd
    simp only [evict]
    split
    · refine ih hd fun x => ?_
      rw [Std.HashSet.mem_erase, h, List.mem_cons, beq_eq_false_iff_ne]
      constructor
      · rintro ⟨hne, rfl | hx⟩
        · exact absurd rfl hne
        · exact hx
      · intro hx
        exact ⟨fun he => hg (he ▸ hx), .inr hx⟩
    · exact h f

/-- With a fresh fingerprint at the end. -/
def push (w : Window) (f : Fingerprint) (h : f ∉ w.queue) : Window :=
  let kept := evict w.capacity (w.queue ++ [f]) (w.members.insert f)
  have hd : (w.queue ++ [f]).Nodup := by
    refine List.nodup_append.2 ⟨w.distinct, by simp, ?_⟩
    rintro x hx y hy rfl
    exact h (List.mem_singleton.1 hy ▸ hx)
  { capacity := w.capacity
    queue := kept.1
    members := kept.2
    roomy := w.roomy
    fits := by
      rw [evict_queue, List.length_drop]
      omega
    distinct := by
      rw [evict_queue]
      exact hd.sublist (List.drop_sublist ..)
    listed := mem_evict hd fun x => by
      rw [Std.HashSet.mem_insert, w.listed, List.mem_append, List.mem_singleton, beq_iff_eq, eq_comm, or_comm] }

/-- Has the window seen `f`? If not, now it has. -/
def see (w : Window) (f : Fingerprint) : Bool × Window :=
  if h : w.contains f then (true, w) else (false, w.push f (mt contains_iff.2 h))

def forget (w : Window) (f : Fingerprint) : Window :=
  if w.contains f then
    { capacity := w.capacity
      queue := w.queue.filter (· != f)
      members := w.members.erase f
      roomy := w.roomy
      fits := Nat.le_trans (List.length_filter_le ..) w.fits
      distinct := w.distinct.sublist List.filter_sublist
      listed := fun x => by
        rw [Std.HashSet.mem_erase, w.listed, List.mem_filter, and_comm, beq_eq_false_iff_ne, bne_iff_ne, ne_comm] }
  else w

theorem see_of_mem {w : Window} {f : Fingerprint} (h : f ∈ w.queue) : w.see f = (true, w) :=
  dif_pos (contains_iff.2 h)

theorem see_of_not_mem {w : Window} {f : Fingerprint} (h : f ∉ w.queue) : w.see f = (false, w.push f h) :=
  dif_neg (mt contains_iff.1 h)

theorem queue_push (w : Window) (f : Fingerprint) (h : f ∉ w.queue) :
    (w.push f h).queue = (w.queue ++ [f]).drop (w.queue.length + 1 - w.capacity) := by
  show (evict w.capacity (w.queue ++ [f]) (w.members.insert f)).1 = _
  rw [evict_queue, List.length_append, List.length_singleton]

theorem queue_forget (w : Window) (f : Fingerprint) : (w.forget f).queue = w.queue.filter (· != f) := by
  unfold forget
  split
  · rfl
  · rename_i h
    refine (List.filter_eq_self.2 fun g hg => ?_).symm
    rw [bne_iff_ne]
    rintro rfl
    exact h (contains_iff.2 hg)

@[simp] theorem capacity_push (w : Window) (f : Fingerprint) (h : f ∉ w.queue) :
    (w.push f h).capacity = w.capacity := rfl

@[simp] theorem capacity_forget (w : Window) (f : Fingerprint) : (w.forget f).capacity = w.capacity := by
  unfold forget
  split <;> rfl

def clear (w : Window) : Window where
  capacity := w.capacity
  queue := []
  members := ∅
  roomy := w.roomy
  fits := Nat.zero_le _
  distinct := .nil
  listed := by simp

end Window
end DeviceEvents
