/-
  DeviceEvents.Dictionary — finite maps from texts, listed in ascending order of the keys.

  The order of texts is that of their code points, which is also that of their UTF-8 bytes.
  Two dictionaries with the same entries are equal.
-/

namespace DeviceEvents

structure Dictionary (α : Type) where
  entries : List (String × α)
  ascending : entries.Pairwise (fun a b => a.1 < b.1) := by exact List.Pairwise.nil

namespace Dictionary

variable {α β : Type}

theorem ext {d e : Dictionary α} (h : d.entries = e.entries) : d = e := by
  cases d; cases e; cases h; rfl

instance [DecidableEq α] : DecidableEq (Dictionary α) := fun d e =>
  if h : d.entries = e.entries then isTrue (ext h) else isFalse fun he => h (he ▸ rfl)

instance [Repr α] : Repr (Dictionary α) := ⟨fun d n => reprPrec d.entries n⟩

def empty : Dictionary α := ⟨[], .nil⟩

instance : EmptyCollection (Dictionary α) := ⟨empty⟩

instance : Inhabited (Dictionary α) := ⟨empty⟩

def isEmpty (d : Dictionary α) : Bool := d.entries.isEmpty

def size (d : Dictionary α) : Nat := d.entries.length

def get? (d : Dictionary α) (k : String) : Option α := (d.entries.find? (·.1 == k)).map (·.2)

def insertAt (k : String) (v : α) : List (String × α) → List (String × α)
  | [] => [(k, v)]
  | (k', v') :: es =>
    if k < k' then (k, v) :: (k', v') :: es
    else if k = k' then (k, v) :: es
    else (k', v') :: insertAt k v es

theorem mem_insertAt {k : String} {v : α} {es : List (String × α)} {e : String × α}
    (h : e ∈ insertAt k v es) : e = (k, v) ∨ e ∈ es := by
  induction es with
  | nil => simpa [insertAt] using h
  | cons f es ih =>
    obtain ⟨k', v'⟩ := f
    simp only [insertAt] at h
    split at h
    · simpa using h
    · split at h
      · rcases List.mem_cons.1 h with h | h
        · exact .inl h
        · exact .inr (List.mem_cons_of_mem _ h)
      · rcases List.mem_cons.1 h with h | h
        · exact .inr (h ▸ List.mem_cons_self ..)
        · exact (ih h).imp id (List.mem_cons_of_mem _)

theorem lt_of_not_lt_of_ne {a b : String} (h : ¬a < b) (hne : a ≠ b) : b < a := by
  rcases Std.lt_trichotomy a b with h' | h' | h'
  · exact absurd h' h
  · exact absurd h' hne
  · exact h'

theorem ascending_insertAt (k : String) (v : α) {es : List (String × α)}
    (h : es.Pairwise (fun a b => a.1 < b.1)) :
    (insertAt k v es).Pairwise (fun a b => a.1 < b.1) := by
  induction es with
  | nil => simp [insertAt]
  | cons f es ih =>
    obtain ⟨k', v'⟩ := f
    have ⟨hf, hes⟩ := List.pairwise_cons.1 h
    simp only [insertAt]
    split
    · rename_i hlt
      refine List.pairwise_cons.2 ⟨fun e he => ?_, h⟩
      rcases List.mem_cons.1 he with rfl | he
      · exact hlt
      · exact String.lt_trans hlt (hf e he)
    · split
      · rename_i heq
        exact List.pairwise_cons.2 ⟨fun e he => heq ▸ hf e he, hes⟩
      · rename_i hlt hne
        refine List.pairwise_cons.2 ⟨fun e he => ?_, ih hes⟩
        rcases mem_insertAt he with rfl | he
        · exact lt_of_not_lt_of_ne hlt hne
        · exact hf e he

/-- With `v` under `k`, in the stead of what was there. -/
def insert (d : Dictionary α) (k : String) (v : α) : Dictionary α :=
  ⟨insertAt k v d.entries, ascending_insertAt k v d.ascending⟩

theorem get?_insert (d : Dictionary α) (k k' : String) (v : α) :
    (d.insert k v).get? k' = if k = k' then some v else d.get? k' := by
  obtain ⟨es, hes⟩ := d
  show ((insertAt k v es).find? _).map _ = if k = k' then some v else (es.find? _).map _
  clear hes
  induction es with
  | nil => by_cases hk : k = k' <;> simp [insertAt, hk]
  | cons e es ih =>
    unfold insertAt
    split
    · by_cases hk : k = k' <;> simp [hk]
    · split
      · rename_i he
        by_cases hk : k = k' <;> simp [← he, hk]
      · rename_i hne
        by_cases he : e.1 = k'
        · simp [he, show k ≠ k' from fun hk => hne (hk.trans he.symm)]
        · simpa [List.find?_cons, he] using ih

/-- Of several entries under one key the last counts. -/
def ofList (es : List (String × α)) : Dictionary α := es.foldl (fun d e => d.insert e.1 e.2) empty

/-! ## Entries in any order -/

theorem insertAt_perm {k : String} (v : α) {es : List (String × α)} (h : k ∉ es.map (·.1)) :
    (insertAt k v es).Perm ((k, v) :: es) := by
  induction es with
  | nil => exact .refl _
  | cons e es ih =>
    rw [List.map_cons, List.mem_cons, not_or] at h
    unfold insertAt
    by_cases hlt : k < e.1
    · rw [if_pos hlt]
    · rw [if_neg hlt, if_neg h.1]
      exact ((ih h.2).cons e).trans (.swap (k, v) e es)

theorem foldl_insert_perm {es : List (String × α)} (h : (es.map (·.1)).Nodup) {d : Dictionary α}
    (hd : ∀ e ∈ es, e.1 ∉ d.entries.map (·.1)) :
    (es.foldl (fun d e => d.insert e.1 e.2) d).entries.Perm (es ++ d.entries) := by
  induction es generalizing d with
  | nil => exact .refl _
  | cons e es ih =>
    rw [List.map_cons, List.nodup_cons] at h
    have hinsert : (d.insert e.1 e.2).entries.Perm (e :: d.entries) :=
      insertAt_perm e.2 (hd e (List.mem_cons_self ..))
    have hothers : ∀ x ∈ es, x.1 ∉ (d.insert e.1 e.2).entries.map (·.1) := by
      intro x hx hmem
      rcases List.mem_cons.1 ((hinsert.map (·.1)).mem_iff.1 hmem) with hxe | hxd
      · exact h.1 (List.mem_map.2 ⟨x, hx, hxe⟩)
      · exact hd x (List.mem_cons_of_mem _ hx) hxd
    exact (ih h.2 hothers).trans ((hinsert.append_left es).trans List.perm_middle)

theorem keys_nodup (d : Dictionary α) : (d.entries.map (·.1)).Nodup := by
  refine List.pairwise_map.2 (d.ascending.imp ?_)
  intro a b hlt heq
  rw [heq] at hlt
  exact String.lt_irrefl _ hlt

/-- The entries of a map, put one after the other in any order, are the map. -/
theorem foldl_insert_of_perm {d : Dictionary α} {es : List (String × α)} (h : es.Perm d.entries) :
    es.foldl (fun d e => d.insert e.1 e.2) empty = d := by
  have hperm := foldl_insert_perm ((h.map (·.1)).nodup_iff.2 d.keys_nodup) (d := empty) nofun
  refine ext (List.Perm.eq_of_pairwise ?_ (Dictionary.ascending _) d.ascending ?_)
  · intro a b _ _ hab hba
    exact absurd (String.lt_trans hab hba) (String.lt_irrefl _)
  · exact hperm.trans (by rw [show (empty : Dictionary α).entries = [] from rfl, List.append_nil]; exact h)

end Dictionary
end DeviceEvents
