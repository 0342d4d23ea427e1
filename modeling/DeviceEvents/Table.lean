/-
  DeviceEvents.Table — finite maps from keys that are only compared for equality.

  A new key goes to the end; a known one keeps its place and gets the new value. No key
  stands twice.
-/

namespace DeviceEvents

structure Table (κ α : Type) where
  entries : List (κ × α)
  distinct : (entries.map (·.1)).Nodup

namespace Table

variable {κ α : Type} [DecidableEq κ]

def empty : Table κ α := ⟨[], .nil⟩

instance : Inhabited (Table κ α) := ⟨empty⟩

def size (t : Table κ α) : Nat := t.entries.length

def getIn? (k : κ) : List (κ × α) → Option α
  | [] => none
  | (k', a) :: es => if k = k' then some a else getIn? k es

def get? (t : Table κ α) (k : κ) : Option α := getIn? k t.entries

def insertIn (k : κ) (a : α) : List (κ × α) → List (κ × α)
  | [] => [(k, a)]
  | (k', b) :: es => if k = k' then (k, a) :: es else (k', b) :: insertIn k a es

theorem mem_keys_insertIn {k l : κ} {a : α} {es : List (κ × α)} :
    l ∈ (insertIn k a es).map (·.1) ↔ l = k ∨ l ∈ es.map (·.1) := by
  induction es with
  | nil => simp [insertIn]
  | cons e es ih =>
    obtain ⟨k', b⟩ := e
    simp only [insertIn]
    split
    · rename_i h
      subst h
      simp
    · simp only [List.map_cons, List.mem_cons, ih]
      grind

theorem distinct_insertIn (k : κ) (a : α) {es : List (κ × α)} (h : (es.map (·.1)).Nodup) :
    ((insertIn k a es).map (·.1)).Nodup := by
  induction es with
  | nil => simp [insertIn]
  | cons e es ih =>
    obtain ⟨k', b⟩ := e
    have ⟨hk, hes⟩ := List.nodup_cons.1 h
    simp only [insertIn]
    split
    · rename_i heq
      subst heq
      exact List.nodup_cons.2 ⟨hk, hes⟩
    · rename_i hne
      refine List.nodup_cons.2 ⟨fun hm => ?_, ih hes⟩
      rcases mem_keys_insertIn.1 hm with rfl | hm
      · exact hne rfl
      · exact hk hm

def insert (t : Table κ α) (k : κ) (a : α) : Table κ α :=
  ⟨insertIn k a t.entries, distinct_insertIn k a t.distinct⟩

def erase (t : Table κ α) (k : κ) : Table κ α :=
  ⟨t.entries.filter fun e => k ≠ e.1, t.distinct.sublist (List.filter_sublist.map _)⟩

@[simp] theorem get?_empty (k : κ) : (empty : Table κ α).get? k = none := rfl

@[simp] theorem get?_insert (t : Table κ α) (k l : κ) (a : α) :
    (t.insert k a).get? l = if l = k then some a else t.get? l := by
  obtain ⟨es, hd⟩ := t
  simp only [insert, get?]
  clear hd
  induction es with
  | nil => simp [insertIn, getIn?]
  | cons e es ih =>
    obtain ⟨k', b⟩ := e
    simp only [insertIn]
    by_cases h : k = k'
    · subst h; by_cases hl : l = k <;> simp [getIn?, hl]
    · by_cases hl : l = k'
      · subst hl; simp [getIn?, h, Ne.symm h]
      · simp [getIn?, h, hl, ih]

@[simp] theorem get?_erase (t : Table κ α) (k l : κ) :
    (t.erase k).get? l = if l = k then none else t.get? l := by
  obtain ⟨es, hd⟩ := t
  simp only [erase, get?]
  clear hd
  induction es with
  | nil => simp [getIn?]
  | cons e es ih =>
    obtain ⟨k', b⟩ := e
    by_cases h : k = k'
    · subst h
      rw [List.filter_cons_of_neg (by simp), ih]
      by_cases hl : l = k <;> simp [getIn?, hl]
    · rw [List.filter_cons_of_pos (by simpa using h)]
      simp only [getIn?, ih]
      by_cases hl : l = k'
      · subst hl; simp [Ne.symm h]
      · simp [hl]

/-- A table lists what it finds. -/
theorem mem_entries {t : Table κ α} {k : κ} {a : α} : (k, a) ∈ t.entries ↔ t.get? k = some a := by
  obtain ⟨es, hd⟩ := t
  simp only [get?]
  induction es with
  | nil => simp [getIn?]
  | cons e es ih =>
    obtain ⟨k', b⟩ := e
    have ⟨hk, hes⟩ := List.nodup_cons.1 hd
    simp only [List.mem_cons, getIn?]
    by_cases h : k = k'
    · subst h
      have hn : (k, a) ∉ es := fun hm => hk (List.mem_map.2 ⟨_, hm, rfl⟩)
      simp [hn, eq_comm]
    · simp [h, ih hes]

/-- A new key goes to the end. -/
theorem entries_insert {t : Table κ α} {k : κ} (h : t.get? k = none) (a : α) :
    (t.insert k a).entries = t.entries ++ [(k, a)] := by
  obtain ⟨es, hd⟩ := t
  simp only [insert, get?] at *
  clear hd
  induction es with
  | nil => rfl
  | cons e es ih =>
    obtain ⟨k', b⟩ := e
    by_cases hk : k = k'
    · simp [getIn?, hk] at h
    · simp only [getIn?, hk, if_false] at h
      simp [insertIn, hk, ih h]

end Table
end DeviceEvents
