import Mathlib.Data.List.DropRight
import DeviceEvents.Text.Blank
/-
  DeviceEvents.Proofs.Text.Trimming — what trimming leaves of a text.

  All characters that are not blank stay (`mem_trim`), so nothing is left only of a blank text
  (`trim_eq_empty`); and what has been trimmed is not changed any more (`trim_trim`).
-/

namespace DeviceEvents.Text

variable {s : String} {c : Char}

theorem toList_trim (s : String) : (trim s).toList = trimEnd (trimStart s.toList) := String.toList_ofList

theorem mem_dropWhile_of_not {p : Char → Bool} {cs : List Char} (hc : p c = false) : c ∈ cs.dropWhile p ↔ c ∈ cs := by
  constructor
  · exact fun h => (List.dropWhile_sublist p).subset h
  · intro h
    rw [← List.takeWhile_append_dropWhile (p := p) (l := cs)] at h
    rcases List.mem_append.1 h with h | h
    · rw [List.mem_takeWhile_imp h] at hc
      cases hc
    · exact h

/-- Trimming takes nothing but blanks. -/
theorem mem_trim (hc : isBlank c = false) : c ∈ (trim s).toList ↔ c ∈ s.toList := by
  rw [toList_trim, trimEnd, List.mem_reverse, mem_dropWhile_of_not hc, List.mem_reverse, trimStart, mem_dropWhile_of_not hc]

/-- The trimmed text begins as it did before its end was trimmed. -/
theorem trim_trim (s : String) : trim (trim s) = trim s := by
  have hend : ∀ cs, trimEnd cs = cs.rdropWhile isBlank := fun _ => rfl
  have hstart : trimStart (trimEnd (trimStart s.toList)) = trimEnd (trimStart s.toList) := by
    rw [trimStart, List.dropWhile_eq_self_iff]
    intro hl
    have hpre : trimEnd (trimStart s.toList) <+: trimStart s.toList := List.rdropWhile_prefix _ _
    rw [hpre.getElem hl]
    exact List.dropWhile_get_zero_not _ _ _
  rw [trim, toList_trim, hstart, hend, hend, List.rdropWhile_idempotent]
  rfl

theorem trim_eq_empty : trim s = "" ↔ allBlank s = true := by
  rw [allBlank, List.all_eq_true]
  constructor
  · intro h c hc
    rw [← Bool.not_eq_false]
    intro hb
    rw [← mem_trim hb, h] at hc
    exact absurd hc List.not_mem_nil
  · intro h
    rw [trim, trimStart, List.dropWhile_eq_nil_iff.2 h]
    rfl

end DeviceEvents.Text
