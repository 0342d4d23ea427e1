import DeviceEvents.Proofs.Fallible
import DeviceEvents.Proofs.Json.Reading
/-
  DeviceEvents.Proofs.Json.Excerpt — the text of an item is cut out of the text of the array.

  What is read as a value is what the value is written with, in tokens (`tokens_of_read`). A bracket or a mark is
  one character of the text, which is scanned apart on both of its sides (`scanFrom_apart`). So between the
  marks of an array stands a text of its own for each item, and it is read as that item (`exists_text_of_item`).
-/

namespace DeviceEvents.Json

/-! ## Tokens of what is read -/

namespace Value

/-- What is read with so much room is written with the tokens that are taken. -/
def Faithful (room : Nat) : Prop :=
  ∀ {ts v rest}, read room ts = .ok (v, rest) → ts = v.tokens ++ rest ∧ v.depth ≤ room

variable {room fuel : Nat} {ts rest : List Token}

theorem itemsFrom_faithful (hread : Faithful room) {done vs : List Value}
    (h : Reader.itemsFrom (readItem room) fuel done ts = .ok (vs, rest)) :
    ∃ new, vs.reverse = done.reverse ++ new ∧ ts = itemTokens new ++ rest ∧ itemsDepth new ≤ room ∧ new ≠ [] := by
  induction fuel generalizing done ts with
  | zero => cases h
  | succ fuel ih =>
    obtain ⟨⟨vs', ts'⟩, hitem, hnext⟩ := bind_eq_ok h
    obtain ⟨⟨v, ts''⟩, hv, hitem⟩ := bind_eq_ok hitem
    cases hitem
    obtain ⟨rfl, hdepth⟩ := hread hv
    simp only at hnext
    split at hnext
    · cases hnext
      exact ⟨[v], by simp, by simp [itemTokens], by simpa [itemsDepth] using hdepth, by simp⟩
    · obtain ⟨new, hvs, rfl, hnew, hne⟩ := ih hnext
      obtain ⟨w, ws, rfl⟩ := List.exists_cons_of_ne_nil hne
      refine ⟨v :: w :: ws, by simp [hvs], by simp [itemTokens], ?_, by simp⟩
      rw [itemsDepth]
      exact Nat.max_le.2 ⟨hdepth, hnew⟩
    · cases hnext

theorem items_faithful (hread : Faithful room) {vs : List Value}
    (h : Reader.items (readItem room) [] ts = .ok (vs, rest)) :
    ts = itemTokens vs.reverse ++ rest ∧ itemsDepth vs.reverse ≤ room := by
  unfold Reader.items at h
  split at h
  · cases h
    exact ⟨rfl, Nat.zero_le _⟩
  · obtain ⟨new, hvs, hts, hdepth, -⟩ := itemsFrom_faithful hread h
    rw [List.reverse_nil, List.nil_append] at hvs
    exact hvs ▸ ⟨hts, hdepth⟩

theorem membersFrom_faithful (hread : Faithful room) {done ms : List Member}
    (h : Reader.membersFrom (readMember room) fuel done ts = .ok (ms, rest)) :
    ∃ new, ms.reverse = done.reverse ++ new ∧ ts = memberTokens new ++ rest ∧ membersDepth new ≤ room ∧ new ≠ [] := by
  induction fuel generalizing done ts with
  | zero => cases h
  | succ fuel ih =>
    unfold Reader.membersFrom at h
    split at h
    case h_2 => cases h
    rename_i k ts heq
    cases heq
    simp only [readMember, bind, Except.bind] at h
    split at h
    case h_2 => cases h
    obtain ⟨⟨ms', ts'⟩, hmember, hnext⟩ := bind_eq_ok h
    obtain ⟨⟨v, ts''⟩, hv, hmember⟩ := bind_eq_ok hmember
    cases hmember
    obtain ⟨rfl, hdepth⟩ := hread hv
    simp only at hnext
    split at hnext
    · cases hnext
      exact ⟨[(k, v)], by simp, by simp [memberTokens], by simpa [membersDepth] using hdepth, by simp⟩
    · obtain ⟨new, hms, rfl, hnew, hne⟩ := ih hnext
      obtain ⟨m, ms, rfl⟩ := List.exists_cons_of_ne_nil hne
      refine ⟨(k, v) :: m :: ms, by simp [hms], by simp [memberTokens], ?_, by simp⟩
      rw [membersDepth]
      exact Nat.max_le.2 ⟨hdepth, hnew⟩
    · cases hnext

theorem members_faithful (hread : Faithful room) {ms : List Member}
    (h : Reader.members (readMember room) [] ts = .ok (ms, rest)) :
    ts = memberTokens ms.reverse ++ rest ∧ membersDepth ms.reverse ≤ room := by
  unfold Reader.members at h
  split at h
  · cases h
    exact ⟨rfl, Nat.zero_le _⟩
  · obtain ⟨new, hms, hts, hdepth, -⟩ := membersFrom_faithful hread h
    rw [List.reverse_nil, List.nil_append] at hms
    exact hms ▸ ⟨hts, hdepth⟩

theorem faithful (room : Nat) : Faithful room := by
  intro ts v rest h
  cases ts with
  | nil => cases room <;> cases h
  | cons t ts =>
    cases t with
    | null | bool =>
      cases room <;> cases h
      all_goals exact ⟨rfl, Nat.zero_le _⟩
    | number n =>
      cases n <;> cases room <;> cases h
      all_goals exact ⟨rfl, Nat.zero_le _⟩
    | string s =>
      cases s <;> cases room <;> cases h
      all_goals exact ⟨rfl, Nat.zero_le _⟩
    | lbracket =>
      match room with
      | 0 => cases h
      | room + 1 =>
        obtain ⟨⟨vs, ts'⟩, hitems, hv⟩ := bind_eq_ok h
        cases hv
        obtain ⟨rfl, hdepth⟩ := items_faithful (faithful room) hitems
        exact ⟨rfl, Nat.succ_le_succ hdepth⟩
    | lbrace =>
      match room with
      | 0 => cases h
      | room + 1 =>
        obtain ⟨⟨ms, ts'⟩, hmembers, hv⟩ := bind_eq_ok h
        cases hv
        obtain ⟨rfl, hdepth⟩ := members_faithful (faithful room) hmembers
        exact ⟨rfl, Nat.succ_le_succ hdepth⟩
    | _ => cases room <;> cases h

theorem tokens_of_read {v : Value} (h : read room ts = .ok (v, rest)) : ts = v.tokens ++ rest ∧ v.depth ≤ room :=
  faithful room h

/-- A text is read as a value if it is cut into the tokens of the value, which is not too deep. -/
theorem parse_eq_ok_iff {text : String} {v : Value} :
    Value.parse text = .ok v ↔ scan text = v.tokens ∧ v.depth ≤ nestingLimit := by
  constructor
  · intro h
    obtain ⟨⟨v', rest⟩, hread, hrest⟩ := bind_eq_ok h
    obtain ⟨htokens, hdepth⟩ := tokens_of_read hread
    cases rest with
    | nil =>
      cases hrest
      exact ⟨by rw [htokens, List.append_nil], hdepth⟩
    | cons t ts => cases hrest
  · rintro ⟨htokens, hdepth⟩
    have hread := read_tokens v hdepth []
    rw [List.append_nil] at hread
    simp only [Value.parse, Reader.run, Reader.runTokens, Reader.value, htokens, hread]
    rfl

theorem depth_le_of_mem {v : Value} {vs : List Value} (h : v ∈ vs) : v.depth ≤ itemsDepth vs := by
  induction h with
  | head => exact Nat.le_max_left ..
  | tail _ _ ih => exact Nat.le_trans ih (Nat.le_max_right ..)

end Value

/-! ## Texts between marks -/

/-- The tokens of one character, which ends the word before it. -/
def Token.isMark : Token → Bool
  | .lbrace | .rbrace | .lbracket | .rbracket | .colon | .comma => true
  | _ => false

theorem ends_unmarked {t u : Token} {rest : List Char} (hu : u.isMark = false) (h : t ∈ u.ends rest) :
    t.isMark = false := by
  unfold Token.ends at h
  split at h
  · exact List.mem_singleton.1 h ▸ hu
  · rcases List.mem_cons.1 h with rfl | h
    · exact hu
    · exact List.mem_singleton.1 h ▸ rfl

theorem ofWord_unmarked {t : Token} {w : List Char} (h : t ∈ ofWord w) : t.isMark = false := by
  unfold ofWord at h
  split at h
  case h_4 =>
    split at h
    · exact ends_unmarked rfl h
    · exact List.mem_singleton.1 h ▸ rfl
  all_goals exact ends_unmarked rfl h

theorem finish_unmarked {t : Token} {s : Scan} (h : t ∈ s.finish) : t.isMark = false := by
  cases s with
  | between => cases h
  | word w => exact ofWord_unmarked h
  | _ => exact List.mem_singleton.1 h ▸ rfl

theorem token_unmarked (p : Partial) : p.token.isMark = false := by
  unfold Partial.token
  split <;> rfl

variable {s s' : Scan} {c : Char} {t : Token} {ts us : List Token}

theorem enter_marked (h : Scan.enter c = (s', ts)) (ht : t ∈ ts) : s' = .between ∧ ts = [t] := by
  unfold Scan.enter at h
  split at h
  · cases h
    cases ht
  · split at h
    · cases h
      cases ht
    · split at h
      · cases h
        exact ⟨rfl, by rw [List.mem_singleton.1 ht]⟩
      · cases h
        cases ht

/-- A mark comes behind what the characters before it end in, and none of them counts for what follows. -/
theorem next_marked (h : s.next c = some (s', ts)) (ht : t ∈ ts) (hmark : t.isMark = true) :
    s' = .between ∧ ts = s.finish ++ [t] := by
  cases s with
  | between => exact enter_marked (Option.some.inj h) ht
  | word w =>
    simp only [Scan.next] at h
    split at h
    · cases h
      rcases List.mem_append.1 ht with ht | ht
      · cases hmark.symm.trans (ofWord_unmarked ht)
      · obtain ⟨hs, hts⟩ := enter_marked rfl ht
        exact ⟨hs, congrArg _ hts⟩
    · cases h
      cases ht
  | text p =>
    simp only [Scan.next] at h
    split at h
    · cases h
      rw [List.mem_singleton.1 ht, token_unmarked] at hmark
      cases hmark
    · split at h
      · cases h
        cases ht
      · split at h <;> cases h
        cases ht
  | escape p =>
    simp only [Scan.next] at h
    split at h
    · cases h
      cases ht
    · obtain ⟨_, -, hc⟩ := Option.map_eq_some_iff.1 h
      cases hc
      cases ht
  | unit p missing value =>
    obtain ⟨_, -, hc⟩ := Option.map_eq_some_iff.1 h
    cases missing <;> cases hc <;> cases ht

/-- The text on either side of a mark is scanned as if the rest were not there. -/
theorem scanFrom_apart {cs : List Char} (h : scanFrom s cs = ts ++ t :: us) (hmark : t.isMark = true) :
    ∃ front c back, cs = front ++ c :: back ∧ scanFrom s front = ts ∧ scanFrom .between back = us := by
  have hunfinished (s : Scan) : t ∉ s.finish := fun ht => by cases hmark.symm.trans (finish_unmarked ht)
  induction cs generalizing s ts with
  | nil =>
    have hfinish : s.finish = ts ++ t :: us := h
    exact absurd (hfinish ▸ List.mem_append_right _ List.mem_cons_self) (hunfinished s)
  | cons c cs ih =>
    rw [scanFrom] at h
    split at h
    case h_2 =>
      have ht : t ∈ [Token.fault] := h ▸ List.mem_append_right _ List.mem_cons_self
      rw [List.mem_singleton.1 ht] at hmark
      cases hmark
    case h_1 s' out hnext =>
      -- The mark is behind what `c` completes, or `c` itself.
      have hbehind (as : List Token) (hts : ts = out ++ as) (hrest : scanFrom s' cs = as ++ t :: us) :
          ∃ front c' back, c :: cs = front ++ c' :: back ∧ scanFrom s front = ts ∧ scanFrom .between back = us := by
        obtain ⟨front, c', back, rfl, hfront, hback⟩ := ih hrest
        refine ⟨c :: front, c', back, rfl, ?_, hback⟩
        simp only [scanFrom, hnext, hfront, hts]
      rcases List.append_eq_append_iff.1 h with ⟨as, hts, hrest⟩ | ⟨bs, hout, hrest⟩
      · exact hbehind as hts hrest
      · cases bs with
        | nil => exact hbehind [] (by simpa using hout.symm) hrest.symm
        | cons b bs =>
          obtain ⟨rfl, hus⟩ := List.cons.inj hrest
          obtain ⟨rfl, hfinish⟩ := next_marked hnext (hout ▸ List.mem_append_right _ List.mem_cons_self) hmark
          have hend : ts ++ t :: bs = s.finish ++ [t] := hout.symm.trans hfinish
          rcases List.eq_nil_or_concat bs with rfl | ⟨init, last, rfl⟩
          · exact ⟨[], c, cs, rfl, (List.append_cancel_right hend).symm, hus.symm⟩
          · have hinit : (ts ++ t :: init) ++ [last] = s.finish ++ [t] := by simpa using hend
            have hfront : ts ++ t :: init = s.finish := (List.append_inj' hinit rfl).1
            exact absurd (hfront ▸ List.mem_append_right _ List.mem_cons_self) (hunfinished s)

/-! ## Items -/

namespace Value

/-- Between the marks of an array stands a text for each item. -/
theorem exists_chars_of_items {cs : List Char} {vs : List Value} (h : scanFrom .between cs = itemTokens vs) :
    ∀ v ∈ vs, ∃ own, scanFrom .between own = v.tokens := by
  match vs with
  | [] => nofun
  | [v] =>
    obtain ⟨own, _, _, -, hown, -⟩ := scanFrom_apart h rfl
    exact List.forall_mem_singleton.2 ⟨own, hown⟩
  | v :: w :: vs =>
    obtain ⟨own, _, others, -, hown, hothers⟩ := scanFrom_apart h rfl
    exact List.forall_mem_cons.2 ⟨⟨own, hown⟩, exists_chars_of_items hothers⟩

/-- An item of an array is read from a text of its own. -/
theorem exists_text_of_item {text : String} {v : Value} {vs : List Value} (h : Value.parse text = .ok (.arr vs))
    (hv : v ∈ vs) : ∃ own, Value.parse own = .ok v := by
  obtain ⟨htokens, hdepth⟩ := parse_eq_ok_iff.1 h
  obtain ⟨_, _, inside, -, -, hinside⟩ := scanFrom_apart (htokens.trans (List.nil_append _).symm) rfl
  obtain ⟨own, hown⟩ := exists_chars_of_items hinside v hv
  refine ⟨String.ofList own, parse_eq_ok_iff.2 ⟨?_, ?_⟩⟩
  · rw [scan, String.toList_ofList, hown]
  · rw [depth] at hdepth
    exact Nat.le_trans (depth_le_of_mem hv) (Nat.le_of_succ_le hdepth)

end Value

end DeviceEvents.Json
