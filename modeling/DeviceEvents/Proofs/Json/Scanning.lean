import DeviceEvents.Json.Reader
/-
  DeviceEvents.Proofs.Json.Scanning — the scanner gives back the tokens that were written.

  A string comes back whatever its characters are, escapes included. A word ends where a
  blank, a mark or a quote stands, and a value writes a mark behind every word of its own, so
  `scan_render` holds of every value whose numbers read back one by one.

  Of a double nothing is assumed but what `Binary64.ReadsBack` says: the text that is written
  for it is read as that double. Its text holds a point or an exponent, so it cannot be read
  as an integer instead.
-/

namespace DeviceEvents

/-! ## The text of a number -/

/-- The characters that numbers are written with. -/
def isNumeric (c : Char) : Bool := c.isDigit || c == '-' || c == '+' || c == '.' || c == 'e'

theorem isNumeric_of_isDigit {c : Char} (h : c.isDigit = true) : isNumeric c = true := by
  simp [isNumeric, h]

namespace Binary64

theorem digitsOf_numeric (n : Nat) : (digitsOf n).all isNumeric = true :=
  List.all_eq_true.2 fun _ h => isNumeric_of_isDigit (Nat.isDigit_of_mem_toDigits (by decide) (by decide) h)

theorem trimZeros_numeric {ds : List Char} (h : ds.all isNumeric = true) : (trimZeros ds).all isNumeric = true := by
  refine List.all_eq_true.2 fun c hc => List.all_eq_true.1 h c ?_
  have hrev := (List.dropWhile_sublist (l := ds.reverse) (· == '0')).subset (List.mem_reverse.1 hc)
  exact List.mem_reverse.1 hrev

theorem lay_numeric {ds : List Char} (h : ds.all isNumeric = true) (point : Int) :
    (lay plainLayout ds point).all isNumeric = true := by
  have htake (n : Nat) : (ds.take n).all isNumeric = true :=
    List.all_eq_true.2 fun c hc => List.all_eq_true.1 h c (List.mem_of_mem_take hc)
  have hdrop (n : Nat) : (ds.drop n).all isNumeric = true :=
    List.all_eq_true.2 fun c hc => List.all_eq_true.1 h c (List.mem_of_mem_drop hc)
  have hzeros (n : Nat) : (List.replicate n '0').all isNumeric = true :=
    List.all_eq_true.2 fun c hc => List.eq_of_mem_replicate hc ▸ by decide
  unfold lay
  lift_lets
  intro e head tail fraction power
  have hfraction : fraction.all isNumeric = true := by
    simp only [fraction]
    split
    · rfl
    · rw [List.all_cons, show isNumeric '.' = true by decide, Bool.true_and]; exact hdrop 1
  have hpower : power.all isNumeric = true := by
    simp only [power]
    split
    · rw [List.all_append, digitsOf_numeric, Bool.and_true]; decide
    · rw [List.all_cons, digitsOf_numeric, Bool.and_true]; decide
  split
  · split
    · simp only [List.all_append, h, hzeros, Bool.true_and]; decide
    · split
      · simp only [List.all_append, htake, hdrop, Bool.and_true, Bool.true_and]; decide
      · simp only [List.all_append, h, hzeros, Bool.and_true]; decide
  · simp only [List.all_append, head, htake, hfraction, hpower, Bool.and_true, Bool.true_and]; decide

theorem lay_decimal (ds : List Char) (point : Int) :
    '.' ∈ lay plainLayout ds point ∨ 'e' ∈ lay plainLayout ds point := by
  unfold lay
  lift_lets
  intro e head tail fraction power
  split
  · refine .inl ?_
    split
    · simp [plainLayout]
    · split <;> simp
  · exact .inr (by simp [plainLayout])

theorem text_numeric (x : Binary64) : (x.text plainLayout).all isNumeric = true := by
  have hsign : (if x.isNegative then ['-'] else []).all isNumeric = true := by split <;> decide
  have hlaid : (layDecimal plainLayout (shortest x.mantissa x.exponent)).all isNumeric = true :=
    lay_numeric (trimZeros_numeric (digitsOf_numeric _)) _
  unfold text
  lift_lets
  intro sign
  split
  · simp only [List.all_append, sign, hsign, Bool.true_and]; decide
  · simp only [List.all_append, sign, hsign, hlaid, Bool.and_true]

theorem text_decimal (x : Binary64) : '.' ∈ x.text plainLayout ∨ 'e' ∈ x.text plainLayout := by
  unfold text
  lift_lets
  intro sign
  split
  · exact .inl (by simp [plainLayout])
  · simp only [List.mem_append]
    exact (lay_decimal _ _).imp .inr .inr

end Binary64

namespace Numeral

theorem isDigit_of_digit? {c : Char} {d : Nat} (h : digit? c = some d) : c.isDigit = true := by
  simp only [digit?] at h
  split at h
  · rename_i hc
    simp only [Char.isDigit, Bool.and_eq_true, decide_eq_true_eq]
    exact hc
  · cases h

theorem digits_all {cs : List Char} (h : (digits cs).2 = []) : cs.all Char.isDigit = true := by
  induction cs with
  | nil => rfl
  | cons c cs ih =>
    simp only [digits] at h
    split at h
    · rename_i d hd
      rw [List.all_cons, isDigit_of_digit? hd, ih h]; rfl
    · cases h

theorem readWhole_rest {cs rest : List Char} {ds : List Nat} (h : readWhole cs = some (ds, rest)) :
    rest = (digits cs).2 := by
  simp only [readWhole] at h
  split at h <;> simp_all

theorem readFraction_none {cs rest : List Char} (h : readFraction cs = some (none, rest)) : rest = cs := by
  unfold readFraction at h
  split at h
  · split at h <;> cases h
  · cases h; rfl

theorem readExponent_none {cs rest : List Char} (h : readExponent cs = some (none, rest)) : rest = cs := by
  unfold readExponent at h
  split at h
  · split at h
    · dsimp only at h
      split at h <;> cases h
    · cases h; rfl
  · cases h; rfl

/-- A whole word that is read without point and exponent has neither in it. -/
theorem read_plain {w : List Char} {n : Numeral} (h : read w = some (n, [])) (hn : n.decimal = false) :
    '.' ∉ w ∧ 'e' ∉ w := by
  have hdigits (cs : List Char) (hcs : cs.all Char.isDigit = true) : '.' ∉ cs ∧ 'e' ∉ cs :=
    ⟨fun hc => absurd (List.all_eq_true.1 hcs _ hc) (by decide),
      fun hc => absurd (List.all_eq_true.1 hcs _ hc) (by decide)⟩
  unfold read at h
  split at h
  rename_i negative cs hw
  have hcs : w = cs ∨ w = '-' :: cs := by
    split at hw <;> cases hw
    · exact .inr rfl
    · exact .inl rfl
  simp only [Option.bind_eq_bind, Option.bind_eq_some_iff, Option.pure_def, Option.some.injEq, Prod.exists,
    Prod.mk.injEq] at h
  obtain ⟨whole, rest₁, hwhole, fraction, rest₂, hfraction, exponent, rest₃, hexponent, rfl, rfl⟩ := h
  simp only [Bool.or_eq_false_iff, Option.isSome_eq_false_iff, Option.isNone_iff_eq_none] at hn
  obtain ⟨rfl, rfl⟩ := hn
  have hrest : (digits cs).2 = [] := by
    rw [← readWhole_rest hwhole, ← readFraction_none hfraction, ← readExponent_none hexponent]
  have hplain := hdigits cs (digits_all hrest)
  rcases hcs with rfl | rfl
  · exact hplain
  · simpa using hplain

end Numeral

namespace Json

/-! ## Words -/

/-- Is the character part of the word that it stands behind? -/
def isWordly (c : Char) : Bool := !(isSpace c || c == '"' || (mark? c).isSome)

theorem isWordly_of_isNumeric {c : Char} (h : isNumeric c = true) : isWordly c = true := by
  have hne {a : Char} (ha : isNumeric a = false) : c ≠ a := by
    rintro rfl
    rw [h] at ha
    cases ha
  have hmark : mark? c = none := by
    unfold mark?
    split
    case h_7 => rfl
    all_goals exact absurd rfl (hne (by decide))
  simp [isWordly, isSpace, hmark, hne (a := ' ') (by decide), hne (a := '"') (by decide),
    hne (a := '\t') (by decide), hne (a := '\n') (by decide), hne (a := '\r') (by decide)]

/-- Nothing, or what a word ends at. -/
def Closed (cs : List Char) : Prop := ∀ c rest, cs = c :: rest → isWordly c = false

theorem scanFrom_word {w : List Char} (hw : w.all isWordly = true) (read : List Char) {cs : List Char}
    (hcs : Closed cs) :
    scanFrom (.word read) (w ++ cs) = ofWord (read.reverse ++ w) ++ scanFrom .between cs := by
  induction w generalizing read with
  | nil =>
    cases cs with
    | nil => simp [scanFrom, Scan.finish]
    | cons c cs =>
      have hc := hcs c cs rfl
      simp only [isWordly, Bool.not_eq_false'] at hc
      simp only [List.nil_append, scanFrom, Scan.next, hc, if_true, List.append_nil, List.append_assoc]
  | cons c w ih =>
    rw [List.all_cons, Bool.and_eq_true] at hw
    have hc := hw.1
    simp only [isWordly, Bool.not_eq_true'] at hc
    simp only [List.cons_append, scanFrom, Scan.next, hc, ih hw.2, List.reverse_cons, List.append_assoc,
      List.nil_append, Bool.false_eq_true, if_false]

theorem scan_word {w : List Char} (hne : w ≠ []) (hw : w.all isWordly = true) {cs : List Char} (hcs : Closed cs) :
    scanFrom .between (w ++ cs) = ofWord w ++ scanFrom .between cs := by
  cases w with
  | nil => exact absurd rfl hne
  | cons c w =>
    rw [List.all_cons, Bool.and_eq_true] at hw
    have hc := hw.1
    simp only [isWordly, Bool.not_eq_true', Bool.or_eq_false_iff, beq_eq_false_iff_ne,
      Option.isSome_eq_false_iff, Option.isNone_iff_eq_none] at hc
    obtain ⟨⟨hspace, hquote⟩, hmark⟩ := hc
    have henter : Scan.enter c = (.word [c], []) := by simp [Scan.enter, hspace, hquote, hmark]
    rw [List.cons_append, scanFrom, Scan.next]
    simp only [henter]
    exact scanFrom_word hw.2 [c] hcs

/-! ## Strings -/

theorem scanFrom_unit (p : Partial) {ds : List Char} {m acc v : Nat} (hlen : ds.length = m + 1)
    (hv : Text.ofHexFrom? acc ds = some v) (cs : List Char) :
    scanFrom (.unit p m acc) (ds ++ cs) = scanFrom (.text (p.pushUnit v)) cs := by
  induction ds generalizing m acc with
  | nil => cases hlen
  | cons c ds ih =>
    simp only [Text.ofHexFrom?, Option.bind_eq_bind, Option.bind_eq_some_iff] at hv
    obtain ⟨d, hd, hv⟩ := hv
    simp only [List.cons_append, scanFrom, Scan.next, hd, Option.map_some]
    cases m with
    | zero =>
      have hds : ds = [] := List.length_eq_zero_iff.1 (Nat.succ.inj hlen)
      subst hds
      cases hv
      rfl
    | succ m => exact ih (Nat.succ.inj hlen) hv

theorem pushUnit_control (p : Partial) {c : Char} (h : c.toNat < 0x20) : p.pushUnit c.toNat = p.push c := by
  unfold Partial.pushUnit
  rw [if_neg (by omega), if_neg (by omega), Char.ofNat_toNat]

theorem scanFrom_plain (p : Partial) {c : Char} (hquote : c ≠ '"') (hslash : c ≠ '\\') (h : ¬c.toNat < 0x20)
    (cs : List Char) : scanFrom (.text p) (c :: cs) = scanFrom (.text (p.push c)) cs := by
  simp only [scanFrom, Scan.next, hquote, hslash, h, if_false, List.nil_append]

/-- A character comes back from its escape. -/
theorem scanFrom_escapeChar (p : Partial) (c : Char) (cs : List Char) :
    scanFrom (.text p) (escapeChar c ++ cs) = scanFrom (.text (p.push c)) cs := by
  unfold escapeChar
  split
  case h_8 hquote hslash _ _ _ _ _ =>
    split
    · rename_i hcontrol
      have hunit : Text.ofHexFrom? 0 (Text.toHex 4 c.toNat) = some c.toNat := by
        rw [Text.ofHexFrom?_toHex 0 4 c.toNat (Nat.lt_trans hcontrol (by decide)), Nat.zero_mul, Nat.zero_add]
      rw [← pushUnit_control p hcontrol, ← scanFrom_unit p (Text.length_toHex 4 _) hunit]
      rfl
    · rename_i hcontrol
      exact scanFrom_plain p hquote hslash hcontrol cs
  all_goals rfl

/-- A string that was read as far as `read`. -/
def Partial.of (read : List Char) : Partial := ⟨read.reverse, none, false⟩

theorem scanFrom_string (read rest : List Char) (cs : List Char) :
    scanFrom (.text (.of read)) (rest.flatMap escapeChar ++ '"' :: cs) =
      .string (some (String.ofList (read ++ rest))) :: scanFrom .between cs := by
  induction rest generalizing read with
  | nil =>
    have htoken : (Partial.of read).token = .string (some (String.ofList read)) := by
      simp [Partial.of, Partial.token]
    simp only [List.flatMap_nil, List.nil_append, List.append_nil, scanFrom, Scan.next, if_true, htoken,
      List.singleton_append]
  | cons c rest ih =>
    have hpush : (Partial.of read).push c = .of (read ++ [c]) := by simp [Partial.of, Partial.push]
    rw [List.flatMap_cons, List.append_assoc, scanFrom_escapeChar, hpush, ih, List.append_assoc,
      List.singleton_append]

theorem scan_string (s : String) (cs : List Char) :
    scanFrom .between (writeString s ++ cs) = .string (some s) :: scanFrom .between cs := by
  have hopen : scanFrom .between ('"' :: (s.toList.flatMap escapeChar ++ '"' :: cs)) =
      scanFrom (.text (.of [])) (s.toList.flatMap escapeChar ++ '"' :: cs) := rfl
  simp only [writeString, List.cons_append, List.append_assoc, List.nil_append, hopen, scanFrom_string,
    String.ofList_toList]

/-! ## Values -/

end Json

open Json in
/-- The text that is written for a number is read as that number. -/
def Number.ReadsBack (n : Number) : Prop := ofWord n.text = [.number (some n)]

open Json in
/-- The text that is written for a double is read as that double. -/
def Binary64.ReadsBack (x : Binary64) : Prop :=
  (Reader.leaf Leaf.real).run (Value.num (.real x)).render = .ok x

open Json in
instance (x : Binary64) : Decidable x.ReadsBack :=
  decidable_of_iff (((Reader.leaf Leaf.real).run (Value.num (.real x)).render).toOption = some x) (by
    unfold Binary64.ReadsBack
    cases (Reader.leaf Leaf.real).run (Value.num (.real x)).render <;> simp [Except.toOption])

namespace Json

theorem text_wordly (n : Number) : n.text.all isWordly = true := by
  have hnumeric {cs : List Char} (h : cs.all isNumeric = true) : cs.all isWordly = true :=
    List.all_eq_true.2 fun c hc => isWordly_of_isNumeric (List.all_eq_true.1 h c hc)
  have hdigits (k : Nat) := hnumeric (Binary64.digitsOf_numeric k)
  cases n with
  | int i =>
    simp only [Number.text]
    split
    · rw [List.all_cons, hdigits, Bool.and_true]; decide
    · exact hdigits _
  | real x =>
    simp only [Number.text]
    split
    · exact hnumeric x.text_numeric
    · decide

theorem text_ne_nil {n : Number} (h : n.ReadsBack) : n.text ≠ [] := by
  intro hnil
  rw [Number.ReadsBack, hnil] at h
  cases h

namespace Value

/-- Every number in the value reads back. -/
def Legible (v : Value) : Prop := ∀ n, Token.number (some n) ∈ v.tokens → n.ReadsBack

theorem scan_mark {c : Char} {t : Token} (h : Scan.enter c = (.between, [t])) (cs : List Char) :
    scanFrom .between (c :: cs) = t :: scanFrom .between cs := by
  rw [scanFrom, Scan.next]
  simp only [h, List.singleton_append]

theorem closed_cons {c : Char} (h : isWordly c = false) (cs : List Char) : Closed (c :: cs) := by
  rintro _ _ ⟨⟩
  exact h

theorem closed_nil : Closed [] := nofun

mutual

theorem scan_tokens (v : Value) (hv : v.Legible) {cs : List Char} (hcs : Closed cs) :
    scanFrom .between (v.tokens.flatMap Token.text ++ cs) = v.tokens ++ scanFrom .between cs := by
  match v with
  | .null => exact scan_word (w := ['n', 'u', 'l', 'l']) nofun (by decide) hcs
  | .bool true => exact scan_word (w := ['t', 'r', 'u', 'e']) nofun (by decide) hcs
  | .bool false => exact scan_word (w := ['f', 'a', 'l', 's', 'e']) nofun (by decide) hcs
  | .num n =>
    have hn : n.ReadsBack := hv n (by simp [tokens])
    have hword := scan_word (text_ne_nil hn) (text_wordly n) hcs
    rw [hn] at hword
    simpa [tokens, Token.text] using hword
  | .str s => simpa [tokens, Token.text] using scan_string s cs
  | .arr items =>
    have hitems := scan_itemTokens items (fun n h => hv n (by simp [tokens, h])) cs
    simpa [tokens, Token.text, scan_mark (c := '[') rfl] using hitems
  | .obj members =>
    have hmembers := scan_memberTokens members (fun n h => hv n (by simp [tokens, h])) cs
    simpa [tokens, Token.text, scan_mark (c := '\x7b') rfl] using hmembers

theorem scan_itemTokens (items : List Value)
    (hv : ∀ n, Token.number (some n) ∈ itemTokens items → n.ReadsBack) (cs : List Char) :
    scanFrom .between ((itemTokens items).flatMap Token.text ++ cs) = itemTokens items ++ scanFrom .between cs := by
  match items with
  | [] => exact scan_mark rfl cs
  | [v] =>
    have hone := scan_tokens v (fun n h => hv n (by simp [itemTokens, h])) (closed_cons (c := ']') (by decide) cs)
    simpa [itemTokens, Token.text, scan_mark (c := ']') rfl] using hone
  | v :: w :: vs =>
    -- The comma behind an item is what the last word of the item ends at.
    have hone := scan_tokens v (fun n h => hv n (by simp [itemTokens, h]))
      (closed_cons (c := ',') (by decide) ((itemTokens (w :: vs)).flatMap Token.text ++ cs))
    have hrest := scan_itemTokens (w :: vs) (fun n h => hv n (by simp [itemTokens, h])) cs
    rw [scan_mark rfl, hrest] at hone
    simpa [itemTokens, Token.text] using hone

theorem scan_memberTokens (members : List (String × Value))
    (hv : ∀ n, Token.number (some n) ∈ memberTokens members → n.ReadsBack) (cs : List Char) :
    scanFrom .between ((memberTokens members).flatMap Token.text ++ cs) =
      memberTokens members ++ scanFrom .between cs := by
  match members with
  | [] => exact scan_mark rfl cs
  | [(k, v)] =>
    have hone := scan_tokens v (fun n h => hv n (by simp [memberTokens, h]))
      (closed_cons (c := '\x7d') (by decide) cs)
    simpa [memberTokens, Token.text, scan_string, scan_mark (c := ':') rfl, scan_mark (c := '\x7d') rfl] using hone
  | (k, v) :: m :: ms =>
    have hone := scan_tokens v (fun n h => hv n (by simp [memberTokens, h]))
      (closed_cons (c := ',') (by decide) ((memberTokens (m :: ms)).flatMap Token.text ++ cs))
    have hrest := scan_memberTokens (m :: ms) (fun n h => hv n (by simp [memberTokens, h])) cs
    rw [scan_mark rfl, hrest] at hone
    simpa [memberTokens, Token.text, scan_string, scan_mark (c := ':') rfl] using hone

end

/-- The text of a value is cut into the tokens it was written from. -/
theorem scan_render {v : Value} (hv : v.Legible) : scan v.render = v.tokens := by
  have htokens := scan_tokens v hv closed_nil
  rw [List.append_nil] at htokens
  rw [scan, render, write, String.toList_ofList, htokens]
  exact List.append_nil _

end Value
/-! ## Doubles -/

theorem ofWord_numeric {w : List Char} (h : w.all isNumeric = true) :
    ofWord w = match Numeral.read w with
      | some (n, rest) => (Token.number n.toNumber?).ends rest
      | none => [.fault] := by
  unfold ofWord
  split
  case h_4 => rfl
  all_goals simp [isNumeric] at h

/-- A leaf that takes all of a word takes the number that the whole word is. -/
theorem number_of_run {l : Leaf Binary64} {number : Option Number} {rest : List Char} {x : Binary64}
    (h : (Reader.leaf l).runTokens ((Token.number number).ends rest) = .ok x) :
    rest = [] ∧ ∃ n, number = some n ∧ l (.num n) = .ok x := by
  cases number with
  | none => cases rest <;> cases h
  | some n =>
    have hrun : ((Reader.leaf l).runTokens ((Token.number (some n)).ends rest)) =
        (Reader.lift (l (.num n))).bind fun y => if rest.isEmpty then .ok y else .error .notJson := by
      cases hn : l (.num n) <;> cases rest <;>
        simp only [Reader.runTokens, Token.ends, Reader.leaf, Token.found?, Option.map_some, hn, Reader.lift,
          List.isEmpty_nil, List.isEmpty_cons, Bool.false_eq_true, if_true, if_false] <;> rfl
    rw [hrun] at h
    cases hn : l (.num n) with
    | error f => rw [hn] at h; cases h
    | ok y =>
      rw [hn] at h
      cases rest with
      | cons c rest => cases h
      | nil => cases h; exact ⟨rfl, n, rfl, hn⟩

/-- A numeral with a point or an exponent is a double. -/
theorem toNumber?_decimal {n : Numeral} {m : Number} (h : n.toNumber? = some m) (hn : n.decimal = true) :
    m = .real m.toBinary64 := by
  simp [Numeral.toNumber?, hn] at h
  obtain ⟨y, -, rfl⟩ := h
  rfl

theorem readsBack_of_finite {x : Binary64} (hfinite : x.isFinite = true) (hx : x.ReadsBack) :
    Number.ReadsBack (.real x) := by
  have htext : (Number.real x).text = x.text Binary64.plainLayout := if_pos hfinite
  have hnumeric : (Number.real x).text.all isNumeric = true := htext ▸ x.text_numeric
  have hdecimal : '.' ∈ (Number.real x).text ∨ 'e' ∈ (Number.real x).text := htext ▸ x.text_decimal
  have hne : (Number.real x).text ≠ [] := hdecimal.elim List.ne_nil_of_mem List.ne_nil_of_mem
  have hscan : scan (Value.num (.real x)).render = ofWord (Number.real x).text := by
    have hword := scan_word hne (text_wordly _) Value.closed_nil
    rw [List.append_nil] at hword
    rw [scan, Value.render, write, String.toList_ofList]
    simpa [Value.tokens, Token.text, scanFrom, Scan.finish] using hword
  rw [Binary64.ReadsBack, Reader.run, hscan, ofWord_numeric hnumeric] at hx
  rw [Number.ReadsBack, ofWord_numeric hnumeric]
  cases hread : Numeral.read (Number.real x).text with
  | none => rw [hread] at hx; cases hx
  | some r =>
    obtain ⟨n, rest⟩ := r
    rw [hread] at hx
    obtain ⟨rfl, m, hm, hmx⟩ := number_of_run hx
    -- As a double `m` could be an integer still: what rules that out is the point or the exponent.
    have hn : n.decimal = true := by
      cases hn : n.decimal with
      | true => rfl
      | false => exact absurd hdecimal (not_or.2 (Numeral.read_plain hread hn))
    have hreal : m = .real x := by
      rw [toNumber?_decimal hm hn]
      exact congrArg _ (Except.ok.inj hmx)
    simp only [hm, hreal, Token.ends, List.isEmpty_nil, if_true]

end Json
end DeviceEvents
