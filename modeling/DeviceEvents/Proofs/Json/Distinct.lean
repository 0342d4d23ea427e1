import DeviceEvents.Proofs.Json.Reading
import DeviceEvents.Proofs.Number.Printing
/-
  DeviceEvents.Proofs.Json.Distinct — different values have different texts.

  The words of a value, numbers among them, are always followed by a mark or by the end
  (`Separated`), so the text can be cut into the texts of its tokens in one way only. A mark
  or a string is the token that the scanner finds there, a word is as long as the characters
  of words go on, and finite numbers have texts of their own. So two values whose numbers are
  finite are the same if their texts are (`render_injective`). Nothing is assumed of how
  numbers are read.
-/

namespace DeviceEvents.Json

/-! ## Tokens -/

namespace Token

def isWord : Token → Bool
  | .null | .bool _ | .number _ => true
  | _ => false

/-- A token that a value with finite numbers is written with. -/
def Plain : Token → Prop
  | .number n => ∃ x : Number, n = some x ∧ x.IsFinite
  | .string s => s.isSome = true
  | .fault => False
  | _ => True

/-- The text of a number is not the word of a literal. -/
theorem number_text_front {n : Number} (hn : n.IsFinite) : n.text.all isNumeric = true ∧ n.text ≠ [] := by
  cases n with
  | int i =>
    have hdigits := Binary64.digitsOf_numeric i.natAbs
    rw [Number.text_int]
    split
    · exact ⟨by rw [List.all_cons, hdigits]; rfl, nofun⟩
    · exact ⟨hdigits, Numeral.digitsOf_ne_nil _⟩
  | real x =>
    rw [Number.text_of_finite hn]
    exact ⟨x.text_numeric, x.text_decimal.elim List.ne_nil_of_mem List.ne_nil_of_mem⟩

theorem word_text {t : Token} (ht : t.Plain) (hw : t.isWord = true) : t.text.all isWordly = true ∧ t.text ≠ [] := by
  cases t with
  | null => exact ⟨by decide, nofun⟩
  | bool b => cases b <;> exact ⟨by decide, nofun⟩
  | number n =>
    obtain ⟨x, rfl, hx⟩ := ht
    exact ⟨text_wordly x, (number_text_front hx).2⟩
  | _ => cases hw

theorem word_text_injective {t t' : Token} (ht : t.Plain) (ht' : t'.Plain) (hw : t.isWord = true)
    (hw' : t'.isWord = true) (h : t.text = t'.text) : t = t' := by
  have hliteral {x : Number} (hx : x.IsFinite) {c : Char} {cs : List Char} (hc : isNumeric c = false) :
      (Token.number (some x)).text ≠ c :: cs := fun he => by
    have hall : (c :: cs).all isNumeric = true := he ▸ (number_text_front hx).1
    rw [List.all_cons, hc] at hall
    cases hall
  cases t with
  | null =>
    cases t' with
    | null => rfl
    | bool b => cases b <;> cases h
    | number n =>
      obtain ⟨x, rfl, hx⟩ := ht'
      exact absurd h.symm (hliteral hx (by decide))
    | _ => cases hw'
  | bool b =>
    cases t' with
    | null => cases b <;> cases h
    | bool b' =>
      cases b <;> cases b'
      · rfl
      · cases h
      · cases h
      · rfl
    | number n =>
      obtain ⟨x, rfl, hx⟩ := ht'
      cases b <;> exact absurd h.symm (hliteral hx (by decide))
    | _ => cases hw'
  | number n =>
    obtain ⟨x, rfl, hx⟩ := ht
    cases t' with
    | null => exact absurd h (hliteral hx (by decide))
    | bool b => cases b <;> exact absurd h (hliteral hx (by decide))
    | number n' =>
      obtain ⟨x', rfl, hx'⟩ := ht'
      exact congrArg (Token.number ∘ some) (Number.text_injective hx hx' h)
    | _ => cases hw'
  | _ => cases hw

/-- Marks and strings are what the scanner finds, -/
theorem scan_sign {t : Token} (ht : t.Plain) (hw : t.isWord = false) (cs : List Char) :
    scanFrom .between (t.text ++ cs) = t :: scanFrom .between cs := by
  cases t with
  | string s =>
    obtain ⟨s, rfl⟩ := Option.isSome_iff_exists.1 ht
    exact scan_string s cs
  | fault => exact ht.elim
  | null | bool | number => cases hw
  | _ => exact Value.scan_mark rfl cs

/-- and do not begin as words do. -/
theorem sign_closed {t : Token} (ht : t.Plain) (hw : t.isWord = false) (cs : List Char) : Closed (t.text ++ cs) := by
  cases t with
  | string s =>
    obtain ⟨s, rfl⟩ := Option.isSome_iff_exists.1 ht
    exact Value.closed_cons (by decide) _
  | fault => exact ht.elim
  | null | bool | number => cases hw
  | _ => exact Value.closed_cons (by decide) cs

theorem takeWhile_word {w cs : List Char} (hw : w.all isWordly = true) (hcs : Closed cs) :
    (w ++ cs).takeWhile isWordly = w := by
  induction w with
  | nil =>
    cases cs with
    | nil => rfl
    | cons c cs => simp [hcs c cs rfl]
  | cons c w ih =>
    rw [List.all_cons, Bool.and_eq_true] at hw
    rw [List.cons_append, List.takeWhile_cons_of_pos hw.1, ih hw.2]

/-- Where words end as they should, the first token of a text and what follows it are determined. -/
theorem text_append_inj {t t' : Token} (ht : t.Plain) (ht' : t'.Plain) {cs cs' : List Char}
    (hcs : t.isWord = true → Closed cs) (hcs' : t'.isWord = true → Closed cs') (h : t.text ++ cs = t'.text ++ cs') :
    t = t' ∧ cs = cs' := by
  have hsame : t = t' := by
    cases hw : t.isWord with
    | true =>
      obtain ⟨hword, hne⟩ := word_text ht hw
      have hfront := takeWhile_word hword (hcs hw)
      cases hw' : t'.isWord with
      | true =>
        rw [h, takeWhile_word (word_text ht' hw').1 (hcs' hw')] at hfront
        exact word_text_injective ht ht' hw hw' hfront.symm
      | false =>
        rw [h] at hfront
        have hnone := takeWhile_word (w := []) rfl (sign_closed ht' hw' cs')
        rw [List.nil_append, hfront] at hnone
        exact absurd hnone hne
    | false =>
      cases hw' : t'.isWord with
      | true =>
        obtain ⟨hword, hne⟩ := word_text ht' hw'
        have hfront := takeWhile_word hword (hcs' hw')
        rw [← h] at hfront
        have hnone := takeWhile_word (w := []) rfl (sign_closed ht hw cs)
        rw [List.nil_append, hfront] at hnone
        exact absurd hnone hne
      | false =>
        have hscan := scan_sign ht hw cs
        rw [h, scan_sign ht' hw' cs'] at hscan
        exact (List.cons.inj hscan).1.symm
  subst hsame
  exact ⟨rfl, List.append_cancel_left h⟩

theorem text_ne_nil {t : Token} (ht : t.Plain) : t.text ≠ [] := by
  cases hw : t.isWord with
  | true => exact (word_text ht hw).2
  | false =>
    intro hnil
    have hscan := scan_sign ht hw []
    rw [hnil] at hscan
    cases hscan

end Token

/-! ## Sequences of tokens -/

/-- No word stands right behind a word. -/
inductive Separated : List Token → Prop where
  | nil : Separated []
  | one (t : Token) : Separated [t]
  | cons {t u : Token} {ts : List Token} (apart : t.isWord = true → u.isWord = false) (others : Separated (u :: ts)) :
      Separated (t :: u :: ts)

theorem Separated.closed {t : Token} {ts : List Token} (h : Separated (t :: ts)) (hplain : ∀ u ∈ ts, u.Plain)
    (hw : t.isWord = true) : Closed (ts.flatMap Token.text) := by
  cases h with
  | one => exact Value.closed_nil
  | @cons _ u ts apart _ =>
    rw [List.flatMap_cons]
    exact Token.sign_closed (hplain u (List.mem_cons_self ..)) (apart hw) _

theorem Separated.tail {t : Token} {ts : List Token} (h : Separated (t :: ts)) : Separated ts := by
  cases h with
  | one => exact .nil
  | cons _ others => exact others

/-- Tokens of one text are the same tokens. -/
theorem flatMap_text_injective {ts us : List Token} (hts : Separated ts) (hus : Separated us)
    (htplain : ∀ t ∈ ts, t.Plain) (huplain : ∀ u ∈ us, u.Plain)
    (h : ts.flatMap Token.text = us.flatMap Token.text) : ts = us := by
  induction ts generalizing us with
  | nil =>
    cases us with
    | nil => rfl
    | cons u us =>
      rw [List.flatMap_nil, List.flatMap_cons, eq_comm, List.append_eq_nil_iff] at h
      exact absurd h.1 (Token.text_ne_nil (huplain u (List.mem_cons_self ..)))
  | cons t ts ih =>
    cases us with
    | nil =>
      rw [List.flatMap_nil, List.flatMap_cons, List.append_eq_nil_iff] at h
      exact absurd h.1 (Token.text_ne_nil (htplain t (List.mem_cons_self ..)))
    | cons u us =>
      have htothers : ∀ t' ∈ ts, t'.Plain := fun t' ht' => htplain t' (List.mem_cons_of_mem _ ht')
      have huothers : ∀ u' ∈ us, u'.Plain := fun u' hu' => huplain u' (List.mem_cons_of_mem _ hu')
      rw [List.flatMap_cons, List.flatMap_cons] at h
      obtain ⟨rfl, hrest⟩ := Token.text_append_inj (htplain t (List.mem_cons_self ..))
        (huplain u (List.mem_cons_self ..)) (hts.closed htothers) (hus.closed huothers) h
      rw [ih hts.tail hus.tail htothers huothers hrest]

/-! ## Values -/

namespace Value

/-- A sequence that may stand behind a value. -/
def Behind (ts : List Token) : Prop := Separated ts ∧ ∀ t ∈ ts.head?, t.isWord = false

theorem behind_cons {t : Token} {ts : List Token} (ht : t.isWord = false) (hts : Separated ts) : Behind (t :: ts) := by
  refine ⟨?_, fun u hu => by cases hu; exact ht⟩
  cases ts with
  | nil => exact .one t
  | cons u ts =>
    refine .cons (fun hw => ?_) hts
    rw [ht] at hw
    cases hw

theorem Behind.separated_cons {t : Token} {ts : List Token} (h : Behind ts) : Separated (t :: ts) := by
  cases ts with
  | nil => exact .one t
  | cons u ts => exact .cons (fun _ => h.2 u rfl) h.1

mutual

theorem separated_tokens (v : Value) {rest : List Token} (h : Behind rest) : Separated (v.tokens ++ rest) := by
  match v with
  | .null => exact h.separated_cons
  | .bool _ => exact h.separated_cons
  | .num _ => exact h.separated_cons
  | .str _ => exact h.separated_cons
  | .arr items => exact (behind_cons rfl (separated_itemTokens items h)).1
  | .obj members => exact (behind_cons rfl (separated_memberTokens members h)).1

theorem separated_itemTokens (items : List Value) {rest : List Token} (h : Behind rest) :
    Separated (itemTokens items ++ rest) := by
  match items with
  | [] => exact h.separated_cons
  | [v] =>
    have hone := separated_tokens v (behind_cons (t := .rbracket) rfl h.1)
    simpa [itemTokens] using hone
  | v :: w :: vs =>
    have hone := separated_tokens v (behind_cons (t := .comma) rfl (separated_itemTokens (w :: vs) h))
    simpa [itemTokens] using hone

theorem separated_memberTokens (members : List (String × Value)) {rest : List Token} (h : Behind rest) :
    Separated (memberTokens members ++ rest) := by
  match members with
  | [] => exact h.separated_cons
  | [(k, v)] =>
    have hone := separated_tokens v (behind_cons (t := .rbrace) rfl h.1)
    have hnamed := (behind_cons (t := .string (some k)) rfl (behind_cons (t := .colon) rfl hone).1).1
    simpa [memberTokens] using hnamed
  | (k, v) :: m :: ms =>
    have hone := separated_tokens v (behind_cons (t := .comma) rfl (separated_memberTokens (m :: ms) h))
    have hnamed := (behind_cons (t := .string (some k)) rfl (behind_cons (t := .colon) rfl hone).1).1
    simpa [memberTokens] using hnamed

theorem plain_tokens (v : Value) (hv : ∀ n, Token.number (some n) ∈ v.tokens → n.IsFinite) : ∀ t ∈ v.tokens, t.Plain := by
  match v with
  | .null | .bool _ => simp [tokens, Token.Plain]
  | .num n => simpa [tokens, Token.Plain] using hv n
  | .str s => simp [tokens, Token.Plain]
  | .arr items =>
    have hitems := plain_itemTokens items fun n h => hv n (by simp [tokens, h])
    simpa [tokens, Token.Plain] using hitems
  | .obj members =>
    have hmembers := plain_memberTokens members fun n h => hv n (by simp [tokens, h])
    simpa [tokens, Token.Plain] using hmembers

theorem plain_itemTokens (items : List Value) (hv : ∀ n, Token.number (some n) ∈ itemTokens items → n.IsFinite) :
    ∀ t ∈ itemTokens items, t.Plain := by
  match items with
  | [] => simp [itemTokens, Token.Plain]
  | [v] =>
    have hone := plain_tokens v fun n h => hv n (by simp [itemTokens, h])
    simpa [itemTokens, Token.Plain, or_imp, forall_and] using hone
  | v :: w :: vs =>
    have hone := plain_tokens v fun n h => hv n (by simp [itemTokens, h])
    have hrest := plain_itemTokens (w :: vs) fun n h => hv n (by simp [itemTokens, h])
    simpa [itemTokens, Token.Plain, or_imp, forall_and] using ⟨hone, hrest⟩

theorem plain_memberTokens (members : List (String × Value))
    (hv : ∀ n, Token.number (some n) ∈ memberTokens members → n.IsFinite) : ∀ t ∈ memberTokens members, t.Plain := by
  match members with
  | [] => simp [memberTokens, Token.Plain]
  | [(k, v)] =>
    have hone := plain_tokens v fun n h => hv n (by simp [memberTokens, h])
    simpa [memberTokens, Token.Plain, or_imp, forall_and] using hone
  | (k, v) :: m :: ms =>
    have hone := plain_tokens v fun n h => hv n (by simp [memberTokens, h])
    have hrest := plain_memberTokens (m :: ms) fun n h => hv n (by simp [memberTokens, h])
    simpa [memberTokens, Token.Plain, or_imp, forall_and] using ⟨hone, hrest⟩

end

theorem tokens_injective {v w : Value} (h : v.tokens = w.tokens) : v = w := by
  have hv := read_tokens v (Nat.le_max_left v.depth w.depth) []
  have hw := read_tokens w (Nat.le_max_right v.depth w.depth) []
  rw [h, hw] at hv
  cases hv
  rfl

/-- Values whose numbers are finite are the same if their texts are. -/
theorem render_injective {v w : Value} (hv : v.Holds Number.IsFinite) (hw : w.Holds Number.IsFinite)
    (h : v.render = w.render) : v = w := by
  have htext : v.tokens.flatMap Token.text = w.tokens.flatMap Token.text := by
    have hchars := congrArg String.toList h
    rwa [render, render, write, write, String.toList_ofList, String.toList_ofList] at hchars
  have hbehind : Behind [] := ⟨.nil, fun _ ht => by cases ht⟩
  have hvtokens := separated_tokens v hbehind
  have hwtokens := separated_tokens w hbehind
  rw [List.append_nil] at hvtokens hwtokens
  exact tokens_injective (flatMap_text_injective hvtokens hwtokens (plain_tokens v hv) (plain_tokens w hw) htext)

end Value
end DeviceEvents.Json
