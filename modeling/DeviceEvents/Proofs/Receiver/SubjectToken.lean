import DeviceEvents.Receiver.Nats
import DeviceEvents.Proofs.Event.Items
/-
  DeviceEvents.Proofs.Receiver.SubjectToken — which device a message is filed under by its subject.

  Actors. A device publishes on the subject of its token, one level or more below the stream. The worker
  takes everything below the stream; where neither a header nor the payload names a device, the
  subject has to.

  Proved: only the level behind the last dot comes through. If it can stand for a device, all that
  is decoded is filed under it, which is the token if the token is of one level (`filed_under_last_level`). A
  token with a dot is filed under what is behind it, and so together with every other token that ends
  in this level (`two_tokens_filed_together`); and if nothing is left of it that can stand for a
  device, nothing is decoded at all.
-/

namespace DeviceEvents

open Json

/-! ## What the subject tells -/

namespace NatsMessage

open Envelope (deviceTokenHint hint? valueOf items decode Tokenless)

variable {m : NatsMessage} {name : String}

theorem lastPart?_append (as : List Char) {bs : List Char} (hbs : '.' ∉ bs) : lastPart? (as ++ '.' :: bs) = some bs := by
  have flat : ∀ {cs}, '.' ∉ cs → lastPart? cs = none := by
    intro cs hcs
    induction cs with
    | nil => rfl
    | cons c cs ih =>
      rw [List.mem_cons, not_or] at hcs
      rw [lastPart?, ih hcs.2, if_neg (Ne.symm hcs.1)]
      rfl
  induction as with
  | nil =>
    rw [List.nil_append, lastPart?, flat hbs]
    rfl
  | cons a as ih =>
    rw [List.cons_append, lastPart?, ih]
    rfl

theorem get?_headers (hs : List (String × String)) (h : Hints) (hname : ∀ x ∈ hs, x.1 ≠ name) :
    (hs.foldl (fun h (k, v) => h.insert k (.str v)) h).get? name = h.get? name := by
  induction hs generalizing h with
  | nil => rfl
  | cons x hs ih =>
    rw [List.forall_mem_cons] at hname
    rw [List.foldl_cons, ih _ hname.2, Dictionary.get?_insert, if_neg hname.1]

/-- Where no header names a device, the subject does. -/
theorem hint?_hints (hheaders : ∀ x ∈ m.headers, x.1 ≠ deviceTokenHint) :
    hint? m.hints deviceTokenHint = tokenOfSubject? m.subject := by
  have hnone : (m.headerHints.insert subjectHint (.str m.subject)).get? deviceTokenHint = none := by
    rw [Dictionary.get?_insert, if_neg (by decide), headerHints, get?_headers _ _ hheaders]
    rfl
  unfold hints
  cases ht : tokenOfSubject? m.subject with
  | none =>
    simp only [hnone]
    rw [hint?, hnone]
    rfl
  | some t =>
    simp only [hnone]
    rw [hint?, Dictionary.get?_insert, if_pos rfl]
    rfl

/-- Levels that are no token: wildcards, and no text at all. -/
def Reserved (level : String) : Prop := level = "" ∨ level = "*" ∨ level = ">"

theorem tokenOfSubject?_append (front : String) {last : String} (h : '.' ∉ last.toList) :
    (Reserved last → tokenOfSubject? (front ++ "." ++ last) = none) ∧
      (¬Reserved last → tokenOfSubject? (front ++ "." ++ last) = some last) := by
  have hpart : lastPart? (front ++ "." ++ last).toList = some last.toList := by
    rw [String.toList_append, String.toList_append, List.append_assoc]
    exact lastPart?_append front.toList h
  unfold tokenOfSubject?
  rw [hpart]
  constructor
  · rintro (rfl | rfl | rfl) <;> rfl
  · intro hr
    have hempty : last.toList ≠ "".toList := fun he => hr (.inl (String.toList_inj.1 he))
    have hstar : last.toList ≠ "*".toList := fun he => hr (.inr (.inl (String.toList_inj.1 he)))
    have hgreater : last.toList ≠ ">".toList := fun he => hr (.inr (.inr (String.toList_inj.1 he)))
    split
    · rename_i he
      cases he
    · rename_i he
      exact absurd (Option.some.inj he) hempty
    · rename_i he
      exact absurd (Option.some.inj he) hstar
    · rename_i he
      exact absurd (Option.some.inj he) hgreater
    · rename_i cs _ _ _ he
      rw [← Option.some.inj he, String.ofList_toList]

/-- The last level of a token is what stands behind its last dot, or all of it. -/
def LastLevel (token last : String) : Prop :=
  '.' ∉ last.toList ∧ (token = last ∨ ∃ front, token = front ++ "." ++ last)

theorem exists_lastLevel (token : String) : ∃ last, LastLevel token last := by
  have split : ∀ cs : List Char, ∃ last, '.' ∉ last ∧ (cs = last ∨ ∃ front, cs = front ++ '.' :: last) := by
    intro cs
    induction cs with
    | nil => exact ⟨[], List.not_mem_nil, .inl rfl⟩
    | cons c cs ih =>
      obtain ⟨last, hdot, rfl | ⟨front, rfl⟩⟩ := ih
      · by_cases hc : '.' = c
        · exact ⟨cs, hdot, .inr ⟨[], by rw [hc]; rfl⟩⟩
        · exact ⟨c :: cs, by rw [List.mem_cons, not_or]; exact ⟨hc, hdot⟩, .inl rfl⟩
      · exact ⟨last, hdot, .inr ⟨c :: front, rfl⟩⟩
  obtain ⟨last, hdot, htoken⟩ := split token.toList
  refine ⟨.ofList last, by rwa [String.toList_ofList], ?_⟩
  rcases htoken with h | ⟨front, h⟩
  · left
    rw [← h, String.ofList_toList]
  · right
    refine ⟨.ofList front, String.toList_inj.1 ?_⟩
    simp only [h, String.toList_append, String.toList_ofList, List.append_assoc]
    rfl

theorem LastLevel.eq_of_flat {token last : String} (h : LastLevel token last) (hflat : '.' ∉ token.toList) : last = token := by
  rcases h.2 with rfl | ⟨front, rfl⟩
  · rfl
  · exact absurd (by simp) hflat

/-- A message below a stream, for which no header and no item names a device: the hint is the last level of
its token. If this is neither reserved nor blank, everything decoded is filed under it and no token is
missing; it is the token itself if that has no dot. Otherwise nothing is decoded, for the token of the
first item is missing. -/
theorem filed_under_last_level {stream token : String} {m : NatsMessage} (hsubject : m.subject = stream ++ "." ++ token)
    (hheaders : ∀ x ∈ m.headers, x.1 ≠ deviceTokenHint) (hpayload : Tokenless m.payload) :
    ∃ last, LastLevel token last ∧ ('.' ∉ token.toList → last = token) ∧
      (¬Reserved last ∧ Text.allBlank last = false →
        (∀ rs, decode m.payload m.hints = .ok rs → ∀ r ∈ rs, r.deviceToken = last) ∧
          ∀ u, decode m.payload m.hints = .error u → u.fault ≠ .missingDeviceToken) ∧
      (Reserved last ∨ Text.allBlank last = true →
        (∀ rs, decode m.payload m.hints = .ok rs → rs = []) ∧
          ∀ v ms rest, valueOf m.payload = .ok v → items v = .obj ms :: rest →
            decode m.payload m.hints = .error ⟨.missingDeviceToken, m.payload⟩) := by
  obtain ⟨last, hlast⟩ := exists_lastLevel token
  have hsplit : ∃ front, m.subject = front ++ "." ++ last := by
    rcases hlast.2 with rfl | ⟨front, rfl⟩
    · exact ⟨stream, hsubject⟩
    · exact ⟨stream ++ "." ++ front, by rw [hsubject]; simp only [String.append_assoc]⟩
  obtain ⟨front, hsplit⟩ := hsplit
  have hhint := hint?_hints hheaders
  have htoken := tokenOfSubject?_append front hlast.1
  rw [hsplit] at hhint
  refine ⟨last, hlast, hlast.eq_of_flat, fun hname => ?_, fun hname => ?_⟩
  · exact Envelope.decode_hinted hpayload (hhint.trans (htoken.2 hname.1)) hname.2
  · refine Envelope.decode_unhinted hpayload fun t ht => ?_
    rw [hhint] at ht
    by_cases hr : Reserved last
    · rw [htoken.1 hr] at ht
      cases ht
    · rw [htoken.2 hr] at ht
      exact Option.some.inj ht ▸ hname.resolve_left hr

/-- A change of state whose envelope leaves the device to the transport. -/
def sampleUnnamed : Value :=
  .obj [("type", .str "StateChange"),
    ("request", .obj [("attribute", .str "door"), ("type", .str "lock"), ("newState", .str "open")])]

def samplePublished (token : String) : NatsMessage :=
  ⟨"raw." ++ token, sampleUnnamed.render.toUTF8, [("trace", "7")]⟩

theorem sampleUnnamed_value : valueOf sampleUnnamed.render.toUTF8 = .ok sampleUnnamed.canonical := by
  refine Envelope.valueOf_text (Value.parse_render (Value.legible_obj ?_) (by decide))
  simp only [List.forall_mem_cons]
  refine ⟨Value.legible_str _, Value.legible_obj ?_, List.forall_mem_nil _⟩
  simp only [List.forall_mem_cons]
  exact ⟨Value.legible_str _, Value.legible_str _, Value.legible_str _, List.forall_mem_nil _⟩

theorem sampleUnnamed_tokenless : Tokenless sampleUnnamed.render.toUTF8 := by
  intro v hv ms hms
  rw [sampleUnnamed_value] at hv
  cases hv
  obtain hms : Value.obj ms = sampleUnnamed.canonical := List.mem_singleton.1 hms
  rw [Value.obj.inj hms]
  rfl

/-- A token of one level is the one that its messages are filed under. -/
theorem filed_under_last_level_truck :
    (samplePublished "truck-17").subject = "raw" ++ "." ++ "truck-17" ∧
      (∀ x ∈ (samplePublished "truck-17").headers, x.1 ≠ deviceTokenHint) ∧
      Tokenless (samplePublished "truck-17").payload ∧
      ∀ rs, decode (samplePublished "truck-17").payload (samplePublished "truck-17").hints = .ok rs →
        ∀ r ∈ rs, r.deviceToken = "truck-17" := by
  have hsubject : (samplePublished "truck-17").subject = "raw" ++ "." ++ "truck-17" := rfl
  have hheaders : ∀ x ∈ (samplePublished "truck-17").headers, x.1 ≠ deviceTokenHint := by decide
  obtain ⟨last, -, hflat, hfiled, -⟩ := filed_under_last_level hsubject hheaders sampleUnnamed_tokenless
  obtain rfl : last = "truck-17" := hflat (by decide)
  exact ⟨hsubject, hheaders, sampleUnnamed_tokenless, (hfiled ⟨by simp [Reserved], by decide⟩).1⟩

/-- Two tokens that end in the same level, on subjects of their own. -/
theorem two_tokens_filed_together :
    Tokenless sampleUnnamed.render.toUTF8 ∧ ∀ token ∈ ["fleet.truck-17", "depot.truck-17"], ∃ r,
      (samplePublished token).subject = "raw" ++ "." ++ token ∧
      decode (samplePublished token).payload (samplePublished token).hints = .ok [r] ∧
      r.deviceToken = "truck-17" ∧ r.deviceToken ≠ token := by
  refine ⟨sampleUnnamed_tokenless, fun token htoken => ?_⟩
  show ∃ r, _ ∧ decode sampleUnnamed.render.toUTF8 _ = .ok [r] ∧ _
  rw [Envelope.decode_of_value sampleUnnamed_value]
  simp only [List.mem_cons, List.not_mem_nil, or_false] at htoken
  rcases htoken with rfl | rfl
  · exact ⟨_, rfl, rfl, rfl, by decide⟩
  · exact ⟨_, rfl, rfl, rfl, by decide⟩

end NatsMessage
end DeviceEvents
