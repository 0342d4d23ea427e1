import DeviceEvents.Proofs.Event.PayloadText
import DeviceEvents.Proofs.Instant.DateText
import DeviceEvents.Proofs.Json.Retelling
import Mathlib.Data.List.Forall2
import Mathlib.Data.List.Perm.Basic
/-
  DeviceEvents.Proofs.Event.Documented — what is documented is decoded.

  A device that keeps to the documented format sends, for a request, an envelope with the
  token, the kind and the originator, and in it an object with the alternate id, the date, the
  metadata and the fields of the payload (`Envelope.dated`). What the request leaves open is
  `null` or not there, members stand in any order, and the date is any text that RFC 3339 has
  for it in UTC (`Envelope.Documents`).

  Every such envelope is decoded as the request, whatever the transport hints, and an array of
  them as the list of the requests (`Envelope.documented_decoded`). The members are found by
  name (`string?_told`), `type` on each level apart from the others, and what is left of the
  inner object when its own members are taken away is the payload (`fieldsOf_told`). The
  fields of all six kinds are put into places of their own (`put_apart`), so neither their
  order nor a missing `null` shows (`Payload.ofContent_told`).

  Of a double it is assumed that it is finite and that its text reads back.
-/

namespace DeviceEvents

open Json

variable {α σ : Type}

/-! ## Maps -/

theorem Json.dictionaryOf_told {l : Leaf α} {f : α → Value} {d : Dictionary α}
    (h : ∀ e ∈ d.entries, (f e.2).depth = 0 ∧ f e.2 ≠ .null ∧ l (f e.2).found = .ok e.2) {w : Value}
    (hw : (dictionaryJson f d).ToldBy w) : dictionaryOf l w = .ok d := by
  have hkeys : ((d.entries.map fun e => (e.1, f e.2)).map (·.1)).Nodup := by
    rw [List.map_map]
    exact d.keys_nodup
  have hleaves : ∀ m ∈ d.entries.map fun e => (e.1, f e.2), m.2.depth = 0 ∧ m.2 ≠ .null := by
    intro m hm
    obtain ⟨e, he, rfl⟩ := List.mem_map.1 hm
    exact ⟨(h e he).1, (h e he).2.1⟩
  cases w with
  | obj ms =>
    have hcomp : Relation.Comp (· = List.map (fun e => (e.1, f e.2)) ·) List.Perm ms d.entries := by
      rw [List.eq_map_comp_perm]
      exact hw.perm hkeys hleaves
    obtain ⟨es, rfl, hes⟩ := hcomp
    exact dictionaryOf_perm (fun e he => (h e he).2.2) hes
  | _ => cases hw

/-! ## Fields in any order -/

/-- What a field does with its value, if the value is one. -/
theorem Json.return_eq_ok {ε : Type} {e : Except ε α} {f : α → σ} {s : σ} :
    (do return f (← e)) = Except.ok s ↔ ∃ a, e = .ok a ∧ s = f a := by
  cases e with
  | error x =>
    constructor
    · intro h
      cases h
    · rintro ⟨a, h, -⟩
      cases h
  | ok a =>
    constructor
    · intro h
      cases h
      exact ⟨a, rfl, rfl⟩
    · rintro ⟨b, h, rfl⟩
      cases h
      rfl

-- One case for each pair of fields: different names set different slots, and of the same name
-- there is nothing to show.

theorem Measurement.put_apart : PutApart Measurement.put := by
  intro s s₁ s₂ k k' v v' hne h h'
  unfold put at h h' ⊢
  split at h <;> split at h' <;> simp_all

theorem Location.put_apart : PutApart Location.put := by
  intro s s₁ s₂ k k' v v' hne h h'
  unfold put at h h' ⊢
  split at h <;> split at h' <;> simp_all only [return_eq_ok] <;> grind

theorem Alert.put_apart : PutApart Alert.put := by
  intro s s₁ s₂ k k' v v' hne h h'
  unfold put at h h' ⊢
  split at h <;> split at h' <;> simp_all only [return_eq_ok] <;> grind

theorem CommandInvocation.put_apart : PutApart CommandInvocation.put := by
  intro s s₁ s₂ k k' v v' hne h h'
  unfold put at h h' ⊢
  split at h <;> split at h' <;> simp_all only [return_eq_ok] <;> grind

theorem CommandResponse.put_apart : PutApart CommandResponse.put := by
  intro s s₁ s₂ k k' v v' hne h h'
  unfold put at h h' ⊢
  split at h <;> split at h' <;> simp_all only [return_eq_ok] <;> grind

theorem StateChange.put_apart : PutApart StateChange.put := by
  intro s s₁ s₂ k k' v v' hne h h'
  unfold put at h h' ⊢
  split at h <;> split at h' <;> simp_all only [return_eq_ok] <;> grind

namespace Payload

/-- The fields of a payload, in any order and without those that are open, are the payload. -/
theorem ofContent_told (p : Payload) (hfinite : ∀ x ∈ p.reals, x.isFinite = true) {w : Value}
    (h : (Value.obj p.fields).ToldBy w) : ofContent p.kind w = .ok p := by
  have hread := p.ofContent_fields hfinite
  have hreal {x : Binary64} (hx : x ∈ p.reals) : realJson x ≠ .null := by
    rw [realJson, if_pos (hfinite x hx)]
    simp
  have hstring := depth_ofOption (f := stringJson) fun _ => rfl
  have huuid := depth_ofOption (f := uuidJson) fun _ => rfl
  cases p with
  | measurement p =>
    refine Measurement.record.ofValue_told Measurement.put_apart rfl (by decide) ?_ ?_ h hread
    · intro m hm w hw s
      rw [List.mem_singleton.1 hm] at hw ⊢
      have hmap := dictionaryOf_told (l := Leaf.real) (fun e he =>
        ⟨depth_real e.2, hreal (List.mem_map_of_mem he), leaf_real (hfinite e.2 (List.mem_map_of_mem he))⟩) hw
      have hself := dictionaryOf_json (l := Leaf.real) (f := realJson) p.measurements fun e he =>
        leaf_real (hfinite e.2 (List.mem_map_of_mem he))
      simp only [Measurement.put, hmap, hself]
    · simp [fields, dictionaryJson]
  | location p =>
    refine Location.record.ofValue_told Location.put_apart rfl (by decide) (same_of_leaves ?_) ?_ h hread
    · simp [fields, depth_real, depth_ofOption depth_real]
    · have hlatitude := hreal (x := p.latitude) (by simp [reals])
      have hlongitude := hreal (x := p.longitude) (by simp [reals])
      simp only [fields, List.forall_mem_cons]
      exact ⟨fun h => absurd h hlatitude, fun h => absurd h hlongitude, fun h => by rw [h]; rfl, by simp⟩
  | alert p =>
    refine Alert.record.ofValue_told Alert.put_apart rfl (by decide) (same_of_leaves ?_) ?_ h hread
    · simp [fields, Value.depth]
    · simp [fields]
  | commandInvocation p =>
    refine CommandInvocation.record.ofValue_told CommandInvocation.put_apart rfl (by decide) ?_ ?_ h hread
    · intro m hm w hw s
      by_cases hleaf : m.2.depth = 0
      · rw [hw.leaf_eq hleaf]
      · have hvalues : m = ("parameterValues", dictionaryJson stringJson p.parameterValues) := by
          by_contra hother
          refine hleaf ?_
          simp only [fields, List.mem_cons, List.not_mem_nil, or_false, hother] at hm
          rcases hm with rfl | rfl | rfl | rfl | rfl <;> simp [Value.depth, hstring]
        subst hvalues
        have hmap := dictionaryOf_told (l := Leaf.string) (f := stringJson) (fun _ _ => ⟨rfl, by simp [stringJson], rfl⟩) hw
        have hself := dictionaryOf_json (l := Leaf.string) (f := stringJson) p.parameterValues fun _ _ => rfl
        simp only [CommandInvocation.put, hmap, hself]
    · simp only [fields, List.forall_mem_cons]
      exact ⟨by simp, fun h => by rw [h]; rfl, by simp, fun h => by rw [h]; rfl, by simp, by simp [dictionaryJson],
        by simp⟩
  | commandResponse p =>
    refine CommandResponse.record.ofValue_told CommandResponse.put_apart rfl (by decide) (same_of_leaves ?_) ?_ h hread
    · simp [fields, uuidJson, Value.depth, huuid, hstring]
    · simp only [fields, List.forall_mem_cons]
      exact ⟨by simp [uuidJson], fun h => by rw [h]; rfl, fun h => by rw [h]; rfl, by simp⟩
  | stateChange p =>
    refine StateChange.record.ofValue_told StateChange.put_apart rfl (by decide) (same_of_leaves ?_) ?_ h hread
    · simp [fields, Value.depth, hstring]
    · simp only [fields, List.forall_mem_cons]
      exact ⟨by simp, by simp, fun h => by rw [h]; rfl, fun h => by rw [h]; rfl, by simp⟩

end Payload

/-! ## What documents a request -/

/-- What is assumed of a request: its device has a token, and its doubles have texts that read
back. -/
structure Request.Sendable (r : Request) : Prop where
  token : Text.allBlank r.deviceToken = false
  finite : ∀ x ∈ r.draft.payload.reals, x.isFinite = true
  readsBack : ∀ x ∈ r.draft.payload.reals, x.ReadsBack

namespace Envelope

/-- The members of the inner object: its own, and the fields of the payload. -/
def body (r : Request) (date : Option String) : List Member :=
  ("alternateId", .ofOption stringJson r.draft.alternateId) :: ("eventDate", .ofOption stringJson date) ::
    ("metadata", dictionaryJson stringJson r.draft.metadata) :: r.draft.payload.fields

/-- The envelope of a request whose date is written like this. -/
def dated (r : Request) (date : Option String) : Value :=
  .obj [("deviceToken", .str r.deviceToken), ("type", .str r.draft.payload.kind.name),
    ("originator", .ofOption stringJson r.originator), ("request", .obj (body r date))]

inductive DateText : Option Instant → Option String → Prop where
  | absent : DateText none none
  | named {t : Instant} {s : String} (h : t.NamedBy s) : DateText (some t) (some s)

/-- The value is an envelope of the request. -/
def Documents (v : Value) (r : Request) : Prop :=
  ∃ date, DateText r.draft.eventDate date ∧ (dated r date).ToldBy v

/-- A text of the value: the one that is written for it, or one that JSON has for it with other
blanks and escapes. -/
inductive TextOf (v : Value) : String → Prop where
  | written : TextOf v v.render
  | spelled {text : String} (h : Value.parse text = .ok v) : TextOf v text

theorem optional_self {f : α → Value} (hf : ∀ a, (f a).depth = 0) (o : Option α) :
    (Value.ofOption f o).ToldBy (.ofOption f o) := .leaf (Payload.depth_ofOption hf o)

theorem dictionary_self {f : α → Value} (hf : ∀ a, (f a).depth = 0) (d : Dictionary α) :
    (dictionaryJson f d).ToldBy (dictionaryJson f d) := by
  refine .self ?_ ?_
  · rw [List.map_map]
    exact d.keys_nodup
  · intro m hm
    obtain ⟨e, -, rfl⟩ := List.mem_map.1 hm
    exact .leaf (hf e.2)

theorem fields_self (p : Payload) : ∀ m ∈ p.fields, m.2.ToldBy m.2 := by
  have hstring := optional_self (f := stringJson) fun _ => rfl
  have huuid := optional_self (f := uuidJson) fun _ => rfl
  have hreal (x : Binary64) : (realJson x).ToldBy (realJson x) := .leaf (Payload.depth_real x)
  cases p with
  | measurement p => simpa [Payload.fields] using dictionary_self Payload.depth_real p.measurements
  | location p =>
    simp only [Payload.fields, List.forall_mem_cons]
    exact ⟨hreal _, hreal _, optional_self Payload.depth_real _, List.forall_mem_nil _⟩
  | alert p =>
    simp only [Payload.fields, List.forall_mem_cons]
    exact ⟨.leaf rfl, .leaf rfl, .leaf rfl, .leaf rfl, List.forall_mem_nil _⟩
  | commandInvocation p =>
    simp only [Payload.fields, List.forall_mem_cons]
    exact ⟨.leaf rfl, hstring _, .leaf rfl, hstring _, .leaf rfl, dictionary_self (fun _ => rfl) _, List.forall_mem_nil _⟩
  | commandResponse p =>
    simp only [Payload.fields, List.forall_mem_cons]
    exact ⟨.leaf rfl, huuid _, hstring _, List.forall_mem_nil _⟩
  | stateChange p =>
    simp only [Payload.fields, List.forall_mem_cons]
    exact ⟨.leaf rfl, .leaf rfl, hstring _, hstring _, List.forall_mem_nil _⟩

theorem body_names (r : Request) (date : Option String) : ((body r date).map (·.1)).Nodup := by
  rw [body]
  cases r.draft.payload <;> simp [Payload.fields]

theorem body_self (r : Request) (date : Option String) : ∀ m ∈ body r date, m.2.ToldBy m.2 := by
  have hstring := optional_self (f := stringJson) fun _ => rfl
  simp only [body, List.forall_mem_cons]
  exact ⟨hstring _, hstring _, dictionary_self (fun _ => rfl) _, fields_self r.draft.payload⟩

/-- Every request whose date has a year of four digits is documented by the envelope that is
written for it. -/
theorem documents_ofRequest {r : Request}
    (h : ∀ t ∈ r.draft.eventDate, 0 ≤ t.civil.year ∧ t.civil.year ≤ 9999) : Documents (ofRequest r) r := by
  have hdate : DateText r.draft.eventDate (r.draft.eventDate.map Instant.text) := by
    cases ht : r.draft.eventDate with
    | none => exact .absent
    | some t => exact .named (Instant.namedBy_text (h t ht))
  have hwritten : ofRequest r = dated r (r.draft.eventDate.map Instant.text) := by
    rw [ofRequest, dated, body]
    cases r.draft.eventDate <;> rfl
  rw [hwritten]
  refine ⟨_, hdate, .self (by simp) ?_⟩
  simp only [List.forall_mem_cons]
  exact ⟨.leaf rfl, .leaf rfl, optional_self (fun _ => rfl) _, .self (body_names r _) (body_self r _), nofun⟩

/-! ## Members by name -/

theorem member?_eq_some {ms : List Member} (h : (ms.map (·.1)).Nodup) {m : Member} (hm : m ∈ ms) :
    member? ms m.1 = some m.2 := by
  rw [member?]
  cases hfind : ms.find? (·.1 == m.1) with
  | none => exact absurd (beq_self_eq_true m.1) (List.find?_eq_none.1 hfind m hm)
  | some n =>
    have hname : n.1 = m.1 := by simpa using List.find?_some hfind
    rw [List.inj_on_of_nodup_map h (List.mem_of_find?_eq_some hfind) hm hname]
    rfl

theorem member?_eq_none {ms : List Member} {name : String} (h : name ∉ ms.map (·.1)) : member? ms name = none := by
  have hnone : ms.find? (·.1 == name) = none := by
    refine List.find?_eq_none.2 fun m hm hname => ?_
    exact h (List.mem_map.2 ⟨m, hm, eq_of_beq hname⟩)
  rw [member?, hnone]
  rfl

/-- What was told under a name is found under it, unless it is open. -/
theorem member?_told {full ms : List Member} (h : (Value.obj full).ToldBy (.obj ms)) {name : String} {v : Value}
    (hv : (name, v) ∈ full) :
    (v = .null ∧ member? ms name = none) ∨ ∃ w, member? ms name = some w ∧ v.ToldBy w := by
  cases h with
  | leaf h => cases h
  | object distinct kept known told =>
    by_cases hname : name ∈ ms.map (·.1)
    · obtain ⟨n, hn, rfl⟩ := List.mem_map.1 hname
      exact .inr ⟨n.2, member?_eq_some distinct hn, told _ hv n hn rfl⟩
    · exact .inl ⟨(kept _ hv).resolve_right hname, member?_eq_none hname⟩

theorem string?_told {full ms : List Member} (h : (Value.obj full).ToldBy (.obj ms)) {name : String}
    {o : Option String} (hv : (name, .ofOption stringJson o) ∈ full) : string? ms name = o := by
  rcases member?_told h hv with ⟨hnull, hnone⟩ | ⟨w, hsome, hw⟩
  · cases o with
    | none => rw [string?, hnone]; rfl
    | some s => cases hnull
  · rw [string?, hsome, hw.leaf_eq (Payload.depth_ofOption (fun _ => rfl) o)]
    cases o <;> rfl

/-! ## Envelopes -/

theorem kind?_name (k : EventKind) : kind? k.name = some k := by
  unfold kind?
  rw [k.parse?_name]

theorem isReserved_fields (p : Payload) : ∀ m ∈ p.fields, isReserved m.1 = false := by
  cases p <;> simp [Payload.fields, isReserved, isTaken, Payload.tag]

section

variable {r : Request} {date : Option String} {ms : List Member}

theorem optionalDate_told (hdate : DateText r.draft.eventDate date) (h : (Value.obj (body r date)).ToldBy (.obj ms)) :
    optionalDate ms = .ok r.draft.eventDate := by
  have hdepth := Payload.depth_ofOption (f := stringJson) (fun _ => rfl) date
  have hfound := member?_told h (.tail _ (.head _))
  unfold optionalDate
  generalize r.draft.eventDate = o at hdate ⊢
  rcases hfound with ⟨hnull, hnone⟩ | ⟨w, hsome, hw⟩
  · rw [hnone]
    cases hdate with
    | absent => rfl
    | named => cases hnull
  · rw [hsome, hw.leaf_eq hdepth]
    cases hdate with
    | absent => rfl
    | named hnamed => simp only [Value.ofOption, stringJson, date?, Instant.ofStrict?_namedBy hnamed]

theorem metadataOf_told (h : (Value.obj (body r date)).ToldBy (.obj ms)) : metadataOf ms = .ok r.draft.metadata := by
  rcases member?_told h (.tail _ (.tail _ (.head _))) with ⟨hnull, -⟩ | ⟨w, hsome, hw⟩
  · cases hnull
  · have hread := dictionaryOf_told (l := Leaf.string) (f := stringJson) (fun _ _ => ⟨rfl, nofun, rfl⟩) hw
    cases w with
    | obj es => simp only [metadataOf, hsome, hread, Except.mapError]
    | _ => cases hw

theorem fieldsOf_told (hfinite : ∀ x ∈ r.draft.payload.reals, x.isFinite = true)
    (h : (Value.obj (body r date)).ToldBy (.obj ms)) : fieldsOf r.draft.payload.kind ms = .ok r.draft.payload := by
  have hfields : (body r date).filter (fun m => !isReserved m.1) = r.draft.payload.fields := by
    have hown : r.draft.payload.fields.filter (fun m => !isReserved m.1) = r.draft.payload.fields :=
      List.filter_eq_self.2 fun m hm => by rw [isReserved_fields _ m hm]; rfl
    exact hown
  have htold := h.filter fun name => !isReserved name
  rw [hfields] at htold
  rw [fieldsOf_eq, r.draft.payload.ofContent_told hfinite htold]
  rfl

theorem requestOf_told (h : (dated r date).ToldBy (.obj ms)) :
    ∃ inner, requestOf ms = .ok inner ∧ (Value.obj (body r date)).ToldBy (.obj inner) := by
  rcases member?_told h (.tail _ (.tail _ (.tail _ (.head _)))) with ⟨hnull, -⟩ | ⟨w, hsome, hw⟩
  · cases hnull
  · cases w with
    | obj inner =>
      refine ⟨inner, ?_, hw⟩
      rw [requestOf, hsome]
    | _ => cases hw

theorem decodeItem_told (hints : Hints) (hr : r.Sendable) (hdate : DateText r.draft.eventDate date) {w : Value}
    (hw : (dated r date).ToldBy w) : decodeItem hints w = .ok r := by
  cases w with
  | obj ms =>
    have htoken := string?_told (o := some r.deviceToken) hw (.head _)
    have hkind := string?_told (o := some r.draft.payload.kind.name) hw (.tail _ (.head _))
    have horiginator := string?_told (o := r.originator) hw (.tail _ (.tail _ (.head _)))
    obtain ⟨inner, hrequest, hinner⟩ := requestOf_told hw
    have halternate := string?_told (o := r.draft.alternateId) hinner (.head _)
    have hnotBlank : tokenOf hints ms = .ok r.deviceToken := by
      rw [tokenOf, htoken]
      simp [hr.token]
    have hnamed : kindOf hints ms = .ok r.draft.payload.kind := by
      simp only [kindOf, hkind, Option.some_or, kind?_name]
    simp only [decodeItem, hnotBlank, hnamed, hrequest, horiginator, optionalDate_told hdate hinner,
      metadataOf_told hinner, fieldsOf_told hr.finite hinner, halternate, bind, Except.bind, pure, Except.pure]
  | _ => cases hw

end

/-! ## Texts of envelopes -/

theorem legible_dated {r : Request} (hr : r.Sendable) (date : Option String) : (dated r date).Legible := by
  have hstring (o : Option String) : (Value.ofOption stringJson o).Legible :=
    Value.legible_ofOption o fun s _ => Value.legible_str s
  have hmetadata : (dictionaryJson stringJson r.draft.metadata).Legible :=
    Payload.legible_dictionary fun e _ => Value.legible_str e.2
  have hbody : (Value.obj (body r date)).Legible := by
    refine Value.legible_obj ?_
    simp only [body, List.forall_mem_cons]
    exact ⟨hstring _, hstring _, hmetadata, r.draft.payload.legible_fields hr.finite hr.readsBack⟩
  refine Value.legible_obj ?_
  simp only [List.forall_mem_cons]
  exact ⟨Value.legible_str _, Value.legible_str _, hstring _, hbody, nofun⟩

theorem depth_dated (r : Request) (date : Option String) : (dated r date).depth ≤ 3 := by
  have hstring := Payload.depth_ofOption (f := stringJson) fun _ => rfl
  have hmetadata := Payload.depth_dictionary (f := stringJson) (fun _ => rfl) r.draft.metadata
  have hfields := r.draft.payload.depth_fields
  simp only [dated, body, Value.depth, Value.membersDepth, hstring, hmetadata]
  omega

section

variable {v : Value} {r : Request}

theorem Documents.legible (h : Documents v r) (hr : r.Sendable) : v.Legible := by
  obtain ⟨date, -, htold⟩ := h
  exact htold.legible (legible_dated hr date)

theorem Documents.depth_le (h : Documents v r) : v.depth ≤ 3 := by
  obtain ⟨date, -, htold⟩ := h
  exact Nat.le_trans htold.depth_le (depth_dated r date)

theorem Documents.decodeItem (h : Documents v r) (hr : r.Sendable) (hints : Hints) :
    Envelope.decodeItem hints v.canonical = .ok r := by
  obtain ⟨date, hdate, htold⟩ := h
  exact decodeItem_told hints hr hdate htold.canonical

end

theorem items_readable {vs : List Value} {rs : List Request} (h : List.Forall₂ Documents vs rs)
    (hrs : ∀ r ∈ rs, r.Sendable) : ∀ v ∈ vs, v.Legible ∧ v.depth ≤ 3 := by
  induction h with
  | nil => nofun
  | cons hv hvs ih =>
    rw [List.forall_mem_cons] at hrs ⊢
    exact ⟨⟨hv.legible hrs.1, hv.depth_le⟩, ih hrs.2⟩

/-- Envelopes in an array are decoded one after the other. -/
theorem decodeItems_documented (hints : Hints) {vs : List Value} {rs : List Request} (h : List.Forall₂ Documents vs rs)
    (hrs : ∀ r ∈ rs, r.Sendable) : (Value.canonicalItems vs).mapM (decodeItem hints) = .ok rs := by
  induction h with
  | nil => rfl
  | cons hv hvs ih =>
    rw [List.forall_mem_cons] at hrs
    have hitem := hv.decodeItem hrs.1 hints
    have hitems := ih hrs.2
    simp only [Value.canonicalItems, List.mapM_cons, hitem, hitems, bind, Except.bind, pure, Except.pure]

theorem TextOf.parse {v : Value} {text : String} (h : TextOf v text) (hlegible : v.Legible)
    (hdepth : v.depth ≤ nestingLimit) : Value.parse text = .ok v := by
  cases h with
  | written => exact Value.parse_render hlegible hdepth
  | spelled h => exact h

/-- What documents a request is decoded as that request, and an array of what documents
requests as the list of them. -/
theorem documented_decoded (hints : Hints) :
    (∀ {r : Request} {v : Value} {text : String}, r.Sendable → Documents v r → TextOf v text →
      decode text.toUTF8 hints = .ok [r]) ∧
    ∀ {rs : List Request} {vs : List Value} {text : String}, (∀ r ∈ rs, r.Sendable) →
      List.Forall₂ Documents vs rs → TextOf (.arr vs) text → decode text.toUTF8 hints = .ok rs := by
  constructor
  · intro r v text hr hv htext
    have hparse := htext.parse (hv.legible hr) (Nat.le_trans hv.depth_le (by decide))
    have hitem := hv.decodeItem hr hints
    rw [decode_text hparse]
    generalize v.canonical = w at hitem ⊢
    cases w with
    | arr items => cases hitem
    | _ => simp only [decodeValue, hitem, bind, Except.bind, pure, Except.pure, Except.mapError]
  · intro rs vs text hrs hvs htext
    have hitems := items_readable hvs hrs
    have hdepth : (Value.arr vs).depth ≤ 4 := Nat.succ_le_succ (Value.itemsDepth_le fun v hv => (hitems v hv).2)
    have hparse := htext.parse (Value.legible_arr fun v hv => (hitems v hv).1) (Nat.le_trans hdepth (by decide))
    rw [decode_text hparse]
    simp only [Value.canonical, decodeValue, decodeItems_documented hints hvs hrs, Except.mapError]

/-- A leap second, and `type` on every level and as a value. -/
def sampleChange : Request :=
  { deviceToken := "truck-17", originator := none
    draft := { alternateId := some "m-1", eventDate := Instant.of? 1483228799 1500000000
               metadata := Dictionary.ofList [("request", "type")]
               payload := .stateChange ⟨"type", "door \"2\"", none, some "open"⟩ } }

/-- The members the other way round, and nothing that is open. -/
def sampleBody : List Member :=
  [("newState", .str "open"), ("type", .str "door \"2\""), ("attribute", .str "type"),
    ("metadata", .obj [("request", .str "type")]), ("eventDate", .str "2016-12-31t23:59:60.5-00:00"),
    ("alternateId", .str "m-1")]

def sampleEnvelope : Value :=
  .obj [("request", .obj sampleBody), ("type", .str "StateChange"), ("deviceToken", .str "truck-17")]

/-- A position without a date, on doubles. -/
def samplePosition : Request :=
  { deviceToken := "truck-17", originator := some "gateway-3"
    draft := Draft.ofPayload (.location ⟨⟨0x4058a00000000000⟩, ⟨0xc055187ae147ae14⟩, none⟩) }

theorem sampleEnvelope_documents : Documents sampleEnvelope sampleChange := by
  have hdate : DateText (Instant.of? 1483228799 1500000000) (some "2016-12-31t23:59:60.5-00:00") := by
    rw [Instant.of?, dif_pos (by decide)]
    have hhalf : Instant.IsFraction 500000000 ['5'] := ⟨nofun, 8, 0, by decide⟩
    exact .named ⟨by decide, 't', _, _, .inr (.inl rfl), .point hhalf, .behind, by decide⟩
  -- What the request leaves open has been left out: the originator, and the state before.
  have hinner : (Value.obj (body sampleChange (some "2016-12-31t23:59:60.5-00:00"))).ToldBy (.obj sampleBody) := by
    refine .of_perm (show List.Perm _ ([("previousState", .null)] ++ sampleBody) from ?_) (body_names _ _) (by simp)
      (body_self _ _)
    exact (List.reverse_perm _).symm.trans (.swap _ _ _)
  refine ⟨_, hdate, .object (by decide) ?_ (by decide) ?_⟩
  · simp [sampleChange, body, Value.ofOption]
  · intro m hm n hn hname
    rcases (by simpa using hn : _ ∨ _ ∨ _) with rfl | rfl | rfl
    all_goals rcases (by simpa using hm : _ ∨ _ ∨ _ ∨ _) with rfl | rfl | rfl | rfl
    all_goals first | exact absurd hname (by decide) | exact hinner | exact .leaf rfl

/-- Hints of another device and another kind, which nothing is taken from. -/
theorem documented_decoded_leap_second :
    let hints : Hints := Dictionary.ofList [("deviceToken", .str "truck-18"), ("eventType", .str "Alert")]
    let items := [sampleEnvelope, ofRequest samplePosition]
    let requests := [sampleChange, samplePosition]
    (∀ r ∈ requests, r.Sendable) ∧ List.Forall₂ Documents items requests ∧
      decode sampleEnvelope.render.toUTF8 hints = .ok [sampleChange] ∧
      decode (Value.arr items).render.toUTF8 hints = .ok requests := by
  intro hints items requests
  have hchange : sampleChange.Sendable := ⟨by decide, nofun, nofun⟩
  have hposition : samplePosition.Sendable := ⟨by decide, by decide +kernel, by decide +kernel⟩
  have hall : ∀ r ∈ requests, r.Sendable := by
    intro r hr
    rcases List.mem_cons.1 hr with rfl | hr
    · exact hchange
    · rw [List.mem_singleton.1 hr]
      exact hposition
  have hundated : Documents (ofRequest samplePosition) samplePosition := documents_ofRequest fun t ht => by cases ht
  have hdocuments : List.Forall₂ Documents items requests := .cons sampleEnvelope_documents (.cons hundated .nil)
  have hdecoded := documented_decoded hints
  exact ⟨hall, hdocuments, hdecoded.1 hchange sampleEnvelope_documents .written, hdecoded.2 hall hdocuments .written⟩

end Envelope
end DeviceEvents
