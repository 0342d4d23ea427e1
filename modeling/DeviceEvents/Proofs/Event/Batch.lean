import DeviceEvents.Proofs.Event.Items
import DeviceEvents.Proofs.Json.Excerpt
import DeviceEvents.Proofs.Json.Retelling
/-
  DeviceEvents.Proofs.Event.Batch — an array is decoded as its items are one by one.

  What an item comes to by itself (`Alone`) is what bytes that hold nothing else are decoded to, and every item
  of an array has such bytes. An array of items is decoded as all of its items are, and fails as the first of
  them that fails does, whatever stands before and behind it (`decode_as_items`). What is decoded of an item is
  never without a device, and of the kind that the item names or else the transport (`Vouched`); a kind that the
  request gives itself is not looked at (`decodeItem_untagged`).
-/

namespace DeviceEvents

theorem Payload.kind_of_ofContent {k : EventKind} {v : Json.Value} {p : Payload} (h : ofContent k v = .ok p) :
    p.kind = k := by
  cases k
  all_goals
    obtain ⟨fields, -, rfl⟩ := map_eq_ok h
    rfl

namespace Envelope

open Json

variable {h : Hints} {payload : ByteArray} {v w : Value} {vs : List Value} {r : Request}
  {x : Except DecodeFault Request}

/-! ## Items with bytes of their own -/

theorem exists_text_of_valueOf (hv : valueOf payload = .ok v) :
    ∃ text raw, Value.parse text = .ok raw ∧ v = raw.canonical := by
  unfold valueOf at hv
  split at hv
  · cases hv
  · rename_i text _
    split at hv
    · rename_i raw hraw
      exact ⟨text, raw, hraw, (Except.ok.inj hv).symm⟩
    · cases hv

theorem exists_payload_of_item (hv : valueOf payload = .ok (.arr vs)) (hw : w ∈ vs) : ∃ own, valueOf own = .ok w := by
  obtain ⟨text, raw, htext, hraw⟩ := exists_text_of_valueOf hv
  obtain ⟨raws, rfl, rfl⟩ := Value.canonical_eq_arr hraw.symm
  obtain ⟨item, hitem, rfl⟩ := List.mem_map.1 hw
  obtain ⟨own, hown⟩ := Value.exists_text_of_item htext hitem
  exact ⟨own.toUTF8, valueOf_text hown⟩

/-! ## Items by themselves -/

/-- What an item comes to by itself: its bytes are decoded to one request, or fail. Bytes that hold an array would be
taken for several items; as an item it is none that could be decoded. -/
inductive Alone (h : Hints) : Value → Except DecodeFault Request → Prop where
  | array (vs : List Value) : Alone h (.arr vs) (.error (.malformed .notObject))
  | decoded {own : ByteArray} {v : Value} {r : Request} (single : ∀ vs, v ≠ .arr vs) (value : valueOf own = .ok v)
      (request : decode own h = .ok [r]) : Alone h v (.ok r)
  | failed {own : ByteArray} {v : Value} {f : DecodeFault} (single : ∀ vs, v ≠ .arr vs) (value : valueOf own = .ok v)
      (fault : decode own h = .error ⟨f, own⟩) : Alone h v (.error f)

theorem items_single (hsingle : ∀ vs, v ≠ .arr vs) : items v = [v] := by
  cases v with
  | arr vs => exact absurd rfl (hsingle vs)
  | _ => rfl

section Single

variable {own : ByteArray} (hsingle : ∀ vs, v ≠ .arr vs) (hv : valueOf own = .ok v)
include hsingle hv

theorem decode_single_ok_iff : decode own h = .ok [r] ↔ decodeItem h v = .ok r := by
  rw [decode_eq_ok_iff hv, items_single hsingle, List.forall₂_cons]
  exact and_iff_left .nil

theorem decode_single_error_iff {f : DecodeFault} : decode own h = .error ⟨f, own⟩ ↔ decodeItem h v = .error f := by
  rw [decode_eq_error_iff hv, items_single hsingle]
  constructor
  · rintro ⟨-, before, w, after, hw, -, hf⟩
    have hmem : w ∈ [v] := hw ▸ List.mem_append_right _ List.mem_cons_self
    exact List.mem_singleton.1 hmem ▸ hf
  · exact fun hf => ⟨rfl, [], v, [], rfl, fun _ hw => absurd hw List.not_mem_nil, hf⟩

end Single

theorem Alone.decodeItem_eq (hx : Alone h v x) : decodeItem h v = x := by
  cases hx with
  | array vs => rfl
  | decoded single value request => exact (decode_single_ok_iff single value).1 request
  | failed single value fault => exact (decode_single_error_iff single value).1 fault

theorem alone_decodeItem (hv : ∃ own, valueOf own = .ok v) : Alone h v (decodeItem h v) := by
  obtain ⟨own, hown⟩ := hv
  by_cases harr : ∃ vs, v = .arr vs
  · obtain ⟨vs, rfl⟩ := harr
    exact .array vs
  · have hsingle := not_exists.1 harr
    cases hitem : decodeItem h v with
    | ok r => exact .decoded hsingle hown ((decode_single_ok_iff hsingle hown).2 hitem)
    | error f => exact .failed hsingle hown ((decode_single_error_iff hsingle hown).2 hitem)

theorem alone_iff (hv : ∃ own, valueOf own = .ok v) : Alone h v x ↔ decodeItem h v = x :=
  ⟨Alone.decodeItem_eq, fun hx => hx ▸ alone_decodeItem hv⟩

theorem forall₂_alone (hvs : ∀ v ∈ vs, ∃ own, valueOf own = .ok v) {rs : List Request} :
    List.Forall₂ (fun v r => Alone h v (.ok r)) vs rs ↔ List.Forall₂ (fun v r => decodeItem h v = .ok r) vs rs := by
  constructor
  · exact fun hrs => hrs.imp fun _ _ => Alone.decodeItem_eq
  · exact fun hrs => ((List.forall₂_and_left ..).2 ⟨hvs, hrs⟩).imp fun _ _ hv => (alone_iff hv.1).2 hv.2

/-! ## What is decoded of an item -/

theorem kind_of_fieldsOf {k : EventKind} {ms : List Member} {p : Payload} (h : fieldsOf k ms = .ok p) : p.kind = k :=
  Payload.kind_of_ofContent (mapError_eq_ok (fieldsOf_eq k ms ▸ h))

theorem tokenOf_not_blank {ms : List Member} {t : String} (ht : tokenOf h ms = .ok t) :
    (string? ms "deviceToken").or (hint? h deviceTokenHint) = some t ∧ Text.allBlank t = false := by
  unfold tokenOf at ht
  split at ht
  · rename_i t' hfound
    split at ht
    · cases ht
    · rename_i hblank
      cases ht
      exact ⟨hfound, Bool.eq_false_iff.2 hblank⟩
  · cases ht

theorem exists_name_of_kindOf {ms : List Member} {k : EventKind} (hk : kindOf h ms = .ok k) :
    ∃ name, (string? ms "type").or (hint? h kindHint) = some name ∧ kind? name = some k := by
  unfold kindOf at hk
  split at hk
  · cases hk
  · rename_i name hname
    split at hk
    · rename_i k' hkind
      cases hk
      exact ⟨name, hname, hkind⟩
    · cases hk

/-- A request that has a device, of the kind that its item names or else the transport. -/
def Vouched (h : Hints) (v : Value) (r : Request) : Prop :=
  Text.allBlank r.deviceToken = false ∧ ∃ ms name, v = .obj ms ∧
    (string? ms "type").or (hint? h kindHint) = some name ∧ kind? name = some r.draft.payload.kind

theorem vouched_of_decodeItem (hd : decodeItem h v = .ok r) : Vouched h v r := by
  obtain ⟨ms, kind, body, rfl, ht, hkind, -, hfields⟩ := decodeItem_eq_ok hd
  obtain ⟨name, hname, hk⟩ := exists_name_of_kindOf hkind
  exact ⟨(tokenOf_not_blank ht).2, ms, name, rfl, hname, kind_of_fieldsOf hfields ▸ hk⟩

/-- A request without the kind it gives itself. -/
def untagged (body : List Member) : List Member := body.filter fun m => m.1 != Payload.tag

theorem member?_untagged (body : List Member) {name : String} (hname : name ≠ Payload.tag) :
    member? (untagged body) name = member? body name := by
  have hkept : (fun m : Member => decide ((m.1 != Payload.tag) = true ∧ (m.1 == name) = true)) =
      fun m => m.1 == name := by
    funext m
    by_cases hm : m.1 = name
    · simp [hm, hname]
    · simp [hm]
  rw [member?, untagged, List.find?_filter, hkept, member?]

theorem fieldsOf_untagged (k : EventKind) (body : List Member) : fieldsOf k (untagged body) = fieldsOf k body := by
  have hkept : (untagged body).filter (fun m => !isReserved m.1) = body.filter fun m => !isReserved m.1 := by
    unfold untagged
    rw [List.filter_filter]
    refine List.filter_congr fun m _ => ?_
    by_cases hm : m.1 = Payload.tag
    · simp [isReserved, hm]
    · simp [hm]
  rw [fieldsOf_eq, hkept, fieldsOf_eq]

section Request

variable (before after : List Member) (v v' : Value)

theorem string?_beside {name : String} (hname : name ≠ "request") :
    string? (before ++ ("request", v) :: after) name = string? (before ++ ("request", v') :: after) name := by
  have hne : ("request" == name) = false := beq_eq_false_iff_ne.2 hname.symm
  simp only [string?, member?, List.find?_append, List.find?_cons, hne]

theorem tokenOf_beside :
    tokenOf h (before ++ ("request", v) :: after) = tokenOf h (before ++ ("request", v') :: after) := by
  rw [tokenOf, string?_beside before after v v' (by decide), tokenOf]

theorem kindOf_beside :
    kindOf h (before ++ ("request", v) :: after) = kindOf h (before ++ ("request", v') :: after) := by
  rw [kindOf, string?_beside before after v v' (by decide), kindOf]

/-- The first of several members of that name counts. -/
theorem requestOf_beside : requestOf (before ++ ("request", v) :: after) =
    if (member? before "request").isSome then requestOf before else requestOf [("request", v)] := by
  cases hb : before.find? (·.1 == "request") with
  | none => simp [requestOf, member?, hb]
  | some m => simp [requestOf, member?, hb]

/-- The kind that a request gives itself is not looked at. -/
theorem decodeItem_untagged (body : List Member) :
    decodeItem h (.obj (before ++ ("request", .obj body) :: after)) =
      decodeItem h (.obj (before ++ ("request", .obj (untagged body)) :: after)) := by
  have hid : string? (untagged body) "alternateId" = string? body "alternateId" := by
    rw [string?, member?_untagged body (by decide), string?]
  have hdate : optionalDate (untagged body) = optionalDate body := by
    rw [optionalDate, member?_untagged body (by decide), optionalDate]
  have hmetadata : metadataOf (untagged body) = metadataOf body := by
    rw [metadataOf, member?_untagged body (by decide), metadataOf]
  rw [decodeItem, tokenOf_beside before after _ (.obj (untagged body)),
    kindOf_beside before after _ (.obj (untagged body)),
    string?_beside before after _ (.obj (untagged body)) (by decide), requestOf_beside, decodeItem, requestOf_beside]
  split
  -- A request further to the front is the one that counts on both sides.
  · rfl
  · have hrequest : ∀ body : List Member, requestOf [("request", .obj body)] = .ok body := fun _ => rfl
    simp only [hrequest, bind, Except.bind, hid, hdate, hmetadata, fieldsOf_untagged]

end Request

/-! ## Items in an array -/

/-- A batch is decoded as each of its items is, in their order, and fails as the first item that fails. -/
theorem decode_as_items (payload : ByteArray) (h : Hints) :
    (∀ vs, valueOf payload = .ok (.arr vs) →
      (∀ v ∈ vs, ∃! x, Alone h v x) ∧
      ((∃ rs, decode payload h = .ok rs) ↔ ∀ v ∈ vs, ∃ r, Alone h v (.ok r)) ∧
      (∀ rs, decode payload h = .ok rs ↔ List.Forall₂ (fun v r => Alone h v (.ok r)) vs rs) ∧
      ∀ u, decode payload h = .error u ↔ u.payload = payload ∧ ∃ before v after, vs = before ++ v :: after ∧
        (∀ w ∈ before, ∃ r, Alone h w (.ok r)) ∧ Alone h v (.error u.fault)) ∧
    (∀ rs, decode payload h = .ok rs → ∃ v, valueOf payload = .ok v ∧ List.Forall₂ (Vouched h) (items v) rs) ∧
    ∀ before after body, decodeItem h (.obj (before ++ ("request", .obj body) :: after)) =
      decodeItem h (.obj (before ++ ("request", .obj (untagged body)) :: after)) := by
  refine ⟨?_, ?_, fun before after body => decodeItem_untagged before after body⟩
  · intro vs hvs
    have hown : ∀ v ∈ vs, ∃ own, valueOf own = .ok v := fun v hv => exists_payload_of_item hvs hv
    have hok : ∀ rs, decode payload h = .ok rs ↔ List.Forall₂ (fun v r => Alone h v (.ok r)) vs rs :=
      fun rs => (decode_eq_ok_iff hvs).trans (forall₂_alone hown).symm
    refine ⟨fun v hv => ?_, ?_, hok, fun u => (decode_eq_error_iff hvs).trans (and_congr_right fun _ => ⟨?_, ?_⟩)⟩
    · exact ⟨decodeItem h v, alone_decodeItem (hown v hv), fun x hx => hx.decodeItem_eq.symm⟩
    · have hall : (∃ rs, vs.mapM (decodeItem h) = .ok rs) ↔ ∀ v ∈ vs, ∃ r, decodeItem h v = .ok r := exists_mapM_ok_iff
      rw [forall₂_congr fun v hv => exists_congr fun r => alone_iff (hown v hv), ← hall]
      exact exists_congr fun rs => (decode_eq_ok_iff hvs).trans mapM_eq_ok_iff.symm
    · rintro ⟨before, v, after, rfl, hbefore, hv⟩
      rw [List.forall_mem_append, List.forall_mem_cons] at hown
      exact ⟨before, v, after, rfl, fun w hw => (hbefore w hw).imp fun r => (alone_iff (hown.1 w hw)).2,
        (alone_iff hown.2.1).2 hv⟩
    · rintro ⟨before, v, after, rfl, hbefore, hv⟩
      exact ⟨before, v, after, rfl, fun w hw => (hbefore w hw).imp fun _ => Alone.decodeItem_eq, hv.decodeItem_eq⟩
  · intro rs hrs
    obtain ⟨v, hv, hitems⟩ := exists_of_decode_ok hrs
    exact ⟨v, hv, hitems.imp fun _ _ => vouched_of_decodeItem⟩

/-- A change of state that leaves its kind to the transport, with the name of another in its request. -/
def sampleUntyped : Value :=
  .obj [("deviceToken", .str "truck-17"),
    ("request", .obj [("attribute", .str "door"), ("eventType", .str "Alert"), ("type", .str "lock")])]

theorem sampleUntyped_legible : sampleUntyped.Legible := by
  refine Value.legible_obj ?_
  simp only [List.forall_mem_cons]
  refine ⟨Value.legible_str _, Value.legible_obj ?_, List.forall_mem_nil _⟩
  simp only [List.forall_mem_cons]
  exact ⟨Value.legible_str _, Value.legible_str _, Value.legible_str _, List.forall_mem_nil _⟩

theorem sampleUntyped_value : valueOf sampleUntyped.render.toUTF8 = .ok sampleUntyped :=
  valueOf_text (Value.parse_render sampleUntyped_legible (by decide))

theorem sampleUntyped_decoded : ∃ r, decode sampleUntyped.render.toUTF8
    (Dictionary.ofList [("deviceToken", .str "truck-18"), ("eventType", .str "DeviceStateChange")]) = .ok [r] ∧
    r.draft.payload.kind = .stateChange := by
  rw [decode_of_value sampleUntyped_value]
  exact ⟨_, rfl, rfl⟩

/-- The item in front is decoded by itself, but not with what stands behind it. -/
theorem decode_as_items_null_behind :
    let hints : Hints := Dictionary.ofList [("deviceToken", .str "truck-18"), ("eventType", .str "DeviceStateChange")]
    let payload := (Value.arr [sampleUntyped, .null]).render.toUTF8
    valueOf payload = .ok (.arr [sampleUntyped, .null]) ∧
      (∃ r, Alone hints sampleUntyped (.ok r) ∧ Vouched hints sampleUntyped r ∧ r.draft.payload.kind = .stateChange) ∧
      decode payload hints = .error ⟨.malformed .notObject, payload⟩ := by
  intro hints payload
  have hlegible : (Value.arr [sampleUntyped, .null]).Legible := by
    refine Value.legible_arr ?_
    simp only [List.forall_mem_cons]
    exact ⟨sampleUntyped_legible, Value.holds_null, List.forall_mem_nil _⟩
  have hvalue : valueOf payload = .ok (.arr [sampleUntyped, .null]) :=
    valueOf_text (Value.parse_render hlegible (by decide))
  obtain ⟨r, hr, hkind⟩ := sampleUntyped_decoded
  have hsingle : ∀ vs, sampleUntyped ≠ .arr vs := by
    rintro vs ⟨⟩
  have halone : Alone hints sampleUntyped (.ok r) := .decoded hsingle sampleUntyped_value hr
  have hvouched : Vouched hints sampleUntyped r := by
    obtain ⟨v, hv, hitems⟩ := (decode_as_items sampleUntyped.render.toUTF8 hints).2.1 [r] hr
    cases sampleUntyped_value.symm.trans hv
    exact (List.forall₂_cons.1 hitems).1
  have hnull : Alone hints .null (.error (.malformed .notObject)) :=
    alone_decodeItem (exists_payload_of_item hvalue (List.mem_cons_of_mem _ List.mem_cons_self))
  obtain ⟨-, -, -, herror⟩ := (decode_as_items payload hints).1 _ hvalue
  exact ⟨hvalue, ⟨r, halone, hvouched, hkind⟩, (herror _).2
    ⟨rfl, [sampleUntyped], .null, [], rfl, List.forall_mem_singleton.2 ⟨r, halone⟩, hnull⟩⟩

end Envelope
end DeviceEvents
