import DeviceEvents.Proofs.Event.Batch
/-
  DeviceEvents.Proofs.Event.HintUse — what the transport tells fills gaps, and nothing else.

  Of the hints only two texts are looked at, one for the device and one for the kind, and each of them only for an
  item that has no such text of its own (`decodeItem_congr`). So the same bytes are decoded alike whatever the
  transport tells besides, or all of what it tells where every item speaks for itself (`decode_congr`). A token
  in an item stands even when it is blank: the item fails then, and no other device is put in its place
  (`own_token_kept`).
-/

namespace DeviceEvents.Envelope

open Json

variable {h h' : Hints} {payload : ByteArray} {v : Value} {ms : List Member} {r : Request} {t : String}

/-! ## Two runs on the same bytes -/

/-- A text under that name, or else the same in both hints. -/
def Settled (h h' : Hints) (ms : List Member) (name key : String) : Prop :=
  (∃ s, string? ms name = some s) ∨ hint? h key = hint? h' key

theorem Settled.or_eq {name key : String} (hs : Settled h h' ms name key) :
    (string? ms name).or (hint? h key) = (string? ms name).or (hint? h' key) := by
  rcases hs with ⟨s, hs⟩ | hs
  · rw [hs, Option.some_or, Option.some_or]
  · rw [hs]

theorem tokenOf_congr (ht : Settled h h' ms "deviceToken" deviceTokenHint) : tokenOf h ms = tokenOf h' ms := by
  unfold tokenOf
  rw [ht.or_eq]

theorem kindOf_congr (hk : Settled h h' ms "type" kindHint) : kindOf h ms = kindOf h' ms := by
  unfold kindOf
  rw [hk.or_eq]

theorem decodeItem_congr (ht : ∀ ms, v = .obj ms → Settled h h' ms "deviceToken" deviceTokenHint)
    (hk : ∀ ms, v = .obj ms → Settled h h' ms "type" kindHint) : decodeItem h v = decodeItem h' v := by
  cases v with
  | obj ms => rw [decodeItem, decodeItem, tokenOf_congr (ht ms rfl), kindOf_congr (hk ms rfl)]
  | _ => rfl

/-- Every item that is an object has a text under that name. -/
def Supplied (payload : ByteArray) (name : String) : Prop :=
  ∀ v, valueOf payload = .ok v → ∀ ms, .obj ms ∈ items v → ∃ s, string? ms name = some s

theorem decode_congr (ht : Supplied payload "deviceToken" ∨ hint? h deviceTokenHint = hint? h' deviceTokenHint)
    (hk : Supplied payload "type" ∨ hint? h kindHint = hint? h' kindHint) : decode payload h = decode payload h' := by
  cases hv : valueOf payload with
  | error f => rw [decode, decode, hv]; rfl
  | ok v =>
    have hitem : ∀ w ∈ items v, decodeItem h w = decodeItem h' w := by
      intro w hw
      refine decodeItem_congr (fun ms hms => ?_) (fun ms hms => ?_)
      · exact ht.imp_left fun hs => hs v hv ms (hms ▸ hw)
      · exact hk.imp_left fun hs => hs v hv ms (hms ▸ hw)
    rw [decode_of_value hv, decode_of_value hv, mapM_congr hitem]

/-! ## Tokens in items -/

theorem tokenOf_own (hs : string? ms "deviceToken" = some t) :
    tokenOf h ms = if Text.allBlank t then .error .missingDeviceToken else .ok t := by
  unfold tokenOf
  rw [hs, Option.some_or]

theorem decodeItem_blank (hs : string? ms "deviceToken" = some t) (hb : Text.allBlank t = true) :
    decodeItem h (.obj ms) = .error .missingDeviceToken := by
  rw [decodeItem, tokenOf_own hs, if_pos hb]
  rfl

theorem own_token_kept (hd : decodeItem h (.obj ms) = .ok r) (hs : string? ms "deviceToken" = some t) :
    r.deviceToken = t ∧ Text.allBlank t = false := by
  obtain ⟨_, hms, ht⟩ := token_of_decodeItem_ok hd
  cases hms
  rw [tokenOf_own hs] at ht
  split at ht
  · cases ht
  · rename_i hb
    exact ⟨(Except.ok.inj ht).symm, Bool.eq_false_iff.2 hb⟩

/-- An item with a blank token makes the payload fail, for this or for an item before it. -/
theorem decode_blank (hv : valueOf payload = .ok v) {before after : List Value}
    (hitems : items v = before ++ .obj ms :: after) (hs : string? ms "deviceToken" = some t)
    (hb : Text.allBlank t = true) : ∃ u, decode payload h = .error u ∧
      ((∀ w ∈ before, ∃ r, decodeItem h w = .ok r) → u = ⟨.missingDeviceToken, payload⟩) := by
  have hitem : decodeItem h (.obj ms) = .error .missingDeviceToken := decodeItem_blank hs hb
  cases hd : decode payload h with
  | ok rs =>
    have hall : ∀ w ∈ items v, ∃ r, decodeItem h w = .ok r :=
      exists_mapM_ok_iff.1 ⟨rs, mapM_eq_ok_iff.2 ((decode_eq_ok_iff hv).1 hd)⟩
    obtain ⟨r, hr⟩ := hall (.obj ms) (hitems ▸ List.mem_append_right _ List.mem_cons_self)
    cases hitem.symm.trans hr
  | error u =>
    refine ⟨u, rfl, fun hbefore => ?_⟩
    have hmissing : decode payload h = .error ⟨.missingDeviceToken, payload⟩ :=
      (decode_eq_error_iff hv).2 ⟨rfl, before, .obj ms, after, hitems, hbefore, hitem⟩
    exact Except.error.inj (hd.symm.trans hmissing)

/-- Hints count for a device or a kind that some item does not name, and never against a token that one does. -/
theorem hints_fill_gaps (payload : ByteArray) (h h' : Hints) :
    ((Supplied payload "deviceToken" ∨ hint? h deviceTokenHint = hint? h' deviceTokenHint) →
      (Supplied payload "type" ∨ hint? h kindHint = hint? h' kindHint) → decode payload h = decode payload h') ∧
    ∀ v, valueOf payload = .ok v →
      (∀ rs, decode payload h = .ok rs → List.Forall₂ (fun w r => ∀ ms t, w = .obj ms →
        string? ms "deviceToken" = some t → r.deviceToken = t ∧ Text.allBlank t = false) (items v) rs) ∧
      ∀ before ms after t, items v = before ++ .obj ms :: after → string? ms "deviceToken" = some t →
        Text.allBlank t = true → ∃ u, decode payload h = .error u ∧
          ((∀ w ∈ before, ∃ r, decodeItem h w = .ok r) → u = ⟨.missingDeviceToken, payload⟩) := by
  refine ⟨decode_congr, fun v hv => ⟨fun rs hrs => ?_, fun before ms after t => decode_blank hv⟩⟩
  refine ((decode_eq_ok_iff hv).1 hrs).imp fun w r hw ms t hms hs => ?_
  exact own_token_kept (hms ▸ hw) hs

/-- An alert of a device whose name is blank. -/
def sampleBlank : Value := .obj [("deviceToken", .str " "), ("type", .str "Alert")]

/-- Another device in the hints, or none, changes nothing, and is not put in the place of the blank one. -/
theorem hints_fill_gaps_blank :
    let h : Hints := Dictionary.ofList [("deviceToken", .str "truck-18"), ("eventType", .str "DeviceStateChange")]
    let h' : Hints := Dictionary.ofList [("deviceToken", .bool true), ("eventType", .str "DeviceStateChange")]
    let payload := (Value.arr [sampleUntyped, sampleBlank]).render.toUTF8
    Supplied payload "deviceToken" ∧ hint? h deviceTokenHint ≠ hint? h' deviceTokenHint ∧
      hint? h kindHint = hint? h' kindHint ∧ decode payload h = decode payload h' ∧
      decode payload h = .error ⟨.missingDeviceToken, payload⟩ ∧
      ∃ r, decode sampleUntyped.render.toUTF8 h = .ok [r] ∧ r.deviceToken = "truck-17" := by
  intro h h' payload
  have hlegible : (Value.arr [sampleUntyped, sampleBlank]).Legible := by
    refine Value.legible_arr ?_
    simp only [List.forall_mem_cons]
    refine ⟨sampleUntyped_legible, Value.legible_obj ?_, List.forall_mem_nil _⟩
    simp only [List.forall_mem_cons]
    exact ⟨Value.legible_str _, Value.legible_str _, List.forall_mem_nil _⟩
  have hvalue : valueOf payload = .ok (.arr [sampleUntyped, sampleBlank]) :=
    valueOf_text (Value.parse_render hlegible (by decide))
  have hsupplied : Supplied payload "deviceToken" := by
    intro v hv ms hms
    cases hvalue.symm.trans hv
    rcases List.mem_pair.1 hms with hms | hms
    · cases hms
      exact ⟨"truck-17", rfl⟩
    · cases hms
      exact ⟨" ", rfl⟩
  have hkind : hint? h kindHint = hint? h' kindHint := rfl
  obtain ⟨r, hr, -⟩ := sampleUntyped_decoded
  have hfirst : ∃ r, decodeItem h sampleUntyped = .ok r := ⟨_, rfl⟩
  obtain ⟨hsame, hblank⟩ := hints_fill_gaps payload h h'
  obtain ⟨u, hu, hmissing⟩ := (hblank _ hvalue).2 [sampleUntyped] _ [] " " rfl rfl (by decide)
  obtain ⟨-, hown⟩ := hints_fill_gaps sampleUntyped.render.toUTF8 h h'
  have htoken := (List.forall₂_cons.1 ((hown _ sampleUntyped_value).1 [r] hr)).1 _ "truck-17" rfl rfl
  exact ⟨hsupplied, by decide, hkind, hsame (.inl hsupplied) (.inr hkind),
    hmissing (List.forall_mem_singleton.2 hfirst) ▸ hu, r, hr, htoken.1⟩

end DeviceEvents.Envelope
