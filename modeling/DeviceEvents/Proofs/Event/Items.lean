import DeviceEvents.Proofs.Event.PayloadText
import DeviceEvents.Proofs.Fallible
/-
  DeviceEvents.Proofs.Event.Items — what is decoded of a payload, item by item.

  A payload is an array of items or a single one, and is decoded if all of them are. What is found out about
  one item is found out about the payload: every request comes from an item (`mem_of_decode_ok`), and a token
  is missing only if it is missing for an item (`exists_of_decode_missing`). The token of an item that does not
  name its device is that of the hints; with a token there that is not blank it is the token of all that
  is decoded, and without one nothing is (`decode_hinted`, `decode_unhinted`).
-/

namespace DeviceEvents.Envelope

open Json

def items : Value → List Value
  | .arr vs => vs
  | v => [v]

theorem decodeValue_eq (h : Hints) (v : Value) : decodeValue h v = (items v).mapM (decodeItem h) := by
  have one : ∀ w, (do return [← decodeItem h w] : Except DecodeFault (List Request)) = [w].mapM (decodeItem h) := by
    intro w
    rw [List.mapM_cons, List.mapM_nil]
    cases decodeItem h w <;> rfl
  cases v with
  | arr vs => rfl
  | _ => exact one _

variable {h : Hints} {payload : ByteArray} {v : Value} {ms : List Member} {r : Request} {t : String}

theorem decode_of_value (hv : valueOf payload = .ok v) :
    decode payload h = ((items v).mapM (decodeItem h)).mapError fun f => ⟨f, payload⟩ := by
  rw [decode, hv, ← decodeValue_eq]
  rfl

theorem decode_eq_ok_iff (hv : valueOf payload = .ok v) {rs : List Request} :
    decode payload h = .ok rs ↔ List.Forall₂ (fun w r => decodeItem h w = .ok r) (items v) rs := by
  rw [decode_of_value hv, ← mapM_eq_ok_iff]
  exact ⟨mapError_eq_ok, fun hrs => by rw [hrs]; rfl⟩

theorem decode_eq_error_iff (hv : valueOf payload = .ok v) {u : Undecoded} :
    decode payload h = .error u ↔ u.payload = payload ∧ ∃ before w after, items v = before ++ w :: after ∧
      (∀ w ∈ before, ∃ r, decodeItem h w = .ok r) ∧ decodeItem h w = .error u.fault := by
  rw [decode_of_value hv, ← mapM_eq_error_iff]
  constructor
  · intro hu
    obtain ⟨f, hf, rfl⟩ := mapError_eq_error hu
    exact ⟨rfl, hf⟩
  · rintro ⟨rfl, hf⟩
    rw [hf]
    rfl

theorem exists_of_decode_ok {rs : List Request} (hd : decode payload h = .ok rs) : ∃ v, valueOf payload = .ok v ∧
    List.Forall₂ (fun w r => decodeItem h w = .ok r) (items v) rs := by
  obtain ⟨v, hv, -⟩ := bind_eq_ok (mapError_eq_ok hd)
  exact ⟨v, hv, (decode_eq_ok_iff hv).1 hd⟩

theorem mem_of_decode_ok {rs : List Request} (hd : decode payload h = .ok rs) :
    ∃ v, valueOf payload = .ok v ∧ ∀ r ∈ rs, ∃ w ∈ items v, decodeItem h w = .ok r := by
  obtain ⟨v, hv, hitems⟩ := exists_of_decode_ok hd
  exact ⟨v, hv, mem_of_mapM_ok (mapM_eq_ok_iff.2 hitems)⟩

theorem valueOf_ne_missing : valueOf payload ≠ .error .missingDeviceToken := by
  intro hv
  unfold valueOf at hv
  split at hv
  · cases hv
  · split at hv <;> cases hv

/-- A payload that is no JSON lacks no token. -/
theorem exists_of_decode_missing {u : Undecoded} (hd : decode payload h = .error u) (hu : u.fault = .missingDeviceToken) :
    ∃ v, valueOf payload = .ok v ∧ ∃ w ∈ items v, decodeItem h w = .error .missingDeviceToken := by
  cases hv : valueOf payload with
  | error f =>
    rw [decode, hv] at hd
    cases hd
    cases hu
    exact absurd hv valueOf_ne_missing
  | ok v =>
    obtain ⟨-, before, w, after, hitems, -, hw⟩ := (decode_eq_error_iff hv).1 hd
    exact ⟨v, rfl, w, hitems ▸ List.mem_append_right _ List.mem_cons_self, hu ▸ hw⟩

/-! What an item is decoded of. -/

theorem decodeItem_eq_ok (hd : decodeItem h v = .ok r) : ∃ ms kind body, v = .obj ms ∧ tokenOf h ms = .ok r.deviceToken ∧
    kindOf h ms = .ok kind ∧ requestOf ms = .ok body ∧ fieldsOf kind body = .ok r.draft.payload := by
  cases v with
  | obj ms =>
    obtain ⟨t, ht, hd⟩ := bind_eq_ok hd
    obtain ⟨kind, hkind, hd⟩ := bind_eq_ok hd
    obtain ⟨body, hbody, hd⟩ := bind_eq_ok hd
    obtain ⟨date, -, hd⟩ := bind_eq_ok hd
    obtain ⟨metadata, -, hd⟩ := bind_eq_ok hd
    obtain ⟨fields, hfields, hd⟩ := bind_eq_ok hd
    cases hd
    exact ⟨ms, kind, body, rfl, ht, hkind, hbody, hfields⟩
  | _ => cases hd

theorem token_of_decodeItem_ok (hd : decodeItem h v = .ok r) : ∃ ms, v = .obj ms ∧ tokenOf h ms = .ok r.deviceToken := by
  obtain ⟨ms, _, _, hms, ht, -⟩ := decodeItem_eq_ok hd
  exact ⟨ms, hms, ht⟩

/-! Only the first check finds a token missing. -/

theorem kindOf_ne_missing : kindOf h ms ≠ .error .missingDeviceToken := by
  intro hk
  unfold kindOf at hk
  split at hk
  · cases hk
  · split at hk <;> cases hk

theorem requestOf_ne_missing : requestOf ms ≠ .error .missingDeviceToken := by
  intro hr
  unfold requestOf at hr
  split at hr <;> cases hr

theorem optionalDate_ne_missing : optionalDate ms ≠ .error .missingDeviceToken := by
  intro hd
  unfold optionalDate at hd
  split at hd
  · cases hd
  · cases hd
  · split at hd <;> cases hd

theorem metadataOf_ne_missing : metadataOf ms ≠ .error .missingDeviceToken := by
  intro hm
  unfold metadataOf at hm
  split at hm
  · cases hm
  · cases hm
  · obtain ⟨f, -, hf⟩ := mapError_eq_error hm
    cases hf

theorem fieldsOf_ne_missing (k : EventKind) : fieldsOf k ms ≠ .error .missingDeviceToken := by
  intro hp
  obtain ⟨f, -, hf⟩ := mapError_eq_error hp
  cases hf

theorem token_of_decodeItem_missing (hd : decodeItem h v = .error .missingDeviceToken) :
    ∃ ms, v = .obj ms ∧ tokenOf h ms = .error .missingDeviceToken := by
  cases v with
  | obj ms =>
    refine ⟨ms, rfl, ?_⟩
    rcases bind_eq_error hd with ht | ⟨t, -, hd⟩
    · exact ht
    rcases bind_eq_error hd with hk | ⟨kind, -, hd⟩
    · exact absurd hk kindOf_ne_missing
    rcases bind_eq_error hd with hr | ⟨body, -, hd⟩
    · exact absurd hr requestOf_ne_missing
    rcases bind_eq_error hd with hdate | ⟨date, -, hd⟩
    · exact absurd hdate optionalDate_ne_missing
    rcases bind_eq_error hd with hm | ⟨metadata, -, hd⟩
    · exact absurd hm metadataOf_ne_missing
    rcases bind_eq_error hd with hp | ⟨fields, -, hd⟩
    · exact absurd hp (fieldsOf_ne_missing kind)
    · cases hd
  | _ => cases hd

/-- No item of the payload has a text for the token. -/
def Tokenless (payload : ByteArray) : Prop :=
  ∀ v, valueOf payload = .ok v → ∀ ms, .obj ms ∈ items v → string? ms "deviceToken" = none

theorem tokenOf_hinted (hms : string? ms "deviceToken" = none) (ht : hint? h deviceTokenHint = some t)
    (hb : Text.allBlank t = false) : tokenOf h ms = .ok t := by
  unfold tokenOf
  rw [hms, ht]
  exact if_neg (by rw [hb]; exact Bool.false_ne_true)

theorem tokenOf_missing (hms : string? ms "deviceToken" = none)
    (ht : ∀ t, hint? h deviceTokenHint = some t → Text.allBlank t = true) : tokenOf h ms = .error .missingDeviceToken := by
  unfold tokenOf
  rw [hms, Option.none_or]
  cases hh : hint? h deviceTokenHint with
  | none => rfl
  | some t => exact if_pos (ht t hh)

/-- With a token in the hints that is not blank, it is the token of all items, -/
theorem decode_hinted (hpayload : Tokenless payload) (ht : hint? h deviceTokenHint = some t) (hb : Text.allBlank t = false) :
    (∀ rs, decode payload h = .ok rs → ∀ r ∈ rs, r.deviceToken = t) ∧
      ∀ u, decode payload h = .error u → u.fault ≠ .missingDeviceToken := by
  constructor
  · intro rs hd r hr
    obtain ⟨v, hv, hitems⟩ := mem_of_decode_ok hd
    obtain ⟨w, hw, hdw⟩ := hitems r hr
    obtain ⟨ms, rfl, htoken⟩ := token_of_decodeItem_ok hdw
    rw [tokenOf_hinted (hpayload v hv ms hw) ht hb] at htoken
    exact (Except.ok.inj htoken).symm
  · intro u hd hu
    obtain ⟨v, hv, w, hw, hdw⟩ := exists_of_decode_missing hd hu
    obtain ⟨ms, rfl, htoken⟩ := token_of_decodeItem_missing hdw
    rw [tokenOf_hinted (hpayload v hv ms hw) ht hb] at htoken
    cases htoken

/-- and without one no item is decoded. -/
theorem decode_unhinted (hpayload : Tokenless payload)
    (ht : ∀ t, hint? h deviceTokenHint = some t → Text.allBlank t = true) :
    (∀ rs, decode payload h = .ok rs → rs = []) ∧
      ∀ v ms rest, valueOf payload = .ok v → items v = .obj ms :: rest →
        decode payload h = .error ⟨.missingDeviceToken, payload⟩ := by
  constructor
  · intro rs hd
    obtain ⟨v, hv, hitems⟩ := mem_of_decode_ok hd
    refine List.eq_nil_iff_forall_not_mem.2 fun r hr => ?_
    obtain ⟨w, hw, hdw⟩ := hitems r hr
    obtain ⟨ms, rfl, htoken⟩ := token_of_decodeItem_ok hdw
    rw [tokenOf_missing (hpayload v hv ms hw) ht] at htoken
    cases htoken
  · intro v ms rest hv hitems
    have hms := hpayload v hv ms (hitems ▸ List.mem_cons_self)
    have hitem : decodeItem h (.obj ms) = .error .missingDeviceToken := by
      rw [decodeItem, tokenOf_missing hms ht]
      rfl
    rw [decode_of_value hv, hitems, List.mapM_cons, hitem]
    rfl

end DeviceEvents.Envelope
