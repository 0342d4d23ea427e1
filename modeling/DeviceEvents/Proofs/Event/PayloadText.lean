import DeviceEvents.Envelope
import DeviceEvents.Proofs.Json.Reading
/-
  DeviceEvents.Proofs.Event.PayloadText — payloads come back from their JSON text.

  The fields of every kind are written under the names and in the order of its structure, so
  `Record.ofValue_fields` reduces each kind to its own fields, one after the other. What
  stands in a field comes back by one lemma for each sort of value: identifiers, variants,
  strings, doubles, nothing, maps. Of the doubles it is assumed that they are finite and that
  their texts read back; a payload without doubles comes back whatever it holds.

  `Envelope.decode_render` says the same of the bytes that devices send: what is decoded is
  the value they were written from, in canonical form.
-/

namespace DeviceEvents

variable {α : Type}

/-! ## Identifiers -/

namespace Uuid

theorem length_hyphenate : ∀ ns cs, (hyphenate ns cs).length = cs.length + (ns.length - 1)
  | [], _ => rfl
  | [_], _ => rfl
  | n :: m :: ns, cs => by
    have ih := length_hyphenate (m :: ns) (cs.drop n)
    simp only [hyphenate, List.length_append, List.length_cons, List.length_take, List.length_drop] at ih ⊢
    omega

/-- The hyphens are found again where there are as many digits as the groups hold. -/
theorem unhyphenate?_hyphenate (ns : List Nat) {cs : List Char} (h : cs.length = ns.foldr (· + ·) 0) :
    unhyphenate? ns (hyphenate ns cs) = some cs := by
  induction ns generalizing cs with
  | nil => rw [List.length_eq_zero_iff.1 h]; rfl
  | cons n ns ih =>
    cases ns with
    | nil => exact if_pos h
    | cons m ns =>
      rw [List.foldr_cons] at h
      have htake : (cs.take n).length = n := by rw [List.length_take]; omega
      have hdrop : (cs.drop n).length = (m :: ns).foldr (· + ·) 0 := by rw [List.length_drop]; omega
      have hrest := ih hdrop
      simp only [hyphenate, unhyphenate?, List.drop_left' htake, List.take_left' htake, hrest, Option.map_eq_map,
        Option.map_some, List.take_append_drop]

theorem ofDigits?_toHex (u : Uuid) : ofDigits? (Text.toHex 32 u.code.val) = some u := by
  have hread := Text.ofHexFrom?_toHex 0 32 u.code.val u.code.isLt
  rw [Nat.zero_mul, Nat.zero_add] at hread
  rw [ofDigits?, if_pos (Text.length_toHex 32 _), Text.ofHex?, hread, Option.map_eq_map, Option.map_some, ofNat,
    Fin.ofNat_val_eq_self]

theorem parse?_text (u : Uuid) : parse? u.text = some u := by
  have hdigits : (Text.toHex 32 u.code.val).length = 32 := Text.length_toHex 32 _
  have hlength : u.chars.length = 36 := by rw [chars, length_hyphenate, hdigits]; rfl
  rw [parse?, text, String.toList_ofList, ofChars?, if_neg (by omega), if_pos hlength, ofHyphenated?, chars,
    unhyphenate?_hyphenate groups hdigits, Option.bind_eq_bind, Option.bind_some, ofDigits?_toHex]

end Uuid

theorem EventKind.parse?_name (k : EventKind) : EventKind.parse? k.name = some k := by
  cases k <;> decide

namespace Json

open Value

/-! ## What stands in a field -/

theorem leaf_uuid (u : Uuid) : Leaf.uuid (uuidJson u).found = .ok u := by
  simp only [uuidJson, Value.found, Leaf.uuid, Leaf.parsed, Uuid.parse?_text]

theorem leaf_real {x : Binary64} (h : x.isFinite = true) : Leaf.real (realJson x).found = .ok x := by
  simp only [realJson, h, if_true, Value.found, Leaf.real, Number.toBinary64]

/-- An optional field is nothing or what it holds, when what it holds is not written `null`. -/
theorem leaf_optional {l : Leaf α} {f : α → Value} (o : Option α)
    (h : ∀ a ∈ o, (f a).found ≠ .null ∧ l (f a).found = .ok a) : l.optional (ofOption f o).found = .ok o := by
  cases o with
  | none => rfl
  | some a =>
    obtain ⟨hnull, ha⟩ := h a rfl
    show l.optional (f a).found = .ok (some a)
    unfold Leaf.optional
    split
    · exact absurd ‹_› hnull
    · rw [ha]; rfl

theorem leaf_optional_string (o : Option String) : Leaf.string.optional (ofOption stringJson o).found = .ok o :=
  leaf_optional o fun _ _ => ⟨nofun, rfl⟩

theorem leaf_optional_uuid (o : Option Uuid) : Leaf.uuid.optional (ofOption uuidJson o).found = .ok o :=
  leaf_optional o fun u _ => ⟨nofun, leaf_uuid u⟩

theorem leaf_optional_real {o : Option Binary64} (h : ∀ x ∈ o, x.isFinite = true) :
    Leaf.real.optional (ofOption realJson o).found = .ok o := by
  refine leaf_optional o fun x hx => ⟨?_, leaf_real (h x hx)⟩
  rw [realJson, if_pos (h x hx)]
  nofun

theorem variant_alertSource (x : AlertSource) : variantOfValue AlertSource.names (.str x.name) = .ok x := by
  cases x <;> rfl

theorem variant_alertLevel (x : AlertLevel) : variantOfValue AlertLevel.names (.str x.name) = .ok x := by
  cases x <;> rfl

theorem variant_initiator (x : CommandInitiator) : variantOfValue CommandInitiator.names (.str x.name) = .ok x := by
  cases x <;> rfl

theorem variant_target (x : CommandTarget) : variantOfValue CommandTarget.names (.str x.name) = .ok x := by
  cases x
  rfl

theorem variant_kind (k : EventKind) : variant EventKind.names k.name = .ok k := by
  cases k <;> rfl

/-! ## Maps -/

/-- A map comes back from its members in whatever order, -/
theorem dictionaryOf_perm {l : Leaf α} {f : α → Value} {d : Dictionary α} {es : List (String × α)}
    (h : ∀ e ∈ d.entries, l (f e.2).found = .ok e.2) (hes : es.Perm d.entries) :
    dictionaryOf l (.obj (es.map fun e => (e.1, f e.2))) = .ok d := by
  have hfold : ∀ (es : List (String × α)) (done : Dictionary α), (∀ e ∈ es, l (f e.2).found = .ok e.2) →
      (es.map fun e => (e.1, f e.2)).foldlM (fun d m => do return d.insert m.1 (← l m.2.found)) done =
        (.ok (es.foldl (fun d e => d.insert e.1 e.2) done) : Except DataFault (Dictionary α)) := by
    intro es
    induction es with
    | nil => intro done _; rfl
    | cons e es ih =>
      intro done hes
      have he := hes e (List.mem_cons_self ..)
      simp only [List.map_cons, List.foldlM_cons, List.foldl_cons, he, bind, Except.bind, pure, Except.pure]
      exact ih _ fun e' he' => hes e' (List.mem_cons_of_mem _ he')
  exact (hfold _ _ fun e he => h e (hes.mem_iff.1 he)).trans (congrArg Except.ok (Dictionary.foldl_insert_of_perm hes))

/-- and as it was written, be they values in memory or tokens. -/
theorem dictionaryOf_json {l : Leaf α} {f : α → Value} (d : Dictionary α)
    (h : ∀ e ∈ d.entries, l (f e.2).found = .ok e.2) : dictionaryOf l (dictionaryJson f d) = .ok d :=
  dictionaryOf_perm h (.refl _)

theorem dictionaryReader_tokens {l : Leaf α} {f : α → Value} (hdepth : ∀ a, (f a).depth = 0) (d : Dictionary α)
    (h : ∀ e ∈ d.entries, l (f e.2).found = .ok e.2) {room : Nat} (hroom : 1 ≤ room) (rest : List Token) :
    dictionaryReader l room ((dictionaryJson f d).tokens ++ rest) = .ok (d, rest) := by
  obtain ⟨room, rfl⟩ : ∃ n, room = n + 1 := ⟨room - 1, by omega⟩
  have hgathers : ∀ (es : List (String × α)) (done : Dictionary α), (∀ e ∈ es, l (f e.2).found = .ok e.2) →
      Gathers (fun d k => .ok fun ts => do
          let x ← Reader.leaf l room ts
          return (d.insert k x.1, x.2))
        done (es.map fun e => (e.1, f e.2)) (es.foldl (fun d e => d.insert e.1 e.2) done) := by
    intro es
    induction es with
    | nil => intro done _; exact .nil done
    | cons e es ih =>
      intro done hes
      have he := Reader.leaf_tokens l (hdepth e.2) (hes e (List.mem_cons_self ..)) room
      exact .cons rfl (fun rest => by simp only [he]; rfl) (ih _ fun e' he' => hes e' (List.mem_cons_of_mem _ he'))
  have hmembers := Reader.members_gathers (hgathers d.entries .empty h) rest
  rw [Dictionary.foldl_insert_of_perm (.refl _)] at hmembers
  exact hmembers

end Json

/-! ## The fields of each kind -/

namespace Payload

open Json

theorem ofContent_fields (p : Payload) (h : ∀ x ∈ p.reals, x.isFinite = true) :
    ofContent p.kind (.obj p.fields) = .ok p := by
  cases p with
  | measurement p =>
    have hmap := dictionaryOf_json (l := Leaf.real) (f := realJson) p.measurements fun e he =>
      leaf_real (h e.2 (List.mem_map_of_mem he))
    rw [kind, ofContent, Record.ofValue_fields _ _ rfl (by decide)]
    simp only [fields, List.foldlM_cons, List.foldlM_nil, Measurement.put, hmap]
    rfl
  | location p =>
    have hlatitude := leaf_real (h p.latitude (by simp [reals]))
    have hlongitude := leaf_real (h p.longitude (by simp [reals]))
    have helevation := leaf_optional_real (o := p.elevation) fun x hx => h x (by simp [reals, Option.mem_def.1 hx])
    rw [kind, ofContent, Record.ofValue_fields _ _ rfl (by decide)]
    simp only [fields, List.foldlM_cons, List.foldlM_nil, Location.put, hlatitude, hlongitude, helevation]
    rfl
  | alert p =>
    rw [kind, ofContent, Record.ofValue_fields _ _ rfl (by decide)]
    simp only [fields, List.foldlM_cons, List.foldlM_nil, Alert.put, variant_alertSource, variant_alertLevel]
    rfl
  | commandInvocation p =>
    have hvalues := dictionaryOf_json (l := Leaf.string) (f := stringJson) p.parameterValues fun _ _ => rfl
    rw [kind, ofContent, Record.ofValue_fields _ _ rfl (by decide)]
    simp only [fields, List.foldlM_cons, List.foldlM_nil, CommandInvocation.put, variant_initiator, variant_target,
      leaf_optional_string, hvalues]
    rfl
  | commandResponse p =>
    rw [kind, ofContent, Record.ofValue_fields _ _ rfl (by decide)]
    simp only [fields, List.foldlM_cons, List.foldlM_nil, CommandResponse.put, leaf_uuid, leaf_optional_uuid,
      leaf_optional_string]
    rfl
  | stateChange p =>
    rw [kind, ofContent, Record.ofValue_fields _ _ rfl (by decide)]
    simp only [fields, List.foldlM_cons, List.foldlM_nil, StateChange.put, leaf_optional_string]
    rfl

/-! ## The kind among the fields -/

theorem gather_untagged (kind : Option EventKind) {ms : List Member} (hms : ∀ m ∈ ms, m.1 ≠ tag) (done : List Member) :
    ms.foldlM gather (kind, done) = .ok (kind, ms.reverse ++ done) := by
  induction ms generalizing done with
  | nil => rfl
  | cons m ms ih =>
    have hm : gather (kind, done) m = .ok (kind, m :: done) := if_neg (hms m (List.mem_cons_self ..))
    rw [List.foldlM_cons, hm, List.reverse_cons, List.append_assoc]
    exact ih (fun x hx => hms x (List.mem_cons_of_mem m hx)) (m :: done)

/-- The kind is met where it is put in, and the fields around it are kept in their order. -/
theorem gather_insertMember (k : EventKind) {ms : List Member} (hms : ∀ m ∈ ms, m.1 ≠ tag) (done : List Member) :
    (Value.insertMember tag (.str k.name) ms).foldlM gather (none, done) = .ok (some k, ms.reverse ++ done) := by
  have hkind : ∀ done, gather (none, done) (tag, .str k.name) = .ok (some k, done) := fun done => by
    show (do return (some (← variant EventKind.names k.name), done) : Except DataFault Gathered) = _
    rw [variant_kind]
    rfl
  induction ms generalizing done with
  | nil =>
    rw [Value.insertMember, List.foldlM_cons, hkind]
    rfl
  | cons m ms ih =>
    have hm : m.1 ≠ tag := hms m (List.mem_cons_self ..)
    rw [Value.insertMember, if_neg (Ne.symm hm)]
    split
    · rw [List.foldlM_cons, hkind]
      exact gather_untagged (some k) hms done
    · have hkept : gather (none, done) m = .ok (none, m :: done) := if_neg hm
      rw [List.foldlM_cons, hkept, List.reverse_cons, List.append_assoc]
      exact ih (fun x hx => hms x (List.mem_cons_of_mem m hx)) (m :: done)

/-- Once a kind is set among members, they are read as the fields of that kind. -/
theorem ofMembers_setMember (k : EventKind) (ms : List Member) :
    ofMembers (Value.setMember tag (.str k.name) ms) = ofContent k (.obj (ms.filter fun m => m.1 != tag)) := by
  have hms : ∀ m ∈ ms.filter fun m => m.1 != tag, m.1 ≠ tag := fun m hm => by
    simpa using (List.mem_filter.1 hm).2
  rw [ofMembers, Value.setMember, gather_insertMember k hms, List.append_nil]
  show ofContent k (.obj (ms.filter fun m => m.1 != tag).reverse.reverse) = _
  rw [List.reverse_reverse]

/-! ## The whole payload -/

theorem legible_real {x : Binary64} (hfinite : x.isFinite = true) (hx : x.ReadsBack) : (realJson x).Legible := by
  rw [realJson, if_pos hfinite]
  exact Value.legible_num (readsBack_of_finite hfinite hx)

theorem holds_dictionary {P : Number → Prop} {f : α → Value} {d : Dictionary α}
    (h : ∀ e ∈ d.entries, (f e.2).Holds P) : (dictionaryJson f d).Holds P := by
  refine Value.holds_obj fun m hm => ?_
  obtain ⟨e, he, rfl⟩ := List.mem_map.1 hm
  exact h e he

theorem legible_dictionary {f : α → Value} {d : Dictionary α} (h : ∀ e ∈ d.entries, (f e.2).Legible) :
    (dictionaryJson f d).Legible := holds_dictionary h

/-- The numbers in the fields are the doubles of the payload. -/
theorem holds_fields {P : Number → Prop} (p : Payload) (hreals : ∀ x ∈ p.reals, (realJson x).Holds P) :
    ∀ m ∈ p.fields, m.2.Holds P := by
  have hstring (o : Option String) : (Value.ofOption stringJson o).Holds P :=
    Value.holds_ofOption o fun s _ => Value.holds_str s
  have huuid (o : Option Uuid) : (Value.ofOption uuidJson o).Holds P :=
    Value.holds_ofOption o fun u _ => Value.holds_str u.text
  cases p with
  | measurement p =>
    have hmap : (dictionaryJson realJson p.measurements).Holds P :=
      holds_dictionary fun e he => hreals e.2 (List.mem_map_of_mem he)
    simpa [fields] using hmap
  | location p =>
    have hlatitude := hreals p.latitude (by simp [reals])
    have hlongitude := hreals p.longitude (by simp [reals])
    have helevation : (Value.ofOption realJson p.elevation).Holds P :=
      Value.holds_ofOption p.elevation fun x hx => hreals x (by simp [reals, Option.mem_def.1 hx])
    simp [fields, hlatitude, hlongitude, helevation]
  | alert p => simp [fields, Value.holds_str]
  | commandInvocation p =>
    have hvalues : (dictionaryJson stringJson p.parameterValues).Holds P :=
      holds_dictionary fun e _ => Value.holds_str e.2
    simp [fields, Value.holds_str, hstring, hvalues]
  | commandResponse p => simp [fields, hstring, huuid, uuidJson, Value.holds_str]
  | stateChange p => simp [fields, Value.holds_str, hstring]

theorem legible_fields (p : Payload) (hfinite : ∀ x ∈ p.reals, x.isFinite = true)
    (hback : ∀ x ∈ p.reals, x.ReadsBack) : ∀ m ∈ p.fields, m.2.Legible :=
  holds_fields p fun x hx => legible_real (hfinite x hx) (hback x hx)

theorem depth_real (x : Binary64) : (realJson x).depth = 0 := by
  unfold realJson
  split <;> rfl

theorem depth_ofOption {f : α → Value} (hf : ∀ a, (f a).depth = 0) (o : Option α) : (Value.ofOption f o).depth = 0 := by
  cases o with
  | none => rfl
  | some a => exact hf a

theorem depth_dictionary {f : α → Value} (hf : ∀ a, (f a).depth = 0) (d : Dictionary α) :
    (dictionaryJson f d).depth = 1 := by
  have hmembers : ∀ es : List (String × α), Value.membersDepth (es.map fun e => (e.1, f e.2)) = 0 := by
    intro es
    induction es with
    | nil => rfl
    | cons e es ih => rw [List.map_cons, Value.membersDepth, ih, hf]; rfl
  exact congrArg (· + 1) (hmembers d.entries)

theorem depth_fields (p : Payload) : Value.membersDepth p.fields ≤ 1 := by
  have hreals := depth_dictionary depth_real
  have hstrings := depth_dictionary (f := stringJson) fun _ => rfl
  have hstring := depth_ofOption (f := stringJson) fun _ => rfl
  have huuid := depth_ofOption (f := uuidJson) fun _ => rfl
  have hreal := depth_ofOption depth_real
  cases p <;>
    simp [fields, Value.membersDepth, Value.depth, uuidJson, hreals, hstrings, hstring, huuid, hreal, depth_real]

/-- The members behind the kind are kept as they stand. -/
theorem gathers_fields (k : EventKind) (room : Nat) {ms : List Member} (hnames : ∀ m ∈ ms, m.1 ≠ tag)
    (hdepth : Value.membersDepth ms ≤ room) (done : List Member) :
    Gathers (gatherMember room) (some k, done) ms (some k, ms.reverse ++ done) := by
  induction ms generalizing done with
  | nil => exact .nil _
  | cons m ms ih =>
    obtain ⟨name, v⟩ := m
    have hname : name ≠ tag := hnames _ (List.mem_cons_self ..)
    have hv := Value.read_tokens v (Nat.le_trans (Nat.le_max_left ..) hdepth)
    have hms := ih (fun m hm => hnames m (List.mem_cons_of_mem _ hm)) (Nat.le_trans (Nat.le_max_right ..) hdepth)
      ((name, v) :: done)
    rw [List.reverse_cons, List.append_assoc]
    exact .cons (by rw [gatherMember, if_neg hname]) (fun rest => by simp only [hv]; rfl) hms

theorem fields_names (p : Payload) : ∀ m ∈ p.fields, m.1 ≠ tag := by
  cases p <;> simp [fields, tag]

theorem reader_tokens (p : Payload) (hfinite : ∀ x ∈ p.reals, x.isFinite = true) {room : Nat}
    (hroom : 2 ≤ room) (rest : List Token) : reader room (p.toJson.tokens ++ rest) = .ok (p, rest) := by
  obtain ⟨room, rfl⟩ : ∃ n, room = n + 1 := ⟨room - 1, by omega⟩
  have hdepth : Value.membersDepth p.fields ≤ room := Nat.le_trans p.depth_fields (by omega)
  have hkind : ∀ rest, kindReader room ((Value.str p.kind.name).tokens ++ rest) = .ok (p.kind, rest) := by
    intro rest
    show (do return (← Reader.lift (variant EventKind.names p.kind.name), rest)) = _
    rw [variant_kind]
    rfl
  -- The kind is written first, and no field has its name.
  have hfields := gathers_fields p.kind room p.fields_names hdepth []
  have hmembers : Gathers (gatherMember room) (none, []) ((tag, .str p.kind.name) :: p.fields)
      (some p.kind, p.fields.reverse ++ []) :=
    .cons (by rw [gatherMember, if_pos rfl]; rfl) (fun rest => by simp only [hkind]; rfl) hfields
  have hopen : reader (room + 1) (p.toJson.tokens ++ rest) =
      objectReader room (Value.memberTokens ((tag, .str p.kind.name) :: p.fields) ++ rest) := rfl
  rw [hopen, objectReader]
  simp only [Reader.members_gathers hmembers, List.append_nil, List.reverse_reverse, Record.need, Reader.lift,
    ofContent_fields p hfinite, bind, Except.bind, pure, Except.pure]

/-- A payload whose doubles are finite and read back comes back from its text. -/
theorem parse_render (p : Payload) (hfinite : ∀ x ∈ p.reals, x.isFinite = true)
    (hback : ∀ x ∈ p.reals, x.ReadsBack) : parse p.toJson.render = .ok p := by
  have hlegible : p.toJson.Legible := by
    refine Value.legible_obj fun m hm => ?_
    rcases List.mem_cons.1 hm with rfl | hm
    · exact Value.legible_str _
    · exact p.legible_fields hfinite hback m hm
  exact Value.run_render hlegible fun rest => p.reader_tokens hfinite (by decide) rest

end Payload

/-! ## What devices send -/

namespace Envelope

open Json

/-- The members of a request that are not fields of the event. -/
def isReserved (name : String) : Bool := isTaken name || name == Payload.tag

/-- The fields are read as those of the kind that the envelope has, whatever kind the request gives itself. -/
theorem fieldsOf_eq (k : EventKind) (ms : List Member) :
    fieldsOf k ms = (Payload.ofContent k (.obj (ms.filter fun m => !isReserved m.1))).mapError
      fun f => .malformed (.invalidFields k f) := by
  have hfields : (ms.filter fun m => !isTaken m.1).filter (fun m => m.1 != Payload.tag) =
      ms.filter fun m => !isReserved m.1 := by
    rw [List.filter_filter]
    refine List.filter_congr fun m _ => ?_
    rw [isReserved, Bool.not_or, Bool.and_comm]
    rfl
  rw [fieldsOf, Payload.ofMembers_setMember, hfields]

theorem valueOf_text {text : String} {v : Value} (hv : Value.parse text = .ok v) :
    valueOf text.toUTF8 = .ok v.canonical := by
  have hutf8 : String.fromUTF8? text.toUTF8 = some text := dif_pos text.isValidUTF8
  unfold valueOf
  rw [hutf8]
  simp only [hv]

/-- Bytes that are the text of a value are decoded as the value, -/
theorem decode_text {text : String} {v : Value} (hv : Value.parse text = .ok v) (h : Hints) :
    decode text.toUTF8 h = (decodeValue h v.canonical).mapError fun f => ⟨f, text.toUTF8⟩ := by
  rw [decode, valueOf_text hv]
  rfl

/-- such as the text that is written for it. -/
theorem decode_render {v : Value} (hv : v.Legible) (hdepth : v.depth ≤ nestingLimit) (h : Hints) :
    decode v.render.toUTF8 h = (decodeValue h v.canonical).mapError fun f => ⟨f, v.render.toUTF8⟩ :=
  decode_text (Value.parse_render hv hdepth) h

end Envelope
end DeviceEvents
