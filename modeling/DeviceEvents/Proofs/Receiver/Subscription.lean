import DeviceEvents.Simulation.Feed
import DeviceEvents.Proofs.Text.Trimming
/-
  DeviceEvents.Proofs.Receiver.Subscription — which messages of its subscription the receiver of a tenant takes.

  Actors. The broker delivers what is published one level below the tenant, and possibly other things.
  The receiver reads tenant and device token from the topic, on either side of its first slash and without
  the blanks around them, and takes the message if the tenant is its own.

  Proved: `accept?_eq_some`, what is taken, and with which hints. A tenant whose name is not changed by
  this reading has all messages below it taken, each one once, and no others, blanks aside (`taken_exact`).
  Any other tenant subscribes as well, but has nothing taken at all: one with blanks at its edges, for they
  are only taken from the topic, and one with a slash, for the topic is cut at the first one
  (`below_passed_over`).
-/

namespace DeviceEvents

open Text (trim trim_eq_empty allBlank)

/-! ## Reading a topic -/

namespace Topic

variable {around level text : String} {t : Topic}

theorem toList_around (around level : String) :
    (around ++ "/" ++ level).toList = around.toList ++ '/' :: level.toList := by
  rw [String.toList_append, String.toList_append, List.append_assoc]
  rfl

theorem parse_split (h : '/' ∉ around.toList) : parse (around ++ "/" ++ level) =
    if (trim around).isEmpty then .error (.invalidEventRequest "tenant id cannot be empty in topic")
    else if (trim level).isEmpty || (trim level).toList.contains '/' then
      .error (.invalidEventRequest ("invalid device token in topic '" ++ (around ++ "/" ++ level) ++ "'"))
    else .ok ⟨trim around, trim level⟩ := by
  have hpast : ∀ c ∈ around.toList, (c != '/') = true := fun c hc => bne_iff_ne.2 fun he => h (he ▸ hc)
  have hfront : (around.toList ++ '/' :: level.toList).takeWhile (· != '/') = around.toList := by
    rw [List.takeWhile_append_of_pos hpast]
    exact List.append_nil _
  have hback : (around.toList ++ '/' :: level.toList).dropWhile (· != '/') = '/' :: level.toList := by
    rw [List.dropWhile_append_of_pos hpast]
    rfl
  simp only [parse, toList_around, hfront, hback, String.ofList_toList]

theorem parse_flat (h : '/' ∉ text.toList) : parse text =
    .error (.invalidEventRequest ("invalid topic '" ++ text ++ "': expected '\x7btenant_id\x7d/\x7bdevice_token\x7d'")) := by
  have hnil : text.toList.dropWhile (· != '/') = [] :=
    List.dropWhile_eq_nil_iff.2 fun c hc => bne_iff_ne.2 fun he => h (he ▸ hc)
  simp only [parse, hnil]

/-- A text with a slash is what stands around the first one. -/
theorem exists_split (h : '/' ∈ text.toList) : ∃ around level, text = around ++ "/" ++ level ∧ '/' ∉ around.toList := by
  obtain ⟨as, bs, hcs, has⟩ := List.eq_append_cons_of_mem h
  refine ⟨.ofList as, .ofList bs, String.toList_inj.1 ?_, by rwa [String.toList_ofList]⟩
  rw [hcs, toList_around, String.toList_ofList, String.toList_ofList]

theorem parse_eq_ok : parse text = .ok t ↔ ∃ around level, text = around ++ "/" ++ level ∧ '/' ∉ around.toList ∧
    '/' ∉ level.toList ∧ trim around ≠ "" ∧ trim level ≠ "" ∧ t = ⟨trim around, trim level⟩ := by
  have slash : ∀ level : String, (trim level).toList.contains '/' = true ↔ '/' ∈ level.toList := fun level => by
    rw [List.contains_iff_mem, Text.mem_trim (by decide)]
  constructor
  · intro h
    by_cases hs : '/' ∈ text.toList
    · obtain ⟨around, level, rfl, ha⟩ := exists_split hs
      rw [parse_split ha] at h
      split at h
      · cases h
      · rename_i htenant
        split at h
        · cases h
        · rename_i htoken
          rw [Bool.or_eq_true, not_or, slash, String.isEmpty_iff] at htoken
          rw [String.isEmpty_iff] at htenant
          exact ⟨around, level, rfl, ha, htoken.2, htenant, htoken.1, (Except.ok.inj h).symm⟩
    · rw [parse_flat hs] at h
      cases h
  · rintro ⟨around, level, rfl, ha, hl, htenant, htoken, rfl⟩
    rw [parse_split ha, if_neg (mt String.isEmpty_iff.1 htenant), if_neg]
    rw [Bool.or_eq_true, not_or, slash, String.isEmpty_iff]
    exact ⟨htoken, hl⟩

end Topic

/-! ## Taking a message -/

namespace MqttSettings

variable {s : MqttSettings} {topic : String} {payload : ByteArray} {x : Inbound}

theorem accept?_eq_some : s.accept? topic payload = some x ↔ ∃ around level, topic = around ++ "/" ++ level ∧
    '/' ∉ around.toList ∧ '/' ∉ level.toList ∧ s.tenant ≠ "" ∧ trim around = s.tenant ∧ trim level ≠ "" ∧
    x = ⟨payload, hints topic ⟨s.tenant, trim level⟩⟩ := by
  unfold accept?
  constructor
  · intro h
    cases hp : Topic.parse topic with
    | error e =>
      rw [hp] at h
      cases h
    | ok t =>
      obtain ⟨around, level, htopic, ha, hl, htenant, htoken, rfl⟩ := Topic.parse_eq_ok.1 hp
      simp only [hp] at h
      split at h
      · rename_i he
        rw [he] at htenant h
        exact ⟨around, level, htopic, ha, hl, htenant, he, htoken, (Option.some.inj h).symm⟩
      · cases h
  · rintro ⟨around, level, htopic, ha, hl, htenant, he, htoken, rfl⟩
    have hp : Topic.parse topic = .ok ⟨s.tenant, trim level⟩ :=
      Topic.parse_eq_ok.2 ⟨around, level, htopic, ha, hl, he ▸ htenant, htoken, by rw [he]⟩
    simp only [hp, if_true]

theorem get?_hints (topic : String) (t : Topic) :
    (hints topic t).get? topicHint = some (.str topic) ∧
      (hints topic t).get? Envelope.deviceTokenHint = some (.str t.deviceToken) := by
  constructor
  · rw [hints, Dictionary.get?_insert, if_neg (by decide), Dictionary.get?_insert, if_pos rfl]
  · rw [hints, Dictionary.get?_insert, if_pos rfl]

/-- Reading a topic finds this tenant just as it is written. -/
def Plain (tenant : String) : Prop := tenant ≠ "" ∧ trim tenant = tenant ∧ '/' ∉ tenant.toList

instance (tenant : String) : Decidable (Plain tenant) := inferInstanceAs (Decidable (_ ∧ _ ∧ _))

theorem plain_of_accept? (h : s.accept? topic payload = some x) : Plain s.tenant := by
  obtain ⟨around, level, -, ha, -, hne, htenant, -, -⟩ := accept?_eq_some.1 h
  refine ⟨hne, by rw [← htenant, Text.trim_trim], ?_⟩
  rw [← htenant, Text.mem_trim (by decide)]
  exact ha

theorem accept?_of_not_plain (hs : ¬Plain s.tenant) (topic : String) (payload : ByteArray) :
    s.accept? topic payload = none :=
  Option.eq_none_iff_forall_ne_some.2 fun _ hx => hs (plain_of_accept? hx)

theorem accept?_below {level : String} (hs : Plain s.tenant) (hl : '/' ∉ level.toList) (hb : allBlank level = false) :
    s.accept? (s.tenant ++ "/" ++ level) payload =
      some ⟨payload, hints (s.tenant ++ "/" ++ level) ⟨s.tenant, trim level⟩⟩ := by
  refine accept?_eq_some.2 ⟨s.tenant, level, rfl, hs.2.2, hl, hs.1, hs.2.1, fun he => ?_, rfl⟩
  rw [trim_eq_empty.1 he] at hb
  cases hb

end MqttSettings

namespace Simulation.Feed

open MqttSettings (topicHint Plain accept?_eq_some accept?_below accept?_of_not_plain get?_hints)

theorem log_receive (source : String) (x : Inbound) (f : Feed) :
    (receive source x f).2.log = f.log ++ [.received source x] := by
  obtain ⟨clock, outcomes, creations, batches, pending, log⟩ := f
  cases outcomes with
  | nil => rfl
  | cons o outcomes => rfl

theorem log_receiveMqtt (s : MqttSettings) (topic : String) (payload : ByteArray) (f : Feed) :
    (receiveMqtt s topic payload f).2.log = f.log ++ (s.accept? topic payload).toList.map (.received s.source) := by
  unfold receiveMqtt
  cases s.accept? topic payload with
  | none => exact (List.append_nil _).symm
  | some x => exact log_receive s.source x f

theorem log_of_not_plain {s : MqttSettings} (hs : ¬Plain s.tenant) (topic : String) (payload : ByteArray) (f : Feed) :
    (receiveMqtt s topic payload f).2.log = f.log := by
  rw [log_receiveMqtt, accept?_of_not_plain hs]
  exact List.append_nil _

/-- Whatever the tenant, the topic and the payload: a tenant that is read as it is written has every message
on a level below it handed over once, with the topic and the trimmed level for hints; what is handed
over is, but for blanks, on a level below the tenant; and any other tenant has nothing handed over,
what is published below it included. -/
theorem taken_exact (s : MqttSettings) (topic : String) (payload : ByteArray) (f : Feed) :
    ∃ handed : List Inbound, (receiveMqtt s topic payload f).2.log = f.log ++ handed.map (.received s.source) ∧
      (∀ level, topic = s.tenant ++ "/" ++ level → '/' ∉ level.toList → allBlank level = false → Plain s.tenant →
        ∃ x, handed = [x] ∧ x.payload = payload ∧ x.hints.get? topicHint = some (.str topic) ∧
          x.hints.get? Envelope.deviceTokenHint = some (.str (trim level))) ∧
      (handed ≠ [] → ∃ around level, topic = around ++ "/" ++ level ∧ trim around = s.tenant ∧
        '/' ∉ level.toList ∧ allBlank level = false) ∧
      (¬Plain s.tenant → handed = []) := by
  refine ⟨(s.accept? topic payload).toList, log_receiveMqtt s topic payload f, ?_, fun hne => ?_, fun hp => ?_⟩
  · rintro level rfl hl hb hp
    rw [accept?_below hp hl hb]
    exact ⟨_, rfl, rfl, get?_hints _ _⟩
  · cases hx : s.accept? topic payload with
    | none =>
      rw [hx] at hne
      exact absurd rfl hne
    | some x =>
      obtain ⟨around, level, htopic, -, hl, -, htenant, htoken, -⟩ := accept?_eq_some.1 hx
      exact ⟨around, level, htopic, htenant, hl, Bool.not_eq_true _ ▸ mt trim_eq_empty.2 htoken⟩
  · rw [accept?_of_not_plain hp]
    rfl

def sampleReceiverOf (tenant : String) : MqttSettings := ⟨"localhost", "gateway", tenant, 3, 5000⟩

/-- Tenants that subscribe to what is published below them, but have none of it taken: one has a slash in its
name, the other one a blank in front. -/
theorem below_passed_over :
    (sampleReceiverOf "acme/eu").subscription = "acme/eu/+" ∧
      (receiveMqtt (sampleReceiverOf "acme/eu") "acme/eu/truck-17" .empty (.start ⟨0, none⟩ [])).2.log = [] ∧
      (sampleReceiverOf " acme").subscription = " acme/+" ∧
      (receiveMqtt (sampleReceiverOf " acme") " acme/truck-17" .empty (.start ⟨0, none⟩ [])).2.log = [] := by
  have hslash : ¬Plain "acme/eu" := by decide +kernel
  have hblank : ¬Plain " acme" := by decide +kernel
  exact ⟨rfl, log_of_not_plain hslash _ _ _, rfl, log_of_not_plain hblank _ _ _⟩

end Simulation.Feed

end DeviceEvents
