import DeviceEvents.Ingest.Intake
/-
  DeviceEvents.Proofs.Ingest.Inflow — payloads on their way side by side, and what is counted of them.

  Actors. Transports bring payloads at any time, and each is a delivery of its own (`arrive`).
  Whoever is asked by a delivery answers it in any way and at any time (`answer`), so answers to
  different deliveries come in any order; one that nobody waits for has no effect. All
  deliveries count with the same counters. `heard` is history that no step looks at.

  Proved: nothing decoded goes unaccounted (`nothing_unaccounted`), in whatever state the deliveries are.
-/

namespace DeviceEvents

/-! ## Answers -/

/-- What a delivery may be told. -/
inductive Answer where
  | decoded (result : Except Undecoded (List Request))
  | reported
  | judged (verdict : Except Refusal Bool)
  | handled (result : Except Refusal Unit)
  | released

def Answer.decoded? : Answer → Option (Except Undecoded (List Request))
  | .decoded result => some result
  | _ => none

/-- What an answer makes of the request at hand. -/
def Answer.fate? : Answer → Option Fate
  | .judged (.ok true) => some .duplicate
  | .judged (.error _) => some .unjudged
  | .handled (.ok ()) => some .forwarded
  | .handled (.error e) => some (if e.isTransient then .retryable else .rejected)
  | _ => none

/-! ## Sums -/

/-- The requests that have a fate. -/
def Outcome.settled (o : Outcome) : Nat := o.duplicates + o.forwarded + o.dropped + o.retryable

theorem Outcome.settled_add (o : Outcome) (f : Fate) : (o.add f).settled = o.settled + 1 := by
  cases f <;> simp only [add, settled] <;> omega

theorem Outcome.decoded_add (o : Outcome) (f : Fate) : (o.add f).decoded = o.decoded := by
  cases f <;> rfl

namespace Stage

def awaits : Stage → Answer → Bool
  | .decoding, .decoded _ | .reporting _, .reported | .judging _ _, .judged _ | .handling _ _, .handled _
  | .releasing _ _, .released => true
  | _, _ => false

def reporting? : Stage → Option Undecoded
  | .reporting u => some u
  | _ => none

def judging? : Stage → Option Request
  | .judging r _ => some r
  | _ => none

def handling? : Stage → Option Request
  | .handling r _ => some r
  | _ => none

def releasing? : Stage → Option Request
  | .releasing r _ => some r
  | _ => none

/-- The requests that nobody has been asked about yet. -/
def ahead : Stage → List Request
  | .judging _ rest | .handling _ rest | .releasing _ rest => rest
  | _ => []

/-- A stage of a payload that is decoded. -/
def isOf (deduplicates : Bool) : Stage → Bool
  | .decoding | .reporting _ => false
  | .judging _ _ | .releasing _ _ => deduplicates
  | .handling _ _ | .finished => true

end Stage

namespace Delivery

def answered (d : Delivery) (c : Counters) : Answer → Delivery × Counters
  | .decoded result => d.decoded c result
  | .reported => (d.reported, c)
  | .judged verdict => d.judged c verdict
  | .handled result => d.handled c result
  | .released => (d.released, c)

/-- Everything that an answer can do. -/
inductive Goes (d : Delivery) (c : Counters) : Answer → Delivery × Counters → Prop
  | undecoded (u : Undecoded) : d.stage = .decoding →
      Goes d c (.decoded (.error u))
        ({ d with outcome := { d.outcome with decodeFailed := true }, stage := .reporting u }, c.addFailedDecode)
  | decoded (rs : List Request) : d.stage = .decoding →
      Goes d c (.decoded (.ok rs))
        ({ d with outcome := { d.outcome with decoded := rs.length } }.turnTo rs, c.addDecoded rs.length)
  | reported (u : Undecoded) : d.stage = .reporting u → Goes d c .reported ({ d with stage := .finished }, c)
  | new (r : Request) (rest : List Request) : d.stage = .judging r rest →
      Goes d c (.judged (.ok false)) ({ d with stage := .handling r rest }, c)
  | notNew (r : Request) (rest : List Request) (verdict : Except Refusal Bool) (f : Fate) : d.stage = .judging r rest →
      (Answer.judged verdict).fate? = some f → Goes d c (.judged verdict) (d.past f rest, c.add f)
  | handled (r : Request) (rest : List Request) (result : Except Refusal Unit) (f : Fate) : d.stage = .handling r rest →
      (Answer.handled result).fate? = some f → (d.deduplicates = true → f ≠ .retryable) →
      Goes d c (.handled result) (d.past f rest, c.add f)
  | releasing (r : Request) (rest : List Request) (result : Except Refusal Unit) : d.stage = .handling r rest →
      (Answer.handled result).fate? = some .retryable → d.deduplicates = true →
      Goes d c (.handled result)
        ({ d with outcome := d.outcome.add .retryable, stage := .releasing r rest }, c.add .retryable)
  | released (r : Request) (rest : List Request) : d.stage = .releasing r rest → Goes d c .released (d.turnTo rest, c)

theorem decoded_goes {d : Delivery} (c : Counters) (result : Except Undecoded (List Request)) (h : d.stage = .decoding) :
    d.Goes c (.decoded result) (d.decoded c result) := by
  cases result with
  | error u => exact .undecoded u h
  | ok rs => exact .decoded rs h

theorem judged_goes {d : Delivery} {r : Request} {rest : List Request} (c : Counters) (verdict : Except Refusal Bool)
    (h : d.stage = .judging r rest) : d.Goes c (.judged verdict) (d.judged c verdict) := by
  cases verdict with
  | error e =>
    rw [judged_error c h]
    exact .notNew r rest _ _ h rfl
  | ok seen =>
    cases seen with
    | false =>
      rw [judged_new c h]
      exact .new r rest h
    | true =>
      rw [judged_seen c h]
      exact .notNew r rest _ _ h rfl

theorem handled_goes {d : Delivery} {r : Request} {rest : List Request} (c : Counters) (result : Except Refusal Unit)
    (h : d.stage = .handling r rest) : d.Goes c (.handled result) (d.handled c result) := by
  cases result with
  | ok _ =>
    rw [handled_ok c h]
    exact .handled r rest _ _ h rfl fun _ => nofun
  | error e =>
    cases he : e.isTransient with
    | false =>
      have hf : (Answer.handled (.error e)).fate? = some .rejected := by simp [Answer.fate?, he]
      rw [handled_rejected c h he]
      exact .handled r rest _ _ h hf fun _ => nofun
    | true =>
      have hf : (Answer.handled (.error e)).fate? = some .retryable := by simp [Answer.fate?, he]
      rw [handled_transient c h he]
      by_cases hd : d.deduplicates = true
      · rw [if_pos hd]
        exact .releasing r rest _ h hf hd
      · rw [if_neg hd]
        exact .handled r rest _ _ h hf fun ht => absurd ht hd

theorem answered_goes {d : Delivery} {a : Answer} (c : Counters) (h : d.stage.awaits a = true) :
    d.Goes c a (d.answered c a) := by
  cases hs : d.stage <;> cases a <;> rw [hs] at h <;> cases h
  case decoding.decoded result => exact decoded_goes c result hs
  case reporting.reported u => exact .reported u hs
  case judging.judged r rest verdict => exact judged_goes c verdict hs
  case handling.handled r rest result => exact handled_goes c result hs
  case releasing.released r rest =>
    rw [answered, released_eq hs]
    exact .released r rest hs

/-! Where a delivery turns next. -/

section

variable (d : Delivery) (f : Fate) (rs : List Request)

theorem stage_turnTo_cons (r : Request) :
    (d.turnTo (r :: rs)).stage = if d.deduplicates then .judging r rs else .handling r rs := rfl

theorem stage_past : (d.past f rs).stage = (d.turnTo rs).stage := by
  cases rs <;> rfl

theorem judging?_turnTo : (d.turnTo rs).stage.judging? = if d.deduplicates then rs.head? else none := by
  cases rs with
  | nil => exact (ite_self none).symm
  | cons r rest =>
    rw [stage_turnTo_cons]
    cases d.deduplicates <;> rfl

theorem handling?_turnTo : (d.turnTo rs).stage.handling? = if d.deduplicates then none else rs.head? := by
  cases rs with
  | nil => exact (ite_self none).symm
  | cons r rest =>
    rw [stage_turnTo_cons]
    cases d.deduplicates <;> rfl

theorem releasing?_turnTo : (d.turnTo rs).stage.releasing? = none := by
  cases rs with
  | nil => rfl
  | cons r rest =>
    rw [stage_turnTo_cons]
    cases d.deduplicates <;> rfl

theorem reporting?_turnTo : (d.turnTo rs).stage.reporting? = none := by
  cases rs with
  | nil => rfl
  | cons r rest =>
    rw [stage_turnTo_cons]
    cases d.deduplicates <;> rfl

theorem ahead_turnTo : (d.turnTo rs).stage.ahead = rs.tail := by
  cases rs with
  | nil => rfl
  | cons r rest =>
    rw [stage_turnTo_cons]
    cases d.deduplicates <;> rfl

theorem isOf_turnTo : (d.turnTo rs).stage.isOf d.deduplicates = true := by
  cases rs with
  | nil => rfl
  | cons r rest =>
    rw [stage_turnTo_cons]
    cases d.deduplicates <;> rfl

end

end Delivery

/-! ## One payload -/

/-- What a delivery was told, and where it was then. -/
structure Heard where
  stage : Stage
  answer : Answer

namespace Heard

/-- A request that the deduplicator has called new. -/
def new? : Heard → Option Request
  | ⟨.judging r _, .judged (.ok false)⟩ => some r
  | _ => none

/-- A request that the handler may take another time. -/
def retryable? (h : Heard) : Option Request :=
  if h.answer.fate? = some .retryable then h.stage.handling? else none

theorem judging?_of_new? {h : Heard} {r : Request} (hr : h.new? = some r) : h.stage.judging? = some r := by
  obtain ⟨stage, answer⟩ := h
  cases stage with
  | judging q rest =>
    unfold new? at hr
    split at hr
    · rename_i he
      cases he
      exact hr
    · cases hr
  | decoding | reporting u | handling q rest | releasing q rest | finished => exact nomatch hr

end Heard

/-- A payload that has come. -/
structure Arrival where
  source : String
  inbound : Inbound
  delivery : Delivery
  /-- The latest last. -/
  heard : List Heard

/-- What a handler is called with. -/
inductive HandlerCall where
  | handle (source : String) (x : Inbound) (r : Request)
  | report (source : String) (x : Inbound) (u : Undecoded)

def HandlerCall.of? (source : String) (x : Inbound) : Stage → Option HandlerCall
  | .handling r _ => some (.handle source x r)
  | .reporting u => some (.report source x u)
  | _ => none

namespace Arrival

def outcome (a : Arrival) : Outcome := a.delivery.outcome

/-- What it decodes to, once it has been decoded. -/
def decoded? (a : Arrival) : Option (Except Undecoded (List Request)) :=
  a.heard.findSome? (·.answer.decoded?)

def isDecoded (a : Arrival) : Bool :=
  match a.decoded? with
  | some (.ok _) => true
  | _ => false

/-- All it has asked for: what it was answered, and what it waits for. -/
def asked (a : Arrival) : List Stage := a.heard.map (·.stage) ++ [a.delivery.stage]

/-- The requests that the deduplicator was asked to judge. -/
def judged (a : Arrival) : List Request := a.asked.filterMap Stage.judging?

/-- The requests that the handler was given. -/
def handed (a : Arrival) : List Request := a.asked.filterMap Stage.handling?

/-- The requests that the deduplicator was asked to forget. -/
def released (a : Arrival) : List Request := a.asked.filterMap Stage.releasing?

/-- Every call of the handler. -/
def calls (a : Arrival) : List HandlerCall := a.asked.filterMap (HandlerCall.of? a.source a.inbound)

/-- What has become of its requests. -/
def fates (a : Arrival) : List Fate := a.heard.filterMap (·.answer.fate?)

/-- With one more answer, and what it does. -/
def told (a : Arrival) (answer : Answer) (d : Delivery) : Arrival :=
  { a with delivery := d, heard := a.heard ++ [⟨a.delivery.stage, answer⟩] }

/-- The books of a payload that is decoded: every request has at most one fate, and was asked about
once at most, in their order. -/
structure Taken (deduplicates : Bool) (rs : List Request) (a : Arrival) : Prop where
  judges : a.delivery.deduplicates = deduplicates
  stage : a.delivery.stage.isOf deduplicates = true
  outcome : a.outcome = a.fates.foldl Outcome.add { decoded := rs.length }
  settled : a.fates.length + a.delivery.unsettled.length = rs.length
  calls : a.calls = a.handed.map (.handle a.source a.inbound)
  /-- The deduplicator is asked about every request, and the handler about every new one. -/
  judged : deduplicates = true → a.judged ++ a.delivery.stage.ahead = rs ∧ a.handed = a.heard.filterMap Heard.new?
  /-- Without a deduplicator all are new. -/
  handed : deduplicates = false → a.handed ++ a.delivery.stage.ahead = rs
  released : a.released = if deduplicates then a.heard.filterMap Heard.retryable? else []

/-- The books of a payload. -/
inductive Kept (deduplicates : Bool) (a : Arrival) : Prop
  | fresh : a.heard = [] → a.delivery = .start deduplicates → Kept deduplicates a
  | undecoded (u : Undecoded) : a.decoded? = some (.error u) → a.outcome = { decodeFailed := true } →
      (a.delivery.stage = .reporting u ∨ a.delivery.stage = .finished) → a.calls = [.report a.source a.inbound u] →
      Kept deduplicates a
  | taken (rs : List Request) : a.decoded? = some (.ok rs) → a.Taken deduplicates rs → Kept deduplicates a

section

variable {deduplicates : Bool} {rs : List Request} {a : Arrival} {answer : Answer} {d' : Delivery} {c c' : Counters}

theorem decoded?_told_of_some {x : Except Undecoded (List Request)} (h : a.decoded? = some x) :
    (a.told answer d').decoded? = some x := by
  rw [decoded?, told, List.findSome?_append, show a.heard.findSome? _ = some x from h, Option.some_or]

theorem asked_told {β : Type} (f : Stage → Option β) :
    (a.told answer d').asked.filterMap f = a.asked.filterMap f ++ (f d'.stage).toList := by
  have h : (a.told answer d').asked = a.asked ++ [d'.stage] := by simp [asked, told]
  rw [h, List.filterMap_append]
  cases hf : f d'.stage <;> simp [hf]

theorem heard_told {β : Type} (f : Heard → Option β) :
    (a.told answer d').heard.filterMap f = a.heard.filterMap f ++ (f ⟨a.delivery.stage, answer⟩).toList := by
  rw [told, List.filterMap_append]
  cases hf : f ⟨a.delivery.stage, answer⟩ <;> simp [hf]

theorem fates_told : (a.told answer d').fates = a.fates ++ answer.fate?.toList := heard_told fun h => h.answer.fate?

theorem HandlerCall.of?_eq {source : String} {x : Inbound} {stage : Stage} (h : stage.isOf deduplicates = true) :
    HandlerCall.of? source x stage = stage.handling?.map (.handle source x) := by
  cases stage with
  | decoding | reporting u => exact nomatch h
  | judging r rest | handling r rest | releasing r rest | finished => rfl

/-- What an answer does to a delivery is enough to keep the books. -/
theorem Taken.told (h : a.Taken deduplicates rs) (hjudges : d'.deduplicates = deduplicates)
    (hstage : d'.stage.isOf deduplicates = true)
    (houtcome : d'.outcome = answer.fate?.toList.foldl Outcome.add a.outcome)
    (hsettled : answer.fate?.toList.length + d'.unsettled.length = a.delivery.unsettled.length)
    (hjudged : deduplicates = true → d'.stage.judging?.toList ++ d'.stage.ahead = a.delivery.stage.ahead ∧
      d'.stage.handling? = Heard.new? ⟨a.delivery.stage, answer⟩)
    (hhanded : deduplicates = false → d'.stage.handling?.toList ++ d'.stage.ahead = a.delivery.stage.ahead)
    (hreleased : d'.stage.releasing? = if deduplicates then Heard.retryable? ⟨a.delivery.stage, answer⟩ else none) :
    (a.told answer d').Taken deduplicates rs where
  judges := hjudges
  stage := hstage
  outcome := by
    rw [fates_told, List.foldl_append, ← h.outcome]
    exact houtcome
  settled := by
    have hs := h.settled
    rw [fates_told, List.length_append]
    show _ + d'.unsettled.length = _
    omega
  calls := by
    rw [Arrival.calls, asked_told, Arrival.handed, asked_told, List.map_append]
    have hc : a.asked.filterMap (HandlerCall.of? a.source a.inbound) = _ := h.calls
    show a.asked.filterMap (HandlerCall.of? a.source a.inbound) ++ (HandlerCall.of? a.source a.inbound _).toList = _
    rw [hc, HandlerCall.of?_eq hstage, Option.toList_map]
    rfl
  judged hd := by
    obtain ⟨hj, hn⟩ := h.judged hd
    obtain ⟨hj', hn'⟩ := hjudged hd
    constructor
    · rw [Arrival.judged, asked_told, List.append_assoc]
      show _ ++ (_ ++ d'.stage.ahead) = _
      rw [hj']
      exact hj
    · rw [heard_told, ← hn, Arrival.handed, asked_told, hn']
      rfl
  handed hd := by
    rw [Arrival.handed, asked_told, List.append_assoc]
    show _ ++ (_ ++ d'.stage.ahead) = _
    rw [hhanded hd]
    exact h.handed hd
  released := by
    have hr : a.asked.filterMap Stage.releasing? = _ := h.released
    rw [Arrival.released, asked_told, hr, hreleased, heard_told]
    cases deduplicates <;> rfl

/-- The rest comes next. -/
theorem Taken.turned (h : a.Taken deduplicates rs) {d : Delivery} {rest : List Request}
    (hjudges : d.deduplicates = deduplicates) (houtcome : d.outcome = answer.fate?.toList.foldl Outcome.add a.outcome)
    (hsettled : answer.fate?.toList.length + rest.length = a.delivery.unsettled.length)
    (hahead : a.delivery.stage.ahead = rest) (hnew : Heard.new? ⟨a.delivery.stage, answer⟩ = none)
    (hretryable : deduplicates = true → Heard.retryable? ⟨a.delivery.stage, answer⟩ = none) :
    (a.told answer (d.turnTo rest)).Taken deduplicates rs := by
  subst hjudges
  have hrest : rest.head?.toList ++ rest.tail = rest := by cases rest <;> rfl
  refine h.told (Delivery.deduplicates_turnTo d rest) (Delivery.isOf_turnTo d rest) ?_ ?_ (fun hd => ⟨?_, ?_⟩) (fun hd => ?_) ?_
  · rw [Delivery.outcome_turnTo, houtcome]
  · rw [Delivery.unsettled_turnTo, hsettled]
  · rw [Delivery.judging?_turnTo, if_pos hd, Delivery.ahead_turnTo, hrest, hahead]
  · rw [Delivery.handling?_turnTo, if_pos hd, hnew]
  · rw [Delivery.handling?_turnTo, hd, if_neg nofun, Delivery.ahead_turnTo, hrest, hahead]
  · rw [Delivery.releasing?_turnTo]
    split
    · rename_i hd
      exact (hretryable hd).symm
    · rfl

/-- A request is in hand only when the payload is decoded. -/
theorem Kept.taken_of (h : a.Kept deduplicates) {r : Request} {rest : List Request}
    (hs : a.delivery.stage = .judging r rest ∨ a.delivery.stage = .handling r rest ∨ a.delivery.stage = .releasing r rest) :
    ∃ rs, a.decoded? = some (.ok rs) ∧ a.Taken deduplicates rs := by
  cases h with
  | fresh _ hd =>
    rw [hd] at hs
    rcases hs with hs | hs | hs <;> cases hs
  | undecoded u _ _ hu _ =>
    rcases hu with hu | hu <;> rw [hu] at hs <;> rcases hs with hs | hs | hs <;> cases hs
  | taken rs hrs ht => exact ⟨rs, hrs, ht⟩

theorem Kept.fresh_of (h : a.Kept deduplicates) (hs : a.delivery.stage = .decoding) :
    a.heard = [] ∧ a.delivery = .start deduplicates := by
  cases h with
  | fresh hh hd => exact ⟨hh, hd⟩
  | undecoded u _ _ hu _ => rcases hu with hu | hu <;> cases hs.symm.trans hu
  | taken rs _ ht =>
    have := ht.stage
    rw [hs] at this
    cases this

theorem taken_decoded (hh : a.heard = []) (hd : a.delivery = .start deduplicates) (rs : List Request) :
    (a.told (.decoded (.ok rs))
      ({ a.delivery with outcome := { a.delivery.outcome with decoded := rs.length } }.turnTo rs)).Taken deduplicates rs := by
  let d : Delivery := { a.delivery with outcome := { a.delivery.outcome with decoded := rs.length } }
  have hded : d.deduplicates = deduplicates := congrArg Delivery.deduplicates hd
  have hrest : rs.head?.toList ++ rs.tail = rs := by cases rs <;> rfl
  have hasked : ∀ {β : Type} (f : Stage → Option β), f .decoding = none →
      (a.told (.decoded (.ok rs)) (d.turnTo rs)).asked.filterMap f = (f (d.turnTo rs).stage).toList := by
    intro β f hf
    rw [asked_told, asked, hh, hd]
    simp [Delivery.start, hf]
  have hheard : ∀ {β : Type} (f : Heard → Option β), f ⟨.decoding, .decoded (.ok rs)⟩ = none →
      (a.told (.decoded (.ok rs)) (d.turnTo rs)).heard.filterMap f = [] := by
    intro β f hf
    rw [heard_told, hh, hd]
    simp [Delivery.start, hf]
  have hstage : (d.turnTo rs).stage.isOf deduplicates = true := hded ▸ Delivery.isOf_turnTo d rs
  refine ⟨(Delivery.deduplicates_turnTo d rs).trans hded, hstage, ?_, ?_, ?_, fun h => ⟨?_, ?_⟩, fun h => ?_, ?_⟩
  · rw [fates, hheard _ rfl]
    show (d.turnTo rs).outcome = _
    rw [Delivery.outcome_turnTo]
    simp [d, hd, Delivery.start]
  · rw [fates, hheard _ rfl]
    show 0 + (d.turnTo rs).unsettled.length = _
    rw [Delivery.unsettled_turnTo, Nat.zero_add]
  · rw [calls, hasked _ rfl, handed, hasked _ rfl, HandlerCall.of?_eq hstage, Option.toList_map]
  · rw [judged, hasked _ rfl, Delivery.judging?_turnTo, hded, if_pos h]
    show _ ++ (d.turnTo rs).stage.ahead = _
    rw [Delivery.ahead_turnTo, hrest]
  · rw [hheard _ rfl, handed, hasked _ rfl, Delivery.handling?_turnTo, hded, if_pos h]
    rfl
  · rw [handed, hasked _ rfl, Delivery.handling?_turnTo, hded, h, if_neg nofun]
    show _ ++ (d.turnTo rs).stage.ahead = _
    rw [Delivery.ahead_turnTo, hrest]
  · rw [released, hasked _ rfl, hheard _ rfl, Delivery.releasing?_turnTo, ite_self]
    rfl

theorem kept_told (h : a.Kept deduplicates) (hg : a.delivery.Goes c answer (d', c')) :
    (a.told answer d').Kept deduplicates := by
  cases hg with
  | undecoded u hs =>
    obtain ⟨hh, hd⟩ := h.fresh_of hs
    refine .undecoded u ?_ ?_ (.inl rfl) ?_
    · simp [decoded?, told, hh, Answer.decoded?]
    · simp [Arrival.outcome, told, hd, Delivery.start]
    · rw [calls, asked_told, asked, hh, hs]
      rfl
  | decoded rs hs =>
    obtain ⟨hh, hd⟩ := h.fresh_of hs
    refine .taken rs ?_ (taken_decoded hh hd rs)
    rw [decoded?, told, hh]
    rfl
  | reported u hs =>
    cases h with
    | fresh _ hd => cases hd ▸ hs
    | undecoded v hv ho hu hc =>
      refine .undecoded v (decoded?_told_of_some hv) ho (.inr rfl) ?_
      rw [calls, asked_told]
      exact (List.append_nil _).trans hc
    | taken rs _ ht =>
      have := ht.stage
      rw [hs] at this
      cases this
  | new r rest hs =>
    obtain ⟨rs, hrs, ht⟩ := h.taken_of (.inl hs)
    have hd : deduplicates = true := by
      have := ht.stage
      rwa [hs] at this
    refine .taken rs (decoded?_told_of_some hrs) (ht.told ht.judges rfl rfl ?_ (fun _ => ⟨?_, ?_⟩) (fun hf => ?_) ?_)
    · simp [Delivery.unsettled, hs, Answer.fate?]
    · simp [hs, Stage.judging?, Stage.ahead]
    · simp [hs, Heard.new?, Stage.handling?]
    · exact absurd (hd.symm.trans hf) nofun
    · simp [Stage.releasing?, Heard.retryable?, Answer.fate?]
  | notNew r rest verdict f hs hf =>
    obtain ⟨rs, hrs, ht⟩ := h.taken_of (.inl hs)
    refine .taken rs (decoded?_told_of_some hrs)
      (ht.turned (d := { a.delivery with outcome := a.delivery.outcome.add f }) ht.judges ?_ ?_ ?_ ?_ fun _ => ?_)
    · rw [hf]
      rfl
    · rw [hf, Delivery.unsettled, hs]
      exact Nat.add_comm 1 _
    · rw [hs]
      rfl
    · rw [hs]
      cases verdict with
      | error e => rfl
      | ok seen =>
        cases seen with
        | false => exact nomatch hf
        | true => rfl
    · rw [hs, Heard.retryable?]
      exact ite_self none
  | handled r rest result f hs hf hne =>
    obtain ⟨rs, hrs, ht⟩ := h.taken_of (.inr (.inl hs))
    refine .taken rs (decoded?_told_of_some hrs)
      (ht.turned (d := { a.delivery with outcome := a.delivery.outcome.add f }) ht.judges ?_ ?_ ?_ ?_ fun hd => ?_)
    · rw [hf]
      rfl
    · rw [hf, Delivery.unsettled, hs]
      exact Nat.add_comm 1 _
    · rw [hs]
      rfl
    · rw [hs]
      rfl
    · rw [Heard.retryable?]
      refine if_neg fun h => hne (ht.judges.trans hd) ?_
      exact Option.some.inj (hf.symm.trans h)
  | releasing r rest result hs hf hd =>
    obtain ⟨rs, hrs, ht⟩ := h.taken_of (.inr (.inl hs))
    have hdd : deduplicates = true := ht.judges.symm.trans hd
    subst hdd
    refine .taken rs (decoded?_told_of_some hrs) (ht.told ht.judges rfl ?_ ?_ (fun _ => ⟨?_, ?_⟩) nofun ?_)
    · rw [hf]
      rfl
    · simp [Delivery.unsettled, hs, hf, Nat.add_comm]
    · simp [hs, Stage.judging?, Stage.ahead]
    · simp [hs, Heard.new?, Stage.handling?]
    · simp [Stage.releasing?, Heard.retryable?, hf, hs, Stage.handling?]
  | released r rest hs =>
    obtain ⟨rs, hrs, ht⟩ := h.taken_of (.inr (.inr hs))
    refine .taken rs (decoded?_told_of_some hrs) (ht.turned ht.judges rfl ?_ ?_ ?_ fun _ => ?_)
    · simp [Delivery.unsettled, hs, Answer.fate?]
    · rw [hs]
      rfl
    · rw [hs]
      rfl
    · rw [hs]
      rfl

end

theorem decoded_foldl (fs : List Fate) (o : Outcome) : (fs.foldl Outcome.add o).decoded = o.decoded := by
  induction fs generalizing o with
  | nil => rfl
  | cons f fs ih => exact (ih (o.add f)).trans (o.decoded_add f)

theorem decodeFailed_foldl (fs : List Fate) (o : Outcome) : (fs.foldl Outcome.add o).decodeFailed = o.decodeFailed := by
  induction fs generalizing o with
  | nil => rfl
  | cons f fs ih => exact (ih (o.add f)).trans (by cases f <;> rfl)

theorem settled_foldl (fs : List Fate) (o : Outcome) : (fs.foldl Outcome.add o).settled = o.settled + fs.length := by
  induction fs generalizing o with
  | nil => rfl
  | cons f fs ih =>
    rw [List.foldl_cons, ih, o.settled_add, List.length_cons]
    omega

/-- The requests that the handler gets are among those that the deduplicator judges. -/
theorem new_sublist (a : Arrival) : (a.heard.filterMap Heard.new?).Sublist a.judged := by
  have h : ∀ l : List Heard, (l.filterMap Heard.new?).Sublist ((l.map (·.stage)).filterMap Stage.judging?) := by
    intro l
    induction l with
    | nil => exact .slnil
    | cons x l ih =>
      rw [List.map_cons, List.filterMap_cons, List.filterMap_cons]
      cases hx : x.new? with
      | none =>
        cases x.stage.judging? with
        | none => exact ih
        | some r => exact ih.cons r
      | some r =>
        have hj : x.stage.judging? = some r := Heard.judging?_of_new? hx
        rw [hj]
        exact ih.cons_cons r
  rw [judged, asked, List.filterMap_append]
  exact (h a.heard).trans (List.sublist_append_left ..)

/-- What is known of one payload at any time. -/
structure Accounted (deduplicates : Bool) (a : Arrival) : Prop where
  /-- Every decoded request is counted once, or has no fate yet. -/
  settled : a.outcome.decoded = a.outcome.settled + a.delivery.unsettled.length
  finished : a.delivery.isFinished = true → a.outcome.decoded = a.outcome.settled
  waiting : a.decoded? = none → a.outcome = {} ∧ a.calls = []
  /-- Nothing comes of a payload that does not decode but its report. -/
  undecoded : ∀ u, a.decoded? = some (.error u) →
    a.outcome = { decodeFailed := true } ∧ a.calls = [.report a.source a.inbound u]
  /-- A request is handed on once at most, and only if it is new. -/
  decoded : ∀ rs, a.decoded? = some (.ok rs) →
    a.outcome = a.fates.foldl Outcome.add { decoded := rs.length } ∧ a.handed.Sublist rs ∧
      a.calls = a.handed.map (.handle a.source a.inbound)
  /-- The deduplicator is asked about every request in turn, and forgets those that may come again. -/
  deduplicated : deduplicates = true → ∀ rs, a.decoded? = some (.ok rs) →
    a.judged ++ a.delivery.stage.ahead = rs ∧ a.handed = a.heard.filterMap Heard.new? ∧
      a.released = a.heard.filterMap Heard.retryable?
  /-- Without a deduplicator the handler gets every request. -/
  undeduplicated : deduplicates = false → ∀ rs, a.decoded? = some (.ok rs) →
    a.handed ++ a.delivery.stage.ahead = rs ∧ a.released = []

theorem Taken.settled_eq {deduplicates : Bool} {rs : List Request} {a : Arrival} (h : a.Taken deduplicates rs) :
    a.outcome.decoded = a.outcome.settled + a.delivery.unsettled.length := by
  have hs := h.settled
  rw [h.outcome, decoded_foldl, settled_foldl]
  show rs.length = 0 + _ + _
  omega

theorem Taken.sublist {deduplicates : Bool} {rs : List Request} {a : Arrival} (h : a.Taken deduplicates rs) :
    a.handed.Sublist rs := by
  cases deduplicates with
  | true =>
    obtain ⟨hj, hn⟩ := h.judged rfl
    rw [hn, ← hj]
    exact a.new_sublist.trans (List.sublist_append_left ..)
  | false =>
    rw [← h.handed rfl]
    exact List.sublist_append_left ..

theorem Kept.settled_eq {deduplicates : Bool} {a : Arrival} (h : a.Kept deduplicates) :
    a.outcome.decoded = a.outcome.settled + a.delivery.unsettled.length := by
  cases h with
  | fresh _ hd =>
    rw [outcome, hd]
    rfl
  | undecoded u _ ho hs _ =>
    rw [ho, Delivery.unsettled]
    rcases hs with hs | hs
    · simp only [hs]
      rfl
    · simp only [hs]
      rfl
  | taken rs _ ht => exact ht.settled_eq

theorem Kept.taken_of_decoded {deduplicates : Bool} {rs : List Request} {a : Arrival} (h : a.Kept deduplicates)
    (hrs : a.decoded? = some (.ok rs)) : a.Taken deduplicates rs := by
  cases h with
  | fresh hh _ =>
    rw [decoded?, hh] at hrs
    cases hrs
  | undecoded u hu _ _ _ => cases hu.symm.trans hrs
  | taken _ hrs' ht =>
    cases hrs'.symm.trans hrs
    exact ht

/-- A payload has failed to decode, or has been decoded, or neither yet. -/
theorem Kept.trichotomy {deduplicates : Bool} {a : Arrival} (h : a.Kept deduplicates) :
    a.outcome.decodeFailed.toNat + a.isDecoded.toNat + a.decoded?.isNone.toNat = 1 := by
  cases h with
  | fresh hh hd =>
    rw [isDecoded, decoded?, outcome, hh, hd]
    rfl
  | undecoded u hu ho _ _ =>
    rw [isDecoded, hu, ho]
    rfl
  | taken rs hrs ht =>
    rw [isDecoded, hrs, ht.outcome, decodeFailed_foldl]
    rfl

theorem Kept.accounted {deduplicates : Bool} {a : Arrival} (h : a.Kept deduplicates) : a.Accounted deduplicates where
  settled := h.settled_eq
  finished hf := by
    have hu : a.delivery.unsettled = [] := by
      unfold Delivery.isFinished at hf
      unfold Delivery.unsettled
      split at hf
      · rename_i hs
        simp only [hs]
      · cases hf
    rw [h.settled_eq, hu]
    rfl
  waiting hn := by
    cases h with
    | fresh hh hd =>
      rw [outcome, calls, asked, hh, hd]
      exact ⟨rfl, rfl⟩
    | undecoded u hu _ _ _ => cases hn.symm.trans hu
    | taken rs hrs _ => cases hn.symm.trans hrs
  undecoded u hu := by
    cases h with
    | fresh hh _ =>
      rw [decoded?, hh] at hu
      cases hu
    | undecoded v hv ho _ hc =>
      cases hv.symm.trans hu
      exact ⟨ho, hc⟩
    | taken rs hrs _ => cases hrs.symm.trans hu
  decoded rs hrs :=
    have ht := h.taken_of_decoded hrs
    ⟨ht.outcome, ht.sublist, ht.calls⟩
  deduplicated hd rs hrs := by
    have ht := h.taken_of_decoded hrs
    obtain ⟨hj, hn⟩ := ht.judged hd
    exact ⟨hj, hn, ht.released.trans (if_pos hd)⟩
  undeduplicated hd rs hrs := by
    have ht := h.taken_of_decoded hrs
    exact ⟨ht.handed hd, ht.released.trans (if_neg (by rw [hd]; nofun))⟩

end Arrival

/-! ## All payloads -/

/-- Payloads on their way, in the order in which they have come. -/
structure Inflow where
  deduplicates : Bool
  counters : Counters
  arrivals : List Arrival

namespace Inflow

inductive Act where
  | arrive (source : String) (x : Inbound)
  /-- The `i`-th payload is told something. -/
  | answer (i : Nat) (a : Answer)

def start (deduplicates : Bool) : Inflow := ⟨deduplicates, {}, []⟩

/-- The `i`-th payload is told something, if it waits for it. -/
def tell (s : Inflow) (i : Nat) (answer : Answer) : Inflow :=
  match s.arrivals[i]? with
  | none => s
  | some a =>
    if a.delivery.stage.awaits answer then
      { s with counters := (a.delivery.answered s.counters answer).2,
               arrivals := s.arrivals.set i (a.told answer (a.delivery.answered s.counters answer).1) }
    else s

def step (s : Inflow) : Act → Inflow
  | .arrive source x =>
    { s with counters := s.counters.addPayload, arrivals := s.arrivals ++ [⟨source, x, .start s.deduplicates, []⟩] }
  | .answer i answer => s.tell i answer

def after (deduplicates : Bool) (acts : List Act) : Inflow := acts.foldl step (start deduplicates)

variable {s : Inflow}

theorem set_eq_of_getElem? {α : Type} {l : List α} {i : Nat} {x : α} (h : l[i]? = some x) (y : α) :
    ∃ as bs, l = as ++ x :: bs ∧ l.set i y = as ++ y :: bs := by
  obtain ⟨hi, hx⟩ := List.getElem?_eq_some_iff.1 h
  refine ⟨l.take i, l.drop (i + 1), ?_, List.set_eq_take_append_cons_drop.trans (if_pos hi)⟩
  rw [← hx, List.getElem_cons_drop, List.take_append_drop]

/-- Everything that a step can do. -/
theorem step_cases (s : Inflow) (act : Act) :
    s.step act = s ∨
    (∃ source x, s.step act =
      { s with counters := s.counters.addPayload, arrivals := s.arrivals ++ [⟨source, x, .start s.deduplicates, []⟩] }) ∨
    ∃ as a bs answer d c, s.arrivals = as ++ a :: bs ∧ a.delivery.Goes s.counters answer (d, c) ∧
      s.step act = { s with counters := c, arrivals := as ++ a.told answer d :: bs } := by
  cases act with
  | arrive source x => exact .inr (.inl ⟨source, x, rfl⟩)
  | answer i answer =>
    show s.tell i answer = s ∨ (∃ source x, s.tell i answer = _) ∨ ∃ as a bs answer' d c, _ ∧ _ ∧ s.tell i answer = _
    unfold tell
    split
    · exact .inl rfl
    · rename_i a ha
      split
      · rename_i hw
        obtain ⟨as, bs, hold, hnew⟩ := set_eq_of_getElem? ha (a.told answer (a.delivery.answered s.counters answer).1)
        exact .inr (.inr ⟨as, a, bs, answer, (a.delivery.answered s.counters answer).1,
          (a.delivery.answered s.counters answer).2, hold, Delivery.answered_goes s.counters hw, by rw [hnew]⟩)
      · exact .inl rfl

/-! What is counted. -/

def total (f : Arrival → Nat) : List Arrival → Nat
  | [] => 0
  | a :: arrivals => f a + total f arrivals

theorem total_append (f : Arrival → Nat) (as bs : List Arrival) : total f (as ++ bs) = total f as + total f bs := by
  induction as with
  | nil => exact (Nat.zero_add _).symm
  | cons a as ih =>
    rw [List.cons_append, total, total, ih]
    omega

theorem total_replaced (f : Arrival → Nat) (as : List Arrival) (a b : Arrival) (bs : List Arrival) :
    total f (as ++ b :: bs) + f a = total f (as ++ a :: bs) + f b := by
  rw [total_append, total_append, total, total]
  omega

theorem total_add (f g : Arrival → Nat) (as : List Arrival) :
    total (fun a => f a + g a) as = total f as + total g as := by
  induction as with
  | nil => rfl
  | cons a as ih =>
    simp only [total, ih]
    omega

theorem total_congr {f g : Arrival → Nat} {as : List Arrival} (h : ∀ a ∈ as, f a = g a) : total f as = total g as := by
  induction as with
  | nil => rfl
  | cons a as ih =>
    rw [total, total, h a List.mem_cons_self, ih fun b hb => h b (List.mem_cons_of_mem _ hb)]

/-- Counters have gone up by as much as an outcome. -/
structure Counted (o o' : Outcome) (c c' : Counters) : Prop where
  payloads : c'.payloadsReceived = c.payloadsReceived
  failed : c'.failedDecodes + o.decodeFailed.toNat = c.failedDecodes + o'.decodeFailed.toNat
  decoded : c'.decoded + o.decoded = c.decoded + o'.decoded
  duplicates : c'.duplicates + o.duplicates = c.duplicates + o'.duplicates
  forwarded : c'.forwarded + o.forwarded = c.forwarded + o'.forwarded
  errors : c'.deduplicatorErrors + c'.handlerErrors + (o.dropped + o.retryable) =
    c.deduplicatorErrors + c.handlerErrors + (o'.dropped + o'.retryable)

theorem Counted.refl (o : Outcome) (c : Counters) : Counted o o c c := ⟨rfl, rfl, rfl, rfl, rfl, rfl⟩

/-- Every fate is counted on both sides. -/
theorem counted_add (o : Outcome) (c : Counters) (f : Fate) : Counted o (o.add f) c (c.add f) := by
  cases f <;> constructor <;> simp only [Outcome.add, Counters.add] <;> omega

theorem goes_counted {d d' : Delivery} {c c' : Counters} {answer : Answer} (hg : d.Goes c answer (d', c'))
    (hfresh : d.stage = .decoding → d.outcome = {}) : Counted d.outcome d'.outcome c c' := by
  cases hg with
  | undecoded u hs =>
    rw [hfresh hs]
    exact ⟨rfl, rfl, rfl, rfl, rfl, rfl⟩
  | decoded rs hs =>
    rw [Delivery.outcome_turnTo, hfresh hs]
    exact ⟨rfl, rfl, rfl, rfl, rfl, rfl⟩
  | reported u hs => exact .refl _ _
  | new r rest hs => exact .refl _ _
  | notNew r rest verdict f hs hf =>
    rw [Delivery.outcome_past]
    exact counted_add _ _ f
  | handled r rest result f hs hf hne =>
    rw [Delivery.outcome_past]
    exact counted_add _ _ f
  | releasing r rest result hs hf hd => exact counted_add d.outcome c .retryable
  | released r rest hs =>
    rw [Delivery.outcome_turnTo]
    exact .refl _ _

/-- The counters are the sums of the outcomes. -/
structure Summed (s : Inflow) : Prop where
  payloads : s.counters.payloadsReceived = s.arrivals.length
  failed : s.counters.failedDecodes = total (·.outcome.decodeFailed.toNat) s.arrivals
  decoded : s.counters.decoded = total (·.outcome.decoded) s.arrivals
  duplicates : s.counters.duplicates = total (·.outcome.duplicates) s.arrivals
  forwarded : s.counters.forwarded = total (·.outcome.forwarded) s.arrivals
  errors : s.counters.deduplicatorErrors + s.counters.handlerErrors =
    total (fun a => a.outcome.dropped + a.outcome.retryable) s.arrivals

structure Inv (s : Inflow) : Prop where
  kept : ∀ a ∈ s.arrivals, a.Kept s.deduplicates
  summed : s.Summed

theorem start_inv (deduplicates : Bool) : (start deduplicates).Inv :=
  ⟨fun _ h => (nomatch h), ⟨rfl, rfl, rfl, rfl, rfl, rfl⟩⟩

theorem Summed.arrived (h : s.Summed) (source : String) (x : Inbound) : (s.step (.arrive source x)).Summed := by
  have zero : ∀ f : Arrival → Nat, f ⟨source, x, .start s.deduplicates, []⟩ = 0 →
      total f (s.step (.arrive source x)).arrivals = total f s.arrivals := by
    intro f hf
    rw [step, total_append, total, hf]
    rfl
  refine ⟨?_, h.failed.trans (zero _ rfl).symm, h.decoded.trans (zero _ rfl).symm, h.duplicates.trans (zero _ rfl).symm,
    h.forwarded.trans (zero _ rfl).symm, h.errors.trans (zero _ rfl).symm⟩
  rw [step, List.length_append, ← h.payloads]
  rfl

theorem Summed.told (h : s.Summed) {as bs : List Arrival} {a b : Arrival} {c : Counters} (ha : s.arrivals = as ++ a :: bs)
    (hc : Counted a.outcome b.outcome s.counters c) : Summed { s with counters := c, arrivals := as ++ b :: bs } := by
  have replaced := fun f => total_replaced f as a b bs
  obtain ⟨h₁, h₂, h₃, h₄, h₅, h₆⟩ := h
  obtain ⟨c₁, c₂, c₃, c₄, c₅, c₆⟩ := hc
  rw [ha] at h₁ h₂ h₃ h₄ h₅ h₆
  refine ⟨?_, ?_, ?_, ?_, ?_, ?_⟩
  · rw [c₁, h₁, List.length_append, List.length_append]
    rfl
  · have := replaced (·.outcome.decodeFailed.toNat)
    show c.failedDecodes = total _ (as ++ b :: bs)
    omega
  · have := replaced (·.outcome.decoded)
    show c.decoded = total _ (as ++ b :: bs)
    omega
  · have := replaced (·.outcome.duplicates)
    show c.duplicates = total _ (as ++ b :: bs)
    omega
  · have := replaced (·.outcome.forwarded)
    show c.forwarded = total _ (as ++ b :: bs)
    omega
  · have := replaced fun a => a.outcome.dropped + a.outcome.retryable
    show c.deduplicatorErrors + c.handlerErrors = total _ (as ++ b :: bs)
    omega

theorem step_inv (h : s.Inv) (act : Act) : (s.step act).Inv := by
  rcases step_cases s act with heq | ⟨source, x, heq⟩ | ⟨as, a, bs, answer, d, c, ha, hg, heq⟩
  · rw [heq]
    exact h
  · have hsummed := h.summed.arrived source x
    rw [step] at hsummed
    rw [heq]
    refine ⟨fun b hb => ?_, hsummed⟩
    rcases List.mem_append.1 hb with hb | hb
    · exact h.kept b hb
    · rw [List.mem_singleton.1 hb]
      exact .fresh rfl rfl
  · have hkept := h.kept a (by rw [ha]; exact List.mem_append_right _ List.mem_cons_self)
    have hfresh : a.delivery.stage = .decoding → a.delivery.outcome = {} := fun hs => by
      rw [(hkept.fresh_of hs).2]
      rfl
    rw [heq]
    refine ⟨fun b hb => ?_, h.summed.told ha (goes_counted hg hfresh)⟩
    rcases List.mem_append.1 hb with hb | hb
    · exact h.kept b (by rw [ha]; exact List.mem_append_left _ hb)
    · rcases List.mem_cons.1 hb with rfl | hb
      · exact Arrival.kept_told hkept hg
      · exact h.kept b (by rw [ha]; exact List.mem_append_right _ (List.mem_cons_of_mem _ hb))

theorem foldl_inv (h : s.Inv) (acts : List Act) : (acts.foldl step s).Inv := by
  induction acts generalizing s with
  | nil => exact h
  | cons act acts ih => exact ih (step_inv h act)

theorem deduplicates_step (s : Inflow) (act : Act) : (s.step act).deduplicates = s.deduplicates := by
  rcases step_cases s act with heq | ⟨_, _, heq⟩ | ⟨_, _, _, _, _, _, _, _, heq⟩ <;> rw [heq]

theorem deduplicates_foldl (s : Inflow) (acts : List Act) : (acts.foldl step s).deduplicates = s.deduplicates := by
  induction acts generalizing s with
  | nil => rfl
  | cons act acts ih => exact (ih (s.step act)).trans (deduplicates_step s act)

/-! ## Nothing is lost -/

/-- What is known of the counters at any time. -/
structure Accounted (s : Inflow) : Prop where
  /-- What is decoded is counted once more, or is under way. -/
  requests : s.counters.decoded = s.counters.duplicates + s.counters.deduplicatorErrors + s.counters.forwarded +
    s.counters.handlerErrors + total (·.delivery.unsettled.length) s.arrivals
  payloads : s.counters.payloadsReceived = s.counters.failedDecodes + s.arrivals.countP (·.isDecoded) +
    s.arrivals.countP (·.decoded?.isNone)
  summed : s.Summed

theorem Inv.requests (h : s.Inv) : s.counters.decoded = s.counters.duplicates + s.counters.deduplicatorErrors +
    s.counters.forwarded + s.counters.handlerErrors + total (·.delivery.unsettled.length) s.arrivals := by
  have hsum : total (·.outcome.decoded) s.arrivals = total (fun a => a.outcome.duplicates + a.outcome.forwarded +
      (a.outcome.dropped + a.outcome.retryable) + a.delivery.unsettled.length) s.arrivals := by
    refine total_congr fun a ha => ?_
    rw [(h.kept a ha).settled_eq, Outcome.settled]
    omega
  rw [total_add, total_add, total_add] at hsum
  obtain ⟨-, -, h₃, h₄, h₅, h₆⟩ := h.summed
  omega

theorem Inv.payloads (h : s.Inv) : s.counters.payloadsReceived = s.counters.failedDecodes +
    s.arrivals.countP (·.isDecoded) + s.arrivals.countP (·.decoded?.isNone) := by
  have hlen : ∀ as : List Arrival, (∀ a ∈ as, a.Kept s.deduplicates) → as.length =
      total (·.outcome.decodeFailed.toNat) as + as.countP (·.isDecoded) + as.countP (·.decoded?.isNone) := by
    intro as
    induction as with
    | nil => exact fun _ => rfl
    | cons a as ih =>
      intro hk
      have htail := ih fun b hb => hk b (List.mem_cons_of_mem _ hb)
      have hhead := (hk a List.mem_cons_self).trichotomy
      have toNat : ∀ b : Bool, b.toNat = if b = true then 1 else 0 := fun b => by cases b <;> rfl
      rw [toNat a.isDecoded, toNat a.decoded?.isNone] at hhead
      rw [List.length_cons, total, List.countP_cons, List.countP_cons]
      omega
  rw [h.summed.payloads, h.summed.failed]
  exact hlen s.arrivals h.kept

/-- Payloads come in any number and at any time, and whoever is asked answers in any way and in any
order: in every state the counters account for everything, and so does every payload. -/
theorem nothing_unaccounted (deduplicates : Bool) (acts : List Act) :
    (after deduplicates acts).Accounted ∧ ∀ a ∈ (after deduplicates acts).arrivals, a.Accounted deduplicates := by
  have h := foldl_inv (start_inv deduplicates) acts
  have hd : (after deduplicates acts).deduplicates = deduplicates := deduplicates_foldl _ acts
  refine ⟨⟨h.requests, h.payloads, h.summed⟩, fun a ha => ?_⟩
  have hk := h.kept a ha
  rw [show (acts.foldl step (start deduplicates)).deduplicates = deduplicates from hd] at hk
  exact hk.accounted

end Inflow

end DeviceEvents
