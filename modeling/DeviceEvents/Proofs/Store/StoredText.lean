import DeviceEvents.Proofs.Event.PayloadText
import DeviceEvents.Store.ClickHouse
/-
  DeviceEvents.Proofs.Store.StoredText — an event comes back from the rows that hold it.

  The payload and the metadata are JSON text in every row, the other columns are copied.
  Nothing of this can fail on the way in: `StoredEvent.ofEvent` is total. On the way out
  `toEvent_ofEvent` is what there is to say, and the two tables add only their copies: of the
  encoded event into a row of the table of events, of that into an entry under any partition,
  and of what a scan selects back again.
-/

namespace DeviceEvents

open Json

/-! ## Metadata -/

namespace Metadata

/-- The text of metadata is not blank, be there entries or none. -/
theorem encode_not_blank (m : Metadata) : Text.allBlank (encode m) = false := by
  have hfront : (encode m).toList.head? = some '\x7b' := by
    rw [encode, Value.render, write, String.toList_ofList]
    rfl
  rw [Text.allBlank]
  cases hchars : (encode m).toList with
  | nil => rw [hchars] at hfront; cases hfront
  | cons c cs =>
    rw [hchars] at hfront
    cases hfront
    rfl

theorem decode_encode (m : Metadata) : decode (encode m) = .ok m := by
  have hlegible : (dictionaryJson stringJson m).Legible := Payload.legible_dictionary fun e _ => Value.legible_str e.2
  have hread : (dictionaryReader Leaf.string).run (encode m) = .ok m :=
    Value.run_render hlegible fun rest =>
      dictionaryReader_tokens (f := stringJson) (fun _ => rfl) m (fun _ _ => rfl) (by decide) rest
  rw [decode, encode_not_blank, hread]
  rfl

end Metadata

/-! ## Events -/

/-- An event whose doubles are finite and read back comes back from its encoding. -/
theorem StoredEvent.toEvent_ofEvent (e : Event) (hfinite : ∀ x ∈ e.payload.reals, x.isFinite = true)
    (hback : ∀ x ∈ e.payload.reals, x.ReadsBack) : (ofEvent e).toEvent = .ok e := by
  have hpayload : (Payload.parse (ofEvent e).payload).mapError Trouble.codec = .ok e.payload := by
    rw [show Payload.parse (ofEvent e).payload = .ok e.payload from e.payload.parse_render hfinite hback]
    rfl
  have hkind : EventKind.parse? (ofEvent e).kind = some e.payload.kind := e.payload.kind.parse?_name
  have hmetadata : Metadata.decode (ofEvent e).metadata = .ok e.metadata := Metadata.decode_encode e.metadata
  rw [toEvent, hpayload, hkind, hmetadata]
  simp only [bind, Except.bind, pure, Except.pure, ne_eq, not_true_eq_false, if_false]
  rfl

namespace ClickHouse

theorem toStored_ofStored (tenant : String) (s : StoredEvent) : (EventRow.ofStored tenant s).toStored = s := rfl

theorem eventRow_ofRow (k : PartitionKey) (r : EventRow) : (IndexRow.ofRow k r).eventRow = r := rfl

/-- The event comes back from its encoding, from its row in the table of events of any tenant,
and from the entry that is made of that row under any partition. -/
theorem rows_keep_event (e : Event) (hfinite : ∀ x ∈ e.payload.reals, x.isFinite = true)
    (hback : ∀ x ∈ e.payload.reals, x.ReadsBack) :
    (StoredEvent.ofEvent e).toEvent = .ok e ∧
      ∀ tenant, (EventRow.ofEvent tenant e).toEvent = .ok e ∧
        ∀ k : PartitionKey, (IndexRow.ofRow k (EventRow.ofEvent tenant e)).toEvent = .ok e := by
  have hstored : (StoredEvent.ofEvent e).toEvent = .ok e := StoredEvent.toEvent_ofEvent e hfinite hback
  have hrow (tenant : String) : (EventRow.ofEvent tenant e).toEvent = .ok e := by
    rw [EventRow.toEvent, EventRow.ofEvent, toStored_ofStored, hstored]
  refine ⟨hstored, fun tenant => ⟨hrow tenant, fun k => ?_⟩⟩
  rw [IndexRow.toEvent, eventRow_ofRow, hrow]

/-- A position with two doubles, and metadata with characters that are escaped. -/
theorem rows_keep_position :
    let e : Event := {
      id := .ofNat 7, alternateId := some "l-1", deviceId := .ofNat 1, assignmentId := .ofNat 2,
      customerId := none, areaId := some (.ofNat 3), assetId := none,
      eventDate := .epoch, receivedDate := .epoch,
      metadata := ⟨[("note", "a \"quoted\" \\ and\na \x01")], List.pairwise_singleton _ _⟩,
      payload := .location ⟨⟨0x4058a00000000000⟩, ⟨0xc055187ae147ae14⟩, none⟩ }
    (∀ x ∈ e.payload.reals, x.isFinite = true) ∧ (∀ x ∈ e.payload.reals, x.ReadsBack) ∧
      (StoredEvent.ofEvent e).toEvent = .ok e ∧
      ∀ tenant, (EventRow.ofEvent tenant e).toEvent = .ok e ∧
        ∀ k : PartitionKey, (IndexRow.ofRow k (EventRow.ofEvent tenant e)).toEvent = .ok e := by
  intro e
  have hfinite : ∀ x ∈ e.payload.reals, x.isFinite = true := by decide +kernel
  have hback : ∀ x ∈ e.payload.reals, x.ReadsBack := by decide +kernel
  exact ⟨hfinite, hback, rows_keep_event e hfinite hback⟩

end ClickHouse
end DeviceEvents
