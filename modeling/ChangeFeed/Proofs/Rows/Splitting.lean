import ChangeFeed.Proofs.Rows.Lines
import ChangeFeed.Proofs.Text.Encoding
import Mathlib.Data.List.TakeWhile
/-!
# Splitting — the two lines of an update, taken apart again

The payload of an update is its two lines with the delimiter between them,
and whoever loads it has to find the delimiter. The lines hold no control
character, so a delimiter that has one stands where its control characters
are and nowhere else, even if it overlaps itself or looks like JSON
otherwise. `split_iff_of_marked` is this argument, for characters and for
bytes alike.
-/


namespace ChangeFeed

/-! ## Marked separators -/

section Marked

variable {α : Type} (marked : α → Bool) {left separator right front back : List α}

/-- The part before the first mark ends in the separator, whatever comes
before it without a mark. -/
theorem takeWhile_of_marked (hmark : ∃ a ∈ separator, marked a = true)
    (hleft : ∀ a ∈ left, marked a = false) :
    (left ++ separator ++ right).takeWhile (fun a => !marked a) =
      left ++ separator.takeWhile fun a => !marked a := by
  have hstops : (separator.takeWhile fun a => !marked a).length ≠ separator.length := by
    intro hlength
    obtain ⟨a, ha, hmarked⟩ := hmark
    have hwhole := (List.takeWhile_prefix fun a => !marked a).eq_of_length hlength
    have hplain := List.takeWhile_eq_self_iff.1 hwhole a ha
    simp [hmarked] at hplain
  rw [List.append_assoc, List.takeWhile_append_of_pos (by simpa using hleft),
    List.takeWhile_append, if_neg hstops]

/-- **A marked separator is found in one place.** If the separator has a mark
and the two parts around it have none, every way to cut the whole at the
separator gives these two parts. -/
theorem split_iff_of_marked (hmark : ∃ a ∈ separator, marked a = true)
    (hleft : ∀ a ∈ left, marked a = false) (hright : ∀ a ∈ right, marked a = false) :
    left ++ separator ++ right = front ++ separator ++ back ↔ front = left ∧ back = right := by
  constructor
  · intro h
    -- the marks of the whole are the separator's, so none is left for what comes before it
    have hfront : ∀ a ∈ front, marked a = false := by
      have hcount := congrArg (List.countP marked) h
      have hzero : left.countP marked = 0 ∧ right.countP marked = 0 := by
        simpa [List.countP_eq_zero] using And.intro hleft hright
      simp only [List.countP_append] at hcount
      have hnone : front.countP marked = 0 := by omega
      simpa [List.countP_eq_zero] using hnone
    have hbefore := congrArg (List.takeWhile fun a => !marked a) h
    rw [takeWhile_of_marked marked hmark hleft, takeWhile_of_marked marked hmark hfront] at hbefore
    obtain rfl := List.append_cancel_right hbefore
    exact ⟨rfl, (List.append_cancel_left h).symm⟩
  · rintro ⟨rfl, rfl⟩
    rfl

end Marked

namespace RowFormat

variable {format : RowFormat} {members : Members}

/-- A line that an image survives in holds no control character. -/
theorem LineOf.isPlain {side line : Text} {isDeleted : Bool}
    (h : LineOf format members side isDeleted line) : line.IsPlain := by
  cases h with
  | row _ _ hplain _ => exact hplain
  | numeral _ _ hplain _ => exact hplain

end RowFormat

namespace LoadRecord

/-- **The payload of an update with both images** is the line of its deletion,
the delimiter and the line of its insertion. -/
theorem payload_of_update {routing : Routing} {format : RowFormat} {envelope : Envelope}
    {record : LoadRecord} (hboth : format.afterOnly = false)
    (hupdate : envelope.operation = some .update)
    (hrecord : ofEnvelope routing format envelope = .ok (some record)) :
    ∃ deleted inserted, format.line envelope.before true = .ok deleted ∧
      format.line envelope.after false = .ok inserted ∧
      record.payload = deleted ++ format.delimiter ++ inserted := by
  unfold ofEnvelope at hrecord
  rw [hupdate] at hrecord
  split at hrecord
  case h_1 operation target hoperation htarget =>
    cases hoperation
    obtain ⟨lines, hlines, hsome⟩ := map_eq_ok_iff.1 hrecord
    obtain ⟨text, rfl, rfl⟩ := Option.map_eq_some_iff.1 hsome
    obtain ⟨inserted, hinserted, hrest⟩ := bind_eq_ok_iff.1 hlines
    rw [if_neg (by simp [hboth])] at hrest
    obtain ⟨deleted, hdeleted, hpayload⟩ := bind_eq_ok_iff.1 hrest
    cases hpayload
    exact ⟨deleted, inserted, hdeleted, hinserted, rfl⟩
  case h_2 => cases hrecord

/-- **A split update can always be split again.** If the delimiter has a
control character, it stands in the payload of an update at one place only,
and what comes before and behind it there are the line of the deletion and
the line of the insertion; and so it is if the payload is cut as bytes. -/
theorem update_splits_once {routing : Routing} {format : RowFormat} {payload : Bytes}
    {envelope : Envelope} {record : LoadRecord}
    (hcontrol : ∃ c ∈ format.delimiter, c.toNat < 0x20) (hboth : format.afterOnly = false)
    (hdecode : Envelope.decode payload = .ok envelope)
    (hupdate : envelope.operation = some .update)
    (hrecord : ofEnvelope routing format envelope = .ok (some record)) :
    ∃ deleted inserted, format.line envelope.before true = .ok deleted ∧
      format.line envelope.after false = .ok inserted ∧
      (∀ front back : Text, record.payload = front ++ format.delimiter ++ back ↔
        front = deleted ∧ back = inserted) ∧
      ∀ front back : Bytes,
        record.payload.bytes = front ++ Text.bytes format.delimiter ++ back ↔
          front = deleted.bytes ∧ back = inserted.bytes := by
  obtain ⟨deleted, inserted, hdeleted, hinserted, hpayload⟩ :=
    payload_of_update hboth hupdate hrecord
  obtain ⟨root, hread, rfl⟩ := Envelope.decode_eq_ok_iff.1 hdecode
  have hmembers := Envelope.readable_unwrap (Envelope.readable_of_readBytes? hread)
  have hbefore := (RowFormat.lineOf_line hmembers hdeleted).isPlain
  have hafter := (RowFormat.lineOf_line hmembers hinserted).isPlain
  refine ⟨deleted, inserted, hdeleted, hinserted, fun front back => ?_, fun front back => ?_⟩
  · rw [hpayload]
    refine split_iff_of_marked (fun c => decide (c.toNat < 0x20)) ?_ ?_ ?_
    · simpa using hcontrol
    · exact fun c hc => by simpa using hbefore c hc
    · exact fun c hc => by simpa using hafter c hc
  · rw [hpayload, Text.bytes_append, Text.bytes_append]
    obtain ⟨c, hc, hlow⟩ := hcontrol
    refine split_iff_of_marked (fun b => decide (b.toNat < 0x20)) ?_ ?_ ?_
    · simpa using Text.exists_byte_of_control hc hlow
    · exact fun b hb => by simpa using hbefore.le_of_mem_bytes hb
    · exact fun b hb => by simpa using hafter.le_of_mem_bytes hb

/-- A delimiter that begins as the line before it ends, and that a value
spells out as well. -/
theorem update_splits_once_brace :
    let routing : Routing := ⟨some "shop.orders".toList, []⟩
    let format : RowFormat := { delimiter := "\x7d\x01\x7d".toList }
    let row : Text :=
      "\x7b\"op\":\"u\",\"before\":\x7b\"n\":\"\x7d\\u0001\x7d\"\x7d,\"after\":\x7b\x7d\x7d".toList
    let deleted : Text :=
      "\x7b\"n\":\"\x7d\\u0001\x7d\",\"__DORIS_DELETE_SIGN__\":\"1\"\x7d".toList
    let inserted : Text := "\x7b\"__DORIS_DELETE_SIGN__\":\"0\"\x7d".toList
    ∃ envelope record, (∃ c ∈ format.delimiter, c.toNat < 0x20) ∧ format.afterOnly = false ∧
      Envelope.decode (Text.bytes row) = .ok envelope ∧ envelope.operation = some .update ∧
      ofEnvelope routing format envelope = .ok (some record) ∧
      ∀ front back : Text, record.payload = front ++ format.delimiter ++ back ↔
        front = deleted ∧ back = inserted := by
  intro routing format row deleted inserted
  have hcontrol : ∃ c ∈ format.delimiter, c.toNat < 0x20 := ⟨'\x01', by decide, by decide⟩
  have hread : Json.readBytes? (Text.bytes row) = some (.object [("op".toList, .string ['u']),
      ("before".toList, .object [(['n'], .string ['\x7d', '\x01', '\x7d'])]),
      ("after".toList, .object [])]) := by
    rw [Json.readBytes?, Bytes.text?_bytes]
    rfl
  obtain ⟨envelope, hdecode, hupdate, hrecord⟩ : ∃ envelope : Envelope,
      Envelope.decode (Text.bytes row) = .ok envelope ∧ envelope.operation = some .update ∧
      ofEnvelope routing format envelope =
        .ok (some ⟨"shop.orders".toList, deleted ++ format.delimiter ++ inserted⟩) :=
    ⟨_, Envelope.decode_eq_ok_iff.2 ⟨_, hread, rfl⟩, rfl, rfl⟩
  obtain ⟨_, _, -, -, hsplit, -⟩ := update_splits_once hcontrol rfl hdecode hupdate hrecord
  obtain ⟨rfl, rfl⟩ := (hsplit deleted inserted).1 rfl
  exact ⟨envelope, _, hcontrol, rfl, hdecode, hupdate, hrecord, hsplit⟩

end LoadRecord

end ChangeFeed
