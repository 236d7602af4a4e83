import ChangeFeed.Envelope
import ChangeFeed.Proofs.Json.Readable
/-!
# Images — what a payload says about a row

A payload decodes exactly if it is a JSON object, and the envelope then has
the members of that object or of the one it wraps. `HasImage` says which
columns a row image has among those members. They are as readable as the
payload was: `HasImage.readable` is what a written row is owed.
-/


namespace ChangeFeed

namespace Envelope

variable {payload : Bytes} {envelope : Envelope}

/-- **A payload decodes exactly if it is an object.** -/
theorem decode_eq_ok_iff :
    decode payload = .ok envelope ↔
      ∃ root, Json.readBytes? payload = some (.object root) ∧ envelope = ofMembers root := by
  unfold decode
  cases Json.readBytes? payload with
  | none => simp
  | some value => cases value <;> simp [ofJson, eq_comm]

/-- What a payload is read as has room for as many brackets as may be open. -/
theorem readable_of_readBytes? {value : Json} (h : Json.readBytes? payload = some value) :
    value.Readable Json.maxDepth := by
  obtain ⟨text, -, hread⟩ := Option.bind_eq_some_iff.1 h
  exact Json.readable_of_read? hread

/-- The members of an envelope are readable, wrapped or not. -/
theorem readable_unwrap {root : Members} {room : Nat} (h : (Json.object root).Readable room) :
    (Json.object (unwrap root)).Readable room := by
  unfold unwrap
  split
  case h_1 inner _ _ hpayload => exact Json.Readable.of_get? h hpayload
  case h_2 => exact h

/-- **The columns of a row image** among the members of an envelope: an
image that is absent or `null` has none. -/
inductive HasImage (members : Members) (side : Text) : Members → Prop where
  | absent (h : members.find? side = none) : HasImage members side []
  | null (h : members.find? side = some .null) : HasImage members side []
  | object {columns : Members} (h : members.find? side = some (.object columns)) :
      HasImage members side columns

variable {members columns : Members} {side : Text} {room : Nat}

/-- The columns of an image are readable. -/
theorem HasImage.readable (h : HasImage members side columns)
    (hmembers : (Json.object members).Readable (room + 1)) :
    (Json.object columns).Readable (room + 1) := by
  cases h with
  | absent _ => exact .object Members.keyed_nil nofun
  | null _ => exact .object Members.keyed_nil nofun
  | object h => exact hmembers.of_get? h

end Envelope

end ChangeFeed
