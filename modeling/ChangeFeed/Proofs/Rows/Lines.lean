import ChangeFeed.Proofs.Json.Inverse
import ChangeFeed.Proofs.Result
import ChangeFeed.Proofs.Rows.Images
import ChangeFeed.Record
/-!
# Row lines — every row image survives being written

A record is made for whoever reads its lines back, and `LineOf` says what
they find: the columns of the image, in order and digit for digit, with the
sign column set. There is one row that its line does not stand for, the row
without columns whose sign column has the key that the reader reserves for
numbers. Everything else goes through, because a payload's images are
readable and marking them keeps them so.
-/


namespace ChangeFeed

namespace Members

variable {members : Members} {key : Text} {value : Json}

/-- **Columns with one of them set**: in its place if it is there, as the
last one if it is not. -/
def withColumn (key : Text) (value : Json) (members : Members) : Members :=
  match members.find? key with
  | some _ => members.map fun member => if member.1 = key then (key, value) else member
  | none => members ++ [(key, value)]

/-- A key is found exactly if it is one of the keys. -/
theorem find?_eq_none_iff : members.find? key = none ↔ key ∉ members.keys := by
  induction members with
  | nil => simp [find?, keys]
  | cons first rest ih =>
    obtain ⟨k, v⟩ := first
    rw [keys, List.map_cons, List.mem_cons, not_or, find?]
    by_cases hk : k = key
    · simp [hk]
    · rw [if_neg hk, ih]
      exact ⟨fun hrest => ⟨Ne.symm hk, hrest⟩, fun hboth => hboth.2⟩

/-- Where no key is repeated, setting one is setting it wherever it is. -/
theorem put_of_mem (hnodup : members.keys.Nodup) (hmem : key ∈ members.keys) :
    members.put key value =
      members.map fun member => if member.1 = key then (key, value) else member := by
  induction members with
  | nil => cases hmem
  | cons first rest ih =>
    obtain ⟨k, v⟩ := first
    obtain ⟨hnew, hrest⟩ := List.nodup_cons.1 hnodup
    rw [put, List.map_cons]
    by_cases hk : k = key
    · -- no later key is the same, so the rest stays as it is
      subst hk
      have hsame : (rest.map fun member => if member.1 = k then (k, value) else member) = rest := by
        refine (List.map_congr_left fun member hmember => ?_).trans (List.map_id rest)
        refine if_neg fun heq => hnew ?_
        have hkey : member.1 ∈ keys rest := List.mem_map_of_mem hmember
        rwa [heq] at hkey
      rw [if_pos rfl, if_pos rfl, hsame]
    · have hmem' : key ∈ keys rest := by
        rcases List.mem_cons.1 hmem with heq | hmem
        · exact absurd heq.symm hk
        · exact hmem
      rw [if_neg hk, if_neg hk, ih hrest hmem']

theorem put_eq_withColumn (h : members.keys.Nodup) :
    members.put key value = members.withColumn key value := by
  unfold withColumn
  split
  case h_1 found hfind =>
    have hmem : key ∈ members.keys := List.mem_map_of_mem (mem_of_find? hfind)
    exact put_of_mem h hmem
  case h_2 hfind => exact put_of_notMem (find?_eq_none_iff.1 hfind)

end Members

/-- **A mark keeps a row readable**, unless it makes the reserved key the
first. -/
theorem Row.readable_mark {row : Row} {column : Text} {isDeleted : Bool} {room : Nat}
    (h : (Json.object row.columns).Readable (room + 1))
    (hfirst : row.columns = [] → column ≠ Json.numeralKey) :
    (Json.object (row.mark column isDeleted).columns).Readable (room + 1) := by
  obtain ⟨hkeys, hvalues⟩ := h.of_object
  exact .object (hkeys.put hfirst) (Members.forall_put column hvalues (.string _))

namespace RowFormat

variable (format : RowFormat) (members : Members)

/-- What the sign column holds. -/
def signText (isDeleted : Bool) : Text := if isDeleted then ['1'] else ['0']

/-- **A line that a row image survives in.** It is one line, and it reads as
the columns of the image with the sign column set, unless there are none and
the sign column has the reserved key. -/
inductive LineOf (side : Text) (isDeleted : Bool) (line : Text) : Prop where
  | row {columns : Members} (himage : Envelope.HasImage members side columns)
      (hkey : columns ≠ [] ∨ format.signColumn ≠ Json.numeralKey) (hplain : line.IsPlain)
      (hread : Json.read? line =
        some (.object (columns.withColumn format.signColumn (.string (signText isDeleted))))) :
      LineOf side isDeleted line
  | numeral (himage : Envelope.HasImage members side [])
      (hkey : format.signColumn = Json.numeralKey) (hplain : line.IsPlain)
      (hread : Json.read? line = some (.number (signText isDeleted))) :
      LineOf side isDeleted line

/-- **The lines of an operation**: the new image for a read and a creation,
the old one for a deletion. An update has the old image and the new one with
the delimiter between them, or the new one alone. -/
inductive LinesOf : RowOperation → Text → Prop where
  | read {line : Text} (h : LineOf format members "after".toList false line) : LinesOf .read line
  | create {line : Text} (h : LineOf format members "after".toList false line) :
      LinesOf .create line
  | delete {line : Text} (h : LineOf format members "before".toList true line) :
      LinesOf .delete line
  | update {deleted inserted : Text} (hboth : format.afterOnly = false)
      (hbefore : LineOf format members "before".toList true deleted)
      (hafter : LineOf format members "after".toList false inserted) :
      LinesOf .update (deleted ++ format.delimiter ++ inserted)
  | updateAfter {line : Text} (hone : format.afterOnly = true)
      (h : LineOf format members "after".toList false line) : LinesOf .update line

variable {format members}

/-- The row of an image has the image's columns. -/
theorem hasImage_of_ofImage {side : Text} {row : Row}
    (h : Row.ofImage ((Json.object members).field? side) = .ok row) :
    Envelope.HasImage members side row.columns := by
  have hfield : (Json.object members).field? side =
      (members.find? side).bind Json.unlessNull := rfl
  rw [hfield] at h
  cases hfind : members.find? side with
  | none =>
    rw [hfind] at h
    cases h
    exact .absent hfind
  | some value =>
    rw [hfind] at h
    cases value with
    | null =>
      cases h
      exact .null hfind
    | object columns =>
      cases h
      exact .object hfind
    | _ => cases h

/-- **The line of an image is a line it survives in.** -/
theorem lineOf_line {side line : Text} {isDeleted : Bool}
    (hmembers : (Json.object members).Readable Json.maxDepth)
    (h : format.line ((Json.object members).field? side) isDeleted = .ok line) :
    LineOf format members side isDeleted line := by
  obtain ⟨row, hrow, rfl⟩ := map_eq_ok_iff.1 h
  have himage := hasImage_of_ofImage hrow
  have hcolumns := himage.readable hmembers
  -- the sign column comes first only in a row that has no other
  by_cases hreserved : row.columns = [] ∧ format.signColumn = Json.numeralKey
  · obtain ⟨hnone, hkey⟩ := hreserved
    have hline : (row.mark format.signColumn isDeleted).line =
        (Json.object [(Json.numeralKey, .string (signText isDeleted))]).write := by
      rw [Row.line, Row.mark, hnone, hkey]
      rfl
    rw [hline]
    rw [hnone] at himage
    refine .numeral himage hkey ?_ ?_
    · cases isDeleted <;> decide +kernel
    · cases isDeleted <;> rfl
  · have hfirst : row.columns = [] → format.signColumn ≠ Json.numeralKey :=
      fun hnone hkey => hreserved ⟨hnone, hkey⟩
    have hmarked : (Json.object (row.mark format.signColumn isDeleted).columns).Readable
        Json.maxDepth := Row.readable_mark hcolumns hfirst
    refine .row himage ?_ hmarked.isPlain_write ?_
    · by_cases hnone : row.columns = []
      · exact Or.inr (hfirst hnone)
      · exact Or.inl hnone
    · rw [← Members.put_eq_withColumn hcolumns.of_object.1.nodup]
      exact Json.read?_write hmarked

/-- **The lines of an operation are lines its images survive in.** -/
theorem linesOf_lines {envelope : Envelope} {operation : RowOperation} {payload : Text}
    (hmembers : (Json.object members).Readable Json.maxDepth)
    (hbefore : envelope.before = (Json.object members).field? "before".toList)
    (hafter : envelope.after = (Json.object members).field? "after".toList)
    (h : format.lines envelope operation = .ok (some payload)) :
    LinesOf format members operation payload := by
  have hone : ∀ {side image isDeleted}, image = (Json.object members).field? side →
      (format.line image isDeleted).map some = .ok (some payload) →
      LineOf format members side isDeleted payload := by
    rintro side image isDeleted rfl himage
    obtain ⟨line, hline, heq⟩ := map_eq_ok_iff.1 himage
    cases heq
    exact lineOf_line hmembers hline
  cases operation with
  | read => exact .read (hone hafter h)
  | create => exact .create (hone hafter h)
  | delete => exact .delete (hone hbefore h)
  | unknown code => cases h
  | update =>
    obtain ⟨inserted, hinserted, hrest⟩ := bind_eq_ok_iff.1 h
    rw [hafter] at hinserted
    split at hrest
    case isTrue hone =>
      cases hrest
      exact .updateAfter hone (lineOf_line hmembers hinserted)
    case isFalse hboth =>
      obtain ⟨deleted, hdeleted, hlines⟩ := bind_eq_ok_iff.1 hrest
      rw [hbefore] at hdeleted
      cases hlines
      exact .update (by simpa using hboth) (lineOf_line hmembers hdeleted)
        (lineOf_line hmembers hinserted)

end RowFormat

namespace LoadRecord

open RowFormat

/-- **Row images survive in the records that are made of them.** The payload
of a record is the lines of its operation, and each of them reads as the
image it was made of. -/
theorem images_survive {routing : Routing} {format : RowFormat} {payload : Bytes}
    {envelope : Envelope} {record : LoadRecord} (hdecode : Envelope.decode payload = .ok envelope)
    (hrecord : ofEnvelope routing format envelope = .ok (some record)) :
    ∃ root operation, Json.readBytes? payload = some (.object root) ∧
      envelope.operation = some operation ∧
      format.LinesOf (Envelope.unwrap root) operation record.payload := by
  obtain ⟨root, hread, rfl⟩ := Envelope.decode_eq_ok_iff.1 hdecode
  have hmembers := Envelope.readable_unwrap (Envelope.readable_of_readBytes? hread)
  unfold ofEnvelope at hrecord
  split at hrecord
  case h_1 operation target hoperation _ =>
    obtain ⟨lines, hlines, hsome⟩ := map_eq_ok_iff.1 hrecord
    obtain ⟨text, rfl, rfl⟩ := Option.map_eq_some_iff.1 hsome
    exact ⟨root, operation, hread, hoperation, linesOf_lines hmembers rfl rfl hlines⟩
  case h_2 => cases hrecord

/-- An update from nothing: the deletion has the sign alone, the insertion
has it where the image had the column. -/
theorem images_survive_update :
    let routing : Routing := ⟨some "shop.orders".toList, []⟩
    let row : Text :=
      "\x7b\"op\":\"u\",\"after\":\x7b\"__DORIS_DELETE_SIGN__\":null,\"n\":1E5\x7d\x7d".toList
    let record : LoadRecord := ⟨"shop.orders".toList,
      "\x7b\"__DORIS_DELETE_SIGN__\":\"1\"\x7d".toList ++ '\n' ::
        "\x7b\"__DORIS_DELETE_SIGN__\":\"0\",\"n\":1e+5\x7d".toList⟩
    ∃ envelope, Envelope.decode (Text.bytes row) = .ok envelope ∧
      ofEnvelope routing {} envelope = .ok (some record) ∧
      ∃ root operation, Json.readBytes? (Text.bytes row) = some (.object root) ∧
        envelope.operation = some operation ∧
        RowFormat.LinesOf {} (Envelope.unwrap root) operation record.payload := by
  intro routing row record
  have htext : (Text.bytes row).text? = some row := by decide +kernel
  have hread : Json.readBytes? (Text.bytes row) = some (.object [("op".toList, .string ['u']),
      ("after".toList, .object [(defaultSignColumn, .null), (['n'], .number "1e+5".toList)])]) := by
    rw [Json.readBytes?, htext]
    rfl
  have hdecode := Envelope.decode_eq_ok_iff.2 ⟨_, hread, rfl⟩
  exact ⟨_, hdecode, rfl, @images_survive routing {} _ _ record hdecode rfl⟩

/-- **A row that its line does not stand for.** An image without columns
whose sign column has the reserved key is written as an object and read as a
number. -/
theorem not_images_survive_reserved :
    let routing : Routing := ⟨some "shop.orders".toList, []⟩
    let format : RowFormat := { signColumn := Json.numeralKey }
    let row : Text := "\x7b\"op\":\"c\"\x7d".toList
    ∃ envelope record, Envelope.decode (Text.bytes row) = .ok envelope ∧
      envelope.operation = some .create ∧ envelope.after = none ∧
      ofEnvelope routing format envelope = .ok (some record) ∧
      Json.read? record.payload ≠
        some (.object (Members.withColumn format.signColumn (.string ['0']) [])) := by
  intro routing format row
  have htext : (Text.bytes row).text? = some row := by decide +kernel
  have hread : Json.readBytes? (Text.bytes row) =
      some (.object [("op".toList, .string ['c'])]) := by
    rw [Json.readBytes?, htext]
    rfl
  have hdecode := Envelope.decode_eq_ok_iff.2 ⟨_, hread, rfl⟩
  have hreading : Json.read? (Json.object [(Json.numeralKey, .string ['0'])]).write =
      some (.number ['0']) := rfl
  refine ⟨_, ⟨"shop.orders".toList, _⟩, hdecode, rfl, rfl, rfl, ?_⟩
  intro h
  cases hreading.symm.trans h

end LoadRecord

end ChangeFeed
