import ChangeFeed.Proofs.Frontend.Passage
import ChangeFeed.Proofs.Rows.Outcome
import ChangeFeed.Proofs.Schema.Statement
import ChangeFeed.Proofs.Text.Cutting
/-!
# Targets — where the rows and the changes of a table go

A target is cut at its first dot, and the cut loses nothing
(`splitTarget_eq_ok_iff`). So the database and the table of a schema change are
those of the target that routing names for the identity of its source, which is
the target of every record from a source of the same identity.
-/


namespace ChangeFeed

/-- **The two parts of a target** make it up, neither is empty, and the
database has no dot. -/
theorem splitTarget_eq_ok_iff {target database table : Text} :
    splitTarget target = .ok (database, table) ↔
      target = database ++ '.' :: table ∧ '.' ∉ database ∧ database ≠ [] ∧ table ≠ [] := by
  unfold splitTarget
  rw [← and_assoc, ← Text.splitFirst?_eq_some_iff]
  cases hsplit : target.splitFirst? '.' with
  | none => simp
  | some parts =>
    obtain ⟨first, second⟩ := parts
    simp only [Option.some.injEq, Prod.mk.injEq]
    constructor
    · intro h
      split at h
      · cases h
      · next hempty =>
        cases h
        simpa using hempty
    · rintro ⟨⟨rfl, rfl⟩, hdatabase, htable⟩
      rw [if_neg (by simp [hdatabase, htable])]

/-- A record is for the target of its source, and where there is a target only
an operation that is unknown has no record. -/
theorem LoadRecord.ofEnvelope_of_target {routing : Routing} (format : RowFormat)
    {envelope : Envelope} {target : Text}
    (htarget : routing.target? envelope.source.identity = some target) :
    (∀ record, ofEnvelope routing format envelope = .ok (some record) →
        record.target = target) ∧
      (ofEnvelope routing format envelope = .ok none →
        envelope.operation = none ∨ ∃ code, envelope.operation = some (.unknown code)) := by
  constructor
  · intro record hrecord
    cases hoperation : envelope.operation with
    | none =>
      rw [ofEnvelope_of_isDropped (Or.inl hoperation)] at hrecord
      cases hrecord
    | some operation =>
      rw [ofEnvelope_eq_map hoperation htarget] at hrecord
      obtain ⟨lines, -, hlines⟩ := map_eq_ok_iff.1 hrecord
      obtain ⟨payload, -, rfl⟩ := Option.map_eq_some_iff.1 hlines
      rfl
  · intro hnone
    rcases ofEnvelope_eq_ok_none_iff.1 hnone with hoperation | hnowhere | hunknown
    · exact Or.inl hoperation
    · rw [htarget] at hnowhere
      cases hnowhere
    · exact Or.inr hunknown

/-- A statement begins with its table and its verb. -/
theorem ColumnChange.prefix_render (table : Text) (change : ColumnChange) :
    "ALTER TABLE ".toList ++ table ++ ' ' :: change.verb.sql ++ " COLUMN ".toList <+:
      change.render table := by
  unfold render
  exact (List.prefix_append _ _).trans (List.prefix_append _ _)

namespace Serializer

variable {serializer : Serializer} {row history : Envelope} {change : SchemaChange}

/-- The translator of a serializer goes by the serializer's routing. -/
theorem routing_of_make {routing : Routing} {format : RowFormat}
    {pattern sourceTable : Option Text} {client : Option Client}
    (hmake : make routing format pattern sourceTable client = .ok serializer) :
    serializer.routing = routing ∧ serializer.format = format ∧
      serializer.translator.routing = routing := by
  obtain ⟨translator, htranslator, rfl⟩ := map_eq_ok_iff.1 hmake
  refine ⟨rfl, rfl, ?_⟩
  unfold DdlTranslator.make at htranslator
  split at htranslator
  · cases htranslator
  · cases htranslator
    rfl

/-- **What a schema change asks about** is its own database and table. -/
theorem path_of_get (htranslate : serializer.translator.translate history = .ok (some change))
    (script : Script) :
    ∀ request ∈ Event.requests ((serializer.schemaChange history).play script).events,
      request.method = .get → request.path = checkPath change.database change.table := by
  intro request hrequest hget
  cases hclient : serializer.client with
  | none => simp [schemaChange, htranslate, hclient] at hrequest
  | some client =>
    have hpassage := passage_of_translate hclient htranslate script
    obtain ⟨host, -, rfl | rfl⟩ := hpassage.eq_question_or_order hrequest
    · rfl
    · cases hget

/-- **The rows and the changes of a table go to one target.** For sources of
one identity the target of every record is that of every schema change; the
statement of the change names it, the frontends are asked about its database
and its table, and a row is not left out for want of a target. -/
theorem rows_and_changes_share_target {routing : Routing} {format : RowFormat}
    {pattern sourceTable : Option Text} {client : Option Client}
    (hmake : make routing format pattern sourceTable client = .ok serializer)
    (hsource : row.source.identity = history.source.identity)
    (htranslate : serializer.translator.translate history = .ok (some change)) :
    routing.target? row.source.identity = some change.target ∧
      (∀ record, LoadRecord.ofEnvelope serializer.routing serializer.format row =
        .ok (some record) → record.target = change.target) ∧
      (LoadRecord.ofEnvelope serializer.routing serializer.format row = .ok none →
        row.operation = none ∨ ∃ code, row.operation = some (.unknown code)) ∧
      "ALTER TABLE ".toList ++ change.target ++ ' ' :: change.change.verb.sql ++
        " COLUMN ".toList <+: change.statement ∧
      '.' ∉ change.database ∧ change.database ≠ [] ∧ change.table ≠ [] ∧
      ∀ script, ∀ request ∈ Event.requests ((serializer.schemaChange history).play script).events,
        request.method = .get → request.path =
          "/api/enable_light_schema_change/".toList ++ change.database ++ '/' :: change.table := by
  obtain ⟨hrouting, -, hshared⟩ := routing_of_make hmake
  obtain ⟨-, value, entry, target, -, -, -, htarget, hsplit, -, hstatement⟩ :=
    DdlTranslator.translate_eq_some_iff.1 htranslate
  obtain ⟨hjoined, hdot, hdatabase, htable⟩ := splitTarget_eq_ok_iff.1 hsplit
  have hsame : target = change.target := hjoined
  rw [hshared, hsame, ← hsource] at htarget
  obtain ⟨hrecord, hnone⟩ := LoadRecord.ofEnvelope_of_target serializer.format htarget
  rw [hrouting]
  refine ⟨htarget, hrecord, hnone, ?_, hdot, hdatabase, htable, ?_⟩
  · rw [hstatement, hsame]
    exact ColumnChange.prefix_render _ _
  · exact path_of_get htranslate

/-- A target may have more dots than one, and an identity may be spelled by
other parts of a name. -/
theorem rows_and_changes_share_target_dots :
    let routing : Routing := ⟨none, [("shop.public.orders".toList, "dw.ods.orders".toList)]⟩
    let row : Envelope := ⟨some .create, ⟨some "shop".toList, some "public".toList,
      some "orders".toList⟩, none, some (.object []), none⟩
    let ddl : Text := "ALTER TABLE orders DROP COLUMN qty".toList
    let value : Json := .object [("ddl".toList, .string ddl), ("tableChanges".toList,
      .array [.object [("type".toList, .string "ALTER".toList)]])]
    let history : Envelope :=
      ⟨none, ⟨some "shop.public".toList, none, some "orders".toList⟩, none, none, some value⟩
    ∃ serializer change record, make routing {} none none none = .ok serializer ∧
      row.source.identity = history.source.identity ∧
      serializer.translator.translate history = .ok (some change) ∧
      LoadRecord.ofEnvelope serializer.routing serializer.format row = .ok (some record) ∧
      record.target = change.target ∧ change.database = "dw".toList ∧
      change.table = "ods.orders".toList := by
  intro routing row ddl value history
  have hmake : make routing {} none none none =
      .ok ⟨routing, {}, ⟨Pattern.statement, none, routing⟩, none⟩ := by
    rw [make, DdlTranslator.make_none]
    rfl
  have hsource : row.source.identity = history.source.identity := by decide
  have hstatement : IsStatement (ddl.words.drop 0) "DROP".toList "qty".toList :=
    ⟨"ALTER".toList, "TABLE".toList, "orders".toList, "COLUMN".toList, ["qty".toList],
      by decide, by decide, by decide, Or.inr (by decide), by decide⟩
  have hverb : ColumnVerb.parse? "DROP".toList = some .drop := by decide
  have hchange : (HistoryEntry.ofValue value).columnChange Pattern.statement =
      .ok (some (.drop "qty".toList)) :=
    HistoryEntry.columnChange_of_first rfl rfl hstatement
      (fun j hj => absurd hj (Nat.not_lt_zero j)) hverb
  have htranslate : (⟨Pattern.statement, none, routing⟩ : DdlTranslator).translate history =
      .ok (some ⟨"dw".toList, "ods.orders".toList, .drop "qty".toList,
        "ALTER TABLE dw.ods.orders DROP COLUMN qty".toList⟩) :=
    DdlTranslator.translate_eq_some_iff.2 ⟨rfl, value, _, "dw.ods.orders".toList, rfl, rfl,
      hchange, by decide, by decide, by decide, by decide⟩
  have hrecord : LoadRecord.ofEnvelope routing {} row = .ok (some ⟨"dw.ods.orders".toList,
      "\x7b\"__DORIS_DELETE_SIGN__\":\"0\"\x7d".toList⟩) := by decide
  obtain ⟨-, htarget, -⟩ := rows_and_changes_share_target hmake hsource htranslate
  exact ⟨_, _, _, hmake, hsource, htranslate, hrecord, htarget _ hrecord, rfl, rfl⟩

end Serializer

end ChangeFeed
