import ChangeFeed.Proofs.Json.Inverse
import ChangeFeed.Proofs.Schema.AddedColumn
import ChangeFeed.Proofs.Schema.Target
import ChangeFeed.Proofs.Text.Trimming
/-!
# The question — what a frontend is asked about a column

The question is put together on its own, from the column change and not from
the statement, and it is put only if its parameters are complete. Both come
of a change that names a column: the name is not blank, so the parameters are
complete (`areCheckParameters_iff`) and the question is always asked
(`question_always_asked`). The name in the question is trimmed and the one in
the statement is not, so they are the same text exactly where there is nothing
to trim (`question_names_altered_column`).
-/


namespace ChangeFeed

/-! ## Names -/

/-- A name is cut out of what was matched. -/
theorem mem_of_mem_columnName {matched : Text} {c : Char} (h : c ∈ columnName matched) :
    c ∈ matched := by
  have hcut : columnName matched <:+: matched := by
    unfold columnName Text.trimWhile
    rw [Text.trimEndWhile_eq_rdropWhile, Text.trimEndWhile_eq_rdropWhile]
    exact (List.rdropWhile_prefix _ _).isInfix.trans
      ((List.dropWhile_suffix _).isInfix.trans (List.rdropWhile_prefix _ _).isInfix)
  exact hcut.subset h

namespace HistoryEntry

variable {entry : HistoryEntry} {pattern : Pattern} {change : ColumnChange}

/-- **The default pattern finds names without white space.** -/
theorem isUnbroken_of_found? {verb : ColumnVerb} {name : Text}
    (h : entry.found? Pattern.statement = some (verb, some name)) : name.IsUnbroken := by
  obtain ⟨-, captures, hsearch, -, hname⟩ := found?_eq_some_iff.1 h
  obtain ⟨matched, hmatched, rfl⟩ := Option.map_eq_some_iff.1 hname
  obtain ⟨ddl, -, hsearch⟩ := Option.bind_eq_some_iff.1 hsearch
  obtain ⟨k, _, column, hgroups, hstatement, -⟩ :=
    Pattern.search_statement_eq_some_iff.1 ⟨captures, hsearch, rfl⟩
  -- what the third group holds is a word, and the name is cut out of it
  have hcolumn : some matched = some column := hmatched.symm.trans (Prod.mk.inj hgroups).2
  have hword : matched ∈ ddl.words := by
    rw [Option.some.inj hcolumn]
    exact List.mem_of_mem_drop hstatement.column_mem
  exact fun c hc => (Text.isWord_of_mem_words hword).2 c (mem_of_mem_columnName hc)

/-- So does a column that is dropped have one. -/
theorem isUnbroken_of_drop (h : entry.columnChange Pattern.statement = .ok (some change))
    (hverb : change.verb = .drop) : change.column.IsUnbroken := by
  rcases columnChange_eq_some_iff.1 h with ⟨name, hfound, rfl⟩ | ⟨_, -, hadded⟩
  · exact isUnbroken_of_found? hfound
  · -- what is added is not dropped
    obtain ⟨last, own, -, haddition⟩ := exists_addition_of_addedColumn hadded
    obtain ⟨typeName, type, -, -, rfl⟩ := ColumnDescription.addition_eq_ok_iff.1 haddition
    cases hverb

end HistoryEntry

/-! ## Parameters -/

/-- **The parameters are complete** exactly if the column has a name: what
counts as blank is the same for both. -/
theorem areCheckParameters_iff {change : ColumnChange} :
    areCheckParameters (checkParameters change) = true ↔ change.column.isBlank = false := by
  constructor
  · intro h
    by_contra hblank
    rw [Bool.not_eq_false] at hblank
    rw [checkParameters, if_pos hblank] at h
    cases h
  · intro h
    rw [Client.checkParameters_of_column h]
    rfl

/-- A column that can be added has a type. -/
theorem ColumnChange.isSome_type_of_fault?_eq_none {change : ColumnChange}
    (h : change.fault? = none) (hverb : change.verb = .add) : change.type.isSome = true := by
  unfold fault? at h
  split at h
  · cases h
  · split at h
    · cases h
    · next hmissing => simpa [hverb, Option.isSome_iff_ne_none] using hmissing

namespace Client

variable {client : Client} {change : SchemaChange}

/-- The question carries the parameters. -/
theorem question_eq (h : change.change.column.isBlank = false) (host : Text) :
    client.question change host = client.request host .get
      (checkPath change.database change.table) (.object (checkParameters change.change)) := by
  rw [checkParameters_of_column h]
  rfl

/-- The parameters of the question are read back from it. -/
theorem read?_body_question (client : Client) (change : SchemaChange) (host : Text) :
    Json.read? (client.question change host).body =
      some (.object [("isDropColumn".toList, .bool change.change.verb.isDrop),
        ("columnName".toList, .string change.change.column.trim)]) := by
  refine Json.read?_write (.object ⟨?_, ?_⟩ ?_)
  · show ["isDropColumn".toList, "columnName".toList].Nodup
    decide
  · show some "isDropColumn".toList ≠ some Json.numeralKey
    decide
  · rw [List.forall_mem_cons, List.forall_mem_singleton]
    exact ⟨.bool _, .string _⟩

/-- And so is the statement from the order. -/
theorem read?_body_order (client : Client) (change : SchemaChange) (host : Text) :
    Json.read? (client.order change host).body =
      some (.object [("stmt".toList, .string change.statement)]) := by
  refine Json.read?_write (.object ⟨?_, ?_⟩ ?_)
  · show ["stmt".toList].Nodup
    decide
  · show some "stmt".toList ≠ some Json.numeralKey
    decide
  · exact List.forall_mem_singleton.2 (.string _)

/-- **The question is the first thing that is done**, whichever of the
frontends is asked. -/
theorem apply_eq_ask (h : change.change.column.isBlank = false)
    (hnodes : endpoints client.nodes ≠ []) :
    ∃ next, client.apply change.database change.table change.change change.statement =
      .ask (endpoints client.nodes) (client.question change) next := by
  unfold apply
  rw [check_of_column h, send_of_listed hnodes]
  exact ⟨_, rfl⟩

end Client

/-! ## One target -/

/-- An envelope whose statement adds a column, with a description of it under
some name. -/
def Envelope.adding (name : Text) : Envelope where
  operation := none
  source := ⟨none, none, none⟩
  before := none
  after := none
  history := some (.object [("ddl".toList, .string "ALTER TABLE t ADD age INT".toList),
    ("tableChanges".toList, .array [.object [("type".toList, .string "ALTER".toList),
      ("table".toList, .object [("columns".toList, .array [.object
        [("name".toList, .string name), ("typeName".toList, .string "INT".toList)]])])]])])

namespace Serializer

/-- A serializer with one target for all tables, which goes by the default
pattern. -/
def toOneTable (client : Client) : Serializer where
  routing := ⟨some "db.tbl".toList, []⟩
  format := {}
  translator := ⟨Pattern.statement, none, ⟨some "db.tbl".toList, []⟩⟩
  client := some client

theorem make_toOneTable (client : Client) :
    make ⟨some "db.tbl".toList, []⟩ {} none none (some client) = .ok (toOneTable client) := by
  rw [make, DdlTranslator.make_none]
  rfl

/-- A column is added under the name of its description, whatever that is. -/
theorem translate_toOneTable (client : Client) {name : Text} (hname : name.isBlank = false) :
    (toOneTable client).translator.translate (.adding name) =
      .ok (some ⟨"db".toList, "tbl".toList, .add name .int,
        "ALTER TABLE db.tbl ADD COLUMN ".toList ++ name ++ " INT".toList⟩) := by
  have hwords : Text.words "ALTER TABLE t ADD age INT".toList = ["ALTER".toList, "TABLE".toList,
      "t".toList, "ADD".toList, "age".toList, "INT".toList] := by decide
  have hstatement : IsStatement (Text.words "ALTER TABLE t ADD age INT".toList) "ADD".toList
      "age".toList :=
    ⟨_, _, _, _, _, hwords, by decide, by decide, Or.inl (by decide), by decide⟩
  have hverb : ColumnVerb.parse? "ADD".toList = some .add := by decide
  have hfault : (ColumnChange.add name .int).fault? = none := by
    simp [ColumnChange.fault?, ColumnChange.add, hname]
  refine DdlTranslator.translate_eq_some_iff.2 ⟨rfl, _, _, "db.tbl".toList, rfl, rfl, ?_, rfl, rfl,
    hfault, rfl⟩
  exact HistoryEntry.columnChange_of_isStatement rfl rfl hstatement hverb

end Serializer

/-! ## What is asked -/

/-- **The statement alters the column of that name**: the name stands behind
the word `COLUMN`, and behind the name there is nothing if the column is dropped,
and a space and the type if it is added. -/
def SchemaChange.Alters (change : SchemaChange) (name : Text) : Prop :=
  ∃ clauses, change.statement = "ALTER TABLE ".toList ++ change.target ++
      ' ' :: change.change.verb.sql ++ " COLUMN ".toList ++ name ++ clauses ∧
    match change.change.verb with
    | .drop => clauses = []
    | .add => ∃ type, change.change.type = some type ∧ ' ' :: type.sql <+: clauses

namespace DdlTranslator

variable {translator : DdlTranslator} {envelope : Envelope} {change : SchemaChange}

/-- **A translated change alters the column it names.** -/
theorem alters_of_translate (h : translator.translate envelope = .ok (some change)) :
    change.Alters change.change.column := by
  obtain ⟨-, value, entry, target, -, -, -, -, hsplit, hfault, hstatement⟩ :=
    translate_eq_some_iff.1 h
  obtain ⟨htarget, -⟩ := splitTarget_eq_ok_iff.1 hsplit
  unfold SchemaChange.Alters
  rw [hstatement, htarget]
  cases hverb : change.change.verb with
  | drop =>
    refine ⟨[], ?_, rfl⟩
    unfold ColumnChange.render
    rw [hverb]
    rfl
  | add =>
    obtain ⟨type, htype⟩ :=
      Option.isSome_iff_exists.1 (ColumnChange.isSome_type_of_fault?_eq_none hfault hverb)
    refine ⟨change.change.clauses, ?_, type, htype, ?_⟩
    · unfold ColumnChange.render
      rw [hverb]
      rfl
    · unfold ColumnChange.clauses
      rw [htype, List.append_assoc]
      exact List.prefix_append _ _

/-- **The question is always asked.** The parameters of a translated change are
complete: whether a column is dropped, and the name of one, which is not blank.
An added column has a type. So the first thing that is done about the change is
to ask one of the frontends, and the question is sent if the one that is picked
can be reached, as it is where all of them can. -/
theorem question_always_asked (h : translator.translate envelope = .ok (some change)) :
    areCheckParameters (checkParameters change.change) = true ∧
      (∃ column, column.isBlank = false ∧ checkParameters change.change =
        [("isDropColumn".toList, .bool change.change.verb.isDrop),
          ("columnName".toList, .string column)]) ∧
      (change.change.verb = .add → change.change.type.isSome = true) ∧
      ∀ (serializer : Serializer) (client : Client), serializer.translator = translator →
        serializer.client = some client →
        let question host := client.request host .get (checkPath change.database change.table)
          (.object (checkParameters change.change))
        (endpoints client.nodes ≠ [] → ∃ next,
          serializer.schemaChange envelope = .ask (endpoints client.nodes) question next) ∧
        (∀ script host, client.reached? script = some host →
          (Event.requests ((serializer.schemaChange envelope).play script).events).head? =
            some (question host)) ∧
        (endpoints client.nodes ≠ [] → ∀ script : Script,
          (∀ host ∈ endpoints client.nodes, script.reaches 0 host = true) →
          ∃ host ∈ endpoints client.nodes,
            (Event.requests ((serializer.schemaChange envelope).play script).events).head? =
              some (question host)) := by
  have hcolumn := column_of_translate h
  obtain ⟨-, _, _, _, -, -, -, -, -, hfault, -⟩ := translate_eq_some_iff.1 h
  refine ⟨areCheckParameters_iff.2 hcolumn, ?_, ?_, ?_⟩
  · exact ⟨_, Text.isBlank_trim hcolumn, Client.checkParameters_of_column hcolumn⟩
  · exact ColumnChange.isSome_type_of_fault?_eq_none hfault
  · rintro serializer client rfl hclient question
    have hquestion : question = client.question change :=
      funext fun host => (Client.question_eq hcolumn host).symm
    have hsent : ∀ script host, client.reached? script = some host →
        (Event.requests ((serializer.schemaChange envelope).play script).events).head? =
          some (question host) := by
      intro script host hreached
      rw [hquestion]
      exact (Serializer.passage_of_translate hclient h script).head?_requests hreached
    refine ⟨fun hnodes => ?_, hsent, fun hnodes script hall => ?_⟩
    · rw [Serializer.schemaChange_eq_apply hclient h, hquestion]
      exact Client.apply_eq_ask hcolumn hnodes
    · obtain ⟨host, hreached⟩ := Script.exists_reached? hnodes hall
      exact ⟨host, (Script.mem_of_reached? hreached).1, hsent script host hreached⟩

/-- The question about a column that stands between quotes, with a comma behind
it. -/
theorem question_always_asked_quoted :
    let client : Client := ⟨["fe:8030".toList], "root".toList, []⟩
    let serializer := Serializer.toOneTable client
    let value : Json := .object [("ddl".toList, .string "ALTER TABLE t DROP \x60qty\x60,".toList),
      ("tableChanges".toList, .array [.object [("type".toList, .string "ALTER".toList)]])]
    let envelope : Envelope := ⟨none, ⟨none, none, none⟩, none, none, some value⟩
    ∃ change, serializer.translator.translate envelope = .ok (some change) ∧
      ∀ script, script.reaches 0 "fe:8030".toList = true →
        (Event.requests ((serializer.schemaChange envelope).play script).events).head? =
          some (client.request "fe:8030".toList .get
            "/api/enable_light_schema_change/db/tbl".toList
            (.object [("isDropColumn".toList, .bool true),
              ("columnName".toList, .string "qty".toList)])) := by
  intro client serializer value envelope
  have hstatement : IsStatement (Text.words "ALTER TABLE t DROP \x60qty\x60,".toList)
      "DROP".toList "\x60qty\x60,".toList :=
    ⟨"ALTER".toList, "TABLE".toList, "t".toList, "\x60qty\x60,".toList, [], by decide, by decide,
      by decide, Or.inr (by decide), by decide⟩
  have hverb : ColumnVerb.parse? "DROP".toList = some .drop := by decide
  have hchange : (HistoryEntry.ofValue value).columnChange Pattern.statement =
      .ok (some (.drop "qty".toList)) :=
    HistoryEntry.columnChange_of_isStatement rfl rfl hstatement hverb
  have htranslate : serializer.translator.translate envelope = .ok (some ⟨"db".toList,
      "tbl".toList, .drop "qty".toList, "ALTER TABLE db.tbl DROP COLUMN qty".toList⟩) :=
    translate_eq_some_iff.2 ⟨rfl, value, _, "db.tbl".toList, rfl, rfl, hchange, rfl, by decide,
      by decide, by decide⟩
  obtain ⟨-, -, -, hasked⟩ := question_always_asked htranslate
  obtain ⟨-, -, hsent⟩ := hasked serializer client rfl rfl
  have hnodes : endpoints client.nodes = ["fe:8030".toList] := by decide
  refine ⟨_, htranslate, fun script hreach => ?_⟩
  have hall : ∀ host ∈ endpoints client.nodes, script.reaches 0 host = true := by
    rw [hnodes]
    exact List.forall_mem_singleton.2 hreach
  obtain ⟨host, hmem, hhead⟩ := hsent (by decide) script hall
  rw [hnodes, List.mem_singleton] at hmem
  rwa [hmem] at hhead

end DdlTranslator

namespace Serializer

variable {serializer : Serializer} {client : Client} {envelope : Envelope} {change : SchemaChange}

/-- **The question names the column that is altered**, trimmed. Whatever is
asked or ordered about a translated change, the question names the column behind
the word `COLUMN` of the statement that is ordered, without the white space at
its ends. It is the same text exactly where there is none, as there never is
where the default pattern finds a column to drop. -/
theorem question_names_altered_column (hclient : serializer.client = some client)
    (htranslate : serializer.translator.translate envelope = .ok (some change)) :
    change.Alters change.change.column ∧
      (∀ script, ∀ request ∈ Event.requests ((serializer.schemaChange envelope).play script).events,
        request.method = .get ∧ Json.read? request.body =
            some (.object [("isDropColumn".toList, .bool change.change.verb.isDrop),
              ("columnName".toList, .string change.change.column.trim)]) ∨
          request.method = .post ∧ Json.read? request.body =
            some (.object [("stmt".toList, .string change.statement)])) ∧
      (change.change.column.trim = change.change.column ↔
        (∀ c, change.change.column.head? = some c → isSpace c = false) ∧
          ∀ c, change.change.column.getLast? = some c → isSpace c = false) ∧
      (Pattern.parse? defaultPattern = some serializer.translator.pattern →
        change.change.verb = .drop → change.change.column.trim = change.change.column) := by
  refine ⟨DdlTranslator.alters_of_translate htranslate, ?_, Text.trimWhile_eq_self_iff, ?_⟩
  · intro script request hrequest
    have hpassage := passage_of_translate hclient htranslate script
    obtain ⟨host, -, rfl | rfl⟩ := hpassage.eq_question_or_order hrequest
    · exact Or.inl ⟨rfl, Client.read?_body_question client change host⟩
    · exact Or.inr ⟨rfl, Client.read?_body_order client change host⟩
  · intro hpattern hverb
    obtain ⟨-, _, entry, _, -, -, hchange, -⟩ := DdlTranslator.translate_eq_some_iff.1 htranslate
    rw [Pattern.parse?_defaultPattern] at hpattern
    rw [← Option.some.inj hpattern] at hchange
    exact Text.trimWhile_eq_self (HistoryEntry.isUnbroken_of_drop hchange hverb)

/-- A column that is described without white space around its name is asked
about under the name that it is added under. -/
theorem question_names_altered_column_plain :
    let client : Client := ⟨["fe:8030".toList], "root".toList, []⟩
    ∃ change, (toOneTable client).translator.translate (.adding "qty".toList) =
        .ok (some change) ∧
      change.Alters "qty".toList ∧ change.change.column.trim = "qty".toList := by
  intro client
  have hname : Text.isBlank "qty".toList = false := by decide
  have htranslate := translate_toOneTable client hname
  obtain ⟨halters, -, htrim, -⟩ := question_names_altered_column rfl htranslate
  refine ⟨_, htranslate, halters, htrim.2 ⟨?_, ?_⟩⟩
  · rintro c ⟨⟩
    rfl
  · rintro c ⟨⟩
    rfl

/-- **White space around a name is not asked about**, though it stands in the
statement: the column is asked about under another text than follows the word
`COLUMN`. -/
theorem not_question_names_padded :
    let client : Client := ⟨["fe:8030".toList], "root".toList, []⟩
    ∃ change, make ⟨some "db.tbl".toList, []⟩ {} none none (some client) =
        .ok (toOneTable client) ∧
      (toOneTable client).translator.translate (.adding " age ".toList) = .ok (some change) ∧
      change.statement = "ALTER TABLE db.tbl ADD COLUMN  age  INT".toList ∧
      ¬ change.Alters "age".toList ∧
      ∀ script host, client.reached? script = some host → ∃ request,
        (Event.requests (((toOneTable client).schemaChange (.adding " age ".toList)).play
          script).events).head? = some request ∧
        Json.read? request.body = some (.object [("isDropColumn".toList, .bool false),
          ("columnName".toList, .string "age".toList)]) := by
  intro client
  have hname : Text.isBlank " age ".toList = false := by decide
  have htranslate := translate_toOneTable client hname
  refine ⟨_, make_toOneTable client, htranslate, by decide, ?_, fun script host hreached => ?_⟩
  · rintro ⟨clauses, hstatement, -⟩
    have hprefix : "ALTER TABLE db.tbl ADD COLUMN age".toList <+:
        "ALTER TABLE db.tbl ADD COLUMN  age  INT".toList := ⟨clauses, hstatement.symm⟩
    exact absurd hprefix (by decide)
  · have hpassage : client.Passage _ script _ _ _ := passage_of_translate rfl htranslate script
    exact ⟨_, hpassage.head?_requests hreached, Client.read?_body_question client _ host⟩

end Serializer

end ChangeFeed
