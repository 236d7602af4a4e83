import ChangeFeed.Proofs.Schema.Statement
import ChangeFeed.Proofs.Schema.Translation
import ChangeFeed.Proofs.Text.Trimming
/-!
# Clauses — statements that are not about a column

`ADD` and `DROP` also stand before indexes, keys, constraints and partitions.
The default pattern does not tell these clauses from columns: any word behind
the verb but `COLUMN` is taken for a name. So the first word of the clause
becomes the column (`columnChange_of_clause`), a key that is dropped becomes a
statement that drops a column named after it, and an index that is added
becomes another addition of the last column.
-/


namespace ChangeFeed

/-! ## Clauses -/

/-- The clauses that are not about a column, by the keyword they open with and
the one that has to follow, if there is one. -/
def clauses : List (Text × Option Text) := [("INDEX".toList, none), ("KEY".toList, none),
  ("PRIMARY".toList, some "KEY".toList), ("UNIQUE".toList, none), ("FULLTEXT".toList, none),
  ("SPATIAL".toList, none), ("CONSTRAINT".toList, none), ("FOREIGN".toList, some "KEY".toList),
  ("CHECK".toList, none), ("PARTITION".toList, none)]

/-- The word is the keyword in letters of either case, perhaps with a bracket
right behind it. -/
def IsKeyword (word keyword : Text) : Prop :=
  Text.sameLetters (word.take keyword.length) keyword = true ∧
    (word.drop keyword.length).head?.all (· == '(') = true

/-- **The words are a statement that adds or drops something else than a
column.** -/
def IsClauseStatement (words : List Text) (verb : ColumnVerb) (object : Text) : Prop :=
  ∃ alter table target spelled rest,
    words = alter :: table :: target :: spelled :: object :: rest ∧
    alter.sameLetters "ALTER".toList = true ∧ table.sameLetters "TABLE".toList = true ∧
    spelled.sameLetters verb.sql = true ∧ ∃ clause ∈ clauses, IsKeyword object clause.1 ∧
      ∀ keyword, clause.2 = some keyword → ∃ word, rest.head? = some word ∧ IsKeyword word keyword

namespace Text

variable {t : Text}

theorem endsInLetters_of_sameLetters {s : Text} (h : t.sameLetters s = true) :
    t.endsInLetters s = true :=
  List.any_eq_true.2 ⟨t, (List.mem_tails t t).2 (List.suffix_refl t), h⟩

end Text

/-- The character is kept at the beginning of a name and is not blank. -/
def beginsName (c : Char) : Bool := !isSpace c && c != ',' && c != '\x60'

/-- A name begins with its first character, unless that is cut off. -/
theorem columnName_cons {c : Char} {t : Text} (h : beginsName c = true) :
    isSpace c = false ∧ ∃ rest, columnName (c :: t) = c :: rest := by
  obtain ⟨⟨hspace, hcomma⟩, hquote⟩ :
      (isSpace c = false ∧ (c == ',') = false) ∧ (c == '\x60') = false := by
    simpa [beginsName, bne] using h
  have htail : Text.trimEndWhile (· == ',') (c :: t) = c :: Text.trimEndWhile (· == ',') t :=
    Text.trimEndWhile_cons hcomma
  have htail' : ∀ rest, Text.trimEndWhile (· == '\x60') (c :: rest) =
      c :: Text.trimEndWhile (· == '\x60') rest := fun _ => Text.trimEndWhile_cons hquote
  rw [columnName, htail, Text.trimWhile, List.dropWhile_cons_of_neg (by simp [hquote]), htail']
  exact ⟨hspace, _, rfl⟩

/-- The keyword that a clause opens with begins with a letter, and `COLUMN`
does not open with it. -/
theorem opening_of_mem_clauses : ∀ clause ∈ clauses, clause.1 ≠ [] ∧
    clause.1.head?.all (fun c => c.isUpper && beginsName c && beginsName c.toLower) = true ∧
    Text.sameLetters ("COLUMN".toList.take clause.1.length) clause.1 = false := by
  decide

/-- What opens a clause is not the word `COLUMN`, and as a name it is not
blank. -/
theorem IsKeyword.object {object : Text} {clause : Text × Option Text} (hclause : clause ∈ clauses)
    (h : IsKeyword object clause.1) :
    object.sameLetters "COLUMN".toList = false ∧ (columnName object).isBlank = false := by
  obtain ⟨hne, hletter, hcolumn⟩ := opening_of_mem_clauses clause hclause
  obtain ⟨hsame, -⟩ := h
  constructor
  · rw [Bool.eq_false_iff]
    intro hobject
    have hprefix : Text.sameLetters ("COLUMN".toList.take clause.1.length) clause.1 = true := by
      rw [Text.sameLetters_iff] at hobject hsame ⊢
      rw [List.map_take, ← hobject, ← List.map_take, hsame]
    rw [hcolumn] at hprefix
    cases hprefix
  · obtain ⟨c, keyword, hkeyword⟩ := List.exists_cons_of_ne_nil hne
    rw [hkeyword] at hsame hletter
    obtain ⟨⟨hupper, hc⟩, hc'⟩ : (c.isUpper = true ∧ beginsName c = true) ∧
        beginsName c.toLower = true := by
      simpa using hletter
    cases object with
    | nil => cases hsame
    | cons d t =>
      rw [List.length_cons, List.take_succ_cons, Text.sameLetters_cons, Bool.and_eq_true,
        beq_iff_eq, toLower_eq_toLower_iff hupper] at hsame
      have hd : beginsName d = true := by
        rcases hsame.1 with rfl | rfl
        · exact hc'
        · exact hc
      obtain ⟨hspace, rest, hname⟩ := columnName_cons (t := t) hd
      rw [hname, Text.isBlank, List.all_cons, hspace, Bool.false_and]

/-- A statement that is about something else reads as one about a column. -/
theorem IsClauseStatement.isStatement {words : List Text} {verb : ColumnVerb} {object : Text}
    (h : IsClauseStatement words verb object) :
    ∃ spelled, IsStatement words spelled object ∧ ColumnVerb.parse? spelled = some verb := by
  obtain ⟨alter, table, target, spelled, rest, hwords, halter, htable, hverb, clause, hclause,
    hopens, -⟩ := h
  obtain ⟨hcolumn, -⟩ := hopens.object hclause
  refine ⟨spelled, ⟨alter, table, target, object, rest, hwords,
    Text.endsInLetters_of_sameLetters halter, htable, ?_, ?_⟩,
    ColumnVerb.parse?_of_sameLetters hverb⟩
  · cases verb with
    | add => exact Or.inl hverb
    | drop => exact Or.inr hverb
  · rw [hcolumn]
    rfl

/-! ## What becomes of them -/

namespace HistoryEntry

variable {entry : HistoryEntry} {ddl : Text} {verb : ColumnVerb} {object : Text}

/-- **Clauses are taken for columns.** An entry whose statement adds or drops
something else is translated all the same, with the word that opens the clause
for the name of a column: a clause that is dropped drops that column of the
target, and one that is added adds what the last description says. -/
theorem columnChange_of_clause {translator : DdlTranslator} {sourceTable : Option Text}
    {routing : Routing} (hmake : DdlTranslator.make none sourceTable routing = .ok translator)
    (halter : entry.isAlter = true) (hddl : entry.ddl = some ddl)
    (hstatement : IsClauseStatement ddl.words verb object) :
    entry.columnChange translator.pattern ≠ .ok none ∧
      entry.columnChange translator.pattern = entry.changeOf verb (columnName object) ∧
      ∀ envelope value target database table, verb = .drop →
        translator.follows envelope = true → envelope.history = some value →
        HistoryEntry.parse value = .ok entry →
        routing.target? envelope.source.identity = some target →
        splitTarget target = .ok (database, table) →
        translator.translate envelope = .ok (some ⟨database, table, .drop (columnName object),
          (ColumnChange.drop (columnName object)).render target⟩) := by
  rw [DdlTranslator.make_none] at hmake
  cases hmake
  obtain ⟨spelled, hreads, hverb⟩ := hstatement.isStatement
  have hchange : entry.columnChange Pattern.statement = entry.changeOf verb (columnName object) :=
    columnChange_of_first halter hddl (k := 0) hreads (fun j hj => absurd hj (Nat.not_lt_zero j))
      hverb
  refine ⟨hchange ▸ changeOf_ne_none _, hchange, ?_⟩
  rintro envelope value target database table rfl hfollows hhistory hparse htarget hsplit
  obtain ⟨-, -, -, -, -, -, -, -, -, clause, hclause, hopens, -⟩ := hstatement
  obtain ⟨-, hname⟩ := hopens.object hclause
  have hfault : (ColumnChange.drop (columnName object)).fault? = none := by
    simp [ColumnChange.fault?, ColumnChange.drop, hname]
  exact DdlTranslator.translate_eq_some_iff.2 ⟨hfollows, value, entry, target, hhistory, hparse,
    hchange, htarget, hsplit, hfault, rfl⟩

/-- A foreign key that is dropped drops a column `Foreign`. -/
theorem columnChange_of_clause_foreign_key :
    let ddl : Text := "alter table shop.orders\tdrop Foreign key fk_1".toList
    let value : Json := .object [("ddl".toList, .string ddl), ("tableChanges".toList,
      .array [.object [("type".toList, .string "ALTER".toList)]])]
    let envelope : Envelope :=
      ⟨none, ⟨some "shop".toList, none, some "orders".toList⟩, none, none, some value⟩
    let routing : Routing := ⟨none, [("shop.orders".toList, "d.t".toList)]⟩
    ∃ translator, DdlTranslator.make none none routing = .ok translator ∧
      IsClauseStatement ddl.words .drop "Foreign".toList ∧
      translator.translate envelope = .ok (some ⟨"d".toList, "t".toList,
        .drop "Foreign".toList, "ALTER TABLE d.t DROP COLUMN Foreign".toList⟩) := by
  intro ddl value envelope routing
  have hmake := DdlTranslator.make_none none routing
  have hstatement : IsClauseStatement ddl.words .drop "Foreign".toList :=
    ⟨"alter".toList, "table".toList, "shop.orders".toList, "drop".toList,
      ["key".toList, "fk_1".toList], by decide, by decide, by decide, by decide,
      ("FOREIGN".toList, some "KEY".toList), by decide, ⟨by decide, by decide⟩, by
        rintro keyword ⟨⟩
        exact ⟨"key".toList, rfl, by decide, by decide⟩⟩
  have halter : (ofValue value).isAlter = true := rfl
  have hddl : (ofValue value).ddl = some ddl := rfl
  obtain ⟨-, -, htranslate⟩ := columnChange_of_clause hmake halter hddl hstatement
  exact ⟨_, hmake, hstatement, htranslate envelope value "d.t".toList "d".toList "t".toList rfl rfl
    rfl rfl (by decide) (by decide)⟩

/-- **Dropping the primary key is not left alone**: the entry drops a column
`PRIMARY`. -/
theorem not_none_of_primary_key :
    let describe (name type : String) : Json := .object [("name".toList, .string name.toList),
      ("typeName".toList, .string type.toList)]
    let ddl : Text := "ALTER TABLE t DROP PRIMARY KEY".toList
    let entry : HistoryEntry := ⟨some ddl, some (.object [
      ("type".toList, .string "ALTER".toList),
      ("table".toList, .object [("columns".toList,
        .array [describe "id" "BIGINT", describe "age" "INT"])])])⟩
    ∃ translator, DdlTranslator.make none none .nowhere = .ok translator ∧
      entry.isAlter = true ∧ IsClauseStatement ddl.words .drop "PRIMARY".toList ∧
      entry.columnChange translator.pattern = .ok (some (.drop "PRIMARY".toList)) ∧
      entry.columnChange translator.pattern ≠ .ok none := by
  intro describe ddl entry
  have hstatement : IsClauseStatement ddl.words .drop "PRIMARY".toList :=
    ⟨"ALTER".toList, "TABLE".toList, "t".toList, "DROP".toList, ["KEY".toList], by decide,
      by decide, by decide, by decide, ("PRIMARY".toList, some "KEY".toList), by decide,
      ⟨by decide, by decide⟩, by
        rintro keyword ⟨⟩
        exact ⟨"KEY".toList, rfl, by decide, by decide⟩⟩
  obtain ⟨spelled, hreads, hverb⟩ := hstatement.isStatement
  have hchange : entry.columnChange Pattern.statement = .ok (some (.drop "PRIMARY".toList)) :=
    columnChange_of_first rfl rfl (k := 0) hreads (fun j hj => absurd hj (Nat.not_lt_zero j)) hverb
  refine ⟨_, DdlTranslator.make_none none .nowhere, rfl, hstatement, hchange, ?_⟩
  rw [hchange]
  exact fun h => by cases h

end HistoryEntry

end ChangeFeed
