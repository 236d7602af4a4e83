import ChangeFeed.Proofs.Schema.Translation
/-!
# Added columns — whose description an addition carries

A statement names the column it adds, and the entry describes every column
of the table afterwards. An addition is made of the last description, under
that description's own name, and the name from the statement only stands in
where the description has none. So the column that is added is the column
that was named exactly where the last description does for it:
`isAdditionOf_iff` says when that is, and `not_isAdditionOf_first` has a
statement that puts its column elsewhere.
-/


namespace ChangeFeed

namespace ColumnDescription

/-- **The addition of a column** under a name, with the type, the default and
the comment of a description. -/
def addition (description : ColumnDescription) (name : Text) : Except Fault ColumnChange :=
  match description.type with
  | none => .error (.malformedHistory (.untypedColumn name))
  | some typeName =>
    (ColumnType.ofMySql typeName description.length description.scale).map fun type =>
      ((ColumnChange.add name type).withDefault description.default).withComment
        description.comment

/-- **What an addition is made of**: the type that is mapped, the default and
the comment. -/
theorem addition_eq_ok_iff {description : ColumnDescription} {name : Text}
    {change : ColumnChange} :
    description.addition name = .ok change ↔
      ∃ typeName type, description.type = some typeName ∧
        ColumnType.ofMySql typeName description.length description.scale = .ok type ∧
        change = ((ColumnChange.add name type).withDefault description.default).withComment
          description.comment := by
  unfold addition
  cases description.type with
  | none => simp
  | some typeName =>
    constructor
    · intro h
      obtain ⟨type, hmap, rfl⟩ := map_eq_ok_iff.1 h
      exact ⟨typeName, type, rfl, hmap, rfl⟩
    · rintro ⟨_, type, ⟨⟩, hmap, rfl⟩
      exact map_eq_ok_iff.2 ⟨type, hmap, rfl⟩

/-- An addition is of the column it is made for. -/
theorem column_of_addition {description : ColumnDescription} {name : Text}
    {change : ColumnChange} (h : description.addition name = .ok change) :
    change.column = name := by
  obtain ⟨typeName, type, -, -, rfl⟩ := addition_eq_ok_iff.1 h
  rfl

end ColumnDescription

namespace HistoryEntry

variable {entry : HistoryEntry} {pattern : Pattern} {name : Text} {change : ColumnChange}

/-- The descriptions of the table's columns after the change, in order. -/
def columns (entry : HistoryEntry) : List ColumnDescription :=
  match (entry.change.bind (·.get? "table".toList)).bind (·.get? "columns".toList) with
  | some (.array columns) => columns.map ColumnDescription.ofJson
  | _ => []

/-- **The statement adds a column of that name**, as far as the pattern
sees. -/
def AddsColumn (entry : HistoryEntry) (pattern : Pattern) (name : Text) : Prop :=
  entry.isAlter = true ∧ ∃ captures, entry.ddl.bind pattern.search = some captures ∧
    ColumnVerb.parse? ((captures.get? 1).getD []) = some .add ∧
    (captures.get? 3).map columnName = some name

/-- **The change is the addition of the named column**, as a description of
that name has it. -/
def IsAdditionOf (entry : HistoryEntry) (name : Text) (change : ColumnChange) : Prop :=
  ∃ description ∈ entry.columns,
    description.name = some name ∧ description.addition name = .ok change

theorem lastColumn?_eq_getLast? : entry.lastColumn? = entry.columns.getLast? := by
  unfold lastColumn? columns
  cases entry.change with
  | none => rfl
  | some value =>
    dsimp only [bind, Option.bind]
    cases value.get? "table".toList with
    | none => rfl
    | some table =>
      dsimp only
      cases table.get? "columns".toList with
      | none => rfl
      | some found =>
        cases found with
        | array columns => exact List.getLast?_map.symm
        | _ => rfl

/-- An addition is made of the last description, under its own name if it
has one. -/
theorem addedColumn_eq_ok_iff :
    entry.addedColumn (some name) = .ok change ↔
      ∃ last, entry.columns.getLast? = some last ∧
        last.addition (last.name.getD name) = .ok change := by
  unfold addedColumn
  rw [lastColumn?_eq_getLast?]
  cases entry.columns.getLast? with
  | none => simp
  | some last =>
    have hname : last.name.or (some name) = some (last.name.getD name) := by
      cases last.name <;> rfl
    simp only [hname, Option.some.injEq, exists_eq_left']
    rfl

/-- An addition is made of the last description, whatever the statement
names. -/
theorem exists_addition_of_addedColumn {matched : Option Text}
    (h : entry.addedColumn matched = .ok change) :
    ∃ last own, entry.columns.getLast? = some last ∧ last.addition own = .ok change := by
  unfold addedColumn at h
  rw [lastColumn?_eq_getLast?] at h
  split at h
  · cases h
  · next last hlast =>
    split at h
    · cases h
    · next own _ => exact ⟨last, own, hlast, h⟩

/-- **A change drops a column or adds the last one** that is described. -/
theorem drop_or_addition_of_columnChange
    (h : entry.columnChange pattern = .ok (some change)) :
    (∃ column, change = .drop column) ∨
      ∃ last own, entry.columns.getLast? = some last ∧ last.addition own = .ok change := by
  rcases columnChange_eq_some_iff.1 h with ⟨name, -, hdrop⟩ | ⟨matched, -, hadded⟩
  · exact Or.inl ⟨name, hdrop⟩
  · exact Or.inr (exists_addition_of_addedColumn hadded)

/-- A description is read from a JSON value. -/
theorem exists_ofJson_of_mem_columns {description : ColumnDescription}
    (h : description ∈ entry.columns) : ∃ node, description = .ofJson node := by
  unfold columns at h
  split at h
  · obtain ⟨node, -, rfl⟩ := List.mem_map.1 h
    exact ⟨node, rfl⟩
  · cases h

/-- What an entry that adds a column changes is that addition. -/
theorem AddsColumn.columnChange_eq (h : entry.AddsColumn pattern name) :
    entry.columnChange pattern = (entry.addedColumn (some name)).map some := by
  have hfound : entry.found? pattern = some (.add, some name) := found?_eq_some_iff.2 h
  rw [columnChange_eq_found, hfound]

/-- **When the named column is the one that is added.** The change is always
made of the last description. It is the addition of the named column exactly
if that description has this name or none, and says the same of the column
as a description of that name. -/
theorem isAdditionOf_iff (hadds : entry.AddsColumn pattern name)
    (hchange : entry.columnChange pattern = .ok (some change)) :
    ∃ last, entry.columns.getLast? = some last ∧
      last.addition (last.name.getD name) = .ok change ∧
      (entry.IsAdditionOf name change ↔
        (last.name = none ∨ last.name = some name) ∧
          ∃ description ∈ entry.columns, description.name = some name ∧
            description.addition name = last.addition name) := by
  rw [hadds.columnChange_eq] at hchange
  obtain ⟨added, hadded, heq⟩ := map_eq_ok_iff.1 hchange
  cases heq
  obtain ⟨last, hlast, hmade⟩ := addedColumn_eq_ok_iff.1 hadded
  refine ⟨last, hlast, hmade, ?_⟩
  constructor
  · rintro ⟨description, hmem, hname, haddition⟩
    -- both additions give the change, so they are of the same column
    have hcolumn : last.name.getD name = name := by
      rw [← ColumnDescription.column_of_addition hmade,
        ColumnDescription.column_of_addition haddition]
    rw [hcolumn] at hmade
    refine ⟨?_, description, hmem, hname, by rw [haddition, hmade]⟩
    cases hown : last.name with
    | none => exact Or.inl rfl
    | some own =>
      rw [hown, Option.getD_some] at hcolumn
      exact Or.inr (congrArg some hcolumn)
  · rintro ⟨hown, description, hmem, hname, hsame⟩
    have hcolumn : last.name.getD name = name := by
      rcases hown with hnone | hsome
      · rw [hnone, Option.getD_none]
      · rw [hsome, Option.getD_some]
    rw [hcolumn] at hmade
    exact ⟨description, hmem, hname, by rw [hsame, hmade]⟩

/-- A column that is put at the end is the one that is added. -/
theorem isAdditionOf_last :
    let pattern := (Pattern.parse? defaultPattern).getD .empty
    let describe (name type : String) : Json := .object [("name".toList, .string name.toList),
      ("typeName".toList, .string type.toList)]
    let entry : HistoryEntry := ⟨some "ALTER TABLE t ADD COLUMN qty INT".toList, some (.object [
      ("type".toList, .string "ALTER".toList),
      ("table".toList, .object [("columns".toList,
        .array [describe "id" "BIGINT", describe "qty" "INT"])])])⟩
    ∃ change, entry.AddsColumn pattern "qty".toList ∧
      entry.columnChange pattern = .ok (some change) ∧
      entry.IsAdditionOf "qty".toList change := by
  intro pattern describe entry
  have hsearch : entry.ddl.bind pattern.search = some [(4, " INT".toList), (5, "INT".toList),
      (3, "qty".toList), (2, "COLUMN ".toList), (1, "ADD".toList)] := by decide +kernel
  have hadds : entry.AddsColumn pattern "qty".toList := ⟨rfl, _, hsearch, rfl, rfl⟩
  have hchange : entry.columnChange pattern =
      .ok (some (.add "qty".toList .int)) := by
    rw [hadds.columnChange_eq]
    rfl
  obtain ⟨last, hlast, -, hiff⟩ := isAdditionOf_iff hadds hchange
  cases hlast
  refine ⟨_, hadds, hchange, hiff.2 ⟨Or.inr rfl, _, ?_, rfl, rfl⟩⟩
  exact List.mem_of_getLast? rfl

/-- **A column that is put first is not the one that is added**: the change
adds the last column of the table, which was there before. -/
theorem not_isAdditionOf_first :
    let pattern := (Pattern.parse? defaultPattern).getD .empty
    let describe (name type : String) : Json := .object [("name".toList, .string name.toList),
      ("typeName".toList, .string type.toList)]
    let ddl : Text := "ALTER TABLE t ADD COLUMN qty INT FIRST".toList
    let entry : HistoryEntry := ⟨some ddl, some (.object [
      ("type".toList, .string "ALTER".toList),
      ("table".toList, .object [("columns".toList,
        .array [describe "qty" "INT", describe "id" "BIGINT"])])])⟩
    ∃ change, entry.AddsColumn pattern "qty".toList ∧
      (∃ description ∈ entry.columns, description.name = some "qty".toList) ∧
      entry.columnChange pattern = .ok (some change) ∧ change.column = "id".toList ∧
      ¬ entry.IsAdditionOf "qty".toList change := by
  intro pattern describe ddl entry
  have hsearch : entry.ddl.bind pattern.search = some [(4, " INT".toList), (5, "INT".toList),
      (3, "qty".toList), (2, "COLUMN ".toList), (1, "ADD".toList)] := by decide +kernel
  have hadds : entry.AddsColumn pattern "qty".toList := ⟨rfl, _, hsearch, rfl, rfl⟩
  have hchange : entry.columnChange pattern =
      .ok (some (.add "id".toList .bigInt)) := by
    rw [hadds.columnChange_eq]
    rfl
  refine ⟨_, hadds, ⟨_, List.mem_cons_self, rfl⟩, hchange, rfl, ?_⟩
  rintro ⟨description, -, -, haddition⟩
  have hcolumn : "id".toList = "qty".toList := ColumnDescription.column_of_addition haddition
  exact absurd hcolumn (by decide)

end HistoryEntry

end ChangeFeed
