import ChangeFeed.History
import ChangeFeed.Proofs.Result
/-!
# Translation — what a schema change says of the envelope behind it

The change of an entry is made of what the pattern finds in its statement, a
verb and perhaps a name (`columnChange_eq_found`), and `translate_eq_some_iff`
is the inversion of `DdlTranslator.translate`: a change comes of a history entry
that describes one, a target to carry it to and nothing else. Later facts about
changes are read off these two.
-/


namespace ChangeFeed

/-- A change that nothing keeps from being made names a column. -/
theorem ColumnChange.column_of_fault?_eq_none {change : ColumnChange} (h : change.fault? = none) :
    change.column.isBlank = false := by
  unfold fault? at h
  by_cases hblank : change.column.isBlank = true
  · rw [if_pos hblank] at h
    cases h
  · simpa using hblank

/-- A statement is rendered exactly for the changes that can be made. -/
theorem ColumnChange.statement_eq_ok_iff {table statement : Text} {change : ColumnChange} :
    change.statement table = .ok statement ↔
      change.fault? = none ∧ statement = change.render table := by
  unfold ColumnChange.statement
  cases h : change.fault? with
  | none => simp [eq_comm]
  | some cause => simp

namespace HistoryEntry

variable {entry : HistoryEntry} {pattern : Pattern} {change : ColumnChange}

/-- **What the pattern finds** in the statement of an entry that alters a table:
a verb, and a name if there is one. -/
def found? (entry : HistoryEntry) (pattern : Pattern) : Option (ColumnVerb × Option Text) :=
  if entry.isAlter then
    (entry.ddl.bind pattern.search).bind fun captures =>
      (ColumnVerb.parse? ((captures.get? 1).getD [])).map fun verb =>
        (verb, (captures.get? 3).map columnName)
  else none

theorem found?_eq_some_iff {verb : ColumnVerb} {name : Option Text} :
    entry.found? pattern = some (verb, name) ↔
      entry.isAlter = true ∧ ∃ captures, entry.ddl.bind pattern.search = some captures ∧
        ColumnVerb.parse? ((captures.get? 1).getD []) = some verb ∧
        (captures.get? 3).map columnName = name := by
  unfold found?
  split
  · next halter =>
    simp only [halter, true_and, Option.bind_eq_some_iff, Option.map_eq_some_iff, Prod.mk.injEq]
    refine exists_congr fun captures => and_congr_right fun _ => ?_
    constructor
    · rintro ⟨_, hverb, rfl, hname⟩
      exact ⟨hverb, hname⟩
    · rintro ⟨hverb, hname⟩
      exact ⟨verb, hverb, rfl, hname⟩
  · next halter => simp [halter]

/-- **The change of an entry** by what the pattern finds: a name to drop, or the
described column to add. -/
theorem columnChange_eq_found : entry.columnChange pattern =
    match entry.found? pattern with
    | none => .ok none
    | some (.drop, name) => .ok (name.map ColumnChange.drop)
    | some (.add, name) => (entry.addedColumn name).map some := by
  unfold columnChange found?
  split
  · cases entry.ddl.bind pattern.search with
    | none => rfl
    | some captures =>
      simp only [Option.bind_some]
      cases ColumnVerb.parse? ((captures.get? 1).getD []) with
      | none => rfl
      | some verb => cases verb <;> rfl
  · rfl

/-- **What is behind a change**: a name that was found and is dropped, or a
column that is added. -/
theorem columnChange_eq_some_iff :
    entry.columnChange pattern = .ok (some change) ↔
      (∃ name, entry.found? pattern = some (.drop, some name) ∧ change = .drop name) ∨
        ∃ name, entry.found? pattern = some (.add, name) ∧ entry.addedColumn name = .ok change := by
  rw [columnChange_eq_found]
  cases entry.found? pattern with
  | none => simp
  | some found =>
    obtain ⟨verb, name⟩ := found
    cases verb with
    | drop => cases name <;> simp [eq_comm]
    | add => simp [map_eq_ok_iff]

/-- Only what is added can be wrong. -/
theorem columnChange_eq_error_iff {fault : Fault} :
    entry.columnChange pattern = .error fault ↔
      ∃ name, entry.found? pattern = some (.add, name) ∧ entry.addedColumn name = .error fault := by
  rw [columnChange_eq_found]
  cases entry.found? pattern with
  | none => simp
  | some found =>
    obtain ⟨verb, name⟩ := found
    cases verb with
    | drop => simp
    | add => simp [map_eq_error_iff]

end HistoryEntry

namespace DdlTranslator

variable {translator : DdlTranslator} {envelope : Envelope} {change : SchemaChange}

/-- **Carrying over to a target** keeps the column change, splits the target
and renders the statement for it. -/
theorem onTarget_eq_ok_iff {target : Text} {column : ColumnChange} :
    onTarget target column = .ok change ↔
      change.change = column ∧ splitTarget target = .ok (change.database, change.table) ∧
        column.fault? = none ∧ change.statement = column.render target := by
  obtain ⟨database, table, inner, statement⟩ := change
  unfold onTarget
  simp only [bind_eq_ok_iff, ColumnChange.statement_eq_ok_iff, pure, Except.pure, Except.ok.injEq,
    SchemaChange.mk.injEq]
  constructor
  · rintro ⟨parts, hsplit, text, ⟨hfault, rfl⟩, rfl, rfl, rfl, rfl⟩
    exact ⟨rfl, hsplit, hfault, rfl⟩
  · rintro ⟨rfl, hsplit, hfault, rfl⟩
    exact ⟨_, hsplit, _, ⟨hfault, rfl⟩, rfl, rfl, rfl, rfl⟩

/-- **What is behind a translated change**: a followed table, an entry that
describes the change, and a target it is rendered for. -/
theorem translate_eq_some_iff :
    translator.translate envelope = .ok (some change) ↔
      translator.follows envelope = true ∧ ∃ value entry target,
        envelope.history = some value ∧ HistoryEntry.parse value = .ok entry ∧
        entry.columnChange translator.pattern = .ok (some change.change) ∧
        translator.routing.target? envelope.source.identity = some target ∧
        splitTarget target = .ok (change.database, change.table) ∧
        change.change.fault? = none ∧ change.statement = change.change.render target := by
  unfold translate
  cases hfollows : translator.follows envelope with
  | false => simp
  | true =>
    rw [if_pos rfl]
    cases hhistory : envelope.history with
    | none => simp
    | some value =>
      simp only [bind_eq_ok_iff, true_and]
      constructor
      · rintro ⟨entry, hparse, found, hcolumn, hfound⟩
        cases found with
        | none => cases hfound
        | some column =>
          cases htarget : translator.routing.target? envelope.source.identity with
          | none =>
            simp only [htarget] at hfound
            cases hfound
          | some target =>
            simp only [htarget, map_eq_ok_iff, Option.some.injEq, exists_eq_right,
              onTarget_eq_ok_iff] at hfound
            obtain ⟨rfl, hsplit, hfault, hstatement⟩ := hfound
            exact ⟨value, entry, target, rfl, hparse, hcolumn, rfl, hsplit, hfault, hstatement⟩
      · rintro ⟨found, entry, target, hvalue, hparse, hcolumn, htarget, hsplit, hfault, hstatement⟩
        cases hvalue
        refine ⟨entry, hparse, _, hcolumn, ?_⟩
        rw [htarget]
        exact map_eq_ok_iff.2 ⟨change, onTarget_eq_ok_iff.2 ⟨rfl, hsplit, hfault, hstatement⟩, rfl⟩

/-- A translated change names a column. -/
theorem column_of_translate (h : translator.translate envelope = .ok (some change)) :
    change.change.column.isBlank = false := by
  obtain ⟨-, value, entry, target, -, -, -, -, -, hfault, -⟩ := translate_eq_some_iff.1 h
  exact ColumnChange.column_of_fault?_eq_none hfault

end DdlTranslator

end ChangeFeed
