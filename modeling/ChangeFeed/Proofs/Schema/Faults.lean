import ChangeFeed.Proofs.Schema.AddedColumn
import ChangeFeed.Proofs.Schema.Statement
/-!
# Faults — when a history entry is an error

An entry is read, and the change in it made out, before anything is asked
about where the change should go. So what is wrong with an entry is wrong for
every table: `HasFault` says what that can be by the entry and the pattern
alone, and `translate_eq_error_iff` adds the faults of a target. An envelope of
a table that is not followed is passed over unread. One of a table that goes
nowhere is read first, and where its entry has a fault the envelope is an error
and not passed over (`translate_of_inapplicable`).
-/


namespace ChangeFeed

/-- The only fault of a type that is not mapped. -/
theorem ColumnType.fault_of_ofMySql {name : Text} {length scale : Nat} {fault : Fault}
    (h : ofMySql name length scale = .error fault) : fault = .unsupportedType name := by
  unfold ofMySql at h
  split at h
  · exact (Except.error.inj h).symm
  · split at h
    · cases h
    · exact (Except.error.inj h).symm

/-- **What keeps a described column from being added**: it has no type, or one
that is not mapped. -/
theorem ColumnDescription.addition_eq_error_iff {description : ColumnDescription} {name : Text}
    {fault : Fault} :
    description.addition name = .error fault ↔
      description.type = none ∧ fault = .malformedHistory (.untypedColumn name) ∨
      ∃ typeName, description.type = some typeName ∧ fault = .unsupportedType typeName ∧
        ColumnType.ofMySql typeName description.length description.scale = .error fault := by
  unfold addition
  cases description.type with
  | none => simp [eq_comm]
  | some typeName =>
    simp only [map_eq_error_iff]
    constructor
    · intro h
      exact Or.inr ⟨typeName, rfl, ColumnType.fault_of_ofMySql h, h⟩
    · rintro (⟨hnone, -⟩ | ⟨_, ⟨⟩, -, h⟩)
      · cases hnone
      · exact h

namespace HistoryEntry

variable {entry : HistoryEntry} {pattern : Pattern} {matched : Option Text} {value : Json}
variable {fault : Fault}

/-- **What is missing for a column to be added** as the last description has
it. -/
inductive Undescribed (entry : HistoryEntry) (matched : Option Text) : Fault → Prop where
  | noColumns (hcolumns : entry.columns = []) :
      Undescribed entry matched (.malformedHistory .noColumns)
  | unnamed {last : ColumnDescription} (hlast : entry.columns.getLast? = some last)
      (hname : last.name = none) (hmatched : matched = none) :
      Undescribed entry matched (.malformedHistory .unnamedColumn)
  | untyped {last : ColumnDescription} {name : Text} (hlast : entry.columns.getLast? = some last)
      (hname : last.name.or matched = some name) (htype : last.type = none) :
      Undescribed entry matched (.malformedHistory (.untypedColumn name))
  | unsupported {last : ColumnDescription} {name typeName : Text}
      (hlast : entry.columns.getLast? = some last) (hname : last.name.or matched = some name)
      (htype : last.type = some typeName)
      (hmap : ColumnType.ofMySql typeName last.length last.scale =
        .error (.unsupportedType typeName)) :
      Undescribed entry matched (.unsupportedType typeName)

/-- **What is wrong with an entry**, whichever table it is about: it is no
entry at all, or its statement adds a column that it does not describe. -/
inductive HasFault (pattern : Pattern) : Json → Fault → Prop where
  | unreadable {text : Text} (hread : Json.read? text = none) :
      HasFault pattern (.string text) (.malformedHistory .unreadable)
  | wrongShape {value : Json} (hobject : ∀ members, value ≠ .object members)
      (hstring : ∀ text, value ≠ .string text) :
      HasFault pattern value (.malformedHistory .wrongShape)
  | undescribed {value : Json} {entry : HistoryEntry} {matched : Option Text} {fault : Fault}
      (hparse : parse value = .ok entry) (hfound : entry.found? pattern = some (.add, matched))
      (hfault : entry.Undescribed matched fault) : HasFault pattern value fault

/-- A column is not added exactly if something is missing for it. -/
theorem addedColumn_eq_error_iff :
    entry.addedColumn matched = .error fault ↔ entry.Undescribed matched fault := by
  unfold addedColumn
  rw [lastColumn?_eq_getLast?]
  constructor
  · intro h
    split at h
    · next hlast =>
      cases h
      exact .noColumns (List.getLast?_eq_none_iff.1 hlast)
    · next last hlast =>
      split at h
      · next hnone =>
        cases h
        obtain ⟨hname, hmatched⟩ := Option.or_eq_none_iff.1 hnone
        exact .unnamed hlast hname hmatched
      · next name hname =>
        rcases ColumnDescription.addition_eq_error_iff.1 h with
          ⟨htype, rfl⟩ | ⟨typeName, htype, rfl, hmap⟩
        · exact .untyped hlast hname htype
        · exact .unsupported hlast hname htype hmap
  · intro h
    cases h with
    | noColumns hcolumns =>
      rw [hcolumns]
      rfl
    | unnamed hlast hname hmatched =>
      subst hmatched
      simp only [hlast, hname, Option.or_none]
    | untyped hlast hname htype => simp only [hlast, hname, htype]
    | unsupported hlast hname htype hmap =>
      simp only [hlast, hname, htype]
      exact map_eq_error_iff.2 hmap

/-- **An entry has a fault** exactly if it is not parsed, or the change in it
cannot be made out. -/
theorem hasFault_iff :
    HasFault pattern value fault ↔ parse value = .error fault ∨
      ∃ entry, parse value = .ok entry ∧ entry.columnChange pattern = .error fault := by
  constructor
  · intro h
    cases h with
    | unreadable hread => simp only [parse, hread, true_or]
    | wrongShape hobject hstring =>
      left
      unfold parse
      split
      · exact absurd rfl (hstring _)
      · exact absurd rfl (hobject _)
      · rfl
    | undescribed hparse hfound hfault =>
      have hadded := addedColumn_eq_error_iff.2 hfault
      exact Or.inr ⟨_, hparse, columnChange_eq_error_iff.2 ⟨_, hfound, hadded⟩⟩
  · rintro (hparse | ⟨entry, hparse, hchange⟩)
    · unfold parse at hparse
      split at hparse
      · split at hparse
        · next hread =>
          cases hparse
          exact .unreadable hread
        · cases hparse
      · cases hparse
      · next hstring hobject =>
        cases hparse
        exact .wrongShape hobject hstring
    · obtain ⟨matched, hfound, hadded⟩ := columnChange_eq_error_iff.1 hchange
      exact .undescribed hparse hfound (addedColumn_eq_error_iff.1 hadded)

end HistoryEntry

namespace DdlTranslator

variable {translator : DdlTranslator} {envelope : Envelope} {fault : Fault}

/-- A table is not followed exactly if another is the only one that is. -/
theorem follows_eq_false_iff :
    translator.follows envelope = false ↔
      ∃ name, translator.sourceTable = some name ∧ envelope.source.qualified? ≠ some name := by
  unfold follows
  cases translator.sourceTable <;> simp

/-- **When a translation is an error**: the table is followed, and its entry has
a fault or the change in it does not fit the target. -/
theorem translate_eq_error_iff :
    translator.translate envelope = .error fault ↔
      translator.follows envelope = true ∧ ∃ value, envelope.history = some value ∧
        (HistoryEntry.HasFault translator.pattern value fault ∨
          ∃ entry column target, HistoryEntry.parse value = .ok entry ∧
            entry.columnChange translator.pattern = .ok (some column) ∧
            translator.routing.target? envelope.source.identity = some target ∧
            onTarget target column = .error fault) := by
  unfold translate
  cases hfollows : translator.follows envelope with
  | false => simp
  | true =>
    rw [if_pos rfl]
    cases hhistory : envelope.history with
    | none => simp
    | some value =>
      simp only [bind_eq_error_iff, HistoryEntry.hasFault_iff, true_and, Option.some.injEq,
        exists_eq_left', or_assoc]
      refine or_congr Iff.rfl ?_
      constructor
      · rintro ⟨entry, hparse, hcolumn | ⟨found, hcolumn, hfound⟩⟩
        · exact Or.inl ⟨entry, hparse, hcolumn⟩
        · cases found with
          | none => cases hfound
          | some column =>
            dsimp only at hfound
            split at hfound
            · cases hfound
            · next target htarget =>
              exact Or.inr ⟨entry, column, target, hparse, hcolumn, htarget,
                map_eq_error_iff.1 hfound⟩
      · rintro (⟨entry, hparse, hcolumn⟩ | ⟨entry, column, target, hparse, hcolumn, htarget, h⟩)
        · exact ⟨entry, hparse, Or.inl hcolumn⟩
        · refine ⟨entry, hparse, Or.inr ⟨_, hcolumn, ?_⟩⟩
          simp only [htarget]
          exact map_eq_error_iff.2 h

/-- **Envelopes that do not apply.** An envelope of another table than the one
that is followed is passed over, whatever its entry holds. One of a table that
has no target never makes a change, and is an error exactly if its entry has a
fault: the column's name, and whatever else belongs to a target, is not looked
at. -/
theorem translate_of_inapplicable
    (h : (∃ name, translator.sourceTable = some name ∧ envelope.source.qualified? ≠ some name) ∨
      translator.routing.target? envelope.source.identity = none) :
    (∀ name, translator.sourceTable = some name → envelope.source.qualified? ≠ some name →
        translator.translate envelope = .ok none) ∧
      (∀ fault, translator.translate envelope = .error fault ↔
        translator.follows envelope = true ∧ ∃ value, envelope.history = some value ∧
          HistoryEntry.HasFault translator.pattern value fault) ∧
      (translator.translate envelope = .ok none ↔ (translator.follows envelope = true →
        ∀ value, envelope.history = some value →
          ∀ fault, ¬ HistoryEntry.HasFault translator.pattern value fault)) := by
  have hnowhere : translator.follows envelope = true →
      translator.routing.target? envelope.source.identity = none := by
    intro hfollows
    rw [← follows_eq_false_iff, hfollows] at h
    exact h.resolve_left Bool.noConfusion
  have herror : ∀ fault, translator.translate envelope = .error fault ↔
      translator.follows envelope = true ∧ ∃ value, envelope.history = some value ∧
        HistoryEntry.HasFault translator.pattern value fault := by
    intro fault
    rw [translate_eq_error_iff]
    constructor
    · rintro ⟨hfollows, value, hvalue, hfault | ⟨_, _, target, -, -, htarget, -⟩⟩
      · exact ⟨hfollows, value, hvalue, hfault⟩
      · cases htarget.symm.trans (hnowhere hfollows)
    · rintro ⟨hfollows, value, hvalue, hfault⟩
      exact ⟨hfollows, value, hvalue, Or.inl hfault⟩
  have hchange : ∀ change, translator.translate envelope ≠ .ok (some change) := by
    intro change hchange
    obtain ⟨hfollows, _, _, target, -, -, -, htarget, -⟩ := translate_eq_some_iff.1 hchange
    cases htarget.symm.trans (hnowhere hfollows)
  -- what is neither a change nor an error is passed over
  have hpassed : translator.translate envelope = .ok none ↔
      ∀ fault, translator.translate envelope ≠ .error fault := by
    cases htranslate : translator.translate envelope with
    | error fault => simp
    | ok found =>
      cases found with
      | none => simp
      | some change => exact absurd htranslate (hchange change)
  have hnone : translator.translate envelope = .ok none ↔ (translator.follows envelope = true →
      ∀ value, envelope.history = some value →
        ∀ fault, ¬ HistoryEntry.HasFault translator.pattern value fault) := by
    simp only [hpassed, ne_eq, herror, not_and, not_exists]
    exact ⟨fun hno hfollows value hvalue fault => hno fault hfollows value hvalue,
      fun hno fault hfollows value hvalue => hno hfollows value hvalue fault⟩
  refine ⟨fun name hname hother => hnone.2 fun hfollows => ?_, herror, hnone⟩
  rw [follows_eq_false_iff.2 ⟨name, hname, hother⟩] at hfollows
  cases hfollows

/-- A column of a type that is not mapped is an error of a table that goes
nowhere. -/
theorem translate_of_inapplicable_geometry :
    let routing : Routing := ⟨none, [("test.t1".toList, "ods.t1".toList)]⟩
    let ddl : Text := "ALTER TABLE t9 ADD shape GEOMETRY".toList
    let described : Json := .object [("name".toList, .string "shape".toList),
      ("typeName".toList, .string "GEOMETRY".toList)]
    let value : Json := .object [("ddl".toList, .string ddl), ("tableChanges".toList,
      .array [.object [("type".toList, .string "ALTER".toList),
        ("table".toList, .object [("columns".toList, .array [described])])]])]
    let envelope : Envelope :=
      ⟨none, ⟨some "test".toList, none, some "t9".toList⟩, none, none, some value⟩
    ∃ translator, make none none routing = .ok translator ∧
      routing.target? envelope.source.identity = none ∧
      translator.translate envelope = .error (.unsupportedType "GEOMETRY".toList) := by
  intro routing ddl described value envelope
  have htarget : routing.target? envelope.source.identity = none := by decide
  have hstatement : IsStatement ddl.words "ADD".toList "shape".toList :=
    ⟨"ALTER".toList, "TABLE".toList, "t9".toList, "shape".toList, ["GEOMETRY".toList], by decide,
      by decide, by decide, Or.inl (by decide), by decide⟩
  have hverb : ColumnVerb.parse? "ADD".toList = some .add := by decide
  have hfound : (HistoryEntry.ofValue value).found? Pattern.statement =
      some (.add, some "shape".toList) :=
    HistoryEntry.found?_of_isStatement rfl rfl hstatement hverb
  have hmap : ColumnType.ofMySql "GEOMETRY".toList 0 0 =
      .error (.unsupportedType "GEOMETRY".toList) := by decide
  have hfault : HistoryEntry.HasFault Pattern.statement value
      (.unsupportedType "GEOMETRY".toList) :=
    .undescribed rfl hfound (.unsupported rfl rfl rfl hmap)
  let translator : DdlTranslator := ⟨Pattern.statement, none, routing⟩
  obtain ⟨-, herror, -⟩ := @translate_of_inapplicable translator envelope (Or.inr htarget)
  exact ⟨_, make_none none routing, htarget, (herror _).2 ⟨rfl, value, rfl, hfault⟩⟩

/-- **A table without a target may still be an error**: a text that is no JSON
is not passed over. -/
theorem not_none_of_no_target :
    let routing : Routing := ⟨none, [("test.t1".toList, "ods.t1".toList)]⟩
    let envelope : Envelope := ⟨none, ⟨some "test".toList, none, some "t9".toList⟩, none, none,
      some (.string "\x7bbroken".toList)⟩
    ∃ translator, make none none routing = .ok translator ∧
      routing.target? envelope.source.identity = none ∧
      translator.translate envelope = .error (.malformedHistory .unreadable) ∧
      translator.translate envelope ≠ .ok none := by
  intro routing envelope
  have htarget : routing.target? envelope.source.identity = none := by decide
  have hread : Json.read? "\x7bbroken".toList = none := rfl
  have hfault : HistoryEntry.HasFault Pattern.statement (.string "\x7bbroken".toList)
      (.malformedHistory .unreadable) := .unreadable hread
  have herror : (⟨Pattern.statement, none, routing⟩ : DdlTranslator).translate envelope =
      .error (.malformedHistory .unreadable) :=
    translate_eq_error_iff.2 ⟨rfl, _, rfl, Or.inl hfault⟩
  refine ⟨_, make_none none routing, htarget, herror, fun hnone => ?_⟩
  cases herror.symm.trans hnone

end DdlTranslator

end ChangeFeed
