import ChangeFeed.Proofs.Routing.Identity
import ChangeFeed.Proofs.Routing.Precedence
import ChangeFeed.Proofs.Schema.Faults
import ChangeFeed.Proofs.Schema.Target
/-!
# Forms — the targets that rows go to and schema changes do not

A target is meant to be a database and a table with a dot between (`IsTarget`).
Only schema changes insist on that. The options take any text for a target by
each of the three ways (`NamesTarget`), and rows go wherever the options say. So
a table whose target is misnamed receives its rows, and its schema changes are
refused, every one of them and for no other reason
(`translate_eq_invalidTarget_iff`).
-/


namespace ChangeFeed

/-- **A target as it is meant to be**: a database without a dot and a table,
neither of them empty, with a dot between. -/
inductive IsTarget : Text → Prop where
  | dotted {database table : Text} (hdot : '.' ∉ database) (hdatabase : database ≠ [])
      (htable : table ≠ []) : IsTarget (database ++ '.' :: table)

/-- A target is split exactly if it is one. -/
theorem exists_splitTarget_iff {target : Text} :
    (∃ database table, splitTarget target = .ok (database, table)) ↔ IsTarget target := by
  constructor
  · rintro ⟨database, table, hsplit⟩
    obtain ⟨rfl, hdot, hdatabase, htable⟩ := splitTarget_eq_ok_iff.1 hsplit
    exact .dotted hdot hdatabase htable
  · rintro ⟨hdot, hdatabase, htable⟩
    exact ⟨_, _, splitTarget_eq_ok_iff.2 ⟨rfl, hdot, hdatabase, htable⟩⟩

/-- And refused by its name if not. -/
theorem splitTarget_eq_error_iff {target : Text} {fault : Fault} :
    splitTarget target = .error fault ↔ ¬ IsTarget target ∧ fault = .invalidTarget target := by
  have herror : ∀ fault, splitTarget target = .error fault → fault = .invalidTarget target := by
    intro fault h
    unfold splitTarget at h
    split at h
    · split at h
      · exact (Except.error.inj h).symm
      · cases h
    · exact (Except.error.inj h).symm
  rw [← exists_splitTarget_iff]
  cases hsplit : splitTarget target with
  | error cause =>
    obtain rfl := herror cause hsplit
    simp [eq_comm]
  | ok parts =>
    obtain ⟨database, table⟩ := parts
    simp

/-- The target of a record is that of its source. -/
theorem LoadRecord.target?_of_record {routing : Routing} {format : RowFormat} {envelope : Envelope}
    {record : LoadRecord} (h : ofEnvelope routing format envelope = .ok (some record)) :
    routing.target? envelope.source.identity = some record.target := by
  have hkept : ¬ IsDropped routing envelope := by
    intro hdropped
    rw [ofEnvelope_of_isDropped hdropped] at h
    cases h
  obtain ⟨_, target, -, htarget, -⟩ := exists_of_not_isDropped hkept
  rw [htarget, (ofEnvelope_of_target format htarget).1 record h]

namespace DdlTranslator

variable {translator : DdlTranslator} {envelope : Envelope} {change : ColumnChange} {target : Text}

/-- **An envelope describes a change**: its table is followed, and the change is
made out in its history entry. -/
inductive Describes (translator : DdlTranslator) (envelope : Envelope) (change : ColumnChange) :
    Prop where
  | intro {value : Json} {entry : HistoryEntry} (hfollows : translator.follows envelope = true)
      (hhistory : envelope.history = some value) (hparse : HistoryEntry.parse value = .ok entry)
      (hchange : entry.columnChange translator.pattern = .ok (some change)) :
      Describes translator envelope change

/-- A change is carried to a target unless that is none. -/
theorem onTarget_eq_invalidTarget_iff {other : Text} :
    onTarget other change = .error (.invalidTarget target) ↔
      ¬ IsTarget target ∧ target = other := by
  unfold onTarget
  rw [bind_eq_error_iff, splitTarget_eq_error_iff]
  constructor
  · rintro (⟨hnone, heq⟩ | ⟨parts, -, hrest⟩)
    · cases heq
      exact ⟨hnone, rfl⟩
    · -- what is wrong with the change is not said of the target
      unfold ColumnChange.statement at hrest
      cases hfault : change.fault? with
      | none =>
        rw [hfault] at hrest
        cases hrest
      | some cause =>
        rw [hfault] at hrest
        cases hrest
  · rintro ⟨hnone, rfl⟩
    exact Or.inl ⟨hnone, rfl⟩

/-- **A translation is refused for its target** exactly if there is a change to
be carried there and it is none. -/
theorem translate_eq_invalidTarget_iff :
    translator.translate envelope = .error (.invalidTarget target) ↔
      (∃ change, translator.Describes envelope change) ∧
        translator.routing.target? envelope.source.identity = some target ∧ ¬ IsTarget target := by
  rw [translate_eq_error_iff]
  constructor
  · rintro ⟨hfollows, value, hhistory, hfault | ⟨entry, change, other, hparse, hchange, hother, h⟩⟩
    · cases hfault with
      | undescribed _ _ hfault => cases hfault
    · obtain ⟨hnone, rfl⟩ := onTarget_eq_invalidTarget_iff.1 h
      exact ⟨⟨change, hfollows, hhistory, hparse, hchange⟩, hother, hnone⟩
  · rintro ⟨⟨change, hfollows, hhistory, hparse, hchange⟩, htarget, hnone⟩
    exact ⟨hfollows, _, hhistory, Or.inr ⟨_, change, target, hparse, hchange, htarget,
      onTarget_eq_invalidTarget_iff.2 ⟨hnone, rfl⟩⟩⟩

/-- **To a target that is one every change is carried** that can be made. -/
theorem Describes.exists_translate (h : translator.Describes envelope change)
    (hfault : change.fault? = none)
    (htarget : translator.routing.target? envelope.source.identity = some target)
    (hform : IsTarget target) :
    ∃ made, translator.translate envelope = .ok (some made) ∧ made.change = change ∧
      made.target = target := by
  obtain ⟨hfollows, hhistory, hparse, hchange⟩ := h
  obtain ⟨database, table, hsplit⟩ := exists_splitTarget_iff.2 hform
  obtain ⟨hjoined, -⟩ := splitTarget_eq_ok_iff.1 hsplit
  exact ⟨⟨database, table, change, change.render target⟩, translate_eq_some_iff.2
    ⟨hfollows, _, _, target, hhistory, hparse, hchange, htarget, hsplit, hfault, rfl⟩, rfl,
    hjoined.symm⟩

end DdlTranslator

/-! ## A row and a change of one table -/

namespace Envelope

/-- A row that is created in a table. -/
def creating (source : SourceTable) : Envelope :=
  ⟨some .create, source, none, some (.object []), none⟩

/-- A column that is dropped from a table. -/
def dropping (source : SourceTable) : Envelope where
  operation := none
  source := source
  before := none
  after := none
  history := some (.object [("ddl".toList, .string "ALTER TABLE orders DROP qty".toList),
    ("tableChanges".toList, .array [.object [("type".toList, .string "ALTER".toList)]])])

end Envelope

/-- The default pattern makes the change out. -/
theorem DdlTranslator.describes_dropping (routing : Routing) (source : SourceTable) :
    (⟨Pattern.statement, none, routing⟩ : DdlTranslator).Describes (.dropping source)
      (.drop "qty".toList) := by
  have hstatement : IsStatement (Text.words "ALTER TABLE orders DROP qty".toList) "DROP".toList
      "qty".toList :=
    ⟨"ALTER".toList, "TABLE".toList, "orders".toList, "qty".toList, [], by decide, by decide,
      by decide, Or.inr (by decide), by decide⟩
  have hverb : ColumnVerb.parse? "DROP".toList = some .drop := by decide
  exact .intro rfl rfl rfl (HistoryEntry.columnChange_of_isStatement rfl rfl hstatement hverb)

/-! ## Targets from options -/

namespace SerializerOptions

variable {options : SerializerOptions} {map : TargetMap} {identity target : Text}

/-- **The options name a target**: as the fixed one or, if there is none, in a
mapping entry or in the map of the mapping file. -/
inductive NamesTarget (options : SerializerOptions) (map : TargetMap) (target : Text) : Prop where
  | fixed (htarget : options.tableIdentifier = some target) (hblank : target.isBlank = false)
  | entry {source : Text} (hfixed : options.HasNoFixedTarget)
      (hentry : (source, target) ∈ options.mappings)
  | file {source : Text} (hfixed : options.HasNoFixedTarget) (hentry : (source, target) ∈ map)

/-- Whatever is a target is one that the options name. -/
theorem namesTarget_of_target? (h : (options.routing map).target? identity = some target) :
    options.NamesTarget map target := by
  have hgoes := target?_eq_iff.1 h
  generalize hanswer : some target = answer at hgoes
  cases hgoes with
  | fixed htarget hblank =>
    cases hanswer
    exact .fixed htarget hblank
  | blank => cases hanswer
  | entry hfixed _ hentries _ =>
    cases hanswer
    exact .entry hfixed (hentries ▸ List.mem_append_right _ List.mem_cons_self)
  | file hfixed _ _ => exact .file hfixed (TargetMap.mem_of_find? hanswer.symm)

/-- The serializer of options that leave all else at its default. -/
theorem serializer_of_defaults (hpattern : options.pattern = none)
    (hsourceTable : options.sourceTable = none) (hformat : options.format = {}) :
    options.serializer map none = .ok ⟨options.routing map, {},
      ⟨Pattern.statement, none, options.routing map⟩, none⟩ := by
  rw [serializer, hpattern, hsourceTable, hformat, Serializer.make, DdlTranslator.make_none]
  rfl

/-- **Rows go to any target, schema changes to one that is well formed.** The
target of a record is one that the options name, in whatever form. A schema
change for the same table is refused for its target exactly if that is not of
the form; else each change that can be made is carried to the table of the
record. -/
theorem refused_iff_not_isTarget {client : Option Client} {serializer : Serializer}
    {row history : Envelope} {record : LoadRecord}
    (hmake : options.serializer map client = .ok serializer)
    (hrecord : LoadRecord.ofEnvelope serializer.routing serializer.format row = .ok (some record))
    (hsource : history.source.identity = row.source.identity) :
    options.NamesTarget map record.target ∧
      (∀ target, serializer.translator.translate history = .error (.invalidTarget target) ↔
        (∃ change, serializer.translator.Describes history change) ∧ target = record.target ∧
          ¬ IsTarget record.target) ∧
      (IsTarget record.target → ∀ change, serializer.translator.Describes history change →
        change.fault? = none → ∃ made, serializer.translator.translate history = .ok (some made) ∧
          made.change = change ∧ made.target = record.target) := by
  obtain ⟨hrouting, -, hshared⟩ := Serializer.routing_of_make hmake
  have htarget := LoadRecord.target?_of_record hrecord
  have hsame : serializer.translator.routing.target? history.source.identity =
      some record.target := by
    rw [hshared, hsource, ← hrouting, htarget]
  refine ⟨?_, fun target => ?_, fun hform change hdescribes hfault => ?_⟩
  · rw [hrouting] at htarget
    exact namesTarget_of_target? htarget
  · rw [DdlTranslator.translate_eq_invalidTarget_iff, hsame, Option.some.injEq]
    refine and_congr_right fun _ => ⟨?_, ?_⟩
    all_goals
      rintro ⟨rfl, hnone⟩
      exact ⟨rfl, hnone⟩
  · exact hdescribes.exists_translate hfault hsame hform

/-- A target may have more than one dot. -/
theorem refused_iff_not_isTarget_dots :
    let options : SerializerOptions := { mappings := [("shop.orders".toList, "dw.ods.o".toList)] }
    let source : SourceTable := ⟨some "shop".toList, none, some "orders".toList⟩
    ∃ serializer record made, options.serializer [] none = .ok serializer ∧
      LoadRecord.ofEnvelope serializer.routing serializer.format (.creating source) =
        .ok (some record) ∧
      record.target = "dw.ods.o".toList ∧ IsTarget record.target ∧
      serializer.translator.translate (.dropping source) = .ok (some made) ∧
      made.target = record.target := by
  intro options source
  have hmake := @serializer_of_defaults options [] rfl rfl rfl
  have hrecord : LoadRecord.ofEnvelope (options.routing []) {} (.creating source) =
      .ok (some ⟨"dw.ods.o".toList, "\x7b\"__DORIS_DELETE_SIGN__\":\"0\"\x7d".toList⟩) := by decide
  have hform : IsTarget "dw.ods.o".toList :=
    @IsTarget.dotted "dw".toList "ods.o".toList (by decide) (by decide) (by decide)
  have hsource : (Envelope.dropping source).source.identity =
      (Envelope.creating source).source.identity := rfl
  obtain ⟨-, -, hmade⟩ := refused_iff_not_isTarget hmake hrecord hsource
  have hdescribes := DdlTranslator.describes_dropping (options.routing []) source
  obtain ⟨made, htranslate, -, hsame⟩ := hmade hform _ hdescribes (by decide)
  exact ⟨_, _, made, hmake, hrecord, rfl, hform, htranslate, hsame⟩

/-- **A target without a database is let through**, by each of the three ways
that it may take, and then the rows have a target that the changes do not. -/
theorem not_isTarget_of_options :
    let sink := "sink".toList
    let read : Text → Except FileFault Bytes := fun _ => .ok (Text.bytes "shop.orders: sink".toList)
    let source : SourceTable := ⟨some "shop".toList, none, some "orders".toList⟩
    mappingEntry "shop.orders=sink".toList = .ok ("shop.orders".toList, sink) ∧
      ∀ options ∈ ([{ tableIdentifier := some sink },
          { mappings := [("shop.orders".toList, sink)] },
          { mappingFile := some "map.yaml".toList }] : List SerializerOptions),
        ∃ map serializer record, options.fileMap (m := Id) read = .ok map ∧
          options.serializer map none = .ok serializer ∧
          LoadRecord.ofEnvelope serializer.routing serializer.format (.creating source) =
            .ok (some record) ∧
          (∀ database table, splitTarget record.target ≠ .ok (database, table)) ∧
          serializer.translator.Describes (.dropping source) (.drop "qty".toList) ∧
          serializer.translator.translate (.dropping source) =
            .error (.invalidTarget record.target) := by
  intro sink read source
  have hsplit : splitTarget sink = .error (.invalidTarget sink) := by decide
  have hnone : ¬ IsTarget sink := (splitTarget_eq_error_iff.1 hsplit).1
  refine ⟨by decide, fun options hoptions => ?_⟩
  have hdefaults : options.pattern = none ∧ options.sourceTable = none ∧ options.format = {} := by
    revert options
    decide
  obtain ⟨map, hmap, htarget⟩ : ∃ map, options.fileMap (m := Id) read = .ok map ∧
      (options.routing map).target? source.identity = some sink := by
    simp only [List.mem_cons, List.not_mem_nil, or_false] at hoptions
    rcases hoptions with rfl | rfl | rfl
    · exact ⟨[], rfl, by decide⟩
    · exact ⟨[], rfl, by decide⟩
    · have hdecode : MappingFile.decode "map.yaml".toList (read "map.yaml".toList) =
          .ok [("shop.orders".toList, sink)] := by decide +kernel
      exact ⟨_, hdecode, by decide⟩
  have hrecord : LoadRecord.ofEnvelope (options.routing map) {} (.creating source) =
      .ok (some ⟨sink, "\x7b\"__DORIS_DELETE_SIGN__\":\"0\"\x7d".toList⟩) := by
    rw [LoadRecord.ofEnvelope_eq_map rfl htarget]
    decide
  have hdescribes := DdlTranslator.describes_dropping (options.routing map) source
  refine ⟨map, _, _, hmap, serializer_of_defaults hdefaults.1 hdefaults.2.1 hdefaults.2.2, hrecord,
    fun database table hok => ?_, hdescribes, ?_⟩
  · exact hnone (exists_splitTarget_iff.1 ⟨database, table, hok⟩)
  · exact DdlTranslator.translate_eq_invalidTarget_iff.2 ⟨⟨_, hdescribes⟩, htarget, hnone⟩

end SerializerOptions

end ChangeFeed
