import ChangeFeed.Proofs.Pattern.WordScan
import ChangeFeed.Proofs.Schema.Translation
/-!
# Statements — what the default pattern finds in a text

The default pattern reads the words of a text: `ALTER` at the end of a word,
`TABLE`, any word, `ADD` or `DROP`, perhaps `COLUMN`, and a name
(`IsStatement`). Its parts are readings of words, one before the other, so its
search is a search through the words (`map_search_statement`), and it finds the
first place among them at which a statement begins (`search_defaultPattern`).
-/


namespace ChangeFeed

/-- **The words begin with a statement** that adds or drops what is named
`column`: the name is what follows the word `COLUMN`, or that word itself if
nothing does. -/
def IsStatement (words : List Text) (verb column : Text) : Prop :=
  ∃ alter table target object rest, words = alter :: table :: target :: verb :: object :: rest ∧
    alter.endsInLetters "ALTER".toList = true ∧ table.sameLetters "TABLE".toList = true ∧
    (verb.sameLetters "ADD".toList = true ∨ verb.sameLetters "DROP".toList = true) ∧
    column = if object.sameLetters "COLUMN".toList then rest.head?.getD object else object

/-- A verb is read from its spelling, in letters of either case. -/
theorem ColumnVerb.parse?_of_sameLetters {t : Text} {verb : ColumnVerb}
    (h : t.sameLetters verb.sql = true) : parse? t = some verb := by
  cases verb with
  | add => exact if_pos h
  | drop =>
    have hadd : t.sameLetters add.sql ≠ true := by
      intro hadd
      have hlength := (Text.length_of_sameLetters h).symm.trans (Text.length_of_sameLetters hadd)
      exact absurd hlength (by decide)
    rw [parse?, if_neg hadd, if_pos h]

namespace IsStatement

variable {words : List Text} {verb column : Text}

/-- What stands for the verb reads as one. -/
theorem parse?_verb (h : IsStatement words verb column) :
    (ColumnVerb.parse? verb).isSome = true := by
  obtain ⟨alter, table, target, object, rest, -, -, -, hverb, -⟩ := h
  rcases hverb with hadd | hdrop
  · have hparse : ColumnVerb.parse? verb = some .add := ColumnVerb.parse?_of_sameLetters hadd
    rw [hparse, Option.isSome_some]
  · have hparse : ColumnVerb.parse? verb = some .drop := ColumnVerb.parse?_of_sameLetters hdrop
    rw [hparse, Option.isSome_some]

/-- The name is one of the words. -/
theorem column_mem (h : IsStatement words verb column) : column ∈ words := by
  obtain ⟨alter, table, target, object, rest, rfl, -, -, -, rfl⟩ := h
  split
  · cases rest with
    | nil => simp
    | cons name rest => simp
  · simp

/-- Where there is a statement among the words there is a first one. -/
theorem exists_first {k : Nat} (h : IsStatement (words.drop k) verb column) :
    ∃ first verb column, IsStatement (words.drop first) verb column ∧
      ∀ j < first, ∀ v c, ¬ IsStatement (words.drop j) v c := by
  induction k using Nat.strong_induction_on generalizing verb column with
  | _ k ih =>
    by_cases hearlier : ∃ j < k, ∃ v c, IsStatement (words.drop j) v c
    · obtain ⟨j, hj, v, c, hstatement⟩ := hearlier
      exact ih j hj hstatement
    · refine ⟨k, verb, column, h, fun j hj v c hstatement => ?_⟩
      exact hearlier ⟨j, hj, v, c, hstatement⟩

end IsStatement

namespace Pattern

/-! ## The pattern -/

/-- The word `COLUMN` and a gap, which may be left out. -/
def columnWord : Pattern :=
  times (group 2 (sequence (letters "COLUMN".toList ++ [run .space]))) 0 (some 1) true

/-- Another word, which may be left out. -/
def furtherWord : Pattern := times (group 4 (sequence [run .space, group 5 (run wordSet)])) 0
  (some 1) true

/-- What is left of the line. -/
def restOfLine : Pattern := times (char (.negated (.only '\n'))) 0 none true

/-- **The default pattern** as a tree. -/
def statement : Pattern := sequence (letters "ALTER".toList ++ run .space ::
  (letters "TABLE".toList ++ [run .space, run wordSet, run .space,
    group 1 (choice (sequence (letters "ADD".toList)) (sequence (letters "DROP".toList))),
    run .space, columnWord, group 3 (run wordSet), furtherWord, restOfLine]))

theorem parse?_defaultPattern : parse? defaultPattern = some statement := by
  decide +kernel

theorem isProgressive_statement : statement.isProgressive = true := by
  decide +kernel

/-! ## What its parts read -/

/-- The groups that a column change is made of: the verb and the name. -/
def verbAndName (captures : Captures) : Option Text × Option Text :=
  (captures.get? 1, captures.get? 3)

/-- The name that the words begin with. -/
def nameAhead (verb : Option Text) (words : List Text) : Option (Option Text × Option Text) :=
  words.head?.map fun name => (verb, some name)

/-- The name that the words begin with, perhaps behind the word `COLUMN`. -/
def columnAhead : WordReading (Option Text × Option Text)
  | verb, object :: words => some (verb, some
      (if object.sameLetters "COLUMN".toList then words.head?.getD object else object))
  | _, [] => none

theorem columnAhead_eq_some_iff {verb : Option Text} {words : List Text}
    {answer : Option Text × Option Text} :
    columnAhead verb words = some answer ↔ ∃ object rest, words = object :: rest ∧
      answer = (verb, some
        (if object.sameLetters "COLUMN".toList then rest.head?.getD object else object)) := by
  cases words with
  | nil =>
    constructor
    · intro h
      cases h
    · rintro ⟨_, _, hwords, -⟩
      cases hwords
  | cons object rest =>
    constructor
    · intro h
      exact ⟨object, rest, rfl, (Option.some.inj h).symm⟩
    · rintro ⟨_, _, hwords, rfl⟩
      cases hwords
      rfl

/-- The verb and the name behind the word `ALTER`. -/
def clauseAhead : WordReading (Option Text × Option Text) :=
  afterKeyword "TABLE".toList (afterWord (afterEither "ADD".toList "DROP".toList columnAhead))

/-- What comes behind the name is always there and does not change what has
been captured of the statement. -/
theorem first_tail (way : Way) :
    furtherWord.first (restOfLine.first fun next => some (verbAndName next.captures)) way =
      some (verbAndName way.captures) := by
  have hkeeps : ∀ {p : Pattern}, p.hasGroup 1 = false → p.hasGroup 3 = false →
      ∀ {way next : Way}, next ∈ p.ways way →
        verbAndName next.captures = verbAndName way.captures := by
    intro p hverb hname way next hnext
    rw [verbAndName, verbAndName, get?_captures_of_mem_ways hverb hnext,
      get?_captures_of_mem_ways hname hnext]
  have hline : ∀ way, restOfLine.first (fun next => some (verbAndName next.captures)) way =
      some (verbAndName way.captures) := fun way =>
    first_of_forall (ways_times_ne_nil none true) fun next hnext =>
      congrArg some (hkeeps rfl rfl hnext)
  refine first_of_forall (ways_times_ne_nil (some 1) true) fun next hnext => ?_
  exact (hline next).trans (congrArg some (hkeeps rfl rfl hnext))

/-- The name is the whole word, as nothing behind it can make it shorter. -/
theorem reads_name :
    ReadsWords 1 ((group 3 (run wordSet)).first
      (furtherWord.first (restOfLine.first fun next => some (verbAndName next.captures))))
      nameAhead := by
  intro way
  rw [first_group, first_word]
  · by_cases hword : way.rest.atWord = true
    · rw [if_pos hword, if_pos hword, Text.words_of_atWord hword, first_tail, Way.captured_skip,
        Text.take_firstWord]
      rfl
    · rw [if_neg hword, if_neg hword]
  · intro other _ hnone
    rw [first_tail] at hnone
    cases hnone

/-- **The word `COLUMN` is skipped** if another word comes behind it. -/
theorem reads_column {k : Way → Option (Option Text × Option Text)}
    (h : ReadsWords 1 k nameAhead) : ReadsWords 1 (columnWord.first k) columnAhead := by
  intro way
  have hskips : ReadsWords 1 ((letters "COLUMN".toList ++ [run .space]).foldr first
      fun next => k (next.captured 2 way.cursor)) (afterKeyword "COLUMN".toList nameAhead) := by
    rw [List.foldr_append]
    exact ((h.captured (by decide) way.cursor).gap fun _ => rfl).keyword (fun _ => rfl)
      (by decide) (by decide)
  rw [columnWord, first_optional, first_group, first_sequence, hskips way, h way]
  by_cases hword : way.rest.atWord = true
  · rw [if_pos hword, if_pos hword, if_pos hword, Text.words_of_atWord hword, afterKeyword,
      columnAhead, nameAhead, nameAhead]
    cases way.rest.firstWord.sameLetters "COLUMN".toList with
    | false => rfl
    | true => cases way.rest.behindWord.words <;> rfl
  · rw [if_neg hword, if_neg hword, if_neg hword]
    rfl

/-- **The default pattern reads words**, each of its parts behind the one
before it. -/
theorem reads_statement :
    ReadsWords 1 (statement.first fun next => some (verbAndName next.captures))
      (afterKeyword "ALTER".toList clauseAhead) := by
  have hclause := (reads_column reads_name).gap fun _ => rfl
  have hverb := (hclause.either (fun _ => rfl) (s := "ADD".toList) (t := "DROP".toList)
    (by decide) (by decide) (by decide) (by decide)).gap fun _ => rfl
  have htable := ((hverb.word fun _ => rfl).gap fun _ => rfl).keyword (fun _ => rfl)
    (s := "TABLE".toList) (by decide) (by decide)
  have halter := (htable.gap fun _ => rfl).keyword (fun _ => rfl)
    (s := "ALTER".toList) (by decide) (by decide)
  simp only [statement, first_sequence, List.foldr_append, List.foldr_cons, List.foldr_nil]
  exact halter

/-! ## The search -/

/-- **The search goes through the words** for the first from which they go on
as a statement does. -/
theorem map_search_statement (ddl : Text) :
    (statement.search ddl).map verbAndName =
      ddl.words.tails.findSome? (readsFrom "ALTER".toList (clauseAhead none)) := by
  let ahead (t : Text) : Option (Option Text × Option Text) :=
    if t.atWord then afterKeyword "ALTER".toList clauseAhead none t.words
    else none
  have hahead : ∀ cursor : Cursor,
      (((statement.ways ⟨cursor, []⟩).head?.map Way.captures).map verbAndName) =
        ahead cursor.rest := by
    intro cursor
    rw [Option.map_map]
    exact (first_some fun next => verbAndName next.captures).symm.trans (reads_statement _)
  have hword : ∀ word rest : Text, word ≠ [] → word.IsUnbroken → rest.AtGap →
      ahead (word ++ rest) =
        if word.sameLetters "ALTER".toList then clauseAhead none rest.words else none := by
    intro word rest hne hunbroken hrest
    obtain ⟨c, word, rfl⟩ := List.exists_cons_of_ne_nil hne
    have hc : isSpace c = false := hunbroken c List.mem_cons_self
    have hhead : Text.atWord (c :: word ++ rest) = true := by simp [hc]
    have hwords := Text.words_append hne hunbroken hrest
    simp only [ahead, if_pos hhead, hwords, afterKeyword]
  rw [search_eq isProgressive_statement, List.map_findSome?, Cursor.ofText]
  calc (Cursor.along 0 none ddl).findSome? _
      = ((Cursor.along 0 none ddl).map Cursor.rest).findSome? ahead := by
        rw [List.findSome?_map]
        exact congrArg (fun g => List.findSome? g _) (funext hahead)
    _ = ddl.tails.findSome? ahead := by rw [Cursor.map_rest_along]
    _ = ddl.words.tails.findSome? (readsFrom "ALTER".toList (clauseAhead none)) :=
        findSome?_tails_eq_words (by decide) (fun t ht => if_neg ht) hword ddl

/-- What is read off words is a statement that they begin with. -/
theorem readsFrom_clause_eq_some_iff {words : List Text} {answer : Option Text × Option Text} :
    readsFrom "ALTER".toList (clauseAhead none) words = some answer ↔
      ∃ verb column, answer = (some verb, some column) ∧ IsStatement words verb column := by
  simp only [readsFrom_eq_some_iff, clauseAhead, afterKeyword_eq_some_iff, afterWord_eq_some_iff,
    afterEither_eq_some_iff, columnAhead_eq_some_iff]
  constructor
  · rintro ⟨alter, _, rfl, halter, table, _, rfl, htable, target, _, rfl, verb, _, rfl, hverb,
      object, rest, rfl, rfl⟩
    exact ⟨verb, _, rfl, alter, table, target, object, rest, rfl, halter, htable, hverb, rfl⟩
  · rintro ⟨verb, column, rfl, alter, table, target, object, rest, rfl, halter, htable, hverb, rfl⟩
    exact ⟨alter, _, rfl, halter, table, _, rfl, htable, target, _, rfl, verb, _, rfl, hverb,
      object, rest, rfl, rfl⟩

/-- The verb and the name of the first statement among the words, if there is
one at all. -/
theorem search_statement_eq_some_iff {ddl : Text} {answer : Option Text × Option Text} :
    (∃ captures, statement.search ddl = some captures ∧ verbAndName captures = answer) ↔
      ∃ k verb column, answer = (some verb, some column) ∧
        IsStatement (ddl.words.drop k) verb column ∧
        ∀ j < k, ∀ v c, ¬ IsStatement (ddl.words.drop j) v c := by
  have hnone : ∀ words, readsFrom "ALTER".toList (clauseAhead none) words = none ↔
      ∀ v c, ¬ IsStatement words v c := by
    intro words
    rw [Option.eq_none_iff_forall_ne_some]
    simp only [ne_eq, readsFrom_clause_eq_some_iff]
    exact ⟨fun h v c hstatement => h _ ⟨v, c, rfl, hstatement⟩,
      fun h _ ⟨v, c, _, hstatement⟩ => h v c hstatement⟩
  rw [← Option.map_eq_some_iff, map_search_statement, findSome?_tails_eq_some_iff rfl]
  simp only [readsFrom_clause_eq_some_iff, hnone]
  constructor
  · rintro ⟨k, ⟨verb, column, hanswer, hstatement⟩, hbefore⟩
    exact ⟨k, verb, column, hanswer, hstatement, hbefore⟩
  · rintro ⟨k, verb, column, hanswer, hstatement, hbefore⟩
    exact ⟨k, ⟨verb, column, hanswer, hstatement⟩, hbefore⟩

/-- **The default pattern is a scan of the words.** It matches exactly where
they go on as a statement from some word on. Of the first such word group 1 is
the verb and group 3 the name, and group 1 always reads as a verb. -/
theorem search_defaultPattern (ddl : Text) :
    ∃ pattern, parse? defaultPattern = some pattern ∧
      ((pattern.search ddl).isSome = true ↔
        ∃ k verb column, IsStatement (ddl.words.drop k) verb column) ∧
      (∀ k verb column, IsStatement (ddl.words.drop k) verb column →
        (∀ j < k, ∀ v c, ¬ IsStatement (ddl.words.drop j) v c) →
        ∃ captures, pattern.search ddl = some captures ∧
          captures.get? 1 = some verb ∧ captures.get? 3 = some column) ∧
      ∀ captures, pattern.search ddl = some captures →
        ∃ verb, captures.get? 1 = some verb ∧ (ColumnVerb.parse? verb).isSome = true := by
  refine ⟨statement, parse?_defaultPattern, ⟨?_, ?_⟩, ?_, ?_⟩
  · intro h
    obtain ⟨captures, hsearch⟩ := Option.isSome_iff_exists.1 h
    obtain ⟨k, verb, column, -, hstatement, -⟩ :=
      search_statement_eq_some_iff.1 ⟨captures, hsearch, rfl⟩
    exact ⟨k, verb, column, hstatement⟩
  · rintro ⟨k, verb, column, hstatement⟩
    obtain ⟨first, verb, column, hfirst, hbefore⟩ := hstatement.exists_first
    obtain ⟨captures, hsearch, -⟩ :=
      search_statement_eq_some_iff.2 ⟨first, verb, column, rfl, hfirst, hbefore⟩
    rw [hsearch]
    rfl
  · intro k verb column hstatement hbefore
    obtain ⟨captures, hsearch, hgroups⟩ :=
      search_statement_eq_some_iff.2 ⟨k, verb, column, rfl, hstatement, hbefore⟩
    obtain ⟨hverb, hcolumn⟩ := Prod.mk.inj hgroups
    exact ⟨captures, hsearch, hverb, hcolumn⟩
  · intro captures hsearch
    obtain ⟨k, verb, column, hgroups, hstatement, -⟩ :=
      search_statement_eq_some_iff.1 ⟨captures, hsearch, rfl⟩
    exact ⟨verb, (Prod.mk.inj hgroups).1, hstatement.parse?_verb⟩

/-- The statement may begin inside of a word, and a column may be named as the
word before it. -/
theorem search_defaultPattern_inside_word :
    let ddl : Text := "xALTER\tTABLE t Add Column column".toList
    ∃ pattern captures, parse? defaultPattern = some pattern ∧
      IsStatement (ddl.words.drop 0) "Add".toList "column".toList ∧
      pattern.search ddl = some captures ∧ captures.get? 1 = some "Add".toList ∧
      captures.get? 3 = some "column".toList := by
  intro ddl
  obtain ⟨pattern, hparse, -, hfirst, -⟩ := search_defaultPattern ddl
  have hstatement : IsStatement (ddl.words.drop 0) "Add".toList "column".toList :=
    ⟨"xALTER".toList, "TABLE".toList, "t".toList, "Column".toList, ["column".toList],
      by decide, by decide, by decide, Or.inl (by decide), by decide⟩
  obtain ⟨captures, hsearch, hverb, hcolumn⟩ :=
    hfirst 0 _ _ hstatement fun j hj => absurd hj (Nat.not_lt_zero j)
  exact ⟨pattern, captures, hparse, hstatement, hsearch, hverb, hcolumn⟩

end Pattern

/-! ## What it makes of an entry -/

/-- A translator with the default pattern. -/
theorem DdlTranslator.make_none (sourceTable : Option Text) (routing : Routing) :
    make none sourceTable routing =
      .ok ⟨Pattern.statement, sourceTable.bind Text.unlessBlank, routing⟩ := by
  rw [make, Option.getD_none, Pattern.parse?_defaultPattern]

namespace HistoryEntry

variable {entry : HistoryEntry} {ddl : Text} {verb : ColumnVerb}

/-- **What the default pattern finds** is the first statement among the words. -/
theorem found?_of_first (halter : entry.isAlter = true) (hddl : entry.ddl = some ddl)
    {k : Nat} {spelled column : Text} (hstatement : IsStatement (ddl.words.drop k) spelled column)
    (hfirst : ∀ j < k, ∀ v c, ¬ IsStatement (ddl.words.drop j) v c)
    (hverb : ColumnVerb.parse? spelled = some verb) :
    entry.found? Pattern.statement = some (verb, some (columnName column)) := by
  obtain ⟨captures, hsearch, hgroups⟩ :=
    Pattern.search_statement_eq_some_iff.2 ⟨k, spelled, column, rfl, hstatement, hfirst⟩
  obtain ⟨hspelled, hcolumn⟩ := Prod.mk.inj hgroups
  refine found?_eq_some_iff.2 ⟨halter, captures, ?_, ?_, ?_⟩
  · rw [hddl, Option.bind_some, hsearch]
  · rw [hspelled, Option.getD_some, hverb]
  · rw [hcolumn, Option.map_some]

/-- The change of an entry whose statement has this verb and this name. -/
def changeOf (entry : HistoryEntry) (verb : ColumnVerb) (name : Text) :
    Except Fault (Option ColumnChange) :=
  match verb with
  | .add => (entry.addedColumn (some name)).map some
  | .drop => .ok (some (.drop name))

theorem changeOf_ne_none (name : Text) : entry.changeOf verb name ≠ .ok none := by
  intro h
  cases verb with
  | drop => cases h
  | add =>
    obtain ⟨change, -, hchange⟩ := map_eq_ok_iff.1 h
    cases hchange

/-- **The change of an entry** is made of the first statement among the words
of its text. -/
theorem columnChange_of_first (halter : entry.isAlter = true) (hddl : entry.ddl = some ddl)
    {k : Nat} {spelled column : Text} (hstatement : IsStatement (ddl.words.drop k) spelled column)
    (hfirst : ∀ j < k, ∀ v c, ¬ IsStatement (ddl.words.drop j) v c)
    (hverb : ColumnVerb.parse? spelled = some verb) :
    entry.columnChange Pattern.statement = entry.changeOf verb (columnName column) := by
  rw [columnChange_eq_found, found?_of_first halter hddl hstatement hfirst hverb]
  cases verb <;> rfl

/-- A text that begins with a statement has none before it. -/
theorem found?_of_isStatement (halter : entry.isAlter = true) (hddl : entry.ddl = some ddl)
    {spelled column : Text} (hstatement : IsStatement ddl.words spelled column)
    (hverb : ColumnVerb.parse? spelled = some verb) :
    entry.found? Pattern.statement = some (verb, some (columnName column)) :=
  found?_of_first (k := 0) halter hddl hstatement (fun j hj => absurd hj (Nat.not_lt_zero j)) hverb

/-- So the change of its entry is made of this one. -/
theorem columnChange_of_isStatement (halter : entry.isAlter = true) (hddl : entry.ddl = some ddl)
    {spelled column : Text} (hstatement : IsStatement ddl.words spelled column)
    (hverb : ColumnVerb.parse? spelled = some verb) :
    entry.columnChange Pattern.statement = entry.changeOf verb (columnName column) :=
  columnChange_of_first (k := 0) halter hddl hstatement
    (fun j hj => absurd hj (Nat.not_lt_zero j)) hverb

end HistoryEntry

end ChangeFeed
