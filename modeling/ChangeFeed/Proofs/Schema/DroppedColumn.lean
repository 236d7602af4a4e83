import ChangeFeed.Proofs.Schema.Clauses
/-!
# Dropped columns — what is taken for the name of a column

A statement that drops a column is translated with the whole word that stands
where the name is, less commas at its end and backquotes around it. So the name
is the column's only if nothing but commas stands right behind it
(`columnName_append_iff`). A semicolon, or a comma with the next clause right
behind it, becomes a part of the name.
-/


namespace ChangeFeed

/-! ## Names -/

/-- **The name of a column**, of characters that neither end it nor stand
around it. -/
structure IsColumnName (name : Text) : Prop where
  ne_nil : name ≠ []
  unbroken : name.IsUnbroken
  unmarked : ∀ c ∈ [',', ';', '\x60'], c ∉ name

/-- A name as it is written: bare, or between backquotes. -/
inductive IsWrittenName (name : Text) : Text → Prop where
  | bare : IsWrittenName name name
  | quoted : IsWrittenName name ('\x60' :: (name ++ ['\x60']))

variable {name written tail : Text}

theorem IsColumnName.ne_of_mem {c d : Char} (h : IsColumnName name) (hd : d ∈ [',', ';', '\x60'])
    (hc : c ∈ name) : (c == d) = false := by
  rw [beq_eq_false_iff_ne]
  rintro rfl
  exact h.unmarked c hd hc

namespace IsWrittenName

/-- A written name is a word without a comma. -/
theorem isWord (hwritten : IsWrittenName name written) (hname : IsColumnName name) :
    written.IsWord ∧ ∀ c ∈ written, (c == ',') = false := by
  cases hwritten with
  | bare => exact ⟨⟨hname.ne_nil, hname.unbroken⟩, fun c => hname.ne_of_mem (by decide)⟩
  | quoted =>
    have hquote : isSpace '\x60' = false ∧ ('\x60' == ',') = false := by decide
    refine ⟨⟨List.cons_ne_nil _ _, ?_⟩, ?_⟩
    all_goals
      intro c hc
      rw [List.mem_cons, List.mem_append, List.mem_singleton] at hc
    · rcases hc with rfl | hc | rfl
      · exact hquote.1
      · exact hname.unbroken c hc
      · exact hquote.1
    · rcases hc with rfl | hc | rfl
      · exact hquote.2
      · exact hname.ne_of_mem (by decide) hc
      · exact hquote.2

/-- Without the backquotes around it a written name is the name. -/
theorem trimWhile (hwritten : IsWrittenName name written) (hname : IsColumnName name) :
    Text.trimWhile (· == '\x60') written = name := by
  have hbare : ∀ c ∈ name, (c == '\x60') = false := fun c => hname.ne_of_mem (by decide)
  cases hwritten with
  | bare => exact Text.trimWhile_eq_self hbare
  | quoted => exact Text.trimWhile_between hbare (by decide)

end IsWrittenName

/-- **When the name is the column's.** Commas at the end of a word are cut off.
Anything else that stands behind the name stays, and with it the mark that
begins it. -/
theorem columnName_append_iff (hname : IsColumnName name) (hwritten : IsWrittenName name written)
    (htail : ∀ c, tail.head? = some c → c = ',' ∨ c = ';') :
    columnName (written ++ tail) = name ↔ ∀ c ∈ tail, c = ',' := by
  obtain ⟨-, hcomma⟩ := hwritten.isWord hname
  unfold columnName
  constructor
  · intro hcolumn c hc
    by_contra hne
    have hc' : (c == ',') = false := beq_eq_false_iff_ne.2 hne
    cases tail with
    | nil => cases hc
    | cons d rest =>
      -- the mark `d` is not cut off, as `c` is not
      have hkept : d ∈ Text.trimEndWhile (· == ',') (written ++ d :: rest) := by
        rw [Text.trimEndWhile_append_of_mem hc hc']
        refine List.mem_append_right written ?_
        rcases List.mem_cons.1 hc with rfl | hrest
        · exact Text.mem_trimEndWhile List.mem_cons_self hc'
        · have hsplit : d :: rest = [d] ++ rest := rfl
          rw [hsplit, Text.trimEndWhile_append_of_mem hrest hc']
          exact List.mem_cons_self
      have hmark : (d == '\x60') = false ∧ d ∈ [',', ';', '\x60'] := by
        rcases htail d rfl with rfl | rfl <;> decide
      have hmem : d ∈ Text.trimWhile (· == '\x60') _ := Text.mem_trimWhile hkept hmark.1
      rw [hcolumn] at hmem
      exact hname.unmarked d hmark.2 hmem
  · intro hall
    have hcut : ∀ c ∈ tail, (c == ',') = true := fun c hc => beq_iff_eq.2 (hall c hc)
    rw [Text.trimEndWhile_append_of_forall hcut, Text.trimEndWhile_eq_self hcomma]
    exact hwritten.trimWhile hname

/-! ## Statements -/

/-- **A text that drops the column of that name**: the words up to the name,
each with the gap behind it, the name, and what is behind the name. The word
`COLUMN` may be left out, unless the column has that name itself. -/
structure IsDropText (name behind ddl : Text) : Prop where
  isName : IsColumnName name
  /-- The name ends with the text, at white space, or at a comma or semicolon. -/
  ends : ∀ c, behind.head? = some c → isSpace c = true ∨ c = ',' ∨ c = ';'
  spells : ∃ (margin : Text) (parts : List (Text × Text)) (alter table target drop : Text)
    (keyword : List Text) (written : Text),
    ddl = margin ++ (Text.spaced parts ++ (written ++ behind)) ∧ margin.isBlank = true ∧
    (∀ part ∈ parts, part.1.IsWord ∧ part.2.IsGap) ∧
    parts.map Prod.fst = alter :: table :: target :: drop :: keyword ∧
    alter.sameLetters "ALTER".toList = true ∧ table.sameLetters "TABLE".toList = true ∧
    drop.sameLetters "DROP".toList = true ∧
    (keyword = [] ∧ name.sameLetters "COLUMN".toList = false ∨
      ∃ column, keyword = [column] ∧ column.sameLetters "COLUMN".toList = true) ∧
    IsWrittenName name written

namespace IsDropText

variable {behind ddl : Text}

theorem head?_firstWord (h : IsDropText name behind ddl) :
    ∀ c, behind.firstWord.head? = some c → c = ',' ∨ c = ';' := by
  intro c hc
  have hspace : isSpace c = false := Text.isUnbroken_firstWord behind c (List.mem_of_head? hc)
  have hhead : behind.head? = some c := by
    rw [← Text.firstWord_append_behindWord behind, List.head?_append, hc, Option.some_or]
  rcases h.ends c hhead with hgap | hmark
  · rw [hspace] at hgap
    cases hgap
  · exact hmark

/-- A word with a mark in it is not the word `COLUMN`. -/
theorem sameLetters_of_mem {word : Text} {c : Char} (hmark : c ∈ [',', ';', '\x60'])
    (hc : c ∈ word) : word.sameLetters "COLUMN".toList = false := by
  rw [Bool.eq_false_iff]
  intro hsame
  have hlower : c.toLower ∈ "COLUMN".toList.map Char.toLower := by
    rw [← Text.sameLetters_iff.1 hsame]
    exact List.mem_map_of_mem hc
  simp only [List.mem_cons, List.not_mem_nil, or_false] at hmark
  rcases hmark with rfl | rfl | rfl <;> exact absurd hlower (by decide)

/-- Nor is the word of a name that is not `COLUMN` itself. -/
theorem sameLetters_word (h : IsDropText name behind ddl) (hwritten : IsWrittenName name written)
    (hcolumn : name.sameLetters "COLUMN".toList = false) :
    Text.sameLetters (written ++ behind.firstWord) "COLUMN".toList = false := by
  cases htail : behind.firstWord with
  | nil =>
    rw [List.append_nil]
    cases hwritten with
    | bare => exact hcolumn
    | quoted => exact sameLetters_of_mem (c := '\x60') (by decide) List.mem_cons_self
  | cons d rest =>
    have hd : d ∈ [',', ';', '\x60'] := by
      rcases h.head?_firstWord d (by rw [htail, List.head?_cons]) with rfl | rfl <;> decide
    exact sameLetters_of_mem hd (List.mem_append_right written List.mem_cons_self)

/-- **It reads as a statement** that drops the word of the name. -/
theorem isStatement (h : IsDropText name behind ddl) :
    ∃ spelled written, ColumnVerb.parse? spelled = some .drop ∧ IsWrittenName name written ∧
      IsStatement ddl.words spelled (written ++ behind.firstWord) := by
  obtain ⟨margin, parts, alter, table, target, drop, keyword, written, rfl, hmargin, hparts,
    hwords, halter, htable, hdrop, hkeyword, hwritten⟩ := h.spells
  obtain ⟨⟨hne, hunbroken⟩, -⟩ := hwritten.isWord h.isName
  -- the word of the name goes on up to the next white space
  have hword : Text.IsUnbroken (written ++ behind.firstWord) := by
    intro c hc
    rcases List.mem_append.1 hc with hc | hc
    · exact hunbroken c hc
    · exact Text.isUnbroken_firstWord behind c hc
  have hname : Text.words (written ++ behind) =
      (written ++ behind.firstWord) :: behind.behindWord.words := by
    conv_lhs => rw [← Text.firstWord_append_behindWord behind, ← List.append_assoc]
    exact Text.words_append (by simp [hne]) hword (Text.atGap_behindWord behind)
  have hends := Text.endsInLetters_of_sameLetters halter
  refine ⟨drop, written, ColumnVerb.parse?_of_sameLetters hdrop, hwritten, ?_⟩
  rw [Text.words_append_of_isBlank hmargin, Text.words_spaced hparts, hwords, hname]
  rcases hkeyword with ⟨rfl, hcolumn⟩ | ⟨column, rfl, hcolumn⟩
  · have hobject := h.sameLetters_word hwritten hcolumn
    exact ⟨alter, table, target, written ++ behind.firstWord, behind.behindWord.words, rfl, hends,
      htable, Or.inr hdrop, by rw [hobject]; rfl⟩
  · exact ⟨alter, table, target, column, _ :: behind.behindWord.words, rfl, hends, htable,
      Or.inr hdrop, by rw [if_pos hcolumn]; rfl⟩

end IsDropText

/-! ## What becomes of them -/

namespace HistoryEntry

variable {entry : HistoryEntry} {behind ddl : Text}

/-- The change of an entry whose text drops a column. -/
theorem columnChange_of_isDropText (halter : entry.isAlter = true) (hddl : entry.ddl = some ddl)
    (hdrop : IsDropText name behind ddl) :
    ∃ written, IsWrittenName name written ∧ entry.columnChange Pattern.statement =
      .ok (some (.drop (columnName (written ++ behind.firstWord)))) := by
  obtain ⟨spelled, written, hverb, hwritten, hstatement⟩ := hdrop.isStatement
  exact ⟨written, hwritten, columnChange_of_isStatement halter hddl hstatement hverb⟩

/-- **Which column is dropped.** A text that drops a column always makes a
change that drops one, and it is the one that is named exactly if there is
nothing but commas between its name and the next white space. -/
theorem drop_names_column_iff {translator : DdlTranslator} {sourceTable : Option Text}
    {routing : Routing} (hmake : DdlTranslator.make none sourceTable routing = .ok translator)
    (halter : entry.isAlter = true) (hddl : entry.ddl = some ddl)
    (hdrop : IsDropText name behind ddl) :
    ∃ column, entry.columnChange translator.pattern = .ok (some (.drop column)) ∧
      (column = name ↔ ∀ c ∈ behind.firstWord, c = ',') := by
  rw [DdlTranslator.make_none] at hmake
  cases hmake
  obtain ⟨written, hwritten, hchange⟩ := columnChange_of_isDropText halter hddl hdrop
  exact ⟨_, hchange, columnName_append_iff hdrop.isName hwritten hdrop.head?_firstWord⟩

/-- A name between backquotes with a comma behind it is read as it is meant. -/
theorem drop_names_column_iff_quoted :
    let ddl : Text := "alter table shop.orders\tdrop \x60qty\x60, drop note".toList
    let entry : HistoryEntry := ⟨some ddl, some (.object [("type".toList, .string "ALTER".toList)])⟩
    ∃ translator, DdlTranslator.make none none .nowhere = .ok translator ∧ entry.isAlter = true ∧
      IsDropText "qty".toList ", drop note".toList ddl ∧
      entry.columnChange translator.pattern = .ok (some (.drop "qty".toList)) := by
  intro ddl entry
  have hmake := DdlTranslator.make_none none .nowhere
  have hname : IsColumnName "qty".toList := ⟨by decide, by decide, by simp⟩
  have hends : ∀ c, ", drop note".toList.head? = some c → isSpace c = true ∨ c = ',' ∨ c = ';' := by
    rintro c ⟨⟩
    exact Or.inr (Or.inl rfl)
  have hdrop : IsDropText "qty".toList ", drop note".toList ddl :=
    ⟨hname, hends, [], [("alter".toList, " ".toList), ("table".toList, " ".toList),
      ("shop.orders".toList, "\t".toList), ("drop".toList, " ".toList)], "alter".toList,
      "table".toList, "shop.orders".toList, "drop".toList, [], "\x60qty\x60".toList, by decide,
      by decide, by decide, by decide, by decide, by decide, by decide, Or.inl ⟨rfl, by decide⟩,
      .quoted⟩
  have halter : entry.isAlter = true := rfl
  have hddl : entry.ddl = some ddl := rfl
  obtain ⟨column, hchange, hiff⟩ := drop_names_column_iff hmake halter hddl hdrop
  have htail : Text.firstWord ", drop note".toList = [','] := by decide
  rw [htail] at hiff
  have hcolumn : column = "qty".toList := hiff.2 (by simp)
  rw [hcolumn] at hchange
  exact ⟨_, hmake, halter, hdrop, hchange⟩

/-- **The next clause may become a part of the name**: where it stands right
behind the comma, the first word of it is dropped along with the column, and a
semicolon is dropped along with any. -/
theorem not_drop_names_column_comma :
    let entry (ddl : Text) : HistoryEntry :=
      ⟨some ddl, some (.object [("type".toList, .string "ALTER".toList)])⟩
    let clauses : Text := "ALTER TABLE t DROP COLUMN a,DROP COLUMN b".toList
    let ended : Text := "ALTER TABLE t DROP COLUMN a;".toList
    ∃ translator, DdlTranslator.make none none .nowhere = .ok translator ∧
      IsDropText "a".toList ",DROP COLUMN b".toList clauses ∧
      (entry clauses).columnChange translator.pattern = .ok (some (.drop "a,DROP".toList)) ∧
      IsDropText "a".toList ";".toList ended ∧
      (entry ended).columnChange translator.pattern = .ok (some (.drop "a;".toList)) := by
  intro entry clauses ended
  have hname : IsColumnName "a".toList := ⟨by decide, by decide, by simp⟩
  let parts : List (Text × Text) := [("ALTER".toList, [' ']), ("TABLE".toList, [' ']),
    ("t".toList, [' ']), ("DROP".toList, [' ']), ("COLUMN".toList, [' '])]
  have hparts : ∀ part ∈ parts, part.1.IsWord ∧ part.2.IsGap := by decide
  have hdrop : ∀ behind : Text,
      (∀ c, behind.head? = some c → isSpace c = true ∨ c = ',' ∨ c = ';') →
      IsDropText "a".toList behind ("ALTER TABLE t DROP COLUMN a".toList ++ behind) :=
    fun behind hends => ⟨hname, hends, [], parts, "ALTER".toList, "TABLE".toList, "t".toList,
      "DROP".toList, ["COLUMN".toList], "a".toList, rfl, rfl, hparts, rfl, by decide, by decide,
      by decide, Or.inr ⟨"COLUMN".toList, rfl, by decide⟩, .bare⟩
  have hstatement : ∀ ddl word rest : Text, ddl.words = "ALTER".toList :: "TABLE".toList ::
      "t".toList :: "DROP".toList :: "COLUMN".toList :: word :: rest.words →
      (entry ddl).columnChange Pattern.statement = .ok (some (.drop (columnName word))) := by
    intro ddl word rest hwords
    have hreads : IsStatement (ddl.words.drop 0) "DROP".toList word :=
      ⟨_, _, _, _, _, hwords, by decide, by decide, Or.inr (by decide), rfl⟩
    have hverb : ColumnVerb.parse? "DROP".toList = some .drop := by decide
    exact columnChange_of_first rfl rfl hreads (fun j hj => absurd hj (Nat.not_lt_zero j)) hverb
  refine ⟨_, DdlTranslator.make_none none .nowhere, hdrop _ ?_, ?_, hdrop _ ?_, ?_⟩
  · rintro c ⟨⟩
    exact Or.inr (Or.inl rfl)
  · exact hstatement clauses "a,DROP".toList "COLUMN b".toList (by decide)
  · rintro c ⟨⟩
    exact Or.inr (Or.inr rfl)
  · exact hstatement ended "a;".toList [] (by decide)

end HistoryEntry

end ChangeFeed
