import ChangeFeed.Proofs.Schema.AddedColumn
import ChangeFeed.Proofs.Schema.Target
import ChangeFeed.Proofs.Text.Words
/-!
# Defaults — how far a default value reaches in its statement

A default value is put into a statement as a literal, and whoever executes
the statement reads that literal up to the first quote inside it that is not
doubled (`unquote?_eq_some_iff`). A literal that is made here has no such
quote. A text that stands between quotes already is taken as it is, and it
may have one: then the literal ends there, and the rest of the text is read
as something else. `HasLoneQuote` are these texts; every other default stays
inside its clause.
-/


namespace ChangeFeed

/-! ## Literals -/

/-- A quote that a literal may stand between. -/
def isQuote (c : Char) : Bool := c == '\'' || c == '\x22'

/-- **Reads a literal** behind its opening quote. A quote that is doubled
stands for one, and the first that is not ends the literal: gives the value
and what is behind it. -/
def unquote? (quote : Char) : Text → Option (Text × Text)
  | [] => none
  | [c] => if c = quote then some ([], []) else none
  | c :: d :: rest =>
    if c = quote then
      if d = quote then (unquote? quote rest).map fun (value, behind) => (quote :: value, behind)
      else some ([], d :: rest)
    else (unquote? quote (d :: rest)).map fun (value, behind) => (c :: value, behind)

/-- What is behind the value that a text begins with, a literal or a word. -/
def behindValue? : Text → Option Text
  | [] => none
  | c :: rest =>
    if isQuote c then (unquote? c rest).map Prod.snd else some (Text.behindWord (c :: rest))

/-- **A complete literal**: between two equal quotes, with every such quote
inside doubled. -/
def IsLiteral (t : Text) : Prop :=
  ∃ quote value, isQuote quote = true ∧ t = quote :: (Text.doubled quote value ++ [quote])

/-- **A text with a lone quote**: between two equal quotes, with such quotes
inside that are not all doubled. -/
def HasLoneQuote (t : Text) : Prop :=
  ∃ quote body, isQuote quote = true ∧ t = quote :: (body ++ [quote]) ∧
    ∀ value, body ≠ Text.doubled quote value

variable {quote : Char} {t value body behind raw literal : Text}

theorem unquote?_doubled (hbehind : behind.head? ≠ some quote) :
    unquote? quote (Text.doubled quote value ++ quote :: behind) = some (value, behind) := by
  induction value with
  | nil =>
    cases behind with
    | nil => simp [Text.doubled, unquote?]
    | cons d rest =>
      have hd : d ≠ quote := by simpa using hbehind
      simp [Text.doubled, unquote?, hd]
  | cons c value ih =>
    by_cases hc : c = quote
    · subst hc
      simp [Text.doubled, unquote?, ih]
    · obtain ⟨d, rest, hrest⟩ : ∃ d rest,
          Text.doubled quote value ++ quote :: behind = d :: rest := by
        cases hdoubled : Text.doubled quote value with
        | nil => exact ⟨_, _, rfl⟩
        | cons d rest => exact ⟨_, _, rfl⟩
      rw [hrest] at ih
      simp [Text.doubled, hc, hrest, unquote?, ih]

/-- **A literal ends at its first quote that is not doubled.** -/
theorem unquote?_eq_some_iff :
    unquote? quote t = some (value, behind) ↔
      t = Text.doubled quote value ++ quote :: behind ∧ behind.head? ≠ some quote := by
  constructor
  · intro h
    fun_induction unquote? quote t generalizing value with
    | case1 => cases h
    | case2 =>
      cases h
      exact ⟨rfl, nofun⟩
    | case3 => cases h
    | case4 rest ih =>
      obtain ⟨⟨inner, _⟩, hinner, heq⟩ := Option.map_eq_some_iff.1 h
      cases heq
      obtain ⟨rfl, hbehind⟩ := ih hinner
      exact ⟨by simp [Text.doubled], hbehind⟩
    | case5 d rest hd =>
      cases h
      exact ⟨rfl, by simpa using hd⟩
    | case6 c d rest hc ih =>
      obtain ⟨⟨inner, _⟩, hinner, heq⟩ := Option.map_eq_some_iff.1 h
      cases heq
      obtain ⟨hrest, hbehind⟩ := ih hinner
      exact ⟨by simp [Text.doubled, hc, hrest], hbehind⟩
  · rintro ⟨rfl, hbehind⟩
    exact unquote?_doubled hbehind

/-- A word that does not begin with a quote is a value, up to the white space
behind it. -/
theorem behindValue?_of_word {word : Text} {c : Char} (hunbroken : word.IsUnbroken)
    (hhead : word.head? = some c) (hc : isQuote c = false) (hbehind : behind.AtGap) :
    behindValue? (word ++ behind) = some behind := by
  obtain ⟨rest, rfl⟩ := List.head?_eq_some_iff.1 hhead
  rw [List.cons_append, behindValue?, if_neg (by simp [hc]), ← List.cons_append,
    Text.behindWord_append hunbroken hbehind]

/-! ## Texts between quotes -/

section Quoted

variable (hquote : isQuote quote = true)
include hquote

/-- What is not white space is behind a literal only if it belongs to it. -/
theorem head?_ne_of_atGap (hbehind : behind.AtGap) : behind.head? ≠ some quote := by
  intro hhead
  have hspace := hbehind quote hhead
  simp only [isQuote, Bool.or_eq_true, beq_iff_eq] at hquote
  rcases hquote with rfl | rfl <;> cases hspace

theorem isLiteral_iff : IsLiteral (quote :: (body ++ [quote])) ↔
    ∃ value, body = Text.doubled quote value := by
  constructor
  · rintro ⟨other, value, -, h⟩
    obtain ⟨rfl, hbody⟩ := List.cons.inj h
    exact ⟨value, List.append_cancel_right hbody⟩
  · rintro ⟨value, rfl⟩
    exact ⟨quote, value, hquote, rfl⟩

theorem hasLoneQuote_iff : HasLoneQuote (quote :: (body ++ [quote])) ↔
    ¬ ∃ value, body = Text.doubled quote value := by
  rw [not_exists]
  constructor
  · rintro ⟨other, inner, -, h, hlone⟩
    obtain ⟨rfl, hbody⟩ := List.cons.inj h
    obtain rfl := List.append_cancel_right hbody
    exact hlone
  · intro hlone
    exact ⟨quote, body, hquote, rfl, hlone⟩

/-- **Where the value ends.** A text between quotes is read as one value
exactly if all such quotes inside are doubled. -/
theorem behindValue?_eq_some_iff (hbehind : behind.AtGap) :
    behindValue? (quote :: (body ++ [quote]) ++ behind) = some behind ↔
      ∃ value, body = Text.doubled quote value := by
  have hassoc : quote :: (body ++ [quote]) ++ behind = quote :: (body ++ quote :: behind) := by simp
  rw [hassoc, behindValue?, if_pos hquote, Option.map_eq_some_iff]
  constructor
  · rintro ⟨⟨value, _⟩, hread, rfl⟩
    obtain ⟨hbody, -⟩ := unquote?_eq_some_iff.1 hread
    exact ⟨value, List.append_cancel_right hbody⟩
  · rintro ⟨value, rfl⟩
    exact ⟨_, unquote?_doubled (head?_ne_of_atGap hquote hbehind), rfl⟩

end Quoted

theorem isQuotedLiteral_iff :
    isQuotedLiteral t = true ↔
      ∃ quote body, isQuote quote = true ∧ t = quote :: (body ++ [quote]) := by
  constructor
  · intro h
    unfold isQuotedLiteral at h
    split at h
    case h_1 first second rest =>
      simp only [Bool.and_eq_true, beq_iff_eq, List.getLast?_cons_cons] at h
      obtain ⟨body, hbody⟩ := List.getLast?_eq_some_iff.1 h.2
      exact ⟨first, body, h.1, by rw [hbody]⟩
    case h_2 => cases h
  · rintro ⟨quote, body, hquote, rfl⟩
    obtain ⟨second, rest, hrest⟩ : ∃ second rest, body ++ [quote] = second :: rest := by
      cases body with
      | nil => exact ⟨_, _, rfl⟩
      | cons d body => exact ⟨_, _, rfl⟩
    have hlast : (second :: rest).getLast? = some quote := by rw [← hrest]; simp
    unfold isQuotedLiteral
    rw [hrest]
    simp only [List.getLast?_cons_cons, hlast, beq_self_eq_true, Bool.and_true]
    exact hquote

theorem not_hasLoneQuote_of_unquoted (hquoted : isQuotedLiteral t = false) : ¬ HasLoneQuote t := by
  rintro ⟨quote, body, hquote, rfl, -⟩
  rw [isQuotedLiteral_iff.2 ⟨quote, body, hquote, rfl⟩] at hquoted
  cases hquoted

/-! ## The literal of a default -/

theorem Text.unlessBlank_eq_some_iff {kept : Text} :
    t.unlessBlank = some kept ↔ t = kept ∧ t.isBlank = false := by
  unfold unlessBlank
  cases t.isBlank <;> simp

/-- What a statement may have as a default: the word for the time of
insertion, or a complete literal. -/
def IsDefaultValue (t : Text) : Prop := t = "current_timestamp".toList ∨ IsLiteral t

/-- A default value is read as one value, and nothing behind it belongs to
it. -/
theorem IsDefaultValue.behindValue? (h : IsDefaultValue t) (hbehind : behind.AtGap) :
    behindValue? (t ++ behind) = some behind := by
  rcases h with rfl | ⟨quote, value, hquote, rfl⟩
  · have hall : "current_timestamp".toList.all (fun c => !isSpace c) = true := by decide
    have hunbroken : Text.IsUnbroken "current_timestamp".toList := by
      intro c hc
      simpa using List.all_eq_true.1 hall c hc
    have hhead : "current_timestamp".toList.head? = some 'c' := by decide
    exact behindValue?_of_word hunbroken hhead rfl hbehind
  · exact (behindValue?_eq_some_iff hquote hbehind).2 ⟨value, rfl⟩

theorem defaultLiteral?_of_isBlank (hblank : raw.isBlank = true) : defaultLiteral? raw = none := by
  rw [defaultLiteral?, if_pos hblank]

/-- **What a default that is not quoted already is written as** is a default
value, whatever its text. -/
theorem defaultLiteral?_of_unquoted (hblank : raw.isBlank = false)
    (hquoted : isQuotedLiteral raw = false) :
    ∃ literal, defaultLiteral? raw = some literal ∧ IsDefaultValue literal := by
  unfold defaultLiteral?
  rw [if_neg (by simp [hblank]), if_neg (by simp [hquoted])]
  split
  · exact ⟨_, rfl, Or.inl rfl⟩
  · exact ⟨_, rfl, Or.inr ⟨'\'', raw, rfl, rfl⟩⟩

theorem defaultLiteral?_of_quoted (hblank : raw.isBlank = false)
    (hquoted : isQuotedLiteral raw = true) : defaultLiteral? raw = some raw := by
  simp [defaultLiteral?, hblank, hquoted]

/-- **How far a default reaches.** -/
theorem exists_defaultLiteral (hblank : raw.isBlank = false) :
    ∃ literal, defaultLiteral? raw = some literal ∧ (HasLoneQuote raw → literal = raw) ∧
      (IsDefaultValue literal ↔ ¬ HasLoneQuote raw) ∧
      ∀ behind : Text, behind.AtGap →
        (behindValue? (literal ++ behind) = some behind ↔ ¬ HasLoneQuote raw) := by
  cases hquoted : isQuotedLiteral raw with
  | true =>
    obtain ⟨quote, body, hquote, rfl⟩ := isQuotedLiteral_iff.1 hquoted
    refine ⟨_, defaultLiteral?_of_quoted hblank hquoted, fun _ => rfl, ?_, fun behind hbehind => ?_⟩
    · have hword : quote :: (body ++ [quote]) ≠ "current_timestamp".toList := by
        intro h
        obtain rfl : quote = 'c' := Option.some.inj (congrArg List.head? h)
        cases hquote
      rw [IsDefaultValue, or_iff_right hword, isLiteral_iff hquote, hasLoneQuote_iff hquote, not_not]
    · rw [behindValue?_eq_some_iff hquote hbehind, hasLoneQuote_iff hquote, not_not]
  | false =>
    have hlone := not_hasLoneQuote_of_unquoted hquoted
    obtain ⟨literal, hliteral, hvalue⟩ := defaultLiteral?_of_unquoted hblank hquoted
    exact ⟨literal, hliteral, fun h => absurd h hlone, iff_of_true hvalue hlone,
      fun behind hbehind => iff_of_true (hvalue.behindValue? hbehind) hlone⟩

/-- A default that is not blank is written as something that is not. -/
theorem isBlank_of_defaultLiteral? (h : defaultLiteral? raw = some literal) :
    literal.isBlank = false := by
  unfold defaultLiteral? at h
  split at h
  · cases h
  split at h
  · cases h
    simpa using ‹¬ raw.isBlank = true›
  split at h
  · cases h
    decide
  · cases h
    rfl

/-! ## The statement around it -/

namespace ColumnChange

/-- The statement of a change up to the default: no default has a part in
it. -/
def opening (table : Text) (change : ColumnChange) : Text :=
  "ALTER TABLE ".toList ++ table ++ ' ' :: change.verb.sql ++ " COLUMN ".toList ++ change.column ++
    match change.type with
    | none => []
    | some type => ' ' :: type.sql

/-- The clause for a comment, and what is behind the default. -/
def commentClause (change : ColumnChange) : Text :=
  match change.comment.bind Text.unlessBlank with
  | none => []
  | some comment => " comment ".toList ++ quoteLiteral comment

theorem atGap_commentClause (change : ColumnChange) : change.commentClause.AtGap := by
  intro c hc
  unfold commentClause at hc
  split at hc
  · cases hc
  · cases hc
    rfl

/-- The statement of an addition with no default, and with one. -/
theorem render_add {table : Text} {change : ColumnChange} (hverb : change.verb = .add) :
    change.render table = change.opening table ++
      (match change.default.bind Text.unlessBlank with
        | none => []
        | some literal => " default ".toList ++ literal) ++ change.commentClause := by
  unfold render clauses opening commentClause
  rw [hverb]
  cases change.type <;> cases change.default.bind Text.unlessBlank <;>
    cases change.comment.bind Text.unlessBlank <;>
    simp only [List.append_assoc, List.nil_append, List.cons_append]

theorem render_drop (table column : Text) :
    (drop column).render table = (drop column).opening table ++ (drop column).commentClause := by
  unfold render opening commentClause
  simp only [drop, Option.bind_none, List.append_nil]

end ColumnChange

/-! ## The default of a history entry -/

namespace HistoryEntry

variable {entry : HistoryEntry} {pattern : Pattern} {change : ColumnChange}

/-- The default that an entry describes for the column it adds, unless it is
blank. -/
def describedDefault? (entry : HistoryEntry) : Option Text :=
  (entry.lastColumn?.bind ColumnDescription.default).bind Text.unlessBlank

/-- **A change drops a column or adds one**, with the default that is
described. -/
theorem columnChange_cases (h : entry.columnChange pattern = .ok (some change)) :
    (∃ column, change = .drop column) ∨
      change.verb = .add ∧ change.default = entry.describedDefault?.bind defaultLiteral? := by
  rcases drop_or_addition_of_columnChange h with hdrop | ⟨last, own, hlast, haddition⟩
  · exact Or.inl hdrop
  · obtain ⟨typeName, type, -, -, rfl⟩ := ColumnDescription.addition_eq_ok_iff.1 haddition
    refine Or.inr ⟨rfl, ?_⟩
    show last.default.bind defaultLiteral? = _
    rw [describedDefault?, lastColumn?_eq_getLast?, hlast, Option.bind_some]
    cases last.default with
    | none => rfl
    | some raw =>
      rw [Option.bind_some, Option.bind_some, Text.unlessBlank]
      split
      · exact defaultLiteral?_of_isBlank ‹_›
      · rfl

/-- **How a statement carries the default** that an entry describes: not at
all, or in one place, where it is read as one value unless it has a lone
quote. -/
inductive CarriesDefault (entry : HistoryEntry) (change : SchemaChange) : Prop where
  /-- A column that is dropped has no default, and one that is added may have
  none. -/
  | absent (hnone : change.change.verb = .drop ∨ entry.describedDefault? = none)
      (hstatement : change.statement =
        change.change.opening change.target ++ change.change.commentClause)
  | clause {raw literal : Text} (hverb : change.change.verb = .add)
      (hraw : entry.describedDefault? = some raw) (hliteral : defaultLiteral? raw = some literal)
      (hstatement : change.statement = change.change.opening change.target ++
        " default ".toList ++ literal ++ change.change.commentClause)
      (hbehind : behindValue? (literal ++ change.change.commentClause) =
        some change.change.commentClause ↔ ¬ HasLoneQuote raw)

/-- The statement of a change that is made of the entry. -/
theorem carriesDefault_of_columnChange {translated : SchemaChange}
    (hchange : entry.columnChange pattern = .ok (some translated.change))
    (hstatement : translated.statement = translated.change.render translated.target) :
    entry.CarriesDefault translated := by
  rcases columnChange_cases hchange with ⟨column, hdrop⟩ | ⟨hverb, hdefault⟩
  · rw [hdrop, ColumnChange.render_drop, ← hdrop] at hstatement
    exact .absent (Or.inl (by rw [hdrop]; rfl)) hstatement
  · rw [ColumnChange.render_add hverb, hdefault] at hstatement
    cases hraw : entry.describedDefault? with
    | none =>
      rw [hraw] at hstatement
      exact .absent (Or.inr hraw) (by simpa using hstatement)
    | some raw =>
      obtain ⟨found, -, hfound⟩ := Option.bind_eq_some_iff.1 hraw
      obtain ⟨rfl, hblank⟩ := Text.unlessBlank_eq_some_iff.1 hfound
      obtain ⟨literal, hliteral, -, -, hbehind⟩ := exists_defaultLiteral hblank
      have hkept : literal.unlessBlank = some literal :=
        Text.unlessBlank_eq_some_iff.2 ⟨rfl, isBlank_of_defaultLiteral? hliteral⟩
      rw [hraw, Option.bind_some, hliteral, Option.bind_some, hkept] at hstatement
      exact .clause hverb hraw hliteral (by simpa using hstatement)
        (hbehind _ translated.change.atGap_commentClause)

end HistoryEntry

/-- **A default value stays inside its clause**, unless it is a text between
quotes with a lone quote of that kind inside. Any other default that is not
blank is written as one value, and in a statement that is made of a history
entry this value is all that stands behind the word `default` up to the
comment. -/
theorem default_stays_in_clause :
    (∀ raw : Text, raw.isBlank = false → ∃ literal, defaultLiteral? raw = some literal ∧
      (HasLoneQuote raw → literal = raw) ∧ (IsDefaultValue literal ↔ ¬ HasLoneQuote raw)) ∧
    ∀ (translator : DdlTranslator) (envelope : Envelope) (change : SchemaChange),
      translator.translate envelope = .ok (some change) →
      ∃ value entry, envelope.history = some value ∧ HistoryEntry.parse value = .ok entry ∧
        entry.CarriesDefault change := by
  refine ⟨fun raw hblank => ?_, fun translator envelope change htranslate => ?_⟩
  · obtain ⟨literal, hliteral, hlone, hvalue, -⟩ := exists_defaultLiteral hblank
    exact ⟨literal, hliteral, hlone, hvalue⟩
  · obtain ⟨-, value, entry, target, hhistory, hparse, hchange, -, hsplit, -, hstatement⟩ :=
      DdlTranslator.translate_eq_some_iff.1 htranslate
    have htarget : target = change.target := (splitTarget_eq_ok_iff.1 hsplit).1
    rw [htarget] at hstatement
    exact ⟨value, entry, hhistory, hparse,
      HistoryEntry.carriesDefault_of_columnChange hchange hstatement⟩

/-- A quote in the middle is doubled, and the comment of the column is the
one that is described. -/
theorem default_stays_in_clause_apostrophe :
    let raw : Text := "it's".toList
    let column : Json := .object [("name".toList, .string "note".toList),
      ("typeName".toList, .string "TEXT".toList),
      ("defaultValueExpression".toList, .string raw), ("comment".toList, .string "seen".toList)]
    let ddl : Text := "ALTER TABLE orders ADD COLUMN note TEXT".toList
    let value : Json := .object [("ddl".toList, .string ddl), ("tableChanges".toList,
      .array [.object [("type".toList, .string "ALTER".toList),
        ("table".toList, .object [("columns".toList, .array [column])])]])]
    let envelope : Envelope := ⟨none, ⟨some "shop".toList, none, some "orders".toList⟩, none, none,
      some value⟩
    let routing : Routing := ⟨none, [("shop.orders".toList, "dw.orders".toList)]⟩
    let translator : DdlTranslator := ⟨Pattern.statement, none, routing⟩
    ∃ literal change entry, raw.isBlank = false ∧ defaultLiteral? raw = some literal ∧
      IsDefaultValue literal ∧ translator.translate envelope = .ok (some change) ∧
      change.statement =
        "ALTER TABLE dw.orders ADD COLUMN note STRING default 'it''s' comment 'seen'".toList ∧
      HistoryEntry.CarriesDefault entry change := by
  intro raw column ddl value envelope routing translator
  have hblank : raw.isBlank = false := by decide
  have hstatement : IsStatement (ddl.words.drop 0) "ADD".toList "note".toList :=
    ⟨"ALTER".toList, "TABLE".toList, "orders".toList, "COLUMN".toList,
      ["note".toList, "TEXT".toList], by decide, by decide, by decide, Or.inl (by decide),
      by decide⟩
  have hverb : ColumnVerb.parse? "ADD".toList = some .add := by decide
  have hchange : (HistoryEntry.ofValue value).columnChange Pattern.statement =
      (HistoryEntry.ofValue value).changeOf .add (columnName "note".toList) :=
    HistoryEntry.columnChange_of_first rfl rfl hstatement
      (fun j hj => absurd hj (Nat.not_lt_zero j)) hverb
  have htranslate : translator.translate envelope = .ok (some ⟨"dw".toList, "orders".toList,
      ((ColumnChange.add "note".toList .string).withDefault (some raw)).withComment
        (some "seen".toList),
      "ALTER TABLE dw.orders ADD COLUMN note STRING default 'it''s' comment 'seen'".toList⟩) :=
    DdlTranslator.translate_eq_some_iff.2 ⟨rfl, value, _, "dw.orders".toList, rfl, rfl,
      hchange, by decide, by decide, by decide, by decide⟩
  obtain ⟨hliterals, hstatements⟩ := default_stays_in_clause
  obtain ⟨literal, hliteral, -, hvalue⟩ := hliterals raw hblank
  obtain ⟨-, entry, -, -, hcarries⟩ := hstatements _ _ _ htranslate
  exact ⟨literal, _, entry, hblank, hliteral,
    hvalue.2 (not_hasLoneQuote_of_unquoted (by decide)), htranslate, rfl, hcarries⟩

/-- **A text between quotes may hold more than one value.** It is taken as it
is: the default of this column is the letter `a`, and behind it stands a
comment that is not described. -/
theorem not_isDefaultValue_comment_inside :
    let raw : Text := "'a' comment 'b'".toList
    let column := ColumnChange.add "c".toList .int
    raw.isBlank = false ∧ defaultLiteral? raw = some raw ∧ ¬ IsDefaultValue raw ∧
      (column.withDefault (some raw)).render "d.t".toList =
        ((column.withDefault (some "a".toList)).withComment (some "b".toList)).render
          "d.t".toList := by
  intro raw column
  have hblank : raw.isBlank = false := by decide
  refine ⟨hblank, defaultLiteral?_of_quoted hblank (by decide), ?_, by decide⟩
  intro hvalue
  have hgap : Text.AtGap [] := nofun
  have hends := hvalue.behindValue? hgap
  have hgoes : behindValue? (raw ++ []) = some " comment 'b'".toList := by decide
  rw [hgoes] at hends
  exact absurd (Option.some.inj hends) (by decide)

end ChangeFeed
