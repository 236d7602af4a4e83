import ChangeFeed.Proofs.Json.Numeral
import ChangeFeed.Proofs.Schema.Default
import ChangeFeed.Proofs.Text.Cutting
import ChangeFeed.Proofs.Text.Digits
/-!
# Reading — what a statement says it was made of

A statement is read from its start: the table and the column are words, the
type is one word, and a default and a comment are values behind their keywords
(`readStatement?`). In a value a quote is doubled, so no text inside of it ends
it, and each part is read as it was written (`readStatement?_render`). Hence
two changes with the same statement are the same change of the same table.
-/


namespace ChangeFeed

/-! ## Types -/

namespace ColumnType

/-- The type with this name and these parameters. -/
def ofSpelling? (name : Text) (parameters : List Nat) : Option ColumnType :=
  match String.ofList name, parameters with
  | "BOOLEAN", [] => some boolean
  | "TINYINT", [] => some tinyInt
  | "SMALLINT", [] => some smallInt
  | "INT", [] => some int
  | "BIGINT", [] => some bigInt
  | "LARGEINT", [] => some largeInt
  | "FLOAT", [] => some float
  | "DOUBLE", [] => some double
  | "DECIMALV3", [precision, scale] => some (decimal precision scale)
  | "DATEV2", [] => some date
  | "DATETIMEV2", [precision] => some (dateTime precision)
  | "CHAR", [length] => some (char length)
  | "VARCHAR", [length] => some (varChar length)
  | "STRING", [] => some string
  | "JSONB", [] => some json
  | _, _ => none

/-- **Reads a type** from its spelling. -/
def read? (t : Text) : Option ColumnType :=
  match t.splitFirst? '(' with
  | none => ofSpelling? t []
  | some (name, rest) => ofSpelling? name (Text.numbers rest.dropLast)

variable {name : String} {parameters : List Nat}

theorem read?_parameterised (hname : '(' ∉ name.toList) (hne : parameters ≠ []) :
    read? (parameterised name parameters) = ofSpelling? name.toList parameters := by
  have hsplit : (parameterised name parameters).splitFirst? '(' =
      some (name.toList, Text.joined [','] (parameters.map Text.ofNatural) ++ [')']) :=
    Text.splitFirst?_eq_some_iff.2 ⟨rfl, hname⟩
  unfold read?
  rw [hsplit]
  simp only [List.dropLast_concat, Text.numbers_joined hne]

/-- **A type is read from its spelling**, with its parameters. -/
theorem read?_sql (type : ColumnType) : read? type.sql = some type := by
  cases type with
  | decimal precision scale => exact read?_parameterised (by decide) (List.cons_ne_nil _ _)
  | dateTime precision => exact read?_parameterised (by decide) (List.cons_ne_nil _ _)
  | char length => exact read?_parameterised (by decide) (List.cons_ne_nil _ _)
  | varChar length => exact read?_parameterised (by decide) (List.cons_ne_nil _ _)
  | _ => rfl

theorem isUnbroken_parameterised (hname : Text.IsUnbroken name.toList) :
    (parameterised name parameters).IsUnbroken := by
  have hmarks : Text.IsUnbroken ['(', ',', ')'] := by decide
  intro c hc
  rw [parameterised, List.mem_append, List.mem_cons, List.mem_append, List.mem_singleton] at hc
  rcases hc with hc | rfl | hc | rfl
  · exact hname c hc
  · exact hmarks '(' (by decide)
  · rcases Text.mem_joined hc with hcomma | ⟨part, hpart, hc⟩
    · rw [List.mem_singleton.1 hcomma]
      exact hmarks ',' (by decide)
    · obtain ⟨n, -, rfl⟩ := List.mem_map.1 hpart
      exact isSpace_of_isDigit (Text.isDigit_of_mem_ofNatural hc)
  · exact hmarks ')' (by decide)

/-- A type is one word of a statement. -/
theorem isUnbroken_sql (type : ColumnType) : type.sql.IsUnbroken := by
  cases type with
  | decimal precision scale => exact isUnbroken_parameterised (by decide)
  | dateTime precision => exact isUnbroken_parameterised (by decide)
  | char length => exact isUnbroken_parameterised (by decide)
  | varChar length => exact isUnbroken_parameterised (by decide)
  | _ => exact of_decide_eq_true rfl

end ColumnType

/-! ## Values -/

/-- A value in a statement: a word, or the text of a literal. -/
inductive WrittenValue where
  | word (text : Text)
  | quoted (text : Text)
deriving Repr, DecidableEq

namespace WrittenValue

/-- The text that the value stands for. -/
def content : WrittenValue → Text
  | word t => t
  | quoted t => t

/-- How the value is written. -/
def text : WrittenValue → Text
  | word t => t
  | quoted t => quoteLiteral t

/-- **The value of a default** that is not between quotes already. -/
def ofDefault (raw : Text) : WrittenValue :=
  if raw = zeroEpoch then word "current_timestamp".toList else quoted raw

/-- The value of a default, unless it is blank. -/
def ofDefault? (default : Option Text) : Option WrittenValue :=
  (default.bind Text.unlessBlank).map ofDefault

/-- The value of a comment, unless it is blank. -/
def ofComment? (comment : Option Text) : Option WrittenValue :=
  (comment.bind Text.unlessBlank).map quoted

/-- The value is read in one piece: a word has no white space and does not
begin with a quote. -/
def IsWhole : WrittenValue → Prop
  | word t => t.IsWord ∧ t.head? ≠ some '\''
  | quoted _ => True

variable {default comment : Option Text} {value : WrittenValue}

theorem isWhole_of_ofDefault? (h : ofDefault? default = some value) : value.IsWhole := by
  obtain ⟨raw, -, rfl⟩ := Option.map_eq_some_iff.1 h
  unfold ofDefault
  split
  · exact ⟨by decide, by decide⟩
  · trivial

theorem isWhole_of_ofComment? (h : ofComment? comment = some value) : value.IsWhole := by
  obtain ⟨raw, -, rfl⟩ := Option.map_eq_some_iff.1 h
  trivial

/-- **A default is written as its value.** -/
theorem map_text_ofDefault? (hdefault : ∀ raw, default = some raw → isQuotedLiteral raw = false) :
    (ofDefault? default).map text = default.bind defaultLiteral? := by
  cases default with
  | none => rfl
  | some raw =>
    have hquoted := hdefault raw rfl
    simp only [ofDefault?, Option.bind_some, Text.unlessBlank, defaultLiteral?, hquoted]
    cases raw.isBlank with
    | true => rfl
    | false =>
      simp only [Bool.false_eq_true, if_false, Option.map_some, ofDefault]
      split <;> rfl

/-- A comment is the text that its value stands for. -/
theorem map_content_ofComment? (comment : Option Text) :
    (ofComment? comment).map content = comment.bind Text.unlessBlank := by
  rw [ofComment?, Option.map_map]
  exact Option.map_id'

end WrittenValue

/-- **Reads a value**, a literal or a word: gives it and what is behind it. -/
def readValue? : Text → Option (WrittenValue × Text)
  | [] => none
  | c :: t =>
    if c = '\'' then (unquote? c t).map fun (text, behind) => (.quoted text, behind)
    else some (.word (Text.firstWord (c :: t)), Text.behindWord (c :: t))

/-- Reads the value behind a keyword, if the keyword is there. -/
def readClause? (keyword t : Text) : Option (Option WrittenValue × Text) :=
  match Text.stripStart? keyword t with
  | none => some (none, t)
  | some rest => (readValue? rest).map fun (value, behind) => (some value, behind)

/-- A clause: a keyword and a value, or nothing at all. -/
def clauseText (keyword : Text) : Option WrittenValue → Text
  | none => []
  | some value => keyword ++ value.text

section Reads

variable {behind : Text}

theorem readValue?_text {value : WrittenValue} (hwhole : value.IsWhole) (hbehind : behind.AtGap) :
    readValue? (value.text ++ behind) = some (value, behind) := by
  cases value with
  | word t =>
    obtain ⟨⟨hne, hunbroken⟩, hhead⟩ := hwhole
    obtain ⟨c, t, rfl⟩ := List.exists_cons_of_ne_nil hne
    have hc : c ≠ '\'' := by simpa using hhead
    show readValue? (c :: t ++ behind) = _
    rw [List.cons_append, readValue?, if_neg hc, ← List.cons_append,
      Text.firstWord_append hunbroken hbehind, Text.behindWord_append hunbroken hbehind]
  | quoted t =>
    show readValue? (quoteLiteral t ++ behind) = _
    rw [quoteLiteral, List.cons_append, readValue?, if_pos rfl, List.append_assoc,
      List.singleton_append, unquote?_doubled (head?_ne_of_atGap rfl hbehind), Option.map_some]

/-- **A clause is read as it is written**, and so is its absence. -/
theorem readClause?_clauseText (keyword : Text) {value : Option WrittenValue}
    (hwhole : ∀ written, value = some written → written.IsWhole) (hbehind : behind.AtGap)
    (hother : Text.stripStart? keyword behind = none) :
    readClause? keyword (clauseText keyword value ++ behind) = some (value, behind) := by
  unfold readClause?
  cases value with
  | none =>
    rw [clauseText, List.nil_append, hother]
  | some value =>
    rw [clauseText, List.append_assoc, Text.stripStart?_append]
    simp only [readValue?_text (hwhole value rfl) hbehind, Option.map_some]

end Reads

/-! ## Statements -/

/-- **A statement that has been read.** -/
structure ReadChange where
  table : Text
  verb : ColumnVerb
  column : Text
  type : Option ColumnType
  default : Option WrittenValue
  comment : Option WrittenValue
deriving Repr, DecidableEq

/-- Reads the type that an addition has behind the name. -/
def readType? : ColumnVerb → Text → Option (Option ColumnType × Text)
  | .drop, t => some (none, t)
  | .add, t => do
    let t ← Text.stripStart? [' '] t
    let type ← ColumnType.read? t.firstWord
    return (some type, t.behindWord)

/-- Reads what is behind the name, up to the end. -/
def readClauses? (table : Text) (verb : ColumnVerb) (column t : Text) : Option ReadChange := do
  let (type, t) ← readType? verb t
  let (default, t) ← readClause? " default ".toList t
  let (comment, t) ← readClause? " comment ".toList t
  if t.isEmpty then some ⟨table, verb, column, type, default, comment⟩ else none

/-- **Reads a statement** for one column. -/
def readStatement? (t : Text) : Option ReadChange := do
  let t ← Text.stripStart? "ALTER TABLE ".toList t
  let table := t.firstWord
  let t ← Text.stripStart? [' '] t.behindWord
  let verb ← ColumnVerb.parse? t.firstWord
  let t ← Text.stripStart? " COLUMN ".toList t.behindWord
  readClauses? table verb t.firstWord t.behindWord

theorem readType?_sql (type : ColumnType) {behind : Text} (hbehind : behind.AtGap) :
    readType? .add ([' '] ++ (type.sql ++ behind)) = some (some type, behind) := by
  simp only [readType?, Text.stripStart?_append, Option.bind_eq_bind, Option.bind_some,
    Option.pure_def, Text.firstWord_append type.isUnbroken_sql hbehind,
    Text.behindWord_append type.isUnbroken_sql hbehind, ColumnType.read?_sql]

theorem atGap_append (keyword behind : Text) (hkeyword : keyword.head? = some ' ') :
    Text.AtGap (keyword ++ behind) := by
  obtain ⟨keyword, rfl⟩ := List.head?_eq_some_iff.1 hkeyword
  rintro c ⟨⟩
  rfl

theorem atGap_clauseText (keyword : Text) {behind : Text} (hkeyword : keyword.head? = some ' ')
    (hbehind : behind.AtGap) (value : Option WrittenValue) :
    Text.AtGap (clauseText keyword value ++ behind) := by
  cases value with
  | none => exact hbehind
  | some value =>
    rw [clauseText, List.append_assoc]
    exact atGap_append keyword _ hkeyword

/-- **The parts before the clauses** are read as they are written. -/
theorem readStatement?_append {table column tail : Text} (verb : ColumnVerb) (htable : table.IsWord)
    (hcolumn : column.IsWord) (htail : tail.AtGap) :
    readStatement? ("ALTER TABLE ".toList ++ table ++ ' ' :: verb.sql ++ " COLUMN ".toList ++
      column ++ tail) = readClauses? table verb column tail := by
  have hassoc : "ALTER TABLE ".toList ++ table ++ ' ' :: verb.sql ++ " COLUMN ".toList ++
      column ++ tail = "ALTER TABLE ".toList ++ (table ++ ([' '] ++ (verb.sql ++
        (" COLUMN ".toList ++ (column ++ tail))))) := by simp
  have hverb : verb.sql.IsUnbroken ∧ ColumnVerb.parse? verb.sql = some verb := by
    cases verb <;> decide
  have hafterTable :=
    atGap_append [' '] (verb.sql ++ (" COLUMN ".toList ++ (column ++ tail))) rfl
  have hafterVerb := atGap_append " COLUMN ".toList (column ++ tail) rfl
  simp only [readStatement?, hassoc, Option.bind_eq_bind, Option.bind_some,
    Text.stripStart?_append, Text.firstWord_append htable.2 hafterTable,
    Text.behindWord_append htable.2 hafterTable, Text.firstWord_append hverb.1 hafterVerb,
    Text.behindWord_append hverb.1 hafterVerb, hverb.2, Text.firstWord_append hcolumn.2 htail,
    Text.behindWord_append hcolumn.2 htail]

/-- **The clauses of an addition** are read as they are written. -/
theorem readClauses?_add {table column : Text} {type : ColumnType}
    {default comment : Option WrittenValue}
    (hdefault : ∀ value, default = some value → value.IsWhole)
    (hcomment : ∀ value, comment = some value → value.IsWhole) :
    readClauses? table .add column ([' '] ++ (type.sql ++ (clauseText " default ".toList default ++
      clauseText " comment ".toList comment))) =
        some ⟨table, .add, column, some type, default, comment⟩ := by
  have hend : Text.AtGap [] := nofun
  have hclause := readClause?_clauseText " comment ".toList hcomment hend rfl
  have hafterDefault := atGap_clauseText " comment ".toList rfl hend comment
  rw [List.append_nil] at hclause hafterDefault
  have hafterType := atGap_clauseText " default ".toList rfl hafterDefault default
  have hnoDefault : Text.stripStart? " default ".toList
      (clauseText " comment ".toList comment) = none := by
    cases comment <;> rfl
  simp only [readClauses?, Option.bind_eq_bind, Option.bind_some, readType?_sql type hafterType,
    readClause?_clauseText _ hdefault hafterDefault hnoDefault, hclause, List.isEmpty_nil, if_true]

/-! ## What is asked for -/

/-- **What is asked for one column**: that it is dropped, or added with a type
and perhaps a default value and a comment, as they are described. -/
inductive ColumnRequest where
  | drop (column : Text)
  | add (column : Text) (type : ColumnType) (default comment : Option Text)

namespace ColumnRequest

/-- The change that is asked for. -/
def change : ColumnRequest → ColumnChange
  | drop column => .drop column
  | add column type default comment =>
    ((ColumnChange.add column type).withDefault default).withComment comment

/-- **The request is plain**: the column is a word, and a default is not
between quotes already. -/
inductive IsPlain : ColumnRequest → Prop where
  | drop {column : Text} (hcolumn : column.IsWord) : IsPlain (drop column)
  | add {column : Text} {type : ColumnType} {default comment : Option Text}
      (hcolumn : column.IsWord)
      (hdefault : ∀ raw, default = some raw → isQuotedLiteral raw = false) :
      IsPlain (add column type default comment)

/-- What is read in its statement: a default and a comment as they are asked
for, but a blank one not at all, and the default for the time of insertion as
the word for it. -/
def reading (table : Text) : ColumnRequest → ReadChange
  | drop column => ⟨table, .drop, column, none, none, none⟩
  | add column type default comment => ⟨table, .add, column, some type,
      WrittenValue.ofDefault? default, WrittenValue.ofComment? comment⟩

end ColumnRequest

/-- The change that has been read: a default as it is written, and the text
that a comment stands for. -/
def ReadChange.change (read : ReadChange) : ColumnChange :=
  ⟨read.verb, read.column, read.type, read.default.map WrittenValue.text,
    read.comment.map WrittenValue.content⟩

namespace ColumnRequest

variable {table other column : Text} {type : ColumnType} {default comment t : Option Text}
  {request next : ColumnRequest}

theorem bind_unlessBlank_eq_self (h : ∀ kept, t = some kept → kept.isBlank = false) :
    t.bind Text.unlessBlank = t := by
  cases t with
  | none => rfl
  | some t => exact Text.unlessBlank_eq_some_iff.2 ⟨rfl, h t rfl⟩

/-- **What is read is what is asked for.** -/
theorem change_reading (h : request.IsPlain) :
    (request.reading table).change = request.change := by
  cases h with
  | drop => rfl
  | add _ hdefault =>
    simp only [reading, ReadChange.change, WrittenValue.map_text_ofDefault? hdefault,
      WrittenValue.map_content_ofComment?]
    rfl

/-- What is behind the name in the statement of an addition. -/
theorem clauses_change (hdefault : ∀ raw, default = some raw → isQuotedLiteral raw = false) :
    (add column type default comment).change.clauses = [' '] ++ (type.sql ++
      (clauseText " default ".toList (WrittenValue.ofDefault? default) ++
        clauseText " comment ".toList (WrittenValue.ofComment? comment))) := by
  -- neither the literal nor the comment that is kept is blank
  have hliteral : (default.bind defaultLiteral?).bind Text.unlessBlank =
      default.bind defaultLiteral? := by
    refine bind_unlessBlank_eq_self fun literal h => ?_
    obtain ⟨raw, -, hraw⟩ := Option.bind_eq_some_iff.1 h
    exact isBlank_of_defaultLiteral? hraw
  have hcomment : (comment.bind Text.unlessBlank).bind Text.unlessBlank =
      comment.bind Text.unlessBlank := by
    refine bind_unlessBlank_eq_self fun kept h => ?_
    obtain ⟨raw, -, hraw⟩ := Option.bind_eq_some_iff.1 h
    obtain ⟨rfl, hblank⟩ := Text.unlessBlank_eq_some_iff.1 hraw
    exact hblank
  rw [← WrittenValue.map_text_ofDefault? hdefault] at hliteral
  simp only [change, ColumnChange.add, ColumnChange.withDefault, ColumnChange.withComment,
    ColumnChange.clauses, ← WrittenValue.map_text_ofDefault? hdefault, hliteral, hcomment,
    WrittenValue.ofComment?]
  cases WrittenValue.ofDefault? default <;> cases comment.bind Text.unlessBlank <;>
    simp [clauseText, WrittenValue.text]

/-- A column that is a word can be named. -/
theorem fault?_change (h : request.IsPlain) : request.change.fault? = none := by
  cases h with
  | drop hcolumn => simp [change, ColumnChange.drop, ColumnChange.fault?, hcolumn.isBlank]
  | add hcolumn _ =>
    simp [change, ColumnChange.add, ColumnChange.withDefault, ColumnChange.withComment,
      ColumnChange.fault?, hcolumn.isBlank]

/-- **A statement is read as what was asked for.** -/
theorem readStatement?_render (htable : table.IsWord) (h : request.IsPlain) :
    readStatement? (request.change.render table) = some (request.reading table) := by
  cases h with
  | drop hcolumn =>
    have hend : Text.AtGap [] := nofun
    exact readStatement?_append .drop htable hcolumn hend
  | @add column type default comment hcolumn hdefault =>
    show readStatement? (_ ++ (add column type default comment).change.clauses) = _
    rw [clauses_change hdefault]
    refine (readStatement?_append .add htable hcolumn (atGap_append [' '] _ rfl)).trans ?_
    exact readClauses?_add (fun _ => WrittenValue.isWhole_of_ofDefault?)
      (fun _ => WrittenValue.isWhole_of_ofComment?)

/-- **A statement is unambiguous.** What is asked for a table always has one,
in which every part is read as it was asked for, and what has the same
statement is the same change of the same table. -/
theorem statement_unambiguous (htable : table.IsWord) (hother : other.IsWord)
    (hrequest : request.IsPlain) (hnext : next.IsPlain) :
    (∃ statement, request.change.statement table = .ok statement ∧
      readStatement? statement = some (request.reading table)) ∧
    (request.change.statement table = next.change.statement other →
      table = other ∧ request.change = next.change) := by
  have hmade : ∀ {request : ColumnRequest} {table : Text}, request.IsPlain →
      request.change.statement table = .ok (request.change.render table) := fun h =>
    ColumnChange.statement_eq_ok_iff.2 ⟨fault?_change h, rfl⟩
  refine ⟨⟨_, hmade hrequest, readStatement?_render htable hrequest⟩, fun hsame => ?_⟩
  rw [hmade hrequest, hmade hnext, Except.ok.injEq] at hsame
  have hreading : request.reading table = next.reading other := by
    have hread := readStatement?_render htable hrequest
    rw [hsame, readStatement?_render hother hnext] at hread
    exact (Option.some.inj hread).symm
  constructor
  · have htables : ∀ (request : ColumnRequest) (table : Text),
        (request.reading table).table = table := by
      rintro (_ | _) _ <;> rfl
    rw [← htables request table, hreading, htables next other]
  · rw [← change_reading hrequest, hreading, change_reading hnext]

/-- A default that looks like the end of its clause stays a default, and a
blank comment is none. -/
theorem statement_unambiguous_comment_inside :
    let table : Text := "dw.orders".toList
    let raw : Text := "a' comment 'b".toList
    let request := ColumnRequest.add "note".toList (.varChar 30) (some raw) none
    let next := ColumnRequest.add "note".toList (.varChar 30) (some raw) (some " ".toList)
    let statement : Text :=
      "ALTER TABLE dw.orders ADD COLUMN note VARCHAR(30) default 'a'' comment ''b'".toList
    table.IsWord ∧ request.IsPlain ∧ next.IsPlain ∧
      request.change.statement table = .ok statement ∧
      readStatement? statement = some ⟨table, .add, "note".toList, some (.varChar 30),
        some (.quoted raw), none⟩ ∧
      request.change = next.change := by
  intro table raw request next statement
  have htable : table.IsWord := by decide
  have hdefault : ∀ d, some raw = some d → isQuotedLiteral d = false := by
    rintro d ⟨⟩
    decide
  have hcolumn : Text.IsWord "note".toList := by decide
  have hrequest : request.IsPlain := .add hcolumn hdefault
  have hnext : next.IsPlain := .add hcolumn hdefault
  have hstatement : request.change.statement table = .ok statement := rfl
  obtain ⟨⟨found, hfound, hread⟩, hsame⟩ :=
    statement_unambiguous htable htable hrequest hnext
  rw [hstatement, Except.ok.injEq] at hfound
  subst hfound
  exact ⟨htable, hrequest, hnext, hstatement, hread, (hsame rfl).2⟩

end ColumnRequest

end ChangeFeed
