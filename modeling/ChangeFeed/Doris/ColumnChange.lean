import ChangeFeed.Doris.ColumnType

/-!
# Column changes — one column added or dropped, as a statement

A `ColumnChange` adds or drops one column. `ColumnChange.statement` renders
it for a table: an added column carries its type, then a default and a
comment if there are any. Literals are quoted by doubling the quotes inside.
-/

namespace ChangeFeed

/-- What happens to the column. -/
inductive ColumnVerb where
  | add
  | drop
deriving Repr, DecidableEq

namespace ColumnVerb

/-- The spelling in a statement. -/
def sql : ColumnVerb → Text
  | add => "ADD".toList
  | drop => "DROP".toList

/-- Reads a verb, in letters of either case. -/
def parse? (t : Text) : Option ColumnVerb :=
  if t.sameLetters add.sql then some add
  else if t.sameLetters drop.sql then some drop
  else none

/-- The verb drops the column. -/
def isDrop : ColumnVerb → Bool
  | add => false
  | drop => true

end ColumnVerb

/-- A text between quotes, with the quotes inside doubled. -/
def quoteLiteral (t : Text) : Text := '\'' :: (t.doubled '\'' ++ ['\''])

/-- A text that stands between two equal quotes already. -/
def isQuotedLiteral (t : Text) : Bool :=
  match t with
  | first :: _ :: _ => (first == '\'' || first == '\x22') && t.getLast? == some first
  | _ => false

/-- The default that stands for the time of insertion. -/
def zeroEpoch : Text := "1970-01-01 00:00:00".toList

/-- **The literal of a default value**: none if it is blank, as it is if it is quoted already. -/
def defaultLiteral? (raw : Text) : Option Text :=
  if raw.isBlank then none
  else if isQuotedLiteral raw then some raw
  else if raw = zeroEpoch then some "current_timestamp".toList
  else some (quoteLiteral raw)

/-- **A change of one column.** A type belongs to an added column only. -/
structure ColumnChange where
  verb : ColumnVerb
  column : Text
  type : Option ColumnType
  /-- The literal of the default value. -/
  default : Option Text
  comment : Option Text
deriving Repr, DecidableEq

namespace ColumnChange

/-- Adds a column of a type. -/
def add (column : Text) (type : ColumnType) : ColumnChange := ⟨.add, column, some type, none, none⟩

/-- Drops a column. -/
def drop (column : Text) : ColumnChange := ⟨.drop, column, none, none, none⟩

/-- The change with a default value as it is written at the source. -/
def withDefault (change : ColumnChange) (raw : Option Text) : ColumnChange :=
  { change with default := raw.bind defaultLiteral? }

/-- The change with a comment, unless it is blank. -/
def withComment (change : ColumnChange) (comment : Option Text) : ColumnChange :=
  { change with comment := comment.bind Text.unlessBlank }

/-- What keeps the change from being made, if anything. -/
def fault? (change : ColumnChange) : Option ChangeFault :=
  if change.column.isBlank then some .emptyName
  else if change.verb = .add ∧ change.type.isNone then some .missingType
  else none

/-- What follows the column's name in the statement of an added column. -/
def clauses (change : ColumnChange) : Text :=
  (match change.type with
    | none => []
    | some type => ' ' :: type.sql) ++
  (match change.default.bind Text.unlessBlank with
    | none => []
    | some literal => " default ".toList ++ literal) ++
  (match change.comment.bind Text.unlessBlank with
    | none => []
    | some comment => " comment ".toList ++ quoteLiteral comment)

/-- The statement for a table, whether or not the change can be made. -/
def render (table : Text) (change : ColumnChange) : Text :=
  "ALTER TABLE ".toList ++ table ++ ' ' :: change.verb.sql ++ " COLUMN ".toList ++ change.column ++
    match change.verb with
    | .drop => []
    | .add => change.clauses

/-- **The statement for a table**, if the change can be made. -/
def statement (table : Text) (change : ColumnChange) : Except Fault Text :=
  match change.fault? with
  | some cause => .error (.invalidChange change.column cause)
  | none => .ok (change.render table)

end ColumnChange

end ChangeFeed
