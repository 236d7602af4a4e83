import ChangeFeed.Doris.ColumnChange
import ChangeFeed.Envelope
import ChangeFeed.Pattern.Search
import ChangeFeed.Pattern.Parser

/-!
# Schema history — from a captured statement to a column change

A history entry carries the statement that changed a table and a description
of the table afterwards. The statement is matched for its verb and the name
of one column; type, length, scale, default and comment of an added column
come from the description of the table's last column. `DdlTranslator`
carries a change over to the table that routing names.
-/

namespace ChangeFeed

/-- **A schema history entry**: the statement and the first change of a table. -/
structure HistoryEntry where
  ddl : Option Text
  change : Option Json

/-- The description of a column, as far as it says. -/
structure ColumnDescription where
  name : Option Text
  type : Option Text
  length : Nat
  scale : Nat
  default : Option Text
  comment : Option Text
deriving Repr, DecidableEq

namespace ColumnDescription

/-- A natural number of 32 bits under a key; zero if there is none. -/
def size (key : String) (value : Json) : Nat :=
  match (value.get? key.toList).bind Json.natural? with
  | some n => if n < halfWordBound then n else 0
  | none => 0

/-- Reads the description of a column. -/
def ofJson (value : Json) : ColumnDescription :=
  { name := value.textField? "name"
    type := value.textField? "typeName"
    length := size "length" value
    scale := size "scale" value
    default := value.textField? "defaultValueExpression"
    comment := value.textField? "comment" }

end ColumnDescription

namespace HistoryEntry

/-- Reads an entry from the JSON value it is. -/
def ofValue (value : Json) : HistoryEntry :=
  { ddl := value.textField? "ddl"
    change := match value.get? "tableChanges".toList with
      | some (.array (change :: _)) => change.unlessNull
      | _ => none }

/-- **Reads an entry**, which is an object or the text of a JSON value. -/
def parse : Json → Except Fault HistoryEntry
  | .string text =>
    match Json.read? text with
    | none => .error (.malformedHistory .unreadable)
    | some value => .ok (ofValue value)
  | .object members => .ok (ofValue (.object members))
  | _ => .error (.malformedHistory .wrongShape)

/-- The type of the change. -/
def changeType? (entry : HistoryEntry) : Option Text :=
  entry.change.bind fun change => change.textField? "type"

/-- The entry alters a table. -/
def isAlter (entry : HistoryEntry) : Bool := entry.changeType? == some "ALTER".toList

/-- The last column of the table after the change, which is where a new column goes. -/
def lastColumn? (entry : HistoryEntry) : Option ColumnDescription := do
  let change ← entry.change
  let table ← change.get? "table".toList
  match table.get? "columns".toList with
  | some (.array columns) => columns.getLast?.map ColumnDescription.ofJson
  | _ => none

end HistoryEntry

/-- The pattern that statements are matched with, unless another is given. Group 1 is the verb,
group 3 the column. -/
def defaultPattern : Text :=
  "(?i)ALTER\\s+TABLE\\s+[^\\s]+\\s+(ADD|DROP)\\s+(COLUMN\\s+)?([^\\s]+)(\\s+([^\\s]+))?.*".toList

/-- The name of a column without a comma behind it and the quotes around it. -/
def columnName (matched : Text) : Text :=
  Text.trimWhile (· == '\x60') (Text.trimEndWhile (· == ',') matched)

namespace HistoryEntry

/-- The column that an entry adds: what the description says, with the name from the statement
if the description has none. -/
def addedColumn (entry : HistoryEntry) (matched : Option Text) : Except Fault ColumnChange :=
  match entry.lastColumn? with
  | none => .error (.malformedHistory .noColumns)
  | some column =>
    match column.name.or matched with
    | none => .error (.malformedHistory .unnamedColumn)
    | some name =>
      match column.type with
      | none => .error (.malformedHistory (.untypedColumn name))
      | some typeName =>
        (ColumnType.ofMySql typeName column.length column.scale).map fun type =>
          ((ColumnChange.add name type).withDefault column.default).withComment column.comment

/-- **The column change of an entry**, if its statement adds or drops one column. -/
def columnChange (pattern : Pattern) (entry : HistoryEntry) : Except Fault (Option ColumnChange) :=
  if entry.isAlter then
    match entry.ddl.bind pattern.search with
    | none => .ok none
    | some captures =>
      let matched := (captures.get? 3).map columnName
      match ColumnVerb.parse? ((captures.get? 1).getD []) with
      | none => .ok none
      | some .drop => .ok (matched.map ColumnChange.drop)
      | some .add => (entry.addedColumn matched).map some
  else .ok none

end HistoryEntry

/-- **A schema change for a Doris table.** -/
structure SchemaChange where
  database : Text
  table : Text
  change : ColumnChange
  statement : Text
deriving Repr, DecidableEq

/-- The table that a schema change is for. -/
def SchemaChange.target (change : SchemaChange) : Text := change.database ++ '.' :: change.table

/-- **What translates schema history**: the pattern for statements, the one table to follow if
there is one, and the routing. -/
structure DdlTranslator where
  pattern : Pattern
  sourceTable : Option Text
  routing : Routing

namespace DdlTranslator

/-- A translator; the pattern is the default one unless another is given. -/
def make (pattern : Option Text) (sourceTable : Option Text) (routing : Routing) :
    Except Fault DdlTranslator :=
  match Pattern.parse? (pattern.getD defaultPattern) with
  | none => .error .invalidPattern
  | some pattern => .ok ⟨pattern, sourceTable.bind Text.unlessBlank, routing⟩

/-- The envelope comes from a table that is followed. -/
def follows (translator : DdlTranslator) (envelope : Envelope) : Bool :=
  translator.sourceTable.all fun name => envelope.source.qualified? == some name

/-- Carries a column change over to a target. -/
def onTarget (target : Text) (change : ColumnChange) : Except Fault SchemaChange := do
  let (database, table) ← splitTarget target
  let statement ← change.statement target
  pure ⟨database, table, change, statement⟩

/-- **Translates the history entry of an envelope**: no change if the table is not followed, the
entry changes no single column, or there is no target. -/
def translate (translator : DdlTranslator) (envelope : Envelope) :
    Except Fault (Option SchemaChange) :=
  if translator.follows envelope then
    match envelope.history with
    | none => .ok none
    | some value => do
      let entry ← HistoryEntry.parse value
      match ← entry.columnChange translator.pattern with
      | none => pure none
      | some change =>
        match translator.routing.target? envelope.source.identity with
        | none => pure none
        | some target => (onTarget target change).map some
  else .ok none

end DdlTranslator

end ChangeFeed
