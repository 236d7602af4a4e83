import ChangeFeed.Envelope

/-!
# Records — row changes as lines to load

A row image becomes one line of JSON with a column that marks deletion. An
update is the deletion of the old image and the insertion of the new one,
joined by a delimiter, unless only the new image is wanted. A record is the
lines with the table they are for.
-/

namespace ChangeFeed

/-- **A row**: columns in order, none repeated. -/
structure Row where
  columns : Members

namespace Row

/-- The row of an image; no image is an empty row. -/
def ofImage : Option Json → Except Fault Row
  | none => .ok ⟨[]⟩
  | some .null => .ok ⟨[]⟩
  | some (.object columns) => .ok ⟨columns⟩
  | some image => .error (.malformedRow image.kindName)

/-- **Marks the row as deleted or not**, in the column of that name. -/
def mark (signColumn : Text) (isDeleted : Bool) (row : Row) : Row :=
  ⟨row.columns.put signColumn (.string (if isDeleted then ['1'] else ['0']))⟩

/-- The value of a column. -/
def get? (column : Text) (row : Row) : Option Json := row.columns.find? column

/-- The names of the columns. -/
def names (row : Row) : List Text := row.columns.keys

/-- The number of columns. -/
def size (row : Row) : Nat := row.columns.length

/-- The row has no columns. -/
def isEmpty (row : Row) : Bool := row.columns.isEmpty

/-- The row as one line of JSON. -/
def line (row : Row) : Text := (Json.object row.columns).write

end Row

/-- The column that marks deletion, unless another is named. -/
def defaultSignColumn : Text := "__DORIS_DELETE_SIGN__".toList

/-- How rows are written. -/
structure RowFormat where
  /-- Of an update only the new image is written. -/
  afterOnly : Bool := false
  /-- What stands between the two lines of an update. -/
  delimiter : Text := ['\n']
  signColumn : Text := defaultSignColumn
deriving Repr, DecidableEq

namespace RowFormat

/-- The line of an image, marked as deleted or not. -/
def line (format : RowFormat) (image : Option Json) (isDeleted : Bool) : Except Fault Text :=
  (Row.ofImage image).map fun row => (row.mark format.signColumn isDeleted).line

/-- **The lines of a row operation**; an unknown operation has none. -/
def lines (format : RowFormat) (envelope : Envelope) (operation : RowOperation) :
    Except Fault (Option Text) :=
  match operation with
  | .read | .create => (format.line envelope.after false).map some
  | .delete => (format.line envelope.before true).map some
  | .update => do
    let inserted ← format.line envelope.after false
    if format.afterOnly then pure (some inserted)
    else do
      let deleted ← format.line envelope.before true
      pure (some (deleted ++ format.delimiter ++ inserted))
  | .unknown _ => .ok none

end RowFormat

/-- **Lines to load into one table.** -/
structure LoadRecord where
  target : Text
  payload : Text
deriving Repr, DecidableEq

namespace LoadRecord

/-- **The record of an envelope**: none without an operation that is known or without a target. -/
def ofEnvelope (routing : Routing) (format : RowFormat) (envelope : Envelope) :
    Except Fault (Option LoadRecord) :=
  match envelope.operation, routing.target? envelope.source.identity with
  | some operation, some target =>
    (format.lines envelope operation).map fun lines => lines.map fun payload => ⟨target, payload⟩
  | _, _ => .ok none

/-- The record as a JSON object. -/
def toJson (record : LoadRecord) : Json :=
  .object [("target_table".toList, .string record.target),
    ("payload".toList, .string record.payload)]

/-- The record as a line of output. -/
def outputLine (record : LoadRecord) : Text := record.toJson.write ++ ['\n']

end LoadRecord

end ChangeFeed
