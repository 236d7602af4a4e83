import ChangeFeed.Json.Reader
import ChangeFeed.Json.Writer
import ChangeFeed.Routing

/-!
# Envelopes — one change as it is captured

An envelope is a JSON object: an operation with row images before and after,
or a schema history entry, and the table it comes from. It may come wrapped
in an object whose `payload` it is; one such layer is taken off, unless the
outer object has an operation or a history entry of its own.
-/

namespace ChangeFeed

/-- What happened to a row. -/
inductive RowOperation where
  | read
  | create
  | update
  | delete
  | unknown (code : Text)
deriving Repr, DecidableEq

namespace RowOperation

/-- The operation with a code. -/
def ofCode (code : Text) : RowOperation :=
  if code = ['r'] then read
  else if code = ['c'] then create
  else if code = ['u'] then update
  else if code = ['d'] then delete
  else unknown code

/-- The code of an operation. -/
def code : RowOperation → Text
  | read => ['r']
  | create => ['c']
  | update => ['u']
  | delete => ['d']
  | unknown code => code

/-- The name of an operation. -/
def name : RowOperation → Text
  | read => "Read".toList
  | create => "Create".toList
  | update => "Update".toList
  | delete => "Delete".toList
  | unknown code => "Unknown(".toList ++ code ++ [')']

/-- The code of an operation leads back to it. -/
theorem code_ofCode (c : Text) : (ofCode c).code = c := by
  unfold ofCode
  by_cases hr : c = ['r'] <;> by_cases hc : c = ['c'] <;> by_cases hu : c = ['u'] <;>
    by_cases hd : c = ['d'] <;> simp_all [code]

end RowOperation

/-- The plain text of a member, if the value is an object that has it and it is not `null`. -/
def Json.textField? (key : String) (value : Json) : Option Text :=
  (value.get? key.toList).bind Json.plainText?

/-- **The table an envelope comes from**, as far as it says. -/
structure SourceTable where
  database : Option Text
  schema : Option Text
  table : Option Text
deriving Repr, DecidableEq

namespace SourceTable

/-- Reads the parts of a table's name. -/
def ofJson (value : Json) : SourceTable :=
  ⟨value.textField? "db", value.textField? "schema", value.textField? "table"⟩

/-- The identity that routing goes by. -/
def identity (source : SourceTable) : Text :=
  tableIdentity source.database source.schema source.table

/-- The table with its schema, or with its database if there is no schema. -/
def qualified? (source : SourceTable) : Option Text := do
  let database ← source.schema.or source.database
  let table ← source.table
  pure (database ++ '.' :: table)

end SourceTable

/-- What an envelope asks for. -/
inductive EnvelopeKind where
  | row (operation : RowOperation)
  | schemaHistory
  | invalid
deriving Repr, DecidableEq

/-- **A captured change.** -/
structure Envelope where
  operation : Option RowOperation
  source : SourceTable
  before : Option Json
  after : Option Json
  history : Option Json

namespace Envelope

/-- The members of an envelope without the wrapper around it, if there is one. -/
def unwrap (members : Members) : Members :=
  match members.find? "op".toList, members.find? "historyRecord".toList,
      members.find? "payload".toList with
  | none, none, some (.object payload) => payload
  | _, _, _ => members

/-- Reads an envelope from the members of a JSON object. -/
def ofMembers (members : Members) : Envelope :=
  let object := Json.object (unwrap members)
  { operation := (object.textField? "op").map RowOperation.ofCode
    source := .ofJson ((object.get? "source".toList).getD .null)
    before := object.field? "before".toList
    after := object.field? "after".toList
    history := object.field? "historyRecord".toList }

/-- Reads an envelope from a JSON value. -/
def ofJson : Json → Except Fault Envelope
  | .object members => .ok (ofMembers members)
  | _ => .error .notAnObject

/-- **Decodes a payload.** -/
def decode (payload : Bytes) : Except Fault Envelope :=
  match Json.readBytes? payload with
  | none => .error .malformedPayload
  | some value => ofJson value

/-- **What the envelope asks for**: an operation goes before a history entry. -/
def kind (envelope : Envelope) : EnvelopeKind :=
  match envelope.operation, envelope.history with
  | some operation, _ => .row operation
  | none, some _ => .schemaHistory
  | none, none => .invalid

end Envelope

end ChangeFeed
