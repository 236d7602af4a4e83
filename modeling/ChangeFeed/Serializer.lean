import ChangeFeed.Frontend.Client
import ChangeFeed.History
import ChangeFeed.Record

/-!
# The serializer — one envelope at a time

A row operation becomes a record to load. A schema history entry becomes a
change that is applied through the client, if there is one; whatever comes
of it, there is no record and no error. An envelope that is neither is
passed over.
-/

namespace ChangeFeed

/-- **What turns envelopes into records and schema changes.** -/
structure Serializer where
  routing : Routing
  format : RowFormat
  translator : DdlTranslator
  /-- Who applies schema changes; without one they are translated only. -/
  client : Option Client

namespace Serializer

/-- A serializer with a pattern for statements and a table to follow, if there are any. -/
def make (routing : Routing) (format : RowFormat) (pattern sourceTable : Option Text)
    (client : Option Client) : Except Fault Serializer :=
  (DdlTranslator.make pattern sourceTable routing).map fun translator =>
    ⟨routing, format, translator, client⟩

/-- Schema changes are translated only. -/
def isDryRun (serializer : Serializer) : Bool := serializer.client.isNone

/-- **Applies the schema change of an envelope** and says whether the frontends agreed. -/
def schemaChange (serializer : Serializer) (envelope : Envelope) : Session Bool :=
  match serializer.translator.translate envelope, serializer.client with
  | .ok (some change), some client =>
    client.apply change.database change.table change.change change.statement
  | _, _ => .done false

/-- **Serializes a decoded envelope.** -/
def serializeEnvelope (serializer : Serializer) (envelope : Envelope) :
    Session (Except Fault (Option LoadRecord)) :=
  match envelope.kind with
  | .row _ => .done (LoadRecord.ofEnvelope serializer.routing serializer.format envelope)
  | .schemaHistory => do
    let _ ← serializer.schemaChange envelope
    pure (.ok none)
  | .invalid => .done (.ok none)

/-- **Serializes a payload.** -/
def serialize (serializer : Serializer) (payload : Bytes) :
    Session (Except Fault (Option LoadRecord)) :=
  match Envelope.decode payload with
  | .error fault => .done (.error fault)
  | .ok envelope => serializer.serializeEnvelope envelope

end Serializer

end ChangeFeed
