import ChangeFeed.Config.Duration
import ChangeFeed.Config.MappingFile
import ChangeFeed.Serializer

/-!
# Options — what a serializer and a client are built from

`SerializerOptions.routing` fixes the precedence: the fixed target goes
before the mapping entries, of which a later one goes before an earlier one,
and those go before the mapping file.
-/

namespace ChangeFeed

/-- **The options of a serializer.** -/
structure SerializerOptions where
  /-- The target of every table, unless it is blank. -/
  tableIdentifier : Option Text := none
  /-- Mapping entries, in order. -/
  mappings : List (Text × Text) := []
  /-- The path of a mapping file. -/
  mappingFile : Option Text := none
  /-- The only table whose schema changes are translated. -/
  sourceTable : Option Text := none
  /-- The pattern for statements. -/
  pattern : Option Text := none
  format : RowFormat := {}
deriving Repr, DecidableEq

namespace SerializerOptions

/-- The map of the mapping file, if one is named. -/
def fileMap {m : Type → Type} [Monad m] (read : Text → m (Except FileFault Bytes))
    (options : SerializerOptions) : m (Except MappingFileFault TargetMap) :=
  match options.mappingFile with
  | none => pure (.ok [])
  | some path => do pure (MappingFile.decode path (← read path))

/-- **The routing**, given the map of the mapping file. -/
def routing (options : SerializerOptions) (fileMap : TargetMap) : Routing :=
  .make options.tableIdentifier (fileMap.putAll options.mappings)

/-- The serializer, given the map of the mapping file. -/
def serializer (options : SerializerOptions) (fileMap : TargetMap) (client : Option Client) :
    Except Fault Serializer :=
  Serializer.make (options.routing fileMap) options.format options.pattern options.sourceTable
    client

end SerializerOptions

/-- **The options of a client.** -/
structure FrontendOptions where
  nodes : List Text := ["127.0.0.1:8030".toList]
  username : Text := "root".toList
  password : Text := []
  /-- How long an answer may take. -/
  timeout : Duration := .ofSeconds 30
deriving Repr, DecidableEq

/-- The client of some options. -/
def FrontendOptions.client (options : FrontendOptions) : Client :=
  ⟨options.nodes, options.username, options.password⟩

end ChangeFeed
