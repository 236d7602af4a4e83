import ChangeFeed.Config.Delimiter
import ChangeFeed.Config.Mapping
import ChangeFeed.Config.Options

/-!
# Flags — the settings of a command and how they are given

Every flag has a name on the command line, and most can be given by an
environment variable as well. `Settings` is what the flags set; `Flag.assign`
says what each flag's value means there and refuses a value that means
nothing.
-/

namespace ChangeFeed

/-- Why arguments are refused, or the help that they ask for. -/
inductive UsageFault where
  | unknownArgument
  /-- A value that means nothing to its flag. -/
  | badValue
  /-- A flag without its value, or a path that is empty. -/
  | missingValue
  | repeatedFlag
  /-- A value for a switch. -/
  | needlessValue
  | help
  | noCommand
deriving Repr, DecidableEq

/-- **The settings of a command.** -/
structure Settings where
  serializer : SerializerOptions := {}
  frontend : FrontendOptions := {}
  /-- The path of the input, unless it is the standard input. -/
  input : Option Text := none
  /-- The path of the output, unless it is the standard output. -/
  output : Option Text := none
  /-- Schema changes are translated only. -/
  dryRun : Bool := false
deriving Repr, DecidableEq

/-- **The flags.** -/
inductive Flag where
  | input
  | output
  | dryRun
  | tableIdentifier
  | tableMapping
  | tableMappingFile
  | ignoreUpdateBefore
  | lineDelimiter
  | sourceTableName
  | ddlPattern
  | deleteSignColumn
  | nodes
  | username
  | password
  | requestTimeout
deriving Repr, DecidableEq

namespace Flag

/-- The flags of a serializer. -/
def serializerFlags : List Flag :=
  [tableIdentifier, tableMapping, tableMappingFile, ignoreUpdateBefore, lineDelimiter,
    sourceTableName, ddlPattern, deleteSignColumn]

/-- The flags of a client. -/
def frontendFlags : List Flag := [nodes, username, password, requestTimeout]

/-- The name of a flag, without the two dashes before it. -/
def name : Flag → Text
  | input => "input".toList
  | output => "output".toList
  | dryRun => "dry-run".toList
  | tableIdentifier => "table-identifier".toList
  | tableMapping => "table-mapping".toList
  | tableMappingFile => "table-mapping-file".toList
  | ignoreUpdateBefore => "ignore-update-before".toList
  | lineDelimiter => "line-delimiter".toList
  | sourceTableName => "source-table-name".toList
  | ddlPattern => "ddl-pattern".toList
  | deleteSignColumn => "delete-sign-column".toList
  | nodes => "doris-fenodes".toList
  | username => "doris-username".toList
  | password => "doris-password".toList
  | requestTimeout => "doris-request-timeout".toList

/-- The environment variable that stands in for a flag that is not given. -/
def environmentName? : Flag → Option Text
  | input | output | dryRun => none
  | tableIdentifier => some "DORIS_TABLE_IDENTIFIER".toList
  | tableMapping => some "DORIS_TABLE_MAPPING".toList
  | tableMappingFile => some "DORIS_TABLE_MAPPING_FILE".toList
  | ignoreUpdateBefore => some "DORIS_IGNORE_UPDATE_BEFORE".toList
  | lineDelimiter => some "DORIS_LINE_DELIMITER".toList
  | sourceTableName => some "DORIS_SOURCE_TABLE_NAME".toList
  | ddlPattern => some "DORIS_DDL_PATTERN".toList
  | deleteSignColumn => some "DORIS_DELETE_SIGN_COLUMN".toList
  | nodes => some "DORIS_FENODES".toList
  | username => some "DORIS_USERNAME".toList
  | password => some "DORIS_PASSWORD".toList
  | requestTimeout => some "DORIS_REQUEST_TIMEOUT".toList

/-- A switch takes no value. -/
def isSwitch : Flag → Bool
  | dryRun | ignoreUpdateBefore => true
  | _ => false

/-- A flag that may be given more than once, and several values at once. -/
def isRepeatable : Flag → Bool
  | tableMapping | nodes => true
  | _ => false

/-- The flag of that name among some flags. -/
def find? (flags : List Flag) (name : Text) : Option Flag := flags.find? (·.name == name)

end Flag

/-- The value of a switch that is given, which is also how a variable sets it. -/
def switchOn : Text := "true".toList

/-- Whether a switch is set. -/
def switchValue? (value : Text) : Except UsageFault Bool :=
  if value = switchOn then .ok true
  else if value = "false".toList then .ok false
  else .error .badValue

/-- A path, which is not empty. -/
def pathValue (value : Text) : Except UsageFault Text :=
  if value.isEmpty then .error .missingValue else .ok value

/-- The value, if there is one. -/
def valueOrBad {ε α : Type} : Except ε α → Except UsageFault α
  | .ok value => .ok value
  | .error _ => .error .badValue

/-- The mapping entries of a list that is separated by commas. -/
def mappingEntries (value : Text) : Except UsageFault (List (Text × Text)) :=
  (Text.splitAll ',' value).mapM fun entry => valueOrBad (mappingEntry entry)

namespace Flag

/-- **What the value of a flag sets.** The values of a flag that is given before are in `settings`
already if it is repeatable, and its default value is if not. -/
def assign (flag : Flag) (value : Text) (settings : Settings) : Except UsageFault Settings :=
  let serializer := settings.serializer
  let frontend := settings.frontend
  match flag with
  | input => (pathValue value).map fun path => { settings with input := some path }
  | output => (pathValue value).map fun path => { settings with output := some path }
  | dryRun => (switchValue? value).map fun isOn => { settings with dryRun := isOn }
  | tableIdentifier =>
    .ok { settings with serializer := { serializer with tableIdentifier := some value } }
  | tableMapping =>
    (mappingEntries value).map fun entries =>
      { settings with serializer := { serializer with mappings := serializer.mappings ++ entries } }
  | tableMappingFile =>
    (pathValue value).map fun path =>
      { settings with serializer := { serializer with mappingFile := some path } }
  | ignoreUpdateBefore =>
    (switchValue? value).map fun isOn =>
      { settings with serializer :=
        { serializer with format := { serializer.format with afterOnly := isOn } } }
  | lineDelimiter =>
    (valueOrBad (Delimiter.decode value)).map fun delimiter =>
      { settings with serializer :=
        { serializer with format := { serializer.format with delimiter := delimiter } } }
  | sourceTableName =>
    .ok { settings with serializer := { serializer with sourceTable := some value } }
  | ddlPattern => .ok { settings with serializer := { serializer with pattern := some value } }
  | deleteSignColumn =>
    .ok { settings with serializer :=
      { serializer with format := { serializer.format with signColumn := value } } }
  | nodes =>
    .ok { settings with frontend :=
      { frontend with nodes := frontend.nodes ++ Text.splitAll ',' value } }
  | username => .ok { settings with frontend := { frontend with username := value } }
  | password => .ok { settings with frontend := { frontend with password := value } }
  | requestTimeout =>
    (valueOrBad (Duration.parse value)).map fun timeout =>
      { settings with frontend := { frontend with timeout := timeout } }

end Flag

end ChangeFeed
