import ChangeFeed.Command.Flag

/-!
# Arguments — the settings read off a command line

Arguments are read from left to right. A flag takes the next argument as its
value, unless that starts with a dash and is longer, or its value stands
behind an equals sign. The value of a flag is looked at only when the next
flag begins or the arguments end; an argument that is not known ends the
reading before that. Environment variables stand in for flags that are not
given.
-/

namespace ChangeFeed

/-- **How far arguments have been read.** -/
structure ArgumentReading where
  settings : Settings := {}
  /-- The flags whose values have been looked at. -/
  given : List Flag := []
  /-- The last flag with its value, if the value has not been looked at. -/
  pending : Option (Flag × Option Text) := none
deriving Repr, DecidableEq

namespace ArgumentReading

/-- The settings before the first value of a flag, which takes the place of a default list. -/
def cleared (flag : Flag) (settings : Settings) : Settings :=
  match flag with
  | .nodes => { settings with frontend := { settings.frontend with nodes := [] } }
  | _ => settings

/-- Looks at a value of a flag. -/
def set (flag : Flag) (value : Text) (reading : ArgumentReading) :
    Except UsageFault ArgumentReading :=
  if flag ∈ reading.given then
    if flag.isRepeatable then
      (flag.assign value reading.settings).map fun settings => { reading with settings := settings }
    else .error .repeatedFlag
  else
    (flag.assign value (cleared flag reading.settings)).map fun settings =>
      { reading with settings := settings, given := flag :: reading.given }

/-- Looks at the value of the last flag. -/
def settle (reading : ArgumentReading) : Except UsageFault ArgumentReading :=
  match reading.pending with
  | none => .ok reading
  | some (_, none) => .error .missingValue
  | some (flag, some value) => set flag value { reading with pending := none }

/-- Reads a flag with the value behind its equals sign, if it has one. -/
def readFlag (flags : List Flag) (name : Text) (value : Option Text) (reading : ArgumentReading) :
    Except UsageFault ArgumentReading :=
  if name = "help".toList then
    if value.isSome then .error .needlessValue
    else do
      let _ ← reading.settle
      .error .help
  else match Flag.find? flags name with
    | none => .error .unknownArgument
    | some flag =>
      if flag.isSwitch then
        if value.isSome then .error .needlessValue
        else do set flag switchOn (← reading.settle)
      else do
        let reading ← reading.settle
        match value with
        | some value => set flag value reading
        | none => .ok { reading with pending := some (flag, none) }

/-- The name of a flag and the value behind its equals sign. -/
def splitValue (text : Text) : Text × Option Text :=
  match text.splitFirst? '=' with
  | some (name, value) => (name, some value)
  | none => (text, none)

/-- Reads an argument that is no flag: it is the value of a flag that waits for one. -/
def readPlain (argument : Text) (reading : ArgumentReading) : Except UsageFault ArgumentReading :=
  match reading.pending with
  | some (flag, none) => .ok { reading with pending := some (flag, some argument) }
  | _ => .error .unknownArgument

/-- Reads one argument. -/
def readOne (flags : List Flag) (argument : Text) (reading : ArgumentReading) :
    Except UsageFault ArgumentReading :=
  match argument with
  | '-' :: '-' :: text =>
    let (name, value) := splitValue text
    readFlag flags name value reading
  | '-' :: 'h' :: _ => do
    let _ ← reading.settle
    .error .help
  | '-' :: _ :: _ => .error .unknownArgument
  | _ => readPlain argument reading

/-- Reads arguments to their end. Behind two dashes on their own nothing may stand. -/
def readAll (flags : List Flag) (reading : ArgumentReading) :
    List Text → Except UsageFault ArgumentReading
  | [] => reading.settle
  | ['-', '-'] :: rest => if rest.isEmpty then reading.settle else .error .unknownArgument
  | argument :: rest => do readAll flags (← readOne flags argument reading) rest

/-- Sets the flags that are not given from their variables. -/
def fillFrom (environment : Text → Option Text) (reading : ArgumentReading) :
    List Flag → Except UsageFault ArgumentReading
  | [] => .ok reading
  | flag :: rest =>
    match flag.environmentName?.bind environment with
    | some value =>
      if flag ∈ reading.given then fillFrom environment reading rest
      else do fillFrom environment (← set flag value reading) rest
    | none => fillFrom environment reading rest

end ArgumentReading

/-- **The settings that some arguments and variables give.** -/
def Settings.read (flags : List Flag) (environment : Text → Option Text) (arguments : List Text) :
    Except UsageFault Settings := do
  let reading ← ArgumentReading.readAll flags {} arguments
  let reading ← ArgumentReading.fillFrom environment reading flags
  pure reading.settings

end ChangeFeed
