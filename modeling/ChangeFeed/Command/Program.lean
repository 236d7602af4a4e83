import ChangeFeed.Command.Arguments
import ChangeFeed.Sync

/-!
# The program — commands, and carrying them out in a world

`sync` turns a stream of envelopes into records and applies their schema
changes; `ddl` prints the statement for one envelope. `Command.perform` says
what either does in any `World`, that is, given how files and the standard
streams are read and written and how requests are sent. The order of the
steps decides which of two faults is reported.
-/

namespace ChangeFeed

/-- The commands. -/
inductive CommandKind where
  | sync
  | ddl
deriving Repr, DecidableEq

namespace CommandKind

/-- The name of a command. -/
def name : CommandKind → Text
  | sync => "sync".toList
  | ddl => "ddl".toList

/-- The flags of a command. -/
def flags : CommandKind → List Flag
  | sync => [.input, .output, .dryRun] ++ Flag.serializerFlags ++ Flag.frontendFlags
  | ddl => .input :: Flag.serializerFlags

end CommandKind

/-- **A command with its settings.** -/
structure Command where
  kind : CommandKind
  settings : Settings
deriving Repr, DecidableEq

namespace Command

/-- The name that asks for help. -/
def helpName : Text := "help".toList

/-- What asking for help on some topics comes to. Every topic but the first is one too many. -/
def readHelp (topics : List Text) : UsageFault :=
  match topics with
  | [] => .help
  | [topic] =>
    if topic = CommandKind.sync.name ∨ topic = CommandKind.ddl.name ∨ topic = helpName then .help
    else .unknownArgument
  | _ => .unknownArgument

/-- **Reads a command line**, the name of the program left out. -/
def read (environment : Text → Option Text) : List Text → Except UsageFault Command
  | [] => .error .noCommand
  | first :: rest =>
    if first = CommandKind.sync.name then
      (Settings.read CommandKind.sync.flags environment rest).map (⟨.sync, ·⟩)
    else if first = CommandKind.ddl.name then
      (Settings.read CommandKind.ddl.flags environment rest).map (⟨.ddl, ·⟩)
    else if first = helpName then .error (readHelp rest)
    else do
      let _ ← ArgumentReading.readOne [] first {}
      .error .noCommand

end Command

/-- **How the outside is reached.** An input or output without a path is a standard stream. -/
structure World (m : Type → Type) where
  /-- All bytes of an input. -/
  read : Option Text → m (Except FileFault Bytes)
  /-- Creates a file, or empties it. -/
  create : Text → m (Except FileFault Unit)
  /-- Adds to an output. -/
  write : Option Text → Text → m Unit
  /-- Goes through the lines of an input until a step fails. Where the input cannot be read on, it
  fails with what is given for that. -/
  overLines : {σ ε : Type} → Option Text → ε → (σ → Bytes → m (Except ε σ)) → σ →
    m (Except FileFault (Except ε σ))
  /-- Puts a request to one of some hosts and waits for its answer. -/
  send : Duration → List Text → (Text → Request) → m (Option Response)

/-- Why a command fails. -/
inductive CommandFault where
  | mappingFile (cause : MappingFileFault)
  | serializer (cause : Fault)
  | create (path : Text) (cause : FileFault)
  | openInput (path : Text) (cause : FileFault)
  | read (path : Option Text) (cause : FileFault)
  | sync (cause : SyncFault)
  | decode (cause : Fault)
  | translate (cause : Fault)
deriving Repr, DecidableEq

/-- **The message for a command that fails**, from the outermost cause to the innermost. -/
def CommandFault.message : CommandFault → Text
  | mappingFile cause => cause.message
  | serializer cause => cause.message
  | create path cause => "Failed to create ".toList ++ path ++ ": ".toList ++ cause.message
  | openInput path cause => "Failed to open ".toList ++ path ++ ": ".toList ++ cause.message
  | read (some path) cause => "Failed to read ".toList ++ path ++ ": ".toList ++ cause.message
  | read none cause => "Failed to read envelope from stdin: ".toList ++ cause.message
  | sync .unreadable => SyncFault.unreadable.message
  | sync (.malformed line) =>
    (SyncFault.malformed line).message ++ ": ".toList ++ Fault.malformedPayload.message
  | decode cause => "Failed to decode envelope: ".toList ++ cause.message
  | translate cause => "Failed to translate schema change: ".toList ++ cause.message

namespace Command

variable {m : Type → Type} [Monad m]

/-- Builds the serializer of some settings. -/
def serializer (world : World m) (settings : Settings) (client : Option Client) :
    ExceptT CommandFault m Serializer := do
  match ← settings.serializer.fileMap (fun path => world.read (some path)) with
  | .error cause => throw (.mappingFile cause)
  | .ok fileMap =>
    match settings.serializer.serializer fileMap client with
    | .error cause => throw (.serializer cause)
    | .ok serializer => pure serializer

/-- Turns a stream of envelopes into records, applying schema changes unless it is a dry run. -/
def sync (world : World m) (settings : Settings) : ExceptT CommandFault m Unit := do
  let client := if settings.dryRun then none else some settings.frontend.client
  let serializer ← serializer world settings client
  match settings.output with
  | none => pure ()
  | some path =>
    match ← world.create path with
    | .error cause => throw (.create path cause)
    | .ok () => pure ()
  let step progress line :=
    (Sync.step serializer progress line).interpret (world.send settings.frontend.timeout)
      (world.write settings.output)
  match ← world.overLines settings.input SyncFault.unreadable step {} with
  | .error cause => throw (.openInput (settings.input.getD []) cause)
  | .ok (.error cause) => throw (.sync cause)
  | .ok (.ok _) => pure ()

/-- Prints the statement for one envelope, if there is one. -/
def ddl (world : World m) (settings : Settings) : ExceptT CommandFault m Unit := do
  let serializer ← serializer world settings none
  match ← world.read settings.input with
  | .error cause => throw (.read settings.input cause)
  | .ok payload =>
    match Envelope.decode payload with
    | .error cause => throw (.decode cause)
    | .ok envelope =>
      match serializer.translator.translate envelope with
      | .error cause => throw (.translate cause)
      | .ok none => pure ()
      | .ok (some change) => world.write none (change.statement ++ ['\n'])

/-- **Carries out a command.** -/
def perform (world : World m) (command : Command) : m (Except CommandFault Unit) :=
  match command.kind with
  | .sync => (sync world command.settings).run
  | .ddl => (ddl world command.settings).run

end Command

end ChangeFeed
