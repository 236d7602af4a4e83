import ChangeFeed.Command.Help
import ChangeFeed.Frontend.Wire
import Std.Async.DNS
import Std.Async.TCP
import Std.Async.Timer

/-!
# The command line — the world outside

Carries out a command with the files, standard streams and frontends that
are really there. All decisions are the library's; this module reads, writes
and sends.
-/

namespace ChangeFeed

open Std.Async

/-- The fault that the system's number and words for it stand for. -/
def systemFault (code : UInt32) (words : String) : FileFault :=
  match code.toNat with
  | 2 => .missing
  | 20 => .notFolder
  | 21 => .isFolder
  | 36 => .nameTooLong
  | number => .other (words ++ " (os error " ++ toString number ++ ")").toList

/-- What the system says went wrong with a file. -/
def fileFault : IO.Error → FileFault
  | .noFileOrDirectory _ code words | .inappropriateType _ code words
  | .invalidArgument _ code words | .permissionDenied _ code words
  | .resourceExhausted _ code words | .otherError code words => systemFault code words
  | error => .other (toString error).toList

/-- Does something with a file. -/
def withFileFault {α : Type} (action : IO α) : IO (Except FileFault α) := do
  match ← action.toBaseIO with
  | .ok value => pure (.ok value)
  | .error error => pure (.error (fileFault error))

/-- The bytes of so much input as is read at once. -/
def chunkSize : USize := 65536

/-- Opens an input. -/
def openInput : Option Text → IO IO.FS.Stream
  | none => IO.getStdin
  | some path => do
    pure (IO.FS.Stream.ofHandle (← IO.FS.Handle.mk (String.ofList path) IO.FS.Mode.read))

/-- Reads an input to its end. -/
partial def readRest (input : IO.FS.Stream) (soFar : ByteArray) : IO ByteArray := do
  let chunk ← input.read chunkSize
  if chunk.isEmpty then pure soFar else readRest input (soFar ++ chunk)

/-- Goes through the lines of an input, given the bytes of the current line in reverse. -/
partial def throughInput {σ ε : Type} (input : IO.FS.Stream) (broken : ε)
    (step : σ → Bytes → IO (Except ε σ)) (current : Bytes) (state : σ) : IO (Except ε σ) := do
  match ← (input.read chunkSize).toBaseIO with
  | .error _ => pure (.error broken)
  | .ok chunk =>
    if chunk.isEmpty then
      if current.isEmpty then pure (.ok state) else step state current.reverse
    else
      let mut current := current
      let mut state := state
      for byte in chunk do
        if byte = 10 then
          match ← step state (Bytes.endLine current) with
          | .error fault => return .error fault
          | .ok next =>
            state := next
            current := []
        else current := byte :: current
      throughInput input broken step current state

/-- Waits for all bytes of a connection. -/
partial def receiveAll (socket : TCP.Socket.Client) (soFar : ByteArray) : Async ByteArray := do
  match ← socket.recv? 65536 with
  | none => pure soFar
  | some chunk => receiveAll socket (soFar ++ chunk)

/-- The place of an address in the network. -/
def socketAddress (address : Std.Net.IPAddr) (service : Nat) : Std.Net.SocketAddress :=
  match address with
  | .v4 number => .v4 ⟨number, UInt16.ofNat service⟩
  | .v6 number => .v6 ⟨number, UInt16.ofNat service⟩

/-- Sends a request and reads its answer. -/
def exchange (request : Request) : Async (Option Response) := do
  match request.url? with
  | none => pure none
  | some url =>
    let address := url.address
    let numbers ← DNS.getAddrInfo (String.ofList address.host) (toString address.service)
    match numbers[0]? with
    | none => pure none
    | some number =>
      let socket ← TCP.Socket.Client.mk
      socket.connect (socketAddress number address.service)
      socket.send (String.ofList (request.message url)).toUTF8
      let answer ← receiveAll socket ByteArray.empty
      pure (Response.ofMessage? answer.toList)

/-- The longest time that is waited for anything, in milliseconds. -/
def longestWait : Nat := 2147483648

/-- A length of time in milliseconds. -/
def milliseconds (duration : Duration) : Std.Time.Millisecond.Offset :=
  .ofNat (min longestWait (duration.seconds * 1000 + duration.nanoseconds / 1000000))

/-- Puts a request to one of some hosts by chance, and gives up after some time. -/
def sendRequest (timeout : Duration) (hosts : List Text) (request : Text → Request) :
    IO (Option Response) := do
  match hosts[← IO.rand 0 (hosts.length - 1)]? with
  | none => pure none
  | some host =>
    let giveUp : Async (Option Response) := do
      sleep (milliseconds timeout)
      pure none
    let outcome ← (Async.block (Async.race (exchange (request host)) giveUp)).toBaseIO
    pure (outcome.toOption.bind id)

/-- The world outside; the file that is written to is kept open. -/
def outsideWorld (opened : IO.Ref (Option IO.FS.Handle)) : World IO where
  read source := withFileFault do
    pure (← readRest (← openInput source) ByteArray.empty).toList
  create path := withFileFault do
    opened.set (some (← IO.FS.Handle.mk (String.ofList path) IO.FS.Mode.write))
  write _ text := do
    match ← opened.get with
    | some handle => handle.putStr (String.ofList text)
    | none => (← IO.getStdout).putStr (String.ofList text)
  overLines source broken step start := do
    match ← withFileFault (openInput source) with
    | .error fault => pure (.error fault)
    | .ok input => do pure (.ok (← throughInput input broken step [] start))
  send timeout hosts request := sendRequest timeout hosts request

/-- The variables that some flags are set from. -/
def environment (flags : List Flag) : IO (List (Text × Text)) :=
  flags.filterMapM fun flag => do
    match flag.environmentName? with
    | none => pure none
    | some name => do
      pure ((← IO.getEnv (String.ofList name)).map fun value => (name, value.toList))

end ChangeFeed

open ChangeFeed

/-- Carries out the command that the arguments give. -/
def main (arguments : List String) : IO UInt32 := do
  let values ← environment CommandKind.sync.flags
  match Command.read (fun name => values.lookup name) (arguments.map String.toList) with
  | .error .help =>
    IO.print (String.ofList Command.helpText)
    pure 0
  | .error fault =>
    IO.eprintln (String.ofList ("error: ".toList ++ fault.message))
    pure (UInt32.ofNat fault.exitCode)
  | .ok command =>
    let opened ← IO.mkRef none
    match ← command.perform (outsideWorld opened) with
    | .ok () => pure 0
    | .error fault =>
      IO.eprintln (String.ofList ("Error: ".toList ++ fault.message))
      pure 1
