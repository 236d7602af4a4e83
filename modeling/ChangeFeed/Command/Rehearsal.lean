import ChangeFeed.Command.Program
import ChangeFeed.FileTree
import ChangeFeed.Frontend.Script

/-!
# Rehearsals — commands carried out in memory

A `Rehearsal` holds files, the standard streams and frontends with known
answers. It is a world like the one outside, so that what a command does can
be computed: `Command.rehearse` gives the outcome and what it leaves behind.
-/

namespace ChangeFeed

/-- **A world in memory.** -/
structure Rehearsal where
  files : FileTree := {}
  /-- The standard input. -/
  input : Bytes := []
  /-- What has been written to the standard output. -/
  output : Text := []
  script : Script := .unreachable
  /-- The requests that have reached a frontend, in order. -/
  requests : List Request := []

namespace Rehearsal

/-- All bytes of an input. -/
def read (source : Option Text) (rehearsal : Rehearsal) : Except FileFault Bytes :=
  match source with
  | none => .ok rehearsal.input
  | some path => rehearsal.files.read path

/-- Creates a file. -/
def create (path : Text) (rehearsal : Rehearsal) : Except FileFault Rehearsal :=
  (rehearsal.files.create path).map fun files => { rehearsal with files := files }

/-- Adds to an output. -/
def write (sink : Option Text) (text : Text) (rehearsal : Rehearsal) : Rehearsal :=
  match sink with
  | none => { rehearsal with output := rehearsal.output ++ text }
  | some path => { rehearsal with files := rehearsal.files.append path text.bytes }

/-- Sends a request to the frontends with known answers. -/
def send (hosts : List Text) (request : Text → Request) (rehearsal : Rehearsal) :
    Option Response × Rehearsal :=
  match rehearsal.script.reached? hosts with
  | some host =>
    (rehearsal.script.answer (request host).method,
      { rehearsal with
        script := rehearsal.script.advance (request host).method
        requests := rehearsal.requests ++ [request host] })
  | none => (none, { rehearsal with script := rehearsal.script.miss })

/-- Goes through lines until a step fails. -/
def throughLines {σ ε : Type} (step : σ → Bytes → StateM Rehearsal (Except ε σ)) :
    List Bytes → σ → StateM Rehearsal (Except ε σ)
  | [], state => pure (.ok state)
  | line :: rest, state => do
    match ← step state line with
    | .error fault => pure (.error fault)
    | .ok next => throughLines step rest next

/-- **The world of a rehearsal.** -/
def world : World (StateM Rehearsal) where
  read source := do pure ((← get).read source)
  create path := do
    match (← get).create path with
    | .error fault => pure (.error fault)
    | .ok rehearsal => set rehearsal; pure (.ok ())
  write sink text := modify (Rehearsal.write sink text)
  overLines source broken step start := do
    match (← get).read source with
    | .ok bytes => do pure (.ok (← throughLines step bytes.lines start))
    | .error .isFolder => pure (.ok (.error broken))
    | .error fault => pure (.error fault)
  send _ hosts request := modifyGet (Rehearsal.send hosts request)

end Rehearsal

/-- **Carries out a command in memory.** -/
def Command.rehearse (command : Command) (rehearsal : Rehearsal) :
    Except CommandFault Unit × Rehearsal :=
  (command.perform Rehearsal.world).run rehearsal

end ChangeFeed
