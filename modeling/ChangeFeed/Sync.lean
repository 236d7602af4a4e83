import ChangeFeed.Serializer

/-!
# Sync — a stream of envelopes, one on a line

Every line that is not blank is an envelope, every record a line of output.
A line that is no UTF-8 or no JSON ends the run; an envelope with any other
fault is counted and dropped. `Sync.step` reads one line, so a run over a
stream is the steps over its lines in order.
-/

namespace ChangeFeed

/-- What a run has seen. -/
structure Stats where
  /-- Lines that are not blank. -/
  envelopes : Nat := 0
  /-- Records written. -/
  records : Nat := 0
  /-- Envelopes without a record. -/
  skipped : Nat := 0
  /-- Envelopes that could not be made into a record. -/
  failed : Nat := 0
deriving Repr, DecidableEq

/-- Why a run ends early. -/
inductive SyncFault where
  /-- A line is no UTF-8. -/
  | unreadable
  /-- The line of that number is no JSON. -/
  | malformed (line : Nat)
deriving Repr, DecidableEq

/-- The message for a run that ends early. -/
def SyncFault.message : SyncFault → Text
  | unreadable => "Failed to read envelope input".toList
  | malformed line => "Failed to serialize envelope on line ".toList ++ Text.ofNatural line

/-- **How far a run has come**: the lines read, and what they were. -/
structure Progress where
  line : Nat := 0
  stats : Stats := {}
deriving Repr, DecidableEq

namespace Sync

/-- Counts an envelope, writing its record if it has one. -/
def settle (progress : Progress) (outcome : Except Fault (Option LoadRecord)) :
    Session (Except SyncFault Progress) :=
  let stats := { progress.stats with envelopes := progress.stats.envelopes + 1 }
  match outcome with
  | .error .malformedPayload => .done (.error (.malformed progress.line))
  | .error _ => .done (.ok { progress with stats := { stats with failed := stats.failed + 1 } })
  | .ok none => .done (.ok { progress with stats := { stats with skipped := stats.skipped + 1 } })
  | .ok (some record) =>
    .write record.outputLine
      (.done (.ok { progress with stats := { stats with records := stats.records + 1 } }))

/-- **Reads one line.** -/
def step (serializer : Serializer) (progress : Progress) (line : Bytes) :
    Session (Except SyncFault Progress) :=
  match line.text? with
  | none => .done (.error .unreadable)
  | some text =>
    let progress := { progress with line := progress.line + 1 }
    if text.isBlank then .done (.ok progress)
    else do settle progress (← serializer.serialize line)

/-- Reads lines in order until one ends the run. -/
def steps (serializer : Serializer) (progress : Progress) :
    List Bytes → Session (Except SyncFault Progress)
  | [] => .done (.ok progress)
  | line :: rest => do
    match ← step serializer progress line with
    | .error fault => pure (.error fault)
    | .ok next => steps serializer next rest

/-- **Runs over a stream.** -/
def run (serializer : Serializer) (input : Bytes) : Session (Except SyncFault Stats) := do
  match ← steps serializer {} input.lines with
  | .error fault => pure (.error fault)
  | .ok progress => pure (.ok progress.stats)

end Sync

end ChangeFeed
