import ChangeFeed.Proofs.Frontend.Passage
import ChangeFeed.Proofs.Json.Numeral
import ChangeFeed.Proofs.Rows.Outcome
import ChangeFeed.Sync
import Mathlib.Tactic.ByContra
/-!
# Lines — what becomes of one line of a stream

Whatever the frontends answer, serializing a payload gives its
`Serializer.outcome`, so a line has a `Sync.fate` of its own: it ends the
run, is passed over, or is counted. `Sync.fault?_fate` is the key: the only
lines that end a run are those that are no UTF-8 and those that are neither
blank nor JSON, because no other fault is the payload's.
-/


namespace ChangeFeed

/-! ## The kind of an envelope -/

namespace Envelope

variable {envelope : Envelope}

/-- An envelope is a row change exactly if it has an operation. -/
theorem kind_eq_row_iff {operation : RowOperation} :
    envelope.kind = .row operation ↔ envelope.operation = some operation := by
  unfold kind
  cases envelope.operation <;> cases envelope.history <;> simp

/-- It asks for a schema change if it has a history entry and no operation. -/
theorem kind_eq_schemaHistory_iff :
    envelope.kind = .schemaHistory ↔
      envelope.operation = none ∧ ∃ value, envelope.history = some value := by
  unfold kind
  cases envelope.operation <;> cases envelope.history <;> simp

/-- It asks for nothing if it has neither. -/
theorem kind_eq_invalid_iff :
    envelope.kind = .invalid ↔ envelope.operation = none ∧ envelope.history = none := by
  unfold kind
  cases envelope.operation <;> cases envelope.history <;> simp

end Envelope

/-! ## A blank text is no JSON -/

/-- White space that JSON does not know begins no value. -/
theorem Reading.beginValue_of_isSpace {stack : List Frame} {c : Char} (h : isSpace c = true) :
    beginValue stack c = none := by
  have hne : ∀ d, isSpace d = false → c ≠ d := by
    rintro d hd rfl
    rw [h] at hd
    cases hd
  have hdigit : c.isDigit = false := by
    by_contra hdigit
    -- no digit's code is the code of a space
    have hrange := NumberPhase.toNat_of_isDigit (by simpa using hdigit)
    simp only [isSpace, Bool.or_eq_true, Bool.and_eq_true, decide_eq_true_eq, beq_iff_eq] at h
    omega
  have hnumber : NumberPhase.start? c = none := by
    simp [NumberPhase.start?, hne '-' (by decide), hne '0' (by decide), hdigit]
  simp [beginValue, hne '[' (by decide), hne '{' (by decide), hne '\x22' (by decide),
    hne 't' (by decide), hne 'f' (by decide), hne 'n' (by decide), hnumber]

theorem Json.read?_of_isBlank {t : Text} (h : t.isBlank = true) : Json.read? t = none := by
  have hrun : ∀ t : Text, t.isBlank = true →
      Reading.start.run t = none ∨ Reading.start.run t = some .start := by
    intro t
    induction t with
    | nil => exact fun _ => Or.inr rfl
    | cons c t ih =>
      intro h
      simp only [Text.isBlank, List.all_cons, Bool.and_eq_true] at h
      by_cases hgap : Json.isGap c = true
      · simpa [Reading.run, Reading.step, Reading.start, hgap] using ih h.2
      · exact Or.inl (by
          simp [Reading.run, Reading.step, Reading.start, hgap,
            Reading.beginValue_of_isSpace h.1])
  unfold Json.read?
  rcases hrun t h with h | h
  · rw [h, Option.bind_none]
  · rw [h]
    rfl

/-! ## The outcome of a payload -/

namespace Serializer

/-- **What serializing a payload gives**, whatever the frontends answer. -/
def outcome (serializer : Serializer) (payload : Bytes) : Except Fault (Option LoadRecord) :=
  match Envelope.decode payload with
  | .error fault => .error fault
  | .ok envelope => LoadRecord.ofEnvelope serializer.routing serializer.format envelope

/-- The record of a payload, if one is built. -/
def record? (serializer : Serializer) (payload : Bytes) : Option LoadRecord :=
  (serializer.outcome payload).toOption.join

variable {serializer : Serializer}

theorem result_play_serialize (payload : Bytes) (script : Script) :
    ((serializer.serialize payload).play script).result = serializer.outcome payload := by
  unfold serialize outcome
  cases Envelope.decode payload with
  | error fault => rfl
  | ok envelope =>
    simp only [serializeEnvelope]
    cases hkind : envelope.kind with
    | row operation => rfl
    | schemaHistory =>
      rw [LoadRecord.ofEnvelope_of_isDropped
        (Or.inl (Envelope.kind_eq_schemaHistory_iff.1 hkind).1)]
      simp only [Session.result_play_bind, Session.play_pure]
    | invalid =>
      rw [LoadRecord.ofEnvelope_of_isDropped
        (Or.inl (Envelope.kind_eq_invalid_iff.1 hkind).1)]
      rfl

theorem output_play_schemaChange (envelope : Envelope) (script : Script) :
    Event.output ((serializer.schemaChange envelope).play script).events = [] := by
  unfold schemaChange
  split
  · exact Client.output_play_apply _ _ _ _
  · rfl

/-- Serializing writes no output; only the run over a stream does. -/
theorem output_play_serialize (payload : Bytes) (script : Script) :
    Event.output ((serializer.serialize payload).play script).events = [] := by
  unfold serialize
  cases Envelope.decode payload with
  | error fault => rfl
  | ok envelope =>
    simp only [serializeEnvelope]
    cases envelope.kind with
    | row operation => rfl
    | schemaHistory =>
      simp only [Session.events_play_bind, output_play_schemaChange, Session.play_pure,
        List.append_nil]
    | invalid => rfl

/-- **Only a payload that is no JSON is a malformed payload.** -/
theorem outcome_eq_malformedPayload_iff {payload : Bytes} :
    serializer.outcome payload = .error .malformedPayload ↔ Json.readBytes? payload = none := by
  unfold outcome Envelope.decode
  cases Json.readBytes? payload with
  | none => simp
  | some value =>
    have hrow := LoadRecord.ofEnvelope_ne_malformedPayload serializer.routing serializer.format
    cases value with
    | object members => simpa [Envelope.ofJson] using hrow (Envelope.ofMembers members)
    | _ => simp [Envelope.ofJson]

/-- A payload that is no JSON is never put to a frontend. -/
theorem serialize_of_malformed (serializer : Serializer) {payload : Bytes}
    (h : Json.readBytes? payload = none) :
    serializer.serialize payload = .done (.error .malformedPayload) := by
  simp [serialize, Envelope.decode, h]

end Serializer

/-! ## The fate of a line -/

/-- **What becomes of a line** in a run. -/
inductive Fate where
  /-- It is no UTF-8 and ends the run. -/
  | unreadable
  /-- It is no JSON and ends the run. -/
  | malformed
  /-- It is blank and passed over. -/
  | blank
  /-- Its record is written. -/
  | written (record : LoadRecord)
  /-- It has no record. -/
  | skipped
  /-- Its record cannot be built. -/
  | failed

namespace Fate

/-- The fate of an envelope, by the outcome of serializing it. -/
def ofOutcome : Except Fault (Option LoadRecord) → Fate
  | .error .malformedPayload => malformed
  | .error _ => failed
  | .ok none => skipped
  | .ok (some record) => written record

/-- How a line of that number ends the run, if it does. -/
def fault? (number : Nat) : Fate → Option SyncFault
  | unreadable => some .unreadable
  | malformed => some (.malformed number)
  | _ => none

/-- The counters after a line. -/
def tally (stats : Stats) : Fate → Stats
  | written _ =>
    { stats with envelopes := stats.envelopes + 1, records := stats.records + 1 }
  | skipped => { stats with envelopes := stats.envelopes + 1, skipped := stats.skipped + 1 }
  | failed => { stats with envelopes := stats.envelopes + 1, failed := stats.failed + 1 }
  | _ => stats

/-- The record that a line has written. -/
def record? : Fate → Option LoadRecord
  | written record => some record
  | _ => none

theorem record?_ofOutcome (outcome : Except Fault (Option LoadRecord)) :
    (ofOutcome outcome).record? = outcome.toOption.join := by
  unfold ofOutcome
  split <;> rfl

/-- Of the fates of an envelope only the malformed one ends the run. -/
theorem fault?_ofOutcome {number : Nat} {outcome : Except Fault (Option LoadRecord)}
    (h : outcome ≠ .error .malformedPayload) : (ofOutcome outcome).fault? number = none := by
  unfold ofOutcome
  split
  · contradiction
  all_goals rfl

end Fate

/-- The line is an envelope: it is readable and not blank. -/
def Bytes.isEnvelope (line : Bytes) : Bool := line.text?.any fun text => !text.isBlank

/-- **The line ends a run**: it is no UTF-8, or it is neither blank nor JSON. -/
def Bytes.isFatal (line : Bytes) : Bool :=
  match line.text? with
  | none => true
  | some text => !text.isBlank && (Json.read? text).isNone

theorem Bytes.readBytes?_of_isFatal {line : Bytes} (h : line.isFatal = true) :
    Json.readBytes? line = none := by
  unfold isFatal at h
  unfold Json.readBytes?
  cases htext : line.text? with
  | none => rfl
  | some text =>
    simp only [htext, Bool.and_eq_true, Option.isNone_iff_eq_none] at h
    exact h.2

namespace Sync

/-- **The fate of a line**, which no frontend has a say in. -/
def fate (serializer : Serializer) (line : Bytes) : Fate :=
  match line.text? with
  | none => .unreadable
  | some text => if text.isBlank then .blank else .ofOutcome (serializer.outcome line)

variable {serializer : Serializer} {line : Bytes} {text : Text}

/-- **Which lines end a run, and how.** Nothing about the serializer or the
frontends matters. -/
theorem fault?_fate (serializer : Serializer) (line : Bytes) (number : Nat) :
    (fate serializer line).fault? number =
      if line.isFatal then
        some (if line.text? = none then .unreadable else .malformed number)
      else none := by
  have hread : serializer.outcome line = .error .malformedPayload ↔
      Json.readBytes? line = none := Serializer.outcome_eq_malformedPayload_iff
  unfold fate Bytes.isFatal
  unfold Json.readBytes? at hread
  cases htext : line.text? with
  | none => rfl
  | some text =>
    rw [htext, Option.bind_some] at hread
    by_cases hblank : text.isBlank = true
    · simp [hblank, Fate.fault?]
    · cases hjson : Json.read? text with
      | none =>
        rw [hread.2 hjson]
        simp [hblank, hjson, Fate.ofOutcome, Fate.fault?]
      | some value =>
        have hne : serializer.outcome line ≠ .error .malformedPayload := by
          rw [Ne, hread, hjson]
          simp
        simp [hblank, hjson, Fate.fault?_ofOutcome hne]

/-- **A line has the record of its payload**: what is blank or no UTF-8 is no
payload a record could come from. -/
theorem record?_fate : (fate serializer line).record? = serializer.record? line := by
  have hnone : Json.readBytes? line = none → serializer.record? line = none := by
    intro hread
    rw [Serializer.record?, Serializer.outcome_eq_malformedPayload_iff.2 hread]
    rfl
  cases h : line.text? with
  | none =>
    rw [hnone (by simp [Json.readBytes?, h])]
    simp [fate, h, Fate.record?]
  | some text =>
    by_cases hblank : text.isBlank = true
    · rw [hnone (by simp [Json.readBytes?, h, Json.read?_of_isBlank hblank])]
      simp [fate, h, hblank, Fate.record?]
    · simp [fate, h, hblank, Fate.record?_ofOutcome, Serializer.record?]

/-! ## One step of a run -/

/-- A step over an envelope serializes it and settles the outcome. -/
theorem step_of_envelope {progress : Progress} (h : line.text? = some text)
    (hblank : text.isBlank = false) :
    step serializer progress line =
      serializer.serialize line >>= settle ⟨progress.line + 1, progress.stats⟩ := by
  simp [step, h, hblank]

/-- Settling an outcome goes by the fate it is. -/
theorem result_play_settle (progress : Progress) (outcome : Except Fault (Option LoadRecord))
    (script : Script) :
    ((settle progress outcome).play script).result =
      match (Fate.ofOutcome outcome).fault? progress.line with
      | some fault => .error fault
      | none => .ok ⟨progress.line, (Fate.ofOutcome outcome).tally progress.stats⟩ := by
  unfold settle Fate.ofOutcome
  split <;> simp [Session.play, Fate.fault?, Fate.tally]

theorem events_play_settle (progress : Progress) (outcome : Except Fault (Option LoadRecord))
    (script : Script) :
    Event.output ((settle progress outcome).play script).events =
        outcome.toOption.join.toList.flatMap LoadRecord.outputLine ∧
      Event.requests ((settle progress outcome).play script).events = [] := by
  unfold settle
  split <;> simp [Session.play, Except.toOption]

/-- Settling an outcome asks nobody. -/
theorem script_play_settle (progress : Progress) (outcome : Except Fault (Option LoadRecord))
    (script : Script) : ((settle progress outcome).play script).script = script := by
  unfold settle
  split <;> rfl

/-- **One step of a run** goes by the fate of its line. -/
theorem result_play_step (progress : Progress) (script : Script) :
    ((step serializer progress line).play script).result =
      match (fate serializer line).fault? (progress.line + 1) with
      | some fault => .error fault
      | none => .ok ⟨progress.line + 1, (fate serializer line).tally progress.stats⟩ := by
  cases h : line.text? with
  | none => simp [step, fate, h, Fate.fault?]
  | some text =>
    cases hblank : text.isBlank with
    | true => simp [step, fate, h, hblank, Fate.fault?, Fate.tally]
    | false =>
      rw [step_of_envelope h hblank, Session.result_play_bind, Serializer.result_play_serialize,
        result_play_settle]
      simp [fate, h, hblank]

/-- A step writes the record of its line, if there is one. -/
theorem output_play_step (progress : Progress) (script : Script) :
    Event.output ((step serializer progress line).play script).events =
      (serializer.record? line).toList.flatMap LoadRecord.outputLine := by
  rw [← record?_fate]
  cases h : line.text? with
  | none => simp [step, fate, h, Fate.record?]
  | some text =>
    cases hblank : text.isBlank with
    | true => simp [step, fate, h, hblank, Fate.record?]
    | false =>
      rw [step_of_envelope h hblank, Session.events_play_bind, Event.output_append,
        Serializer.output_play_serialize, Serializer.result_play_serialize, List.nil_append,
        (events_play_settle _ _ _).1]
      simp [fate, h, hblank, Fate.record?_ofOutcome]

/-- A step sends what serializing its line sends; a line that is no envelope
sends nothing. -/
theorem requests_play_step (progress : Progress) (script : Script) :
    Event.requests ((step serializer progress line).play script).events =
      if line.isEnvelope then Event.requests ((serializer.serialize line).play script).events
      else [] := by
  cases h : line.text? with
  | none => simp [step, Bytes.isEnvelope, h]
  | some text =>
    cases hblank : text.isBlank with
    | true => simp [step, Bytes.isEnvelope, h, hblank]
    | false =>
      rw [step_of_envelope h hblank, Session.events_play_bind, Event.requests_append,
        (events_play_settle _ _ _).2, List.append_nil]
      simp [Bytes.isEnvelope, h, hblank]

/-- And it leaves what serializing its line leaves of the script. -/
theorem script_play_step (progress : Progress) (script : Script) :
    ((step serializer progress line).play script).script =
      if line.isEnvelope then ((serializer.serialize line).play script).script else script := by
  cases h : line.text? with
  | none => simp [step, Bytes.isEnvelope, h]
  | some text =>
    cases hblank : text.isBlank with
    | true => simp [step, Bytes.isEnvelope, h, hblank]
    | false =>
      rw [step_of_envelope h hblank, Session.script_play_bind, script_play_settle]
      simp [Bytes.isEnvelope, h, hblank]

end Sync

end ChangeFeed
