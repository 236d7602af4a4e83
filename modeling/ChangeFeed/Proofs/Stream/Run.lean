import ChangeFeed.Proofs.Stream.Line
import Mathlib.Data.List.TakeWhile
/-!
# Runs — a stream, line by line

A run is the steps over its lines up to the first fatal one.
`result_play_steps`, `output_play_steps` and `requests_play_steps` say what
they give, write and send, each from the step lemma by induction on the
lines.
-/


namespace ChangeFeed

namespace Sync

variable {serializer : Serializer}

/-! ## The steps over some lines -/

/-- The lines of a run before the first fatal one. -/
def before (lines : List Bytes) : List Bytes := lines.takeWhile fun line => !line.isFatal

theorem before_cons_of_fatal {line : Bytes} (rest : List Bytes) (h : line.isFatal = true) :
    before (line :: rest) = [] := by
  simp [before, h]

theorem before_cons_of_live {line : Bytes} (rest : List Bytes) (h : line.isFatal = false) :
    before (line :: rest) = line :: before rest := by
  simp [before, h]

/-- How a run over the lines ends early, if it does. -/
def fault? (progress : Progress) (lines : List Bytes) : Option SyncFault :=
  (lines.find? Bytes.isFatal).map fun line =>
    if line.text? = none then .unreadable
    else .malformed (progress.line + (before lines).length + 1)

/-- Before the first fatal line come the lines before it. -/
theorem before_of_first {earlier rest : List Bytes} {line : Bytes}
    (hlive : ∀ other ∈ earlier, other.isFatal = false) (hfatal : line.isFatal = true) :
    before (earlier ++ line :: rest) = earlier := by
  unfold before
  rw [List.takeWhile_append_of_pos (by simpa using hlive)]
  simp [hfatal]

/-- Where no line is fatal, all of them come before. -/
theorem before_of_live {lines : List Bytes} (hlive : ∀ line ∈ lines, line.isFatal = false) :
    before lines = lines := by
  simpa [before, List.takeWhile_eq_self_iff] using hlive

theorem fault?_eq_none_iff {progress : Progress} {lines : List Bytes} :
    fault? progress lines = none ↔ ∀ line ∈ lines, line.isFatal = false := by
  unfold fault?
  rw [Option.map_eq_none_iff, List.find?_eq_none]
  simp

/-- **The first fatal line decides how a run ends.** -/
theorem fault?_of_first {progress : Progress} {earlier rest : List Bytes} {line : Bytes}
    (hlive : ∀ other ∈ earlier, other.isFatal = false) (hfatal : line.isFatal = true) :
    fault? progress (earlier ++ line :: rest) =
      some (if line.text? = none then .unreadable
        else .malformed (progress.line + earlier.length + 1)) := by
  have hnone : earlier.find? Bytes.isFatal = none :=
    List.find?_eq_none.2 (by simpa using hlive)
  have hfind : (earlier ++ line :: rest).find? Bytes.isFatal = some line := by
    rw [List.find?_append, hnone, List.find?_cons_of_pos hfatal]
    rfl
  rw [fault?, hfind, before_of_first hlive hfatal]
  rfl

/-- The counters after the lines. -/
def tally (serializer : Serializer) (stats : Stats) (lines : List Bytes) : Stats :=
  lines.foldl (fun stats line => (fate serializer line).tally stats) stats

/-- A step over a fatal line ends the run. -/
theorem result_play_step_of_fatal {line : Bytes} (h : line.isFatal = true) (progress : Progress)
    (script : Script) :
    ((step serializer progress line).play script).result =
      .error (if line.text? = none then .unreadable else .malformed (progress.line + 1)) := by
  rw [result_play_step, fault?_fate, if_pos h]

/-- A step over any other line goes on. -/
theorem result_play_step_of_live {line : Bytes} (h : line.isFatal = false) (progress : Progress)
    (script : Script) :
    ((step serializer progress line).play script).result =
      .ok ⟨progress.line + 1, (fate serializer line).tally progress.stats⟩ := by
  rw [result_play_step, fault?_fate, if_neg (by simp [h])]

/-- **What the steps give**: the fault of the first fatal line, or the
counters after all of them. -/
theorem result_play_steps (progress : Progress) (lines : List Bytes) (script : Script) :
    ((steps serializer progress lines).play script).result =
      match fault? progress lines with
      | some fault => .error fault
      | none => .ok ⟨progress.line + lines.length, tally serializer progress.stats lines⟩ := by
  induction lines generalizing progress script with
  | nil => rfl
  | cons line rest ih =>
    rw [steps, Session.result_play_bind]
    cases hfatal : line.isFatal with
    | true =>
      rw [result_play_step_of_fatal hfatal]
      simp [fault?, hfatal, before_cons_of_fatal]
    | false =>
      rw [result_play_step_of_live hfatal]
      simp only [ih]
      -- the fault's number counts from the start, the recursion's from the next line
      have hline : progress.line + 1 + (before rest).length + 1 =
          progress.line + ((before rest).length + 1) + 1 := by omega
      have hlength : progress.line + 1 + rest.length = progress.line + (rest.length + 1) := by
        omega
      simp [fault?, hfatal, before_cons_of_live, tally, hline, hlength]

/-- **What the steps write**: the records of the lines before the first
fatal one, in order. -/
theorem output_play_steps (progress : Progress) (lines : List Bytes) (script : Script) :
    Event.output ((steps serializer progress lines).play script).events =
      ((before lines).filterMap serializer.record?).flatMap LoadRecord.outputLine := by
  induction lines generalizing progress script with
  | nil => rfl
  | cons line rest ih =>
    rw [steps, Session.events_play_bind, Event.output_append, output_play_step]
    cases hfatal : line.isFatal with
    | true =>
      -- a line that ends the run has no record, so nothing is written for it
      have hrecord : serializer.record? line = none := by
        have hfault := fault?_fate serializer line 0
        rw [if_pos hfatal] at hfault
        rw [← record?_fate]
        cases h : fate serializer line <;> simp_all [Fate.fault?, Fate.record?]
      rw [result_play_step_of_fatal hfatal, before_cons_of_fatal rest hfatal, hrecord]
      rfl
    | false =>
      rw [result_play_step_of_live hfatal, before_cons_of_live rest hfatal]
      simp only [ih]
      rw [List.filterMap_cons]
      cases serializer.record? line <;> simp

/-- **What the steps ask**: they send what serializing the envelopes before
the first fatal line sends, one after the other, and leave the same of the
script. -/
theorem asked_play_steps (progress : Progress) (lines : List Bytes) (script : Script) :
    let played := (steps serializer progress lines).play script
    let alone := (((before lines).filter Bytes.isEnvelope).mapM serializer.serialize).play script
    Event.requests played.events = Event.requests alone.events ∧ played.script = alone.script := by
  dsimp only
  induction lines generalizing progress script with
  | nil => exact ⟨rfl, rfl⟩
  | cons line rest ih =>
    rw [steps, Session.events_play_bind, Event.requests_append, Session.script_play_bind,
      script_play_step, requests_play_step]
    cases hfatal : line.isFatal with
    | true =>
      -- the line that ends the run may be an envelope to all appearances, but nobody is asked
      have hquiet := Serializer.serialize_of_malformed serializer (Bytes.readBytes?_of_isFatal hfatal)
      rw [result_play_step_of_fatal hfatal, before_cons_of_fatal rest hfatal, hquiet]
      simp
    | false =>
      rw [result_play_step_of_live hfatal, before_cons_of_live rest hfatal]
      cases henvelope : line.isEnvelope with
      | true =>
        rw [List.filter_cons_of_pos henvelope, List.mapM_cons]
        simp [ih]
      | false =>
        rw [List.filter_cons_of_neg (by simp [henvelope])]
        simp [ih]

/-! ## The whole run -/

/-- A run is its steps, of which the counters are given. -/
theorem play_run (input : Bytes) (script : Script) :
    (run serializer input).play script =
      ⟨((steps serializer {} input.lines).play script).result.map Progress.stats,
        ((steps serializer {} input.lines).play script).events,
        ((steps serializer {} input.lines).play script).script⟩ := by
  have hmap : run serializer input =
      (·.map Progress.stats) <$> steps serializer {} input.lines := by
    rw [run, map_eq_pure_bind]
    refine congrArg _ (funext fun result => ?_)
    cases result <;> rfl
  rw [hmap, Session.play_map]

theorem result_play_run (input : Bytes) (script : Script) :
    ((run serializer input).play script).result =
      match fault? {} input.lines with
      | some fault => .error fault
      | none => .ok (tally serializer {} input.lines) := by
  rw [play_run, result_play_steps]
  cases fault? {} input.lines <;> rfl

theorem events_play_run (input : Bytes) (script : Script) :
    ((run serializer input).play script).events =
      ((steps serializer {} input.lines).play script).events := by
  rw [play_run]

end Sync

end ChangeFeed
