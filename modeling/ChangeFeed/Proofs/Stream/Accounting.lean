import ChangeFeed.Proofs.Json.Inverse
import ChangeFeed.Proofs.Stream.Run
/-!
# Accounting — which runs end early, and how the counters add up

Every envelope is counted once in all and once for what became of it, and a
record is one line of output, so the counters of a finished run can be
checked against its input and against its output. `run_accounting` says so,
beside which inputs end a run early and where.
-/


namespace ChangeFeed

namespace LoadRecord

/-- A record is an object that reads back. -/
theorem readable_toJson (record : LoadRecord) : record.toJson.Readable 1 := by
  have hkeys : Members.Keyed record.toJson.members := by
    constructor
    · change ["target_table".toList, "payload".toList].Nodup
      decide
    · change some "target_table".toList ≠ some Json.numeralKey
      decide
  refine .object hkeys fun member hmember => ?_
  rcases List.mem_cons.1 hmember with rfl | hmember
  · exact .string _
  · rw [List.mem_singleton.1 hmember]
    exact .string _

/-- **A record takes one line of output**, whatever its texts hold. -/
theorem count_newline_outputLine (record : LoadRecord) : record.outputLine.count '\n' = 1 := by
  have hplain := record.readable_toJson.isPlain_write
  rw [outputLine, List.count_append, List.count_eq_zero_of_not_mem hplain.newline_notMem]
  rfl

end LoadRecord

namespace Fate

variable {fate : Fate}

/-- Each envelope is counted once in all and once for what became of it. -/
theorem total_tally {stats : Stats}
    (h : stats.envelopes = stats.records + stats.skipped + stats.failed) :
    (fate.tally stats).envelopes =
      (fate.tally stats).records + (fate.tally stats).skipped + (fate.tally stats).failed := by
  cases fate with
  | written record => simp only [tally]; omega
  | skipped => simp only [tally]; omega
  | failed => simp only [tally]; omega
  | _ => exact h

theorem records_tally (stats : Stats) :
    (fate.tally stats).records = stats.records + fate.record?.toList.length := by
  cases fate <;> rfl

end Fate

namespace Sync

variable {serializer : Serializer}

/-! ## The counters -/

/-- The counters add up after some lines if they did before. -/
theorem total_tally {stats : Stats} (lines : List Bytes)
    (h : stats.envelopes = stats.records + stats.skipped + stats.failed) :
    (tally serializer stats lines).envelopes = (tally serializer stats lines).records +
      (tally serializer stats lines).skipped + (tally serializer stats lines).failed := by
  induction lines generalizing stats with
  | nil => exact h
  | cons line rest ih => exact ih (Fate.total_tally h)

theorem records_tally (stats : Stats) (lines : List Bytes) :
    (tally serializer stats lines).records =
      stats.records + (lines.filterMap serializer.record?).length := by
  induction lines generalizing stats with
  | nil => rfl
  | cons line rest ih =>
    have htail := ih ((fate serializer line).tally stats)
    rw [Fate.records_tally, record?_fate] at htail
    show (tally serializer ((fate serializer line).tally stats) rest).records = _
    rw [htail, List.filterMap_cons]
    cases serializer.record? line with
    | none => rfl
    | some record =>
      simp only [Option.toList_some, List.length_cons, List.length_nil]
      omega

/-- An envelope that ends no run is counted; a blank line is not. -/
theorem envelopes_tally_fate {line : Bytes} (hlive : line.isFatal = false) (stats : Stats) :
    ((fate serializer line).tally stats).envelopes =
      stats.envelopes + if line.isEnvelope then 1 else 0 := by
  have hfault := fault?_fate serializer line 0
  rw [if_neg (by simp [hlive])] at hfault
  cases htext : line.text? with
  | none => simp [Bytes.isFatal, htext] at hlive
  | some text =>
    cases hblank : text.isBlank with
    | true => simp [fate, Bytes.isEnvelope, htext, hblank, Fate.tally]
    | false =>
      have hfate : fate serializer line = Fate.ofOutcome (serializer.outcome line) := by
        simp [fate, htext, hblank]
      rw [hfate] at hfault ⊢
      unfold Fate.ofOutcome at hfault ⊢
      split at hfault
      · cases hfault
      all_goals simp [Bytes.isEnvelope, htext, hblank, Fate.tally]

theorem envelopes_tally {lines : List Bytes} (hlive : ∀ line ∈ lines, line.isFatal = false)
    (stats : Stats) :
    (tally serializer stats lines).envelopes =
      stats.envelopes + (lines.filter Bytes.isEnvelope).length := by
  induction lines generalizing stats with
  | nil => rfl
  | cons line rest ih =>
    have htail := ih (fun other hother => hlive other (List.mem_cons_of_mem line hother))
      ((fate serializer line).tally stats)
    rw [envelopes_tally_fate (hlive line List.mem_cons_self)] at htail
    show (tally serializer ((fate serializer line).tally stats) rest).envelopes = _
    rw [htail]
    cases henvelope : line.isEnvelope with
    | true =>
      rw [List.filter_cons_of_pos henvelope, List.length_cons, if_pos rfl]
      omega
    | false =>
      rw [List.filter_cons_of_neg (by simp [henvelope]), if_neg (by simp)]
      omega

/-- The output of some records has one line for each. -/
theorem count_newline_output (records : List LoadRecord) :
    (records.flatMap LoadRecord.outputLine).count '\n' = records.length := by
  induction records with
  | nil => rfl
  | cons record rest ih =>
    rw [List.flatMap_cons, List.count_append, LoadRecord.count_newline_outputLine, ih,
      List.length_cons]
    omega

/-! ## The whole run -/

/-- **Accounting of a run.** It ends early exactly if some line is fatal; the
first such line decides the message, and the records of all lines before it
have been written and nothing else. Otherwise every envelope is counted,
each once as a record, as skipped or as failed, and the records are the
lines of the output. -/
theorem run_accounting (serializer : Serializer) (script : Script) (input : Bytes) :
    ((∃ fault, ((run serializer input).play script).result = .error fault) ↔
      ∃ line ∈ input.lines, line.isFatal = true) ∧
    (∀ before line rest, input.lines = before ++ line :: rest →
      (∀ earlier ∈ before, earlier.isFatal = false) → line.isFatal = true →
      (∃ fault, ((run serializer input).play script).result = .error fault ∧
        fault.message =
          if line.text? = none then "Failed to read envelope input".toList
          else "Failed to serialize envelope on line ".toList ++
            Text.ofNatural (before.length + 1)) ∧
      Event.output ((run serializer input).play script).events =
        (before.filterMap serializer.record?).flatMap LoadRecord.outputLine) ∧
    (∀ stats, ((run serializer input).play script).result = .ok stats →
      stats.envelopes = (input.lines.filter Bytes.isEnvelope).length ∧
      stats.envelopes = stats.records + stats.skipped + stats.failed ∧
      stats.records = (Event.output ((run serializer input).play script).events).count '\n' ∧
      Event.output ((run serializer input).play script).events =
        (input.lines.filterMap serializer.record?).flatMap LoadRecord.outputLine) := by
  have houtput : Event.output ((run serializer input).play script).events =
      ((Sync.before input.lines).filterMap serializer.record?).flatMap
        LoadRecord.outputLine := by
    rw [events_play_run, output_play_steps]
  rw [result_play_run, houtput]
  refine ⟨?_, ?_, ?_⟩
  · constructor
    · rintro ⟨fault, hfault⟩
      by_contra hnone
      have hlive : ∀ line ∈ input.lines, line.isFatal = false := by
        intro line hline
        by_contra hfatal
        exact hnone ⟨line, hline, by simpa using hfatal⟩
      rw [fault?_eq_none_iff.2 hlive] at hfault
      cases hfault
    · rintro ⟨line, hline, hfatal⟩
      cases hfault : fault? {} input.lines with
      | none =>
        rw [fault?_eq_none_iff.1 hfault line hline] at hfatal
        cases hfatal
      | some fault => exact ⟨fault, rfl⟩
  · intro before line rest hlines hlive hfatal
    rw [hlines, fault?_of_first hlive hfatal, before_of_first hlive hfatal]
    refine ⟨⟨_, rfl, ?_⟩, rfl⟩
    by_cases htext : line.text? = none
    · rw [if_pos htext, if_pos htext]
      rfl
    · rw [if_neg htext, if_neg htext, Nat.zero_add]
      rfl
  · intro stats hstats
    -- a run that gives counters has met no fatal line, so all lines count
    cases hfault : fault? {} input.lines with
    | some fault =>
      rw [hfault] at hstats
      cases hstats
    | none =>
      have hlive := fault?_eq_none_iff.1 hfault
      rw [hfault] at hstats
      cases hstats
      rw [before_of_live hlive, count_newline_output]
      refine ⟨?_, total_tally _ rfl, ?_, rfl⟩
      · rw [envelopes_tally hlive]
        exact Nat.zero_add _
      · rw [records_tally]
        exact Nat.zero_add _

/-- The blank second line is passed over and the third ends the run. -/
theorem run_accounting_third_line :
    let serializer : Serializer :=
      ⟨⟨some "shop.orders".toList, []⟩, {}, ⟨.empty, none, ⟨none, []⟩⟩, none⟩
    let script : Script := .unreachable
    let row : Text := "\x7b\"op\":\"c\",\"after\":\x7b\"id\":1\x7d\x7d".toList
    let lines : List Text := [row, [' '], "row".toList, row]
    let input := Text.bytes (lines.flatMap (· ++ ['\n']))
    input.lines = lines.map Text.bytes ∧
      (∃ fault, ((run serializer input).play script).result = .error fault ∧
        fault.message = "Failed to serialize envelope on line 3".toList) ∧
      (Event.output ((run serializer input).play script).events).count '\n' = 1 := by
  intro serializer script row lines input
  have hlines : input.lines = [Text.bytes row, Text.bytes [' ']] ++
      Text.bytes "row".toList :: [Text.bytes row] := by decide +kernel
  obtain ⟨hfault, houtput⟩ := (run_accounting serializer script input).2.1 _ _ _ hlines
    (by decide +kernel) (by decide +kernel)
  refine ⟨hlines, ?_, ?_⟩
  · obtain ⟨fault, hresult, hmessage⟩ := hfault
    exact ⟨fault, hresult, by rw [hmessage]; decide +kernel⟩
  · rw [houtput]
    decide +kernel

end Sync

end ChangeFeed
