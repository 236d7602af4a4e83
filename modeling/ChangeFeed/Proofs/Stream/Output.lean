import ChangeFeed.Proofs.Stream.Accounting
import ChangeFeed.Proofs.Text.Encoding
/-!
# Output — what a run has written, read again

The output is one line of JSON after the other, and the line feeds in it are
the ends of these lines: whatever else a record holds is escaped, its
delimiters included, which are text within text. So the bytes of the output,
cut at the line feeds, are the records of the run, and each piece reads as
its record.
-/


namespace ChangeFeed

namespace LoadRecord

variable (record : LoadRecord)

/-- No line feed is among the bytes of a written record. -/
theorem newline_notMem_bytes_write : 10 ∉ record.toJson.write.bytes := by
  intro hmem
  exact absurd (record.readable_toJson.isPlain_write.le_of_mem_bytes hmem) (by decide)

/-- **A written record is read as the record.** -/
theorem readBytes?_write : Json.readBytes? record.toJson.write.bytes = some record.toJson := by
  have hreadable : record.toJson.Readable Json.maxDepth :=
    record.readable_toJson.mono (by decide)
  rw [Json.readBytes?, Bytes.text?_bytes, Option.bind_some, Json.read?_write hreadable]

/-- **The output of some records, cut at its line feeds**, is the records one
by one, with nothing behind the last. -/
theorem splitOn_bytes_output (records : List LoadRecord) :
    (Text.bytes (records.flatMap outputLine)).splitOn 10 =
      (records.map fun record => record.toJson.write.bytes) ++ [[]] := by
  induction records with
  | nil => rfl
  | cons record rest ih =>
    have hfeed : Text.bytes ['\n'] = [10] := by decide
    rw [List.flatMap_cons, outputLine, Text.bytes_append, Text.bytes_append, hfeed,
      List.append_assoc, List.singleton_append,
      List.splitOn_append_cons_self_of_not_mem record.newline_notMem_bytes_write, ih]
    rfl

end LoadRecord

namespace Sync

/-- **The output of a run decodes back to its records.** It is UTF-8; cut at
its line feeds it has one piece for each record that was built before the
run ended, in input order, and an empty one behind them; and each piece reads
as an object with the target and the payload of its record, and no more. The
payload is the text of its own bytes, so nothing is lost where these are all
that is kept of it. -/
theorem run_output_decodes (serializer : Serializer) (script : Script) (input : Bytes) :
    let written := Event.output ((run serializer input).play script).events
    let records := (before input.lines).filterMap serializer.record?
    written.bytes.text? = some written ∧
      (∃ pieces, written.bytes.splitOn 10 = pieces ++ [[]] ∧
        pieces.map Json.readBytes? = records.map fun record =>
          some (.object [("target_table".toList, .string record.target),
            ("payload".toList, .string record.payload)])) ∧
      ∀ record ∈ records, record.payload.bytes.text? = some record.payload := by
  intro written records
  have hwritten : written = records.flatMap LoadRecord.outputLine := by
    simp only [written, events_play_run, output_play_steps, records]
  refine ⟨Bytes.text?_bytes written, ⟨records.map fun record => record.toJson.write.bytes, ?_, ?_⟩,
    fun record _ => Bytes.text?_bytes record.payload⟩
  · rw [hwritten]
    exact LoadRecord.splitOn_bytes_output records
  · rw [List.map_map]
    exact List.map_congr_left fun record _ => record.readBytes?_write

end Sync

end ChangeFeed
