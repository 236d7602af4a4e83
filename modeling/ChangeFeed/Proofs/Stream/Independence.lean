import ChangeFeed.Proofs.Stream.Run
/-!
# Independence — rows do not depend on the frontends

Serializing a payload gives its outcome, in which the client has no part, so
the fate of a line is the same under any client and any answers. Two runs over
one input that differ in these alone show the same to whoever reads the records
and does not see the frontends (`observed_withClient`).
-/


namespace ChangeFeed

namespace Serializer

/-- The serializer with another client, or with none. -/
def withClient (serializer : Serializer) (client : Option Client) : Serializer :=
  { serializer with client := client }

/-- **A configuration that is refused is refused under any client**, and
otherwise the serializers differ in the client alone. -/
theorem make_eq_map_withClient (routing : Routing) (format : RowFormat)
    (pattern sourceTable : Option Text) (client other : Option Client) :
    make routing format pattern sourceTable other =
      (make routing format pattern sourceTable client).map (·.withClient other) := by
  unfold make
  cases DdlTranslator.make pattern sourceTable routing <;> rfl

/-- A history entry comes to nothing, whatever is made of it. -/
theorem outcome_of_schemaHistory {serializer : Serializer} {payload : Bytes} {envelope : Envelope}
    (hdecode : Envelope.decode payload = .ok envelope) (hkind : envelope.kind = .schemaHistory) :
    serializer.outcome payload = .ok none := by
  rw [outcome, hdecode]
  exact LoadRecord.ofEnvelope_of_isDropped
    (Or.inl (Envelope.kind_eq_schemaHistory_iff.1 hkind).1)

end Serializer

namespace Sync

variable {serializer : Serializer}

/-- **What a run shows** to whoever does not see the frontends: how it ends,
and what it has written. -/
def observed (serializer : Serializer) (script : Script) (input : Bytes) :
    Except SyncFault Stats × Text :=
  let played := (run serializer input).play script
  (played.result, Event.output played.events)

/-- A line has one fate under all clients. -/
theorem fate_withClient (client : Option Client) (line : Bytes) :
    fate (serializer.withClient client) line = fate serializer line := rfl

/-- **Nothing that is shown depends on the client or the answers.** -/
theorem observed_withClient (client : Option Client) (script other : Script) (input : Bytes) :
    observed (serializer.withClient client) script input = observed serializer other input := by
  have htally : tally (serializer.withClient client) {} input.lines =
      tally serializer {} input.lines := by
    unfold tally
    simp only [fate_withClient]
  have hrecord : (serializer.withClient client).record? = serializer.record? := by
    funext line
    rw [← record?_fate, ← record?_fate, fate_withClient]
  unfold observed
  simp only [result_play_run, events_play_run, output_play_steps, htally, hrecord]

/-- **Rows are independent of the frontends.** Two runs of one configuration
over one input end the same way, with the same counters or at the same line,
and write the same, whatever client they have and whatever it is answered. A
history entry alone never gives a record or a fault. -/
theorem observed_independent (routing : Routing) (format : RowFormat)
    (pattern sourceTable : Option Text) (client other : Option Client)
    (script otherScript : Script) (input : Bytes) :
    (Serializer.make routing format pattern sourceTable client).map
        (observed · script input) =
      (Serializer.make routing format pattern sourceTable other).map
        (observed · otherScript input) ∧
    ∀ serializer payload envelope, Envelope.decode payload = .ok envelope →
      envelope.kind = .schemaHistory →
      ((Serializer.serialize serializer payload).play script).result = .ok none := by
  constructor
  · rw [Serializer.make_eq_map_withClient routing format pattern sourceTable client other]
    cases Serializer.make routing format pattern sourceTable client with
    | error fault => rfl
    | ok serializer =>
      exact congrArg Except.ok (observed_withClient other otherScript script input).symm
  · intro serializer payload envelope hdecode hkind
    rw [Serializer.result_play_serialize, Serializer.outcome_of_schemaHistory hdecode hkind]

end Sync

end ChangeFeed
