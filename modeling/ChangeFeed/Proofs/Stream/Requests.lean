import ChangeFeed.Proofs.Rows.Images
import ChangeFeed.Proofs.Stream.Run
/-!
# Requests — what a whole run puts to the frontends

The requests of a run fall into blocks, one for each envelope in input
order, and each block is played against the script that the blocks before
it have left. A block is empty unless its envelope asks for a change that
the translator makes, and then it is a passage through the gate. So
`requests_pass_gate`: no frontend is asked without cause, none is asked
twice, and no statement is sent that was not agreed to beforehand.
-/


namespace ChangeFeed

/-- A decoded history entry is never `null`. -/
theorem Envelope.history_ne_null {payload : Bytes} {envelope : Envelope} {value : Json}
    (hdecode : decode payload = .ok envelope) (hhistory : envelope.history = some value) :
    value ≠ .null := by
  obtain ⟨root, -, rfl⟩ := decode_eq_ok_iff.1 hdecode
  obtain ⟨found, -, hfound⟩ := Option.bind_eq_some_iff.1 hhistory
  rintro rfl
  cases found <;> cases hfound

namespace Serializer

variable (serializer : Serializer) (client : Client)

/-- **The block of a payload**: the requests that a script lets through for
it, and what is left of the script. -/
inductive Block (payload : Bytes) (script : Script) : List Request → Script → Prop where
  /-- The payload asks for no change that is made. -/
  | quiet
      (h : ∀ envelope change, Envelope.decode payload = .ok envelope →
        envelope.operation = none → serializer.translator.translate envelope ≠ .ok (some change)) :
      Block payload script [] script
  /-- It has no operation but a history entry that translates to a change,
  and the change passes the gate with requests that are about it. -/
  | passage {envelope : Envelope} {value : Json} {change : SchemaChange}
      {requests : List Request} {applied : Bool} {left : Script}
      (hdecode : Envelope.decode payload = .ok envelope)
      (hoperation : envelope.operation = none)
      (hhistory : envelope.history = some value ∧ value ≠ .null)
      (htranslate : serializer.translator.translate envelope = .ok (some change))
      (hpassage : client.Passage change script requests applied left)
      (hasked : ∀ request ∈ requests, client.AsksAbout change request) :
      Block payload script requests left

/-- **The requests are the blocks of the payloads**, in order, each against
what the ones before it have left of the script. -/
inductive AreBlocks : List Bytes → Script → List Request → Script → Prop where
  | nil {script : Script} : AreBlocks [] script [] script
  | cons {payload : Bytes} {payloads : List Bytes} {script between left : Script}
      {block requests : List Request} (hfirst : Block serializer client payload script block between)
      (hrest : AreBlocks payloads between requests left) :
      AreBlocks (payload :: payloads) script (block ++ requests) left

variable {serializer client}

/-! ## One envelope -/

/-- **A schema change is a passage or nothing.** Without a translated change
nothing is sent and nothing applied. -/
theorem passage_schemaChange (hclient : serializer.client = some client) (script : Script)
    (envelope : Envelope) :
    (∃ change, serializer.translator.translate envelope = .ok (some change) ∧
      let played := (serializer.schemaChange envelope).play script
      client.Passage change script (Event.requests played.events) played.result played.script) ∨
    (∀ change, serializer.translator.translate envelope ≠ .ok (some change)) ∧
      (serializer.schemaChange envelope).play script = ⟨false, [], script⟩ := by
  cases htranslate : serializer.translator.translate envelope with
  | error fault => exact Or.inr ⟨by simp, by simp [schemaChange, htranslate]⟩
  | ok found =>
    cases found with
    | none => exact Or.inr ⟨by simp, by simp [schemaChange, htranslate]⟩
    | some change => exact Or.inl ⟨change, rfl, passage_of_translate hclient htranslate script⟩

/-- **Serializing a payload sends its block.** -/
theorem block_serialize (hclient : serializer.client = some client) (payload : Bytes)
    (script : Script) :
    let played := (serializer.serialize payload).play script
    Block serializer client payload script (Event.requests played.events) played.script := by
  dsimp only
  unfold serialize
  cases hdecode : Envelope.decode payload with
  | error fault =>
    exact .quiet fun envelope change h => by
      rw [hdecode] at h
      cases h
  | ok envelope =>
    have heq : ∀ other, Envelope.decode payload = .ok other → other = envelope := by
      intro other hother
      rw [hdecode] at hother
      cases hother
      rfl
    simp only [serializeEnvelope]
    -- only a history entry is put to the translator; a row has an operation, the rest no entry
    cases hkind : envelope.kind with
    | row operation =>
      refine .quiet fun other change hother hoperation => ?_
      rw [heq other hother, Envelope.kind_eq_row_iff.1 hkind] at hoperation
      cases hoperation
    | schemaHistory =>
      obtain ⟨hoperation, value, hvalue⟩ := Envelope.kind_eq_schemaHistory_iff.1 hkind
      simp only [Session.events_play_bind, Session.script_play_bind, Session.play_pure,
        List.append_nil]
      rcases passage_schemaChange hclient script envelope with
        ⟨change, htranslate, hpassage⟩ | ⟨hnone, hplay⟩
      · exact .passage hdecode hoperation ⟨hvalue, Envelope.history_ne_null hdecode hvalue⟩
          htranslate hpassage fun request => hpassage.asksAbout
      · rw [hplay]
        exact .quiet fun other change hother _ => by
          rw [heq other hother]
          exact hnone change
    | invalid =>
      refine .quiet fun other change hother _ htranslate => ?_
      rw [heq other hother] at htranslate
      obtain ⟨-, value, -, -, hhistory, -⟩ := DdlTranslator.translate_eq_some_iff.1 htranslate
      rw [(Envelope.kind_eq_invalid_iff.1 hkind).2] at hhistory
      cases hhistory

/-! ## Many envelopes -/

/-- Serializing some payloads one after the other sends their blocks. -/
theorem areBlocks_mapM (hclient : serializer.client = some client) (payloads : List Bytes)
    (script : Script) :
    let played := (payloads.mapM serializer.serialize).play script
    AreBlocks serializer client payloads script (Event.requests played.events) played.script := by
  induction payloads generalizing script with
  | nil => exact .nil
  | cons payload rest ih =>
    rw [List.mapM_cons]
    simp only [Session.events_play_bind, Session.script_play_bind, Session.play_pure,
      List.append_nil, Event.requests_append]
    exact .cons (block_serialize hclient payload script) (ih _)

/-- **The gate holds over whole runs.** Whichever frontends are picked, which of
them can be reached and whatever they answer, the requests of any sequence of
payloads are their blocks in order, and those of a run over a stream are the
blocks of its envelopes; a schema change counts as applied exactly if its
question and its order were both sent and both agreed to. -/
theorem requests_pass_gate (hclient : serializer.client = some client) (script : Script) :
    (∀ payloads : List Bytes,
      let played := (payloads.mapM serializer.serialize).play script
      AreBlocks serializer client payloads script (Event.requests played.events)
        played.script) ∧
    (∀ input : Bytes,
      let played := (Sync.run serializer input).play script
      AreBlocks serializer client ((Sync.before input.lines).filter Bytes.isEnvelope) script
        (Event.requests played.events) played.script) ∧
    ∀ envelope : Envelope,
      (((serializer.schemaChange envelope).play script).result = true ↔
        (Event.requests ((serializer.schemaChange envelope).play script).events).map
            Request.method = [.get, .post] ∧
          script.agrees .get = true ∧ script.agrees .post = true) := by
  refine ⟨fun payloads => areBlocks_mapM hclient payloads script, fun input => ?_,
    fun envelope => ?_⟩
  · simp only [Sync.play_run, (Sync.asked_play_steps _ _ _).1, (Sync.asked_play_steps _ _ _).2]
    exact areBlocks_mapM hclient _ script
  · rcases passage_schemaChange hclient script envelope with
      ⟨change, -, hpassage⟩ | ⟨-, hplay⟩
    · exact hpassage.applied_iff
    · rw [hplay]
      simp

/-- Two columns are dropped while only the second of two frontends can be
reached. The order for the first column is put to the other one, and nobody
sees it. -/
theorem requests_pass_gate_drop :
    let client : Client := ⟨["fe1:8030".toList, "fe2:8030".toList], "root".toList, []⟩
    let routing : Routing := ⟨some "shop.orders".toList, []⟩
    let pattern := (Pattern.parse? defaultPattern).getD .empty
    let serializer : Serializer := ⟨routing, {}, ⟨pattern, none, routing⟩, some client⟩
    let script : Script := ⟨fun n => if n = 1 then 0 else 1,
      fun _ host => host == "fe2:8030".toList,
      fun _ => some ⟨200, "\x7b\"code\":0\x7d".toList⟩, fun _ => none⟩
    let entry : Text :=
      "\x7b\"historyRecord\":\x7b\"ddl\":\"ALTER TABLE t DROP COLUMN c\",".toList ++
      "\"tableChanges\":[\x7b\"type\":\"ALTER\"\x7d]\x7d\x7d".toList
    let payloads := [Text.bytes entry, Text.bytes entry]
    let played := (payloads.mapM serializer.serialize).play script
    serializer.client = some client ∧
      AreBlocks serializer client payloads script (Event.requests played.events)
        played.script ∧
      (Event.requests played.events).map
          (fun request => (request.method, request.url?.map Url.path)) =
        [(.get, some "/api/enable_light_schema_change/shop/orders".toList),
          (.get, some "/api/enable_light_schema_change/shop/orders".toList),
          (.post, some "/api/query/default_cluster/shop".toList)] :=
  ⟨rfl, (requests_pass_gate rfl _).1 _, by decide +kernel⟩

end Serializer

end ChangeFeed
