import ChangeFeed.Proofs.Frontend.Played
import ChangeFeed.Proofs.Frontend.Url
import ChangeFeed.Proofs.Schema.Translation
import ChangeFeed.Serializer
/-!
# The gate — what one schema change may put to the frontends

A change passes the gate in two requests, each of which is put to one of the
frontends. `Passage` says which requests a script lets through for a change,
whether the change then counts as applied, and what is left of the script:
nothing is seen where no frontend is listed or the one that is picked cannot
be reached, the question alone where it is not agreed to or the order is
stranded, the question and the order where both get through. There is no
passage with an order that no agreed question stands before, and none with a
second try, even if another frontend could be reached. `passage_apply` is the
fact everything about the gate is read off.

A request is put together as the text of an address, which is read again
before it is sent. `AsksAbout` says what it then asks for: at a plain frontend,
about names that are plain, the very path that was put together.
-/


namespace ChangeFeed

/-- The next answer to a request of the method is an agreement. -/
def Script.agrees (script : Script) (method : Method) : Bool :=
  (script.answer method).any Response.isSuccess

/-- What is asked for about the change: the question is about its table, the
order about its database. -/
def SchemaChange.path (change : SchemaChange) : Method → Text
  | .get => "/api/enable_light_schema_change/".toList ++ change.database ++ '/' :: change.table
  | .post => "/api/query/default_cluster/".toList ++ change.database

namespace Client

variable (client : Client) (change : SchemaChange)

/-- The frontend that the client's next request reaches, if the one that is
picked for it can be reached. -/
def reached? (script : Script) : Option Text := script.reached? (endpoints client.nodes)

/-- **The question** whether the table can take the change: it names the
column, trimmed, and says whether it is dropped. -/
def question (host : Text) : Request :=
  client.request host .get
    ("/api/enable_light_schema_change/".toList ++ change.database ++ '/' :: change.table)
    (.object [("isDropColumn".toList, .bool change.change.verb.isDrop),
      ("columnName".toList, .string change.change.column.trim)])

/-- **The order** to execute the change's statement on its database. -/
def order (host : Text) : Request :=
  client.request host .post ("/api/query/default_cluster/".toList ++ change.database)
    (.object [("stmt".toList, .string change.statement)])

/-- **What the gate lets through** for a change, whether the change then
counts as applied, and what is left of the script. -/
inductive Passage (script : Script) : List Request → Bool → Script → Prop where
  | unlisted (hlisted : endpoints client.nodes = []) : Passage script [] false script
  | unasked (hlisted : endpoints client.nodes ≠ []) (hquestion : client.reached? script = none) :
      Passage script [] false script.miss
  | refused {host : Text} (hquestion : client.reached? script = some host)
      (hget : script.agrees .get = false) :
      Passage script [client.question change host] false (script.advance .get)
  /-- The question is agreed to, but the frontend picked for the order cannot be reached. -/
  | stranded {host : Text} (hquestion : client.reached? script = some host)
      (hget : script.agrees .get = true)
      (horder : client.reached? (script.advance .get) = none) :
      Passage script [client.question change host] false (script.advance .get).miss
  | ordered {host other : Text} (hquestion : client.reached? script = some host)
      (hget : script.agrees .get = true)
      (horder : client.reached? (script.advance .get) = some other) :
      Passage script [client.question change host, client.order change other]
        (script.agrees .post) ((script.advance .get).advance .post)

/-- **A request about the change**: one of the frontends is asked, and what it
is asked for is read off the whole address. That is the path about the change,
behind what all paths there begin with, if nothing in the address has a meaning
of its own. -/
structure AsksAbout (request : Request) : Prop where
  listed : request.host ∈ endpoints client.nodes
  address : request.url? =
    Url.parse? ("http://".toList ++ request.host ++ change.path request.method)
  plain : ∀ {address : Address} {start : Text}, Url.IsPlainHost address request.host start →
    Url.IsSegment change.database → Url.IsSegment change.table →
    request.url? = some ⟨address, start ++ change.path request.method, none⟩

variable {client change} {script left : Script}

/-! ## Playing the client -/

/-- Without frontends nothing is asked. -/
theorem send_of_unlisted (h : endpoints client.nodes = []) (method : Method) (path : Text)
    (body : Json) : client.send method path body = .done false := by
  rw [send, someEndpoints, h]

/-- With frontends one is asked, which may be any. -/
theorem send_of_listed (h : endpoints client.nodes ≠ []) (method : Method) (path : Text)
    (body : Json) :
    client.send method path body =
      .ask (endpoints client.nodes) (fun host => client.request host method path body)
        fun reply => .done (reply.any Response.isSuccess) := by
  obtain ⟨first, rest, hendpoints⟩ := List.exists_cons_of_ne_nil h
  rw [send, someEndpoints, hendpoints]

/-- A request that reaches no frontend is not agreed to; any other is sent
once, whatever comes back. -/
theorem play_send (h : endpoints client.nodes ≠ []) (method : Method) (path : Text) (body : Json) :
    (client.send method path body).play script =
      match client.reached? script with
      | some host =>
        ⟨script.agrees method, [.sent (client.request host method path body)],
          script.advance method⟩
      | none => ⟨false, [.missed], script.miss⟩ := by
  rw [send_of_listed h]
  unfold reached?
  cases hreached : script.reached? (endpoints client.nodes) with
  | none => simp [Session.play, hreached]
  | some host => simp [Session.play, hreached, Script.agrees, request]

/-- The parameters of a change that names a column are complete. -/
theorem checkParameters_of_column {change : ColumnChange} (h : change.column.isBlank = false) :
    checkParameters change = [("isDropColumn".toList, .bool change.verb.isDrop),
      ("columnName".toList, .string change.column.trim)] := by
  simp [checkParameters, h]

/-- The check of such a change puts the question. -/
theorem check_of_column (h : change.change.column.isBlank = false) :
    client.check change.database change.table (checkParameters change.change) =
      client.send .get (checkPath change.database change.table)
        (.object [("isDropColumn".toList, .bool change.change.verb.isDrop),
          ("columnName".toList, .string change.change.column.trim)]) := by
  rw [checkParameters_of_column h]
  rfl

theorem play_check (hcolumn : change.change.column.isBlank = false)
    (hlisted : endpoints client.nodes ≠ []) (script : Script) :
    (client.check change.database change.table (checkParameters change.change)).play script =
      match client.reached? script with
      | some host =>
        ⟨script.agrees .get, [.sent (client.question change host)], script.advance .get⟩
      | none => ⟨false, [.missed], script.miss⟩ := by
  rw [check_of_column hcolumn, play_send hlisted]
  rfl

theorem play_execute (hlisted : endpoints client.nodes ≠ []) (script : Script) :
    (client.execute change.database change.statement).play script =
      match client.reached? script with
      | some host =>
        ⟨script.agrees .post, [.sent (client.order change host)], script.advance .post⟩
      | none => ⟨false, [.missed], script.miss⟩ := by
  rw [execute, play_send hlisted]
  rfl

/-- **Applying a change is a passage.** -/
theorem passage_apply (h : change.change.column.isBlank = false) (script : Script) :
    let played := (client.apply change.database change.table change.change
      change.statement).play script
    Passage client change script (Event.requests played.events) played.result played.script := by
  dsimp only
  unfold apply
  rw [Session.result_play_bind, Session.events_play_bind, Session.script_play_bind]
  by_cases hlisted : endpoints client.nodes = []
  · rw [check_of_column h, send_of_unlisted hlisted]
    exact .unlisted hlisted
  · rw [play_check h hlisted]
    cases hquestion : client.reached? script with
    | none => exact .unasked hlisted hquestion
    | some host =>
      cases hget : script.agrees .get with
      | false => exact .refused hquestion hget
      | true =>
        simp only [if_true, play_execute hlisted]
        -- the question uses up no answer that the order waits for
        cases horder : client.reached? (script.advance .get) with
        | none => exact .stranded hquestion hget horder
        | some other => exact .ordered hquestion hget horder

/-- A passage is made of the question and the order, and of nothing else. -/
theorem Passage.eq_question_or_order {requests : List Request} {applied : Bool} {request : Request}
    (h : client.Passage change script requests applied left) (hrequest : request ∈ requests) :
    ∃ host ∈ endpoints client.nodes,
      request = client.question change host ∨ request = client.order change host := by
  have hmem : ∀ {script : Script} {host : Text}, client.reached? script = some host →
      host ∈ endpoints client.nodes := fun hreached => (Script.mem_of_reached? hreached).1
  cases h with
  | unlisted _ => cases hrequest
  | unasked _ _ => cases hrequest
  | refused hquestion _ => exact ⟨_, hmem hquestion, Or.inl (List.mem_singleton.1 hrequest)⟩
  | stranded hquestion _ _ => exact ⟨_, hmem hquestion, Or.inl (List.mem_singleton.1 hrequest)⟩
  | ordered hquestion _ horder =>
    rcases List.mem_cons.1 hrequest with rfl | hrest
    · exact ⟨_, hmem hquestion, Or.inl rfl⟩
    · exact ⟨_, hmem horder, Or.inr (List.mem_singleton.1 hrest)⟩

/-- **Every request of a passage asks about its change.** -/
theorem Passage.asksAbout {requests : List Request} {applied : Bool} {request : Request}
    (h : client.Passage change script requests applied left) (hrequest : request ∈ requests) :
    client.AsksAbout change request := by
  obtain ⟨host, hlisted, rfl | rfl⟩ := h.eq_question_or_order hrequest
  · exact ⟨hlisted, rfl, fun hplain hdatabase htable =>
      hplain.parse?_checkPath hdatabase htable⟩
  · exact ⟨hlisted, rfl, fun hplain hdatabase _ => hplain.parse?_executePath hdatabase⟩

/-- **A change counts as applied** exactly if the question and the order were
both let through and both agreed to. -/
theorem Passage.applied_iff {requests : List Request} {applied : Bool}
    (h : client.Passage change script requests applied left) :
    applied = true ↔ requests.map Request.method = [.get, .post] ∧
      script.agrees .get = true ∧ script.agrees .post = true := by
  cases h with
  | unlisted _ => simp
  | unasked _ _ => simp
  | refused _ hget => simp [hget]
  | stranded _ _ _ => simp
  | ordered _ hget _ => simp [hget, question, order, request]

/-- Where the frontend that is picked can be reached the question comes
first. -/
theorem Passage.head?_requests {requests : List Request} {applied : Bool} {host : Text}
    (h : client.Passage change script requests applied left)
    (hreached : client.reached? script = some host) :
    requests.head? = some (client.question change host) := by
  cases h with
  | unlisted hlisted =>
    have hmem := (Script.mem_of_reached? hreached).1
    rw [hlisted] at hmem
    cases hmem
  | unasked _ hnone =>
    rw [hreached] at hnone
    cases hnone
  | refused hquestion _ | stranded hquestion _ _ | ordered hquestion _ _ =>
    rw [hreached] at hquestion
    cases hquestion
    rfl

/-! ## Nothing is written -/

theorem output_play_send (method : Method) (path : Text) (body : Json) :
    Event.output ((client.send method path body).play script).events = [] := by
  by_cases hlisted : endpoints client.nodes = []
  · rw [send_of_unlisted hlisted]
    rfl
  · rw [play_send hlisted]
    split <;> rfl

/-- Applying a change writes no output, whatever its parameters are. -/
theorem output_play_apply (database table statement : Text) (column : ColumnChange) :
    Event.output ((client.apply database table column statement).play script).events = [] := by
  have hcheck : ∀ script, Event.output
      ((client.check database table (checkParameters column)).play script).events = [] := by
    intro script
    unfold check
    split
    · exact output_play_send _ _ _
    · rfl
  unfold apply
  rw [Session.events_play_bind, Event.output_append, hcheck, List.nil_append]
  split
  · exact output_play_send _ _ _
  · rfl

end Client

namespace Serializer

variable {serializer : Serializer} {client : Client} {envelope : Envelope} {change : SchemaChange}

/-- A change that is translated is put to the client. -/
theorem schemaChange_eq_apply (hclient : serializer.client = some client)
    (htranslate : serializer.translator.translate envelope = .ok (some change)) :
    serializer.schemaChange envelope =
      client.apply change.database change.table change.change change.statement := by
  simp [schemaChange, htranslate, hclient]

/-- **Its requests are a passage.** -/
theorem passage_of_translate (hclient : serializer.client = some client)
    (htranslate : serializer.translator.translate envelope = .ok (some change))
    (script : Script) :
    let played := (serializer.schemaChange envelope).play script
    client.Passage change script (Event.requests played.events) played.result played.script := by
  rw [schemaChange_eq_apply hclient htranslate]
  exact Client.passage_apply (DdlTranslator.column_of_translate htranslate) script

end Serializer

end ChangeFeed
