import ChangeFeed.Proofs.Stream.Requests
import ChangeFeed.Proofs.Text.Base64
import ChangeFeed.Proofs.Text.Cutting
import ChangeFeed.Proofs.Text.Encoding
/-!
# Credentials — who a request comes from

Every request of a client has the same authorization, whatever it is about
(`Sends.authorization_eq`), and the name and the password can be read off it
(`credentials?`). Nothing is lost in base64 or in UTF-8. What parts the two is the
first colon, so a name must have none, and a password may have any number.
-/


namespace ChangeFeed

/-- **The name and the password that an authorization stands for.** -/
def credentials? (authorization : Text) : Option (Text × Text) := do
  let encoded ← Text.stripStart? "Basic ".toList authorization
  let bytes ← Base64.decode? encoded
  let text ← bytes.text?
  text.splitFirst? ':'

/-- **They are found again** if the name has no colon. -/
theorem credentials?_basicAuthorization {username : Text} (h : ':' ∉ username)
    (password : Text) :
    credentials? (basicAuthorization username password) = some (username, password) := by
  let bytes := Text.bytes (username ++ ':' :: password)
  have hencoded : Text.stripStart? "Basic ".toList (basicAuthorization username password) =
      some (Base64.encode bytes) := Text.stripStart?_append _ _
  have hbytes : Base64.decode? (Base64.encode bytes) = some bytes :=
    Base64.decode?_eq_some_iff.2 (Base64.encodes_encode bytes)
  have htext : bytes.text? = some (username ++ ':' :: password) := Bytes.text?_bytes _
  have hsplit : Text.splitFirst? ':' (username ++ ':' :: password) = some (username, password) :=
    Text.splitFirst?_eq_some_iff.2 ⟨rfl, h⟩
  simp only [credentials?, hencoded, hbytes, htext, hsplit, Option.bind_eq_bind, Option.bind_some]

namespace Client

/-- **A request that a client sends**: about a table, with a statement, for a change, or in
a whole run. -/
inductive Sends (client : Client) (request : Request) : Prop where
  | check {database table : Text} {parameters : Members} {script : Script}
      (h : request ∈
        Event.requests ((client.check database table parameters).play script).events) :
      Sends client request
  | execute {database statement : Text} {script : Script}
      (h : request ∈ Event.requests ((client.execute database statement).play script).events) :
      Sends client request
  | apply {database table statement : Text} {change : ColumnChange} {script : Script}
      (h : request ∈
        Event.requests ((client.apply database table change statement).play script).events) :
      Sends client request
  | run {serializer : Serializer} {input : Bytes} {script : Script}
      (hclient : serializer.client = some client)
      (h : request ∈ Event.requests ((Sync.run serializer input).play script).events) :
      Sends client request

variable {client : Client} {request : Request} {script : Script}

/-- What is sent is the request that was put together, for the frontend that
is reached. -/
theorem exists_eq_request_of_send {method : Method} {path : Text} {body : Json}
    (h : request ∈ Event.requests ((client.send method path body).play script).events) :
    ∃ host, request = client.request host method path body := by
  by_cases hlisted : endpoints client.nodes = []
  · rw [send_of_unlisted hlisted] at h
    cases h
  · rw [play_send hlisted] at h
    split at h
    · exact ⟨_, List.mem_singleton.1 h⟩
    · cases h

theorem authorization_of_check {database table : Text} {parameters : Members}
    (h : request ∈
      Event.requests ((client.check database table parameters).play script).events) :
    request.authorization = basicAuthorization client.username client.password := by
  unfold check at h
  split at h
  · obtain ⟨host, rfl⟩ := exists_eq_request_of_send h
    rfl
  · cases h

theorem authorization_of_execute {database statement : Text}
    (h : request ∈ Event.requests ((client.execute database statement).play script).events) :
    request.authorization = basicAuthorization client.username client.password := by
  obtain ⟨host, rfl⟩ := exists_eq_request_of_send h
  rfl

/-- The requests of a run are those of the changes in it. -/
theorem authorization_of_areBlocks {serializer : Serializer} {payloads : List Bytes}
    {left : Script} {requests : List Request}
    (h : Serializer.AreBlocks serializer client payloads script requests left)
    (hrequest : request ∈ requests) :
    request.authorization = basicAuthorization client.username client.password := by
  induction h with
  | nil => cases hrequest
  | cons hfirst _ ih =>
    rcases List.mem_append.1 hrequest with hblock | hrest
    · cases hfirst with
      | quiet _ => cases hblock
      | passage _ _ _ _ hpassage _ =>
        obtain ⟨host, -, rfl | rfl⟩ := hpassage.eq_question_or_order hblock <;> rfl
    · exact ih hrest

/-- **Every request has the client's authorization.** -/
theorem Sends.authorization_eq (h : client.Sends request) :
    request.authorization = basicAuthorization client.username client.password := by
  cases h with
  | check h => exact authorization_of_check h
  | execute h => exact authorization_of_execute h
  | apply h =>
    unfold Client.apply at h
    rw [Session.events_play_bind, Event.requests_append, List.mem_append] at h
    rcases h with hcheck | hrest
    · exact authorization_of_check hcheck
    · split at hrest
      · exact authorization_of_execute hrest
      · cases hrest
  | run hclient h =>
    rw [Sync.events_play_run, (Sync.asked_play_steps _ _ _).1] at h
    exact authorization_of_areBlocks (Serializer.areBlocks_mapM hclient _ _) h

/-- **An authorization tells who asks.** Name and password are read off it again, whatever
characters they have, as long as the name has no colon. So two clients send requests with
the same authorization only if they have the same name and the same password. -/
theorem authorization_tells_credentials :
    (∀ username password : Text, ':' ∉ username →
      credentials? (basicAuthorization username password) = some (username, password)) ∧
    ∀ (client other : Client) (request another : Request),
      ':' ∉ client.username → ':' ∉ other.username →
      client.Sends request → other.Sends another →
      request.authorization = another.authorization →
      client.username = other.username ∧ client.password = other.password := by
  refine ⟨fun username password h => credentials?_basicAuthorization h password, ?_⟩
  intro client other request another hname hother hrequest hanother hsame
  rw [hrequest.authorization_eq, hanother.authorization_eq] at hsame
  have hread := credentials?_basicAuthorization hname client.password
  rw [hsame, credentials?_basicAuthorization hother] at hread
  obtain ⟨husername, hpassword⟩ := Prod.mk.inj (Option.some.inj hread)
  exact ⟨husername.symm, hpassword.symm⟩

/-- Two clients of one user with a password that begins with a colon. They go to different
frontends, and one asks what the other orders. -/
theorem authorization_tells_credentials_colon :
    let client : Client := ⟨["fe1:8030".toList], "ü".toList, ":😀".toList⟩
    let other : Client := ⟨["fe2:8030".toList], "ü".toList, ":😀".toList⟩
    let question := client.request "fe1:8030".toList .get (checkPath "shop".toList "orders".toList) (.object
      [("isDropColumn".toList, .bool true), ("columnName".toList, .string "c".toList)])
    let order := other.request "fe2:8030".toList .post (executePath "shop".toList)
      (.object [("stmt".toList, .string "SELECT 1".toList)])
    ':' ∉ "ü".toList ∧
      credentials? "Basic w7w6OvCfmIA=".toList = some ("ü".toList, ":😀".toList) ∧
      client.Sends question ∧ other.Sends order ∧
      question.authorization = order.authorization ∧
      client.username = other.username ∧ client.password = other.password := by
  intro client other question order
  have hname : ':' ∉ "ü".toList := by decide
  let script : Script := ⟨fun _ => 0, fun _ _ => true, fun _ => none, fun _ => none⟩
  have hquestion : client.Sends question := by
    refine @Sends.check _ _ "shop".toList "orders".toList
      [("isDropColumn".toList, .bool true), ("columnName".toList, .string "c".toList)] script ?_
    exact List.mem_singleton_self _
  have horder : other.Sends order := by
    refine @Sends.execute _ _ "shop".toList "SELECT 1".toList script ?_
    exact List.mem_singleton_self _
  have hsame : question.authorization = order.authorization :=
    hquestion.authorization_eq.trans horder.authorization_eq.symm
  have hheader : basicAuthorization "ü".toList ":😀".toList = "Basic w7w6OvCfmIA=".toList := by
    decide +kernel
  refine ⟨hname, ?_, hquestion, horder, hsame, ?_⟩
  · rw [← hheader]
    exact authorization_tells_credentials.1 "ü".toList ":😀".toList hname
  · exact authorization_tells_credentials.2 client other _ _ hname hname hquestion horder hsame

end Client

end ChangeFeed
