import ChangeFeed.Doris.ColumnChange
import ChangeFeed.Frontend.Endpoint
import ChangeFeed.Frontend.Session
import ChangeFeed.Json.Writer
import ChangeFeed.Text.Base64

/-!
# The client — asking a frontend for a schema change

A change is put to a frontend in two requests: first whether the table can
take it as a light schema change, then, only if it can, the statement. A
request that gets no answer counts as refused, and so does one that no
frontend is configured for.
-/

namespace ChangeFeed

/-- **Who asks, and which frontends.** -/
structure Client where
  nodes : List Text
  username : Text
  password : Text
deriving Repr, DecidableEq

/-- The `Authorization` of a user. -/
def basicAuthorization (username password : Text) : Text :=
  "Basic ".toList ++ Base64.encode (username ++ ':' :: password).bytes

/-- The path of the question whether a table can take a light schema change. -/
def checkPath (database table : Text) : Text :=
  "/api/enable_light_schema_change/".toList ++ database ++ '/' :: table

/-- The path for statements on a database. -/
def executePath (database : Text) : Text := "/api/query/default_cluster/".toList ++ database

/-- **The parameters of the question** about a column change; a blank name is left out. -/
def checkParameters (change : ColumnChange) : Members :=
  ("isDropColumn".toList, .bool change.verb.isDrop) ::
    if change.column.isBlank then []
    else [("columnName".toList, .string change.column.trim)]

/-- The parameters say whether a column is dropped and which, and nothing else. -/
def areCheckParameters (parameters : Members) : Bool :=
  parameters.length == 2 &&
    (match parameters.find? "isDropColumn".toList with
      | some (.bool _) => true
      | _ => false) &&
    match parameters.find? "columnName".toList with
    | some (.string _) => true
    | _ => false

namespace Client

/-- A request of the client's to a frontend. -/
def request (client : Client) (host : Text) (method : Method) (path : Text) (body : Json) :
    Request where
  host := host
  method := method
  path := path
  authorization := basicAuthorization client.username client.password
  body := body.write

/-- Puts a request to one of the frontends and says whether it has agreed. -/
def send (client : Client) (method : Method) (path : Text) (body : Json) : Session Bool :=
  match someEndpoints client.nodes with
  | .error _ => .done false
  | .ok hosts =>
    .ask hosts (fun host => client.request host method path body)
      fun reply => .done (reply.any Response.isSuccess)

/-- **Asks whether a table can take a change.** Parameters that are incomplete are not sent. -/
def check (client : Client) (database table : Text) (parameters : Members) : Session Bool :=
  if areCheckParameters parameters then
    client.send .get (checkPath database table) (.object parameters)
  else .done false

/-- **Has a statement executed** on a database. -/
def execute (client : Client) (database statement : Text) : Session Bool :=
  client.send .post (executePath database) (.object [("stmt".toList, .string statement)])

/-- **Applies a change**: the statement is sent only after the table has been found to take it. -/
def apply (client : Client) (database table : Text) (change : ColumnChange) (statement : Text) :
    Session Bool := do
  if ← client.check database table (checkParameters change) then
    client.execute database statement
  else pure false

end Client

end ChangeFeed
