import ChangeFeed.Frontend.Session
import ChangeFeed.Frontend.Url

/-!
# The wire — requests and answers as HTTP messages

A request is sent as an HTTP message of version 1.0, whose answer ends where
the connection does. `Request.url?` is where it leads, which is the place to
connect to and what is asked for there, and `Request.message` what to send;
`Response.ofMessage?` reads what comes back, and refuses an answer that was
cut off.
-/

namespace ChangeFeed

/-- A line ending of a message. -/
def lineEnd : Text := ['\r', '\n']

namespace Request

/-- **Where a request leads**: its address, as it is read. -/
def url? (request : Request) : Option Url := Url.parse? (url request.host request.path)

/-- A header of a message. -/
def header (name : String) (value : Text) : Text := name.toList ++ ": ".toList ++ value ++ lineEnd

/-- **The message of a request** that leads somewhere. -/
def message (request : Request) (url : Url) : Text :=
  request.method.name ++ ' ' :: url.target ++ " HTTP/1.0".toList ++ lineEnd ++
    header "host" url.address.text ++
    header "authorization" request.authorization ++
    header "content-type" contentType ++
    header "content-length" (Text.ofNatural request.body.size) ++
    header "connection" "close".toList ++
    lineEnd ++ request.body

end Request

/-- The bytes before and after the first empty line. -/
def Bytes.splitHead? : Bytes → Option (Bytes × Bytes)
  | 13 :: 10 :: 13 :: 10 :: rest => some ([], rest)
  | b :: rest => (splitHead? rest).map fun (head, body) => (b :: head, body)
  | [] => none

namespace Response

/-- The status in the first line of a message. -/
def status? (line : Text) : Option Nat :=
  match Text.splitAll ' ' line with
  | version :: status :: _ =>
    if (Text.stripStart? "HTTP/1.".toList version).isSome && status.length == 3 then
      (Text.readNatural 10 1000 status).toOption
    else none
  | _ => none

/-- The length of the body, if a header gives it. -/
def length? (headers : List Text) : Option Nat :=
  headers.findSome? fun line => do
    let (name, value) ← line.splitFirst? ':'
    if name.sameLetters "content-length".toList then
      (Text.readNatural 10 wordBound value.trim).toOption
    else none

/-- **Reads an answer** from the bytes of a whole connection. -/
def ofMessage? (bytes : Bytes) : Option Response := do
  let (head, body) ← Bytes.splitHead? bytes
  match (Bytes.lines head).filterMap Bytes.text? with
  | [] => none
  | first :: headers =>
    let status ← status? first
    let length := (length? headers).getD body.length
    if body.length < length then none
    else do
      let body ← Bytes.text? (body.take length)
      pure ⟨status, body⟩

end Response

end ChangeFeed
