import ChangeFeed.Text.Bytes
import ChangeFeed.Text.Natural

/-!
# URLs — what is made of the address of a request

An address is put together from a configured frontend and the names of a
database and a table, and nothing keeps these from holding characters that
mean something there. `Url.parse?` is what it is then taken for, by the rules
of the URL standard: line breaks are left out, a `?` begins a query, nothing
behind a `#` is sent, segments of dots are followed, and what no path may
hold is escaped. The name of a host is taken as it is written, so one with
escapes is refused. A user in front of it is left out.
-/

namespace ChangeFeed

/-- **A place to connect to**: a host by its name or number, and the number of the service there. -/
structure Address where
  host : Text
  service : Nat
deriving Repr, DecidableEq

namespace Address

/-- The service that is meant if no number is given. -/
def defaultService : Nat := 80

/-- One more than the greatest number of a service. -/
def serviceBound : Nat := 65536

/-- What no name of a host has. -/
def isBarred (c : Char) : Bool :=
  c.toNat ≤ 0x20 || c.toNat == 0x7F || "#%/:<>?@[\\]^|".toList.contains c

/-- The service that is named behind a host. -/
def service? : Text → Option Nat
  | [] | [':'] => some defaultService
  | ':' :: digits =>
    if digits.all Char.isDigit then (Text.readNatural 10 serviceBound digits).toOption else none
  | _ => none

/-- Reads a host with the number of the service, if it gives one. A host with colons of its own is
in brackets. -/
def parse? : Text → Option Address
  | '[' :: rest => do
    let (host, behind) ← Text.splitFirst? ']' rest
    let service ← service? behind
    if host.all fun c => c == ':' || c == '.' || (digitValue? 16 c).isSome then some ⟨host, service⟩
    else none
  | t => do
    let host := t.takeWhile (· != ':')
    let service ← service? (t.dropWhile (· != ':'))
    if host.isEmpty || host.any isBarred then none else some ⟨host, service⟩

/-- The address as it is written, without the number of a service that needs none. -/
def text (address : Address) : Text :=
  (if address.host.contains ':' then '[' :: (address.host ++ [']']) else address.host) ++
    if address.service = defaultService then [] else ':' :: Text.ofNatural address.service

end Address

/-- **A URL** that has been read: where it leads, and what is asked for there. -/
structure Url where
  address : Address
  path : Text
  query : Option Text
deriving Repr, DecidableEq

namespace Url

/-- Both slashes part segments. -/
def isSlash (c : Char) : Bool := c == '/' || c == '\\'

/-- What ends a path: a query begins, or what is not sent. -/
def endsPath (c : Char) : Bool := c == '?' || c == '#'

/-- What ends the part with the host. -/
def endsAuthority (c : Char) : Bool := isSlash c || endsPath c

/-- The text without line breaks and tabs, and without control characters and spaces at its ends. -/
def tidied (t : Text) : Text :=
  (Text.trimWhile (fun c => c.toNat ≤ 0x20) t).filter fun c => !(c == '\t' || c == '\n' || c == '\r')

/-- What stands behind a user. -/
def behindUser (authority : Text) : Text :=
  (authority.reverse.takeWhile (· != '@')).reverse

/-! ## Escapes -/

/-- A byte by the number it has. -/
def escapedByte (b : UInt8) : Text :=
  ['%', (hexDigit (b.toNat / 16)).toUpper, (hexDigit (b.toNat % 16)).toUpper]

/-- The text with some characters escaped. -/
def escape (isEscaped : Char → Bool) (t : Text) : Text :=
  t.flatMap fun c => if isEscaped c then (Text.bytes [c]).flatMap escapedByte else [c]

/-- What is escaped wherever it stands. -/
def isForeign (c : Char) : Bool := c.toNat ≤ 0x20 || 0x7F ≤ c.toNat || "\"#<>".toList.contains c

/-- What is escaped in a path. -/
def isEscapedInPath (c : Char) : Bool := isForeign c || "?^\x60\x7b\x7d".toList.contains c

/-- What is escaped in a query. -/
def isEscapedInQuery (c : Char) : Bool := isForeign c || c == '\''

/-! ## Segments -/

/-- A segment that stands for the folder it is in. -/
def isHere (segment : Text) : Bool :=
  [".".toList, "%2e".toList].contains (segment.map Char.toLower)

/-- A segment that stands for the folder outside. -/
def isBack (segment : Text) : Bool :=
  ["..".toList, ".%2e".toList, "%2e.".toList, "%2e%2e".toList].contains (segment.map Char.toLower)

/-- The segments after one more, the last one first. -/
def follow (taken : List Text) (segment : Text) : List Text :=
  if isBack segment then taken.tail
  else if isHere segment then taken
  else escape isEscapedInPath segment :: taken

/-- The segments with a slash before each. -/
def slashed (segments : List Text) : Text := segments.flatMap ('/' :: ·)

/-- The path that segments lead to. A folder at the end has a slash behind it. -/
def walk (segments : List Text) : Text :=
  let taken := segments.foldl follow []
  let folder := segments.getLast?.any fun last => isBack last || isHere last
  slashed (if folder then [] :: taken else taken).reverse

/-- The segments of what stands behind the host. -/
def segments (t : Text) : List Text :=
  Text.splitAll '/' ((t.map fun c => if isSlash c then '/' else c).tail)

/-! ## Reading -/

/-- **Reads a URL.** -/
def parse? (t : Text) : Option Url := do
  let behind ← Text.stripStart? "http:".toList (tidied t)
  let whole := behind.dropWhile isSlash
  let address ← Address.parse? (behindUser (whole.takeWhile (!endsAuthority ·)))
  let rest := whole.dropWhile (!endsAuthority ·)
  pure
    { address := address
      path := walk (segments (rest.takeWhile (!endsPath ·)))
      query := match rest.dropWhile (!endsPath ·) with
        | '?' :: query => some (escape isEscapedInQuery (query.takeWhile (· != '#')))
        | _ => none }

/-- What is asked for: the path with the query. -/
def target (url : Url) : Text :=
  url.path ++ match url.query with
    | none => []
    | some query => '?' :: query

end Url

end ChangeFeed
