import ChangeFeed.Fault
import ChangeFeed.Text.Blank

/-!
# Endpoints — the frontends that may be asked

A frontend is configured by its host and the number of the service there, as
`fe:8030`, perhaps with white space around it, a scheme before it and slashes
behind it. `endpoints` are the ones left after all of that is taken off;
blank entries do not count.
-/

namespace ChangeFeed

/-- The host and service of a configured frontend. -/
def endpointOf (node : Text) : Text :=
  let node := node.trim
  Text.trimEndWhile (· == '/') ((Text.stripStart? "http://".toList node).getD node)

/-- **The frontends that may be asked.** -/
def endpoints (nodes : List Text) : List Text :=
  (nodes.map endpointOf).filter fun endpoint => !endpoint.isEmpty

/-- The frontends that may be asked, of which there must be one. -/
def someEndpoints (nodes : List Text) : Except Fault (List Text) :=
  match endpoints nodes with
  | [] => .error .noEndpoint
  | first :: rest => .ok (first :: rest)

end ChangeFeed
