import ChangeFeed.Json.Outline

/-!
# Replies — when a frontend has agreed

A frontend answers with a status and a JSON body. It has agreed if the
status is one of success and the body's `code` is the text `0` or the number
written `0`. Only the outline of the body is read: other fields may hold any
JSON, however deep. The field `code` may stand once only. A body that is an
array of one item gives its code as that item.
-/

namespace ChangeFeed

/-- An answer of a frontend: the status and the text of the body. -/
structure Response where
  status : Nat
  body : Text
deriving Repr, DecidableEq

/-- The code of an answer that means success. -/
def successCode : Text := "0".toList

namespace Outline

/-- The text of the code's value, if there is exactly one place for it. -/
def codeLexeme? : Outline → Option Text
  | .object fields =>
    match fields.filter (·.1 == "code".toList) with
    | [(_, lexeme)] => some lexeme
    | _ => none
  | .array [lexeme] => some lexeme
  | .array _ => none

end Outline

namespace Response

/-- The code that the body carries, as text. -/
def code? (r : Response) : Option Text :=
  match ((Json.outline? r.body).bind Outline.codeLexeme?).bind Json.read? with
  | some (.string code) => some code
  | some (.number code) => some code
  | _ => none

/-- **A frontend has agreed**: the status is of success, and so is the code. -/
def isSuccess (r : Response) : Bool :=
  200 ≤ r.status && r.status < 300 && r.code? == some successCode

end Response

end ChangeFeed
