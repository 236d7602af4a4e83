import ChangeFeed.Text.Basic

/-!
# Upper case — how type names are compared

Type names are compared after full upper-casing. All of them are words of
the letters `A` to `Z`, so a character matters only if its upper-case form
consists of these: the small letters themselves, the dotless `ı`, the long
`ſ`, the sharp `ß` and the Latin ligatures. Every other character stays as
it is, since no name holds it in either form.
-/

namespace ChangeFeed

/-- The upper-case form of a character, where it is made of `A` to `Z`; else the character. -/
def upperForm (c : Char) : Text :=
  match c with
  | 'ß' => ['S', 'S']
  | 'ı' => ['I']
  | 'ſ' => ['S']
  | 'ﬀ' => ['F', 'F']
  | 'ﬁ' => ['F', 'I']
  | 'ﬂ' => ['F', 'L']
  | 'ﬃ' => ['F', 'F', 'I']
  | 'ﬄ' => ['F', 'F', 'L']
  | 'ﬅ' => ['S', 'T']
  | 'ﬆ' => ['S', 'T']
  | c => [c.toUpper]

/-- The text in upper case. -/
def Text.upper (t : Text) : Text := t.flatMap upperForm

end ChangeFeed
