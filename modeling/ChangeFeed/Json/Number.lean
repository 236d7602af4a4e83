import ChangeFeed.Text.Basic

/-!
# JSON numbers — the grammar, character by character

`NumberPhase` is how far a number has been read. `next?` accepts exactly the
grammar of JSON: an optional minus, an integer part without leading zeros,
then optionally a fraction and an exponent. `spelling` is what a character
adds to the number's text: the text is kept, except that an exponent is
written with a small `e` and an explicit sign. `numeral?` reads a text that
is a number and nothing else.
-/

namespace ChangeFeed

/-- How far a number has been read. -/
inductive NumberPhase where
  | minus
  | zero
  | whole
  | point
  | fraction
  | mark
  | markSign
  | exponent
deriving Repr, DecidableEq

namespace NumberPhase

/-- The phase after the first character of a number. -/
def start? (c : Char) : Option NumberPhase :=
  if c = '-' then some minus
  else if c = '0' then some zero
  else if c.isDigit then some whole
  else none

/-- A number may end here. -/
def isComplete : NumberPhase → Bool
  | zero | whole | fraction | exponent => true
  | minus | point | mark | markSign => false

/-- The phase after one more character, if the number goes on with it. -/
def next? (phase : NumberPhase) (c : Char) : Option NumberPhase :=
  match phase with
  | minus => if c = '0' then some zero else if c.isDigit then some whole else none
  | zero =>
    if c = '.' then some point else if c = 'e' ∨ c = 'E' then some mark else none
  | whole =>
    if c.isDigit then some whole
    else if c = '.' then some point else if c = 'e' ∨ c = 'E' then some mark else none
  | point => if c.isDigit then some fraction else none
  | fraction =>
    if c.isDigit then some fraction else if c = 'e' ∨ c = 'E' then some mark else none
  | mark =>
    if c = '+' ∨ c = '-' then some markSign else if c.isDigit then some exponent else none
  | markSign => if c.isDigit then some exponent else none
  | exponent => if c.isDigit then some exponent else none

/-- What a character read in this phase adds to the number's text. -/
def spelling (phase : NumberPhase) (c : Char) : Text :=
  if c = 'E' then ['e']
  else if phase = mark ∧ c.isDigit then ['+', c]
  else [c]

/-- The text of the number that goes on with these characters and ends with them, given its text so
far in reverse. -/
def numeral? (phase : NumberPhase) (reversed : Text) : Text → Option Text
  | [] => if phase.isComplete then some reversed.reverse else none
  | c :: rest =>
    match phase.next? c with
    | none => none
    | some next => next.numeral? ((phase.spelling c).reverse ++ reversed) rest

end NumberPhase

/-- **The number that a text is**, in its spelling; no white space may stand around it. -/
def numeral? : Text → Option Text
  | [] => none
  | c :: rest => (NumberPhase.start? c).bind fun phase => phase.numeral? [c] rest

end ChangeFeed
