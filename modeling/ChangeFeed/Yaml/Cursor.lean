import ChangeFeed.Text.Basic

/-!
# Cursors — a place in a YAML text, by line and column

YAML goes by columns, so a reader carries a `Cursor`: the text that is left
and where it starts. `Cursor.skip` moves it past what may stand between two
tokens: blanks, comments and line breaks. A tab does not count as a blank
where it would indent a line of a block.
-/

namespace ChangeFeed

namespace Yaml

/-- **A place in a text**: what is left from there on, and its line and column. -/
structure Cursor where
  rest : Text
  line : Nat
  column : Nat
deriving Repr, DecidableEq

/-- A line break. Every other spelling of one has become a line feed. -/
def isBreak (c : Char) : Bool := c == '\n' || c == '\u2028' || c == '\u2029'

/-- A blank: a space or a tab. -/
def isBlank (c : Char) : Bool := c == ' ' || c == '\t'

/-- The text is at an end of a word: a blank, a line break or nothing at all. -/
def endsWord : Text → Bool
  | [] => true
  | c :: _ => isBlank c || isBreak c

/-- Where a reader stands in relation to the lines. -/
inductive Layout where
  /-- Lines and columns carry the structure. -/
  | block
  /-- Brackets and commas do. -/
  | flow
deriving Repr, DecidableEq

namespace Cursor

/-- The start of a text. -/
def start (t : Text) : Cursor := ⟨t, 0, 0⟩

/-- Nothing is left. -/
def isAtEnd (cursor : Cursor) : Bool := cursor.rest.isEmpty

/-- A mark of three characters stands at the start of a line, as a word of its own. -/
def isAtMark (mark : Text) (cursor : Cursor) : Bool :=
  cursor.column == 0 &&
    match Text.stripStart? mark cursor.rest with
    | some rest => endsWord rest
    | none => false

/-- The mark that starts a document. -/
def isAtStartMark (cursor : Cursor) : Bool := cursor.isAtMark "---".toList

/-- The mark that ends a document. -/
def isAtEndMark (cursor : Cursor) : Bool := cursor.isAtMark "...".toList

/-- A mark that no document goes past. -/
def isAtBoundary (cursor : Cursor) : Bool := cursor.isAtStartMark || cursor.isAtEndMark

/-- Moves past blanks, comments and line breaks. A tab is passed if `allowsTab`, which holds on
every further line in flow layout only. -/
def skipFrom (layout : Layout) (allowsTab inComment : Bool) (line column : Nat) : Text → Cursor
  | [] => ⟨[], line, column⟩
  | c :: rest =>
    if isBreak c then skipFrom layout (layout == .flow) false (line + 1) 0 rest
    else if inComment then skipFrom layout allowsTab true line (column + 1) rest
    else if c = ' ' || (c = '\t' && allowsTab) then
      skipFrom layout allowsTab false line (column + 1) rest
    else if c = '#' then skipFrom layout allowsTab true line (column + 1) rest
    else ⟨c :: rest, line, column⟩

/-- **The next token** behind the cursor, from inside a line. -/
def skip (layout : Layout) (cursor : Cursor) : Cursor :=
  skipFrom layout true false cursor.line cursor.column cursor.rest

/-- The next token behind a cursor that is at the start of a line in block layout. -/
def skipLines (cursor : Cursor) : Cursor :=
  skipFrom .block false false cursor.line cursor.column cursor.rest

/-- The place so many characters further on in the same line. -/
def advance (n : Nat) (cursor : Cursor) : Cursor :=
  ⟨cursor.rest.drop n, cursor.line, cursor.column + n⟩

end Cursor

end Yaml

end ChangeFeed
