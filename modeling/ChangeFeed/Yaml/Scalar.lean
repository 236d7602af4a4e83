import ChangeFeed.Text.Natural
import ChangeFeed.Yaml.Cursor

/-!
# Scalars — plain, in single and in double quotes

A scalar is a text. It may go over several lines, whose breaks are folded: a
single one becomes a space, and of several the first is dropped. A plain
scalar ends where something begins that is none of it; what is read as a
number elsewhere is text here. Anchors, tags, aliases and block scalars are
not read.
-/

namespace ChangeFeed

namespace Yaml

/-- White space between two words of a scalar. -/
inductive Gap where
  /-- Blanks within a line, in reverse. -/
  | blanks (reversed : Text)
  /-- Line breaks: the first, unless it is escaped, and the others. -/
  | lines (first : Option Char) (more : Text)
deriving Repr, DecidableEq

namespace Gap

/-- No white space. -/
def none : Gap := blanks []

/-- There is no white space. -/
def isNone : Gap → Bool
  | blanks [] => true
  | _ => false

/-- The words are on different lines. -/
def isLines : Gap → Bool
  | blanks _ => false
  | lines _ _ => true

/-- A blank more. At the start of a line it does not count. -/
def addBlank (c : Char) : Gap → Gap
  | blanks reversed => blanks (c :: reversed)
  | lines first more => lines first more

/-- A line break more. Blanks at the end of a line do not count. -/
def addBreak (c : Char) : Gap → Gap
  | blanks _ => lines (some c) []
  | lines first more => lines first (more ++ [c])

/-- **The white space as it counts**, with line breaks folded. -/
def text : Gap → Text
  | blanks reversed => reversed.reverse
  | lines (some '\n') [] => [' ']
  | lines (some '\n') more => more
  | lines (some c) more => c :: more
  | lines Option.none more => more

end Gap

/-- A scalar and the place behind it. -/
abbrev Scanned := Option (Text × Cursor)

/-! ## Plain scalars -/

/-- The character is a bracket or a comma, which only flow layout gives a meaning. -/
def isFlowIndicator (c : Char) : Bool :=
  c == ',' || c == '[' || c == ']' || c == '{' || c == '}'

/-- A plain scalar can start here. -/
def startsPlain (layout : Layout) : Text → Bool
  | [] => false
  | '-' :: rest => !endsWord rest
  | '?' :: rest | ':' :: rest => layout == .block && !endsWord rest
  | c :: _ =>
    !(isBlank c || isBreak c || isFlowIndicator c || "#&*!|>'\"%@".toList.contains c || c == '\x60')

/-- How a plain scalar goes on at a visible character. -/
inductive PlainTurn where
  | goesOn
  | ends
  | fails
deriving Repr, DecidableEq

/-- Decides how a plain scalar goes on at the character `c` in column `column`. -/
def plainTurn (layout : Layout) (indent column : Nat) (gap : Gap) (c : Char) (rest : Text) :
    PlainTurn :=
  if gap.isLines && layout == .block && column < indent then .ends
  else if c = '#' && !gap.isNone then .ends
  else if gap.isLines && (⟨c :: rest, 0, column⟩ : Cursor).isAtBoundary then .ends
  else if c = ':' && layout == .flow && rest.head?.any (fun d => d == '?' || isFlowIndicator d) then
    .fails
  else if c = ':' && endsWord rest then .ends
  else if layout == .flow && isFlowIndicator c then .ends
  else .goesOn

/-- Reads on in a plain scalar: the text so far in reverse, and the white space behind it. A line
that goes on with it starts at `indent` or behind. -/
def plainFrom (layout : Layout) (indent : Nat) (reversed : Text) (gap : Gap) (line column : Nat) :
    Text → Scanned
  | [] => some (reversed.reverse, ⟨[], line, column⟩)
  | c :: rest =>
    if isBreak c then plainFrom layout indent reversed (gap.addBreak c) (line + 1) 0 rest
    else if isBlank c then
      if gap.isLines && column < indent && c == '\t' then none
      else plainFrom layout indent reversed (gap.addBlank c) line (column + 1) rest
    else match plainTurn layout indent column gap c rest with
      | .fails => none
      | .ends => some (reversed.reverse, ⟨c :: rest, line, column⟩)
      | .goesOn =>
        plainFrom layout indent (c :: (gap.text.reverse ++ reversed)) .none line (column + 1) rest

/-! ## Quoted scalars -/

/-- Reads on in a scalar in single quotes, where a quote is written twice. -/
def singleFrom (reversed : Text) (gap : Gap) (line column : Nat) : Text → Scanned
  | [] => none
  | '\'' :: '\'' :: rest =>
    singleFrom ('\'' :: (gap.text.reverse ++ reversed)) .none line (column + 2) rest
  | c :: rest =>
    if isBreak c then singleFrom reversed (gap.addBreak c) (line + 1) 0 rest
    else if isBlank c then singleFrom reversed (gap.addBlank c) line (column + 1) rest
    else if gap.isLines && (⟨c :: rest, line, column⟩ : Cursor).isAtBoundary then none
    else if c = '\'' then
      some ((gap.text.reverse ++ reversed).reverse, ⟨rest, line, column + 1⟩)
    else singleFrom (c :: (gap.text.reverse ++ reversed)) .none line (column + 1) rest

/-- The character that a letter behind a backslash stands for. -/
def escaped? (c : Char) : Option Char :=
  match c with
  | '0' => some '\x00'
  | 'a' => some '\x07'
  | 'b' => some '\x08'
  | 't' | '\t' => some '\t'
  | 'n' => some '\n'
  | 'v' => some '\x0b'
  | 'f' => some '\x0c'
  | 'r' => some '\r'
  | 'e' => some '\x1b'
  | ' ' => some ' '
  | '\x22' => some '\x22'
  | '/' => some '/'
  | '\\' => some '\\'
  | 'N' => some '\u0085'
  | '_' => some '\u00a0'
  | 'L' => some '\u2028'
  | 'P' => some '\u2029'
  | _ => none

/-- The number of hexadecimal digits behind a letter behind a backslash. -/
def escapeDigits? (c : Char) : Option Nat :=
  match c with
  | 'x' => some 2
  | 'u' => some 4
  | 'U' => some 8
  | _ => none

/-- What of an escape is still open in a scalar in double quotes. -/
inductive OpenEscape where
  | closed
  | backslash
  /-- The digits due, of which there is at least one, and the value so far. -/
  | number (due value : Nat)
deriving Repr, DecidableEq

/-- The character of that number, if there is one. -/
def character? (n : Nat) : Option Char := if n.isValidChar then some (Char.ofNat n) else none

/-- Reads on in a scalar in double quotes. -/
def doubleFrom (reversed : Text) (gap : Gap) (escape : OpenEscape) (line column : Nat) :
    Text → Scanned
  | [] => none
  | c :: rest =>
    match escape with
    | .number due value =>
      match digitValue? 16 c with
      | none => none
      | some d =>
        if due ≤ 1 then
          match character? (value * 16 + d) with
          | none => none
          | some e => doubleFrom (e :: reversed) .none .closed line (column + 1) rest
        else doubleFrom reversed .none (.number (due - 1) (value * 16 + d)) line (column + 1) rest
    | .backslash =>
      if isBreak c then doubleFrom reversed (.lines none []) .closed (line + 1) 0 rest
      else match escapeDigits? c, escaped? c with
        | some due, _ => doubleFrom reversed .none (.number due 0) line (column + 1) rest
        | none, some e => doubleFrom (e :: reversed) .none .closed line (column + 1) rest
        | none, none => none
    | .closed =>
      if isBreak c then doubleFrom reversed (gap.addBreak c) .closed (line + 1) 0 rest
      else if isBlank c then doubleFrom reversed (gap.addBlank c) .closed line (column + 1) rest
      else if gap.isLines && (⟨c :: rest, line, column⟩ : Cursor).isAtBoundary then none
      else
        let reversed := gap.text.reverse ++ reversed
        if c = '\x22' then some (reversed.reverse, ⟨rest, line, column + 1⟩)
        else if c = '\\' then doubleFrom reversed .none .backslash line (column + 1) rest
        else doubleFrom (c :: reversed) .none .closed line (column + 1) rest

/-- **Reads a scalar** that starts at the cursor. -/
def scalar (layout : Layout) (indent : Nat) (cursor : Cursor) : Scanned :=
  match cursor.rest with
  | '\'' :: rest => singleFrom [] .none cursor.line (cursor.column + 1) rest
  | '\x22' :: rest => doubleFrom [] .none .closed cursor.line (cursor.column + 1) rest
  | rest =>
    if startsPlain layout rest then
      plainFrom layout indent [] .none cursor.line cursor.column rest
    else none

end Yaml

end ChangeFeed
