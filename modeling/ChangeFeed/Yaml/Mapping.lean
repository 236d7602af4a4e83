import ChangeFeed.Yaml.Scalar

/-!
# Mappings — a YAML document that maps scalars to scalars

A document is one mapping, in block layout with an entry on a line, or in
flow layout between braces. A value that is left out is the empty text, and
a document without content has no entries. `mapping?` reads the entries in
order, repeated keys included, and refuses any other document.
-/

namespace ChangeFeed

namespace Yaml

/-- The entries of a mapping, in order. -/
abbrev Entries := List (Text × Text)

/-- The longest way from the start of a key to its colon. -/
def maxKeyLength : Nat := 1024

/-- The place behind the colon of a key, which is on the same line and not far. -/
def behindColon? (layout : Layout) (key behindKey : Cursor) : Option Cursor :=
  let colon := behindKey.skip layout
  match colon.rest with
  | ':' :: rest =>
    if colon.line = key.line && colon.column ≤ key.column + maxKeyLength &&
        (layout == .flow || endsWord rest) then
      some (colon.advance 1)
    else none
  | _ => none

/-! ## Block layout -/

/-- Reads the value behind a colon, and the place of the next token. In a mapping at column `indent`
a value on a line of its own stands further right. -/
def blockValue (indent : Nat) (colon : Cursor) : Option (Text × Cursor) :=
  let start := colon.skip .block
  if start.isAtEnd || (start.line ≠ colon.line && start.column ≤ indent) then some ([], start)
  else match scalar .block (indent + 1) start with
    | none => none
    | some (value, behind) => some (value, behind.skip .block)

/-- Reads one entry, whose key starts at the cursor, and the place of the next token. -/
def blockEntry (indent : Nat) (key : Cursor) : Option ((Text × Text) × Cursor) := do
  let (name, behindKey) ← scalar .block (indent + 1) key
  let colon ← behindColon? .block key behindKey
  let (value, next) ← blockValue indent colon
  pure ((name, value), next)

/-- Reads the entries of a mapping at column `indent`, and the place of what ends it. -/
def blockEntries (indent : Nat) (cursor : Cursor) : Option (Entries × Cursor) :=
  if cursor.isAtEnd || cursor.isAtBoundary then some ([], cursor)
  else if cursor.column ≠ indent then none
  else match blockEntry indent cursor with
    | none => none
    | some (entry, next) =>
      if next.rest.length < cursor.rest.length then
        (blockEntries indent next).map fun (entries, last) => (entry :: entries, last)
      else none
termination_by cursor.rest.length

/-! ## Flow layout -/

/-- Reads one entry, whose key starts at the cursor, and the place of the next token. A key without
a colon has an empty value. -/
def flowEntry (key : Cursor) : Option ((Text × Text) × Cursor) := do
  let (name, behindKey) ← scalar .flow 0 key
  match behindColon? .flow key behindKey with
  | none => pure ((name, []), behindKey.skip .flow)
  | some colon =>
    let start := colon.skip .flow
    match start.rest with
    | ',' :: _ | '}' :: _ => pure ((name, []), start)
    | _ =>
      if start.isAtBoundary then none
      else
        let (value, behind) ← scalar .flow 0 start
        pure ((name, value), behind.skip .flow)

/-- Reads the entries up to the closing brace, and the place behind it. The cursor is behind the
opening brace or a comma. -/
def flowEntries (cursor : Cursor) : Option (Entries × Cursor) :=
  let key := cursor.skip .flow
  match key.rest with
  | '}' :: _ => some ([], key.advance 1)
  | _ =>
    if key.isAtBoundary then none
    else match flowEntry key with
      | none => none
      | some (entry, next) =>
        match next.rest with
        | '}' :: _ => some ([entry], next.advance 1)
        | ',' :: _ =>
          if (next.advance 1).rest.length < cursor.rest.length then
            (flowEntries (next.advance 1)).map fun (entries, last) => (entry :: entries, last)
          else none
        | _ => none
termination_by cursor.rest.length

/-! ## Documents -/

/-- A character that may stand in a document. -/
def isPrintable (c : Char) : Bool :=
  let n := c.toNat
  n == 0x09 || n == 0x0A || n == 0x0D || (0x20 ≤ n && n ≤ 0x7E) || n == 0x85 ||
    (0xA0 ≤ n && n ≤ 0xD7FF) || (0xE000 ≤ n && n ≤ 0xFFFD && n != 0xFEFF) || 0x10000 ≤ n

/-- The text with a line feed for every carriage return, with or without a line feed behind it, and
for every next-line character. -/
def withLineFeeds : Text → Text
  | [] => []
  | '\r' :: '\n' :: rest => '\n' :: withLineFeeds rest
  | '\r' :: rest => '\n' :: withLineFeeds rest
  | '\u0085' :: rest => '\n' :: withLineFeeds rest
  | c :: rest => c :: withLineFeeds rest

/-- Nothing follows the document but the mark that ends it, if need be at most `n` times. -/
def isTail : Nat → Cursor → Bool
  | 0, cursor => cursor.isAtEnd
  | n + 1, cursor =>
    cursor.isAtEnd || (cursor.isAtEndMark && isTail n ((cursor.advance 3).skip .block))

/-- Reads the content of a document that starts at the cursor. -/
def content (cursor : Cursor) : Option (Entries × Cursor) :=
  match cursor.rest with
  | '{' :: _ =>
    (flowEntries (cursor.advance 1)).map fun (entries, last) => (entries, last.skip .block)
  | _ => blockEntries cursor.column cursor

/-- Reads the document at the cursor. Behind the mark that starts it, only a mapping in flow layout
stands on the same line; without that mark, the mark that ends it does not come first. -/
def document (cursor : Cursor) : Option (Entries × Cursor) :=
  if cursor.isAtStartMark then
    let start := (cursor.advance 3).skip .block
    if start.isAtEnd || start.line ≠ cursor.line || start.rest.head? == some '{' then content start
    else none
  else if cursor.isAtEndMark then none
  else content cursor

/-- **The entries of a document**, if it is a mapping of scalars. -/
def mapping? (t : Text) : Option Entries :=
  let t := (Text.stripStart? ['\uFEFF'] t).getD t
  if t.all isPrintable then
    match document (Cursor.start (withLineFeeds t)).skipLines with
    | some (entries, last) => if isTail last.rest.length last then some entries else none
    | none => none
  else none

end Yaml

end ChangeFeed
