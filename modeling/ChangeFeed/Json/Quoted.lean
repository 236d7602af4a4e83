import ChangeFeed.Text.Natural

/-!
# JSON strings — written with escapes, read character by character

`quote` writes a text: a quote, a backslash and the control characters below
the space are escaped, everything else stands as it is. `Quoted` is how far
a string has been read: the text so far and whether an escape is open. A
character beyond the first plane may be written as two escapes, a high and a
low surrogate; neither may stand alone.
-/

namespace ChangeFeed

/-- What stands for a character inside a JSON string. -/
def escapeChar (c : Char) : Text :=
  match c with
  | '\x22' => ['\\', '\x22']
  | '\\' => ['\\', '\\']
  | '\x08' => ['\\', 'b']
  | '\x0c' => ['\\', 'f']
  | '\n' => ['\\', 'n']
  | '\r' => ['\\', 'r']
  | '\t' => ['\\', 't']
  | c =>
    if c.toNat < 0x20 then
      ['\\', 'u', '0', '0', hexDigit (c.toNat / 16), hexDigit (c.toNat % 16)]
    else [c]

/-- **A text as a JSON string.** -/
def Text.quote (t : Text) : Text := '\x22' :: (t.flatMap escapeChar ++ ['\x22'])

/-- The character that a letter after a backslash stands for. -/
def unescape? (c : Char) : Option Char :=
  match c with
  | '\x22' => some '\x22'
  | '\\' => some '\\'
  | '/' => some '/'
  | 'b' => some '\x08'
  | 'f' => some '\x0c'
  | 'n' => some '\n'
  | 'r' => some '\r'
  | 't' => some '\t'
  | _ => none

/-- What of an escape is still open. -/
inductive Escape where
  /-- No escape is open. -/
  | closed
  /-- After a backslash. -/
  | backslash
  /-- Inside a `\u` escape: digits due, value so far, the high surrogate before it. -/
  | unit (due : Nat) (value : Nat) (high : Option Nat)
  /-- After a high surrogate: the backslash of its partner is due. -/
  | partner (high : Nat)
  /-- After the backslash of a high surrogate's partner. -/
  | partnerMark (high : Nat)
deriving Repr, DecidableEq

/-- **How far a string has been read**: the text so far, in reverse, and the open escape. -/
structure Quoted where
  escape : Escape
  reversed : Text
deriving Repr, DecidableEq

namespace Quoted

/-- Nothing has been read yet. -/
def start : Quoted := ⟨.closed, []⟩

/-- What a character does to a string that is being read. -/
inductive Step where
  | more (next : Quoted)
  | ends (text : Text)

/-- A high surrogate. -/
def isHigh (n : Nat) : Bool := 0xD800 ≤ n && n < 0xDC00

/-- A low surrogate. -/
def isLow (n : Nat) : Bool := 0xDC00 ≤ n && n < 0xE000

/-- What a complete `\u` escape adds: a character, or a high surrogate that waits. -/
def endUnit (value : Nat) (high : Option Nat) (reversed : Text) : Option Quoted :=
  match high with
  | some h =>
    if isLow value then
      some ⟨.closed, Char.ofNat (0x10000 + (h - 0xD800) * 0x400 + (value - 0xDC00)) :: reversed⟩
    else none
  | none =>
    if isHigh value then some ⟨.partner value, reversed⟩
    else if isLow value then none
    else some ⟨.closed, Char.ofNat value :: reversed⟩

/-- **Reads one character** after the opening quote. -/
def step (q : Quoted) (c : Char) : Option Step :=
  match q.escape with
  | .closed =>
    if c = '\x22' then some (.ends q.reversed.reverse)
    else if c = '\\' then some (.more ⟨.backslash, q.reversed⟩)
    else if c.toNat < 0x20 then none
    else some (.more ⟨.closed, c :: q.reversed⟩)
  | .backslash =>
    if c = 'u' then some (.more ⟨.unit 4 0 none, q.reversed⟩)
    else (unescape? c).map fun d => .more ⟨.closed, d :: q.reversed⟩
  | .unit due value high =>
    match digitValue? 16 c with
    | none => none
    | some d =>
      if due ≤ 1 then (endUnit (value * 16 + d) high q.reversed).map .more
      else some (.more ⟨.unit (due - 1) (value * 16 + d) high, q.reversed⟩)
  | .partner high => if c = '\\' then some (.more ⟨.partnerMark high, q.reversed⟩) else none
  | .partnerMark high =>
    if c = 'u' then some (.more ⟨.unit 4 0 (some high), q.reversed⟩) else none

end Quoted

end ChangeFeed
