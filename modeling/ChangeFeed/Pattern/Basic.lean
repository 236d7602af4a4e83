import ChangeFeed.Text.Blank
import ChangeFeed.Text.Folding
import ChangeFeed.Text.WordChar

/-!
# Patterns — the syntax tree of a regular expression

A `Pattern` is built from character sets, anchors, sequence, ordered choice,
numbered groups and repetition. A `CharSet` says of every character whether
it belongs (`CharSet.contains`), an `Anchor` of every place between two
characters whether it holds there (`Anchor.holds`).
-/

namespace ChangeFeed

/-- A set of characters. -/
inductive CharSet where
  | nothing
  | everything
  | oneOf (characters : List Char)
  | span (low high : Char)
  | space
  | word
  | digit
  | negated (s : CharSet)
  | union (s t : CharSet)
  | meet (s t : CharSet)
  /-- The characters that differ from one of `s` at most by case. -/
  | anyCase (s : CharSet)
deriving Repr, DecidableEq

namespace CharSet

/-- **The character belongs to the set.** -/
def contains : CharSet → Char → Bool
  | nothing, _ => false
  | everything, _ => true
  | oneOf characters, c => characters.contains c
  | span low high, c => low ≤ c && c ≤ high
  | space, c => isSpace c
  | word, c => isWordChar c
  | digit, c => isDecimalDigit c
  | negated s, c => !s.contains c
  | union s t, c => s.contains c || t.contains c
  | meet s t, c => s.contains c && t.contains c
  | anyCase s, c => (caseVariants c).any s.contains

/-- The set of one character. -/
def only (c : Char) : CharSet := oneOf [c]

/-- The characters of `s` that are not in `t`. -/
def without (s t : CharSet) : CharSet := meet s (negated t)

/-- The number of states of an automaton that reads a character of the set from its bytes. It is an
estimate for sets that span several scripts. -/
def size : CharSet → Nat
  | nothing => 1
  | everything => 30
  | oneOf [c] => c.utf8Size
  | oneOf _ | span _ _ => 3
  | space => 21
  | word => 1557
  | digit => 166
  | negated s => s.size + 30
  | union s t | meet s t => s.size + t.size
  | anyCase s => s.size

/-- The union of several sets. -/
def unions : List CharSet → CharSet
  | [] => nothing
  | [s] => s
  | s :: rest => union s (unions rest)

end CharSet

/-- A condition on a place in a text. -/
inductive Anchor where
  | textStart
  | textEnd
  | lineStart
  | lineEnd
  /-- As `lineStart`, where a carriage return ends a line as well, alone or with a line feed. -/
  | anyLineStart
  /-- As `lineEnd`, where a carriage return ends a line as well, alone or with a line feed. -/
  | anyLineEnd
  | wordEdge
  | wordInside
  | wordStart
  | wordEnd
  /-- No word goes on from before the place. -/
  | noWordBefore
  /-- No word goes on behind the place. -/
  | noWordAfter
deriving Repr, DecidableEq

/-- **A place in a text**: the number of characters before it, the last of them, and the text after
it. -/
structure Cursor where
  index : Nat
  before : Option Char
  rest : Text
deriving Repr, DecidableEq

namespace Cursor

/-- Before the place stands a word character. -/
def wordBefore (cursor : Cursor) : Bool := cursor.before.any isWordChar

/-- After the place stands a word character. -/
def wordAfter (cursor : Cursor) : Bool := cursor.rest.head?.any isWordChar

/-- The place behind the next character, if there is one. -/
def next? (cursor : Cursor) : Option Cursor :=
  match cursor.rest with
  | [] => none
  | c :: rest => some ⟨cursor.index + 1, some c, rest⟩

/-- The text between two places, of which the second is not before the first. -/
def textTo (first last : Cursor) : Text := first.rest.take (last.index - first.index)

/-- The places in a text from one on, given what that one is behind. -/
def along (index : Nat) (before : Option Char) : Text → List Cursor
  | [] => [⟨index, before, []⟩]
  | c :: rest => ⟨index, before, c :: rest⟩ :: along (index + 1) (some c) rest

end Cursor

/-- **The anchor holds** at a place. -/
def Anchor.holds (anchor : Anchor) (cursor : Cursor) : Bool :=
  match anchor with
  | textStart => cursor.before.isNone
  | textEnd => cursor.rest.isEmpty
  | lineStart => cursor.before.isNone || cursor.before == some '\n'
  | lineEnd => cursor.rest.isEmpty || cursor.rest.head? == some '\n'
  | anyLineStart => cursor.before.isNone || cursor.before == some '\n' ||
    (cursor.before == some '\r' && cursor.rest.head? != some '\n')
  | anyLineEnd => cursor.rest.isEmpty || cursor.rest.head? == some '\r' ||
    (cursor.rest.head? == some '\n' && cursor.before != some '\r')
  | wordEdge => cursor.wordBefore != cursor.wordAfter
  | wordInside => cursor.wordBefore == cursor.wordAfter
  | wordStart => !cursor.wordBefore && cursor.wordAfter
  | wordEnd => cursor.wordBefore && !cursor.wordAfter
  | noWordBefore => !cursor.wordBefore
  | noWordAfter => !cursor.wordAfter

/-- **A regular expression.** -/
inductive Pattern where
  | empty
  | char (set : CharSet)
  | anchor (anchor : Anchor)
  | seq (first second : Pattern)
  /-- The first alternative is preferred. -/
  | choice (first second : Pattern)
  | group (index : Nat) (body : Pattern)
  /-- As often as it can be if `greedy`, else as seldom as it can be. -/
  | times (body : Pattern) (least : Nat) (most : Option Nat) (greedy : Bool)
deriving Repr, DecidableEq

namespace Pattern

/-- One pattern after the other, each added to all before it. -/
def sequence : List Pattern → Pattern
  | [] => empty
  | p :: rest => rest.foldl seq p

/-- How large the pattern is with its counted repetitions written out: the number of states of an
automaton for it. -/
def size : Pattern → Nat
  | empty | anchor _ => 1
  | char set => set.size
  | seq first second => first.size + second.size
  | choice first second => first.size + second.size + 2
  | group _ body => body.size + 2
  | times body least none _ => body.size * max 1 least + 2
  | times body least (some most) _ => body.size * max least most + (most - least) + 1

/-- How large a pattern may be. -/
def maxSize : Nat := 327680

/-- One of several patterns, the earlier ones preferred. -/
def choices : List Pattern → Pattern
  | [] => empty
  | [p] => p
  | p :: rest => choice p (choices rest)

end Pattern

end ChangeFeed
