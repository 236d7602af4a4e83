import ChangeFeed.Pattern.Basic
import ChangeFeed.Text.Natural

/-!
# Reading patterns — the notation of regular expressions

A pattern is written with literals, `.`, `^`, `$`, classes in brackets,
groups, `|` and the repetitions `*`, `+`, `?`, `{m}`, `{m,}`, `{m,n}`, each
followed by `?` to prefer fewer rounds. A backslash makes a sign literal or
starts a class, an edge or a code point. Flags in `(?i)` hold to the end of
the enclosing group: `i` ignores case, `m` lets `^` and `$` stand at line
breaks, `s` lets `.` match them, `R` counts a carriage return as a line
break, `U` swaps the preference of repetitions, `x` skips white space and
comments. Whatever is not in the notation — brackets that do not pair,
nothing to repeat, look-around, references back — is refused, and so is a
pattern that is nested too deep or that becomes too large once its counted
repetitions are written out.

`PatternNotation.build` reads one item at a time into a `Build`, which holds the
open groups; its number of steps is bounded by the length of the text.
-/

namespace ChangeFeed

/-- How the items of a pattern are read. -/
structure PatternFlags where
  ignoreCase : Bool := false
  multiLine : Bool := false
  dotAll : Bool := false
  anyBreak : Bool := false
  swapGreed : Bool := false
  verbose : Bool := false
deriving Repr, DecidableEq

namespace PatternFlags

/-- The set that a literal character stands for. -/
def literal (flags : PatternFlags) (c : Char) : CharSet :=
  if flags.ignoreCase then .oneOf (caseVariants c) else .only c

/-- The set that a class in brackets stands for. -/
def bracketed (flags : PatternFlags) (s : CharSet) : CharSet :=
  if flags.ignoreCase then .anyCase s else s

/-- The set that `.` stands for. -/
def dot (flags : PatternFlags) : CharSet :=
  if flags.dotAll then .everything
  else if flags.anyBreak then .negated (.oneOf ['\n', '\r'])
  else .negated (.only '\n')

/-- The anchor that `^` stands for. -/
def start (flags : PatternFlags) : Anchor :=
  if flags.multiLine then (if flags.anyBreak then .anyLineStart else .lineStart) else .textStart

/-- The anchor that `$` stands for. -/
def finish (flags : PatternFlags) : Anchor :=
  if flags.multiLine then (if flags.anyBreak then .anyLineEnd else .lineEnd) else .textEnd

/-- The flags with one of them set or cleared, if there is one of that letter. -/
def set? (flags : PatternFlags) (letter : Char) (value : Bool) : Option PatternFlags :=
  match letter with
  | 'i' => some { flags with ignoreCase := value }
  | 'm' => some { flags with multiLine := value }
  | 's' => some { flags with dotAll := value }
  | 'R' => some { flags with anyBreak := value }
  | 'U' => some { flags with swapGreed := value }
  | 'x' => some { flags with verbose := value }
  | 'u' => if value then some flags else none
  | _ => none

/-- The text from the next item on: in verbose notation, without white space and comments. -/
def skipGaps (flags : PatternFlags) : Nat → Text → Text
  | 0, t => t
  | steps + 1, t =>
    if flags.verbose then
      match t with
      | '#' :: rest => skipGaps flags steps (rest.dropWhile (· ≠ '\n'))
      | c :: rest => if isSpace c then skipGaps flags steps rest else t
      | [] => []
    else t

end PatternFlags

namespace PatternNotation

/-- The signs that a backslash makes literal. -/
def isSign (c : Char) : Bool :=
  c.toNat < 128 && !c.isAlphanum && c != '<' && c != '>'

/-- The character of a code point, if it is one. -/
def charOf? (n : Nat) : Option Char :=
  if n.isValidChar then some (Char.ofNat n) else none

/-- The value of some hexadecimal digits; there must be at least one and no other character. -/
def hexValue? (digits : Text) : Option Nat :=
  if digits.isEmpty then none else (Text.readDigits 16 0x110000 0 digits).toOption

/-- A code point in hexadecimal: between braces, or `width` digits. -/
def codePoint? (width : Nat) : Text → Option (Char × Text)
  | '{' :: t => do
    let (digits, rest) ← Text.splitFirst? '}' t
    let c ← (hexValue? digits).bind charOf?
    pure (c, rest)
  | t => do
    let digits := t.take width
    if digits.length = width then
      let c ← (hexValue? digits).bind charOf?
      pure (c, t.drop width)
    else none

/-- The edge of a word that is named between braces, behind `\b`. A brace that no name follows
belongs to a repetition. -/
def wordEdge? : Text → Option (Anchor × Text)
  | '{' :: c :: rest =>
    if c.isAlpha ∨ c = '-' then do
      let (name, after) ← Text.splitFirst? '}' (c :: rest)
      match String.ofList name with
      | "start" => some (.wordStart, after)
      | "end" => some (.wordEnd, after)
      | "start-half" => some (.noWordBefore, after)
      | "end-half" => some (.noWordAfter, after)
      | _ => none
    else some (.wordEdge, '{' :: c :: rest)
  | t => some (.wordEdge, t)

/-- What an escape stands for. -/
inductive Escaped where
  | literal (c : Char)
  | set (s : CharSet)
  | edge (anchor : Anchor)

/-- **An escape**, from behind its backslash. -/
def escape? : Text → Option (Escaped × Text)
  | [] => none
  | c :: rest =>
    match c with
    | 'd' => some (.set .digit, rest)
    | 'D' => some (.set (.negated .digit), rest)
    | 's' => some (.set .space, rest)
    | 'S' => some (.set (.negated .space), rest)
    | 'w' => some (.set .word, rest)
    | 'W' => some (.set (.negated .word), rest)
    | 'a' => some (.literal '\x07', rest)
    | 'f' => some (.literal '\x0c', rest)
    | 't' => some (.literal '\t', rest)
    | 'n' => some (.literal '\n', rest)
    | 'r' => some (.literal '\r', rest)
    | 'v' => some (.literal '\x0b', rest)
    | 'A' => some (.edge .textStart, rest)
    | 'z' => some (.edge .textEnd, rest)
    | 'b' => (wordEdge? rest).map fun (a, t) => (.edge a, t)
    | 'B' => some (.edge .wordInside, rest)
    | '<' => some (.edge .wordStart, rest)
    | '>' => some (.edge .wordEnd, rest)
    | 'x' => (codePoint? 2 rest).map fun (d, t) => (.literal d, t)
    | 'u' => (codePoint? 4 rest).map fun (d, t) => (.literal d, t)
    | 'U' => (codePoint? 8 rest).map fun (d, t) => (.literal d, t)
    | c => if isSign c then some (.literal c, rest) else none

/-- The set of a class that is named between colons. -/
def namedSet? (name : Text) : Option CharSet :=
  let letters : CharSet := .union (.span 'a' 'z') (.span 'A' 'Z')
  let digits : CharSet := .span '0' '9'
  match String.ofList name with
  | "alnum" => some (.union letters digits)
  | "alpha" => some letters
  | "ascii" => some (.span '\x00' '\x7f')
  | "blank" => some (.oneOf ['\t', ' '])
  | "cntrl" => some (.union (.span '\x00' '\x1f') (.only '\x7f'))
  | "digit" => some digits
  | "graph" => some (.span '!' '~')
  | "lower" => some (.span 'a' 'z')
  | "print" => some (.span ' ' '~')
  | "punct" => some (.without (.span '!' '~') (.union letters digits))
  | "space" => some (.union (.span '\t' '\r') (.only ' '))
  | "upper" => some (.span 'A' 'Z')
  | "word" => some (.unions [letters, digits, .only '_'])
  | "xdigit" => some (.unions [digits, .span 'a' 'f', .span 'A' 'F'])
  | _ => none

/-- A named class, from behind its opening bracket and colon. -/
def namedClass? (t : Text) : Option (CharSet × Text) := do
  let (isNegated, t) := match t with
    | '^' :: rest => (true, rest)
    | _ => (false, t)
  let (name, rest) ← Text.splitFirst? ':' t
  let rest ← Text.stripStart? [']'] rest
  let s ← namedSet? name
  pure (if isNegated then .negated s else s, rest)

/-- A member of a class: a character or a set. -/
def classMember? : Text → Option ((Char ⊕ CharSet) × Text)
  | [] => none
  | '\\' :: rest =>
    match escape? rest with
    | some (.literal c, t) => some (.inl c, t)
    | some (.set s, t) => some (.inr s, t)
    | _ => none
  | c :: rest => some (.inl c, rest)

/-- A member of a class, or a range of characters between two members. -/
def classRange? (flags : PatternFlags) (t : Text) : Option (CharSet × Text) := do
  let (first, t) ← classMember? t
  let t := flags.skipGaps t.length t
  let single : CharSet := match first with
    | .inl c => .only c
    | .inr s => s
  match t with
  | [] => none
  | '-' :: rest =>
    let rest := flags.skipGaps rest.length rest
    match rest with
    | [] => none
    | c :: _ =>
      if c = ']' ∨ c = '-' then some (single, t)
      else do
        let (last, after) ← classMember? rest
        match first, last with
        | .inl low, .inl high => if low ≤ high then some (.span low high, after) else none
        | _, _ => none
  | _ => some (single, t)

/-- The operations between sets inside a class. -/
inductive SetOp where
  | meet
  | minus
  | differ

/-- The set that an operation gives. -/
def SetOp.apply (op : SetOp) (s t : CharSet) : CharSet :=
  match op with
  | .meet => .meet s t
  | .minus => .without s t
  | .differ => .union (.without s t) (.without t s)

/-- A class that is being read: the operand before the last operation, and the members since. -/
structure ClassBuild where
  pending : Option (CharSet × SetOp)
  members : List CharSet

namespace ClassBuild

/-- No member has been read. -/
def start : ClassBuild := ⟨none, []⟩

/-- Takes one more member. -/
def push (b : ClassBuild) (s : CharSet) : ClassBuild := { b with members := b.members ++ [s] }

/-- The set of all that has been read. -/
def result (flags : PatternFlags) (b : ClassBuild) : CharSet :=
  let members := CharSet.unions b.members
  match b.pending with
  | none => members
  | some (s, op) => op.apply (flags.bracketed s) (flags.bracketed members)

/-- Begins the operand after an operation. -/
def operate (flags : PatternFlags) (b : ClassBuild) (op : SetOp) : ClassBuild :=
  ⟨some (b.result flags, op), []⟩

end ClassBuild

/-- The hyphens that open a class stand for themselves, and so does a bracket that closes
nothing. -/
def classOpening (b : ClassBuild) : Text → ClassBuild × Text
  | '-' :: rest => classOpening (b.push (.only '-')) rest
  | ']' :: rest => if b.members.isEmpty then (b.push (.only ']'), rest) else (b, ']' :: rest)
  | t => (b, t)

mutual

/-- **A class**, from behind its opening bracket. -/
def class? (flags : PatternFlags) : Nat → Text → Option (CharSet × Text)
  | 0, _ => none
  | steps + 1, t =>
    let t := flags.skipGaps t.length t
    let (isNegated, t) := match t with
      | '^' :: rest => (true, flags.skipGaps rest.length rest)
      | _ => (false, t)
    let (opening, t) := classOpening .start t
    match classMembers? flags steps opening t with
    | none => none
    | some (s, rest) =>
      let s := flags.bracketed s
      some (if isNegated then .negated s else s, rest)

/-- The members of a class up to its closing bracket. -/
def classMembers? (flags : PatternFlags) : Nat → ClassBuild → Text → Option (CharSet × Text)
  | 0, _, _ => none
  | steps + 1, b, t =>
    match flags.skipGaps t.length t with
    | [] => none
    | ']' :: rest => some (b.result flags, rest)
    | '&' :: '&' :: rest => classMembers? flags steps (b.operate flags .meet) rest
    | '-' :: '-' :: rest => classMembers? flags steps (b.operate flags .minus) rest
    | '~' :: '~' :: rest => classMembers? flags steps (b.operate flags .differ) rest
    | '[' :: rest =>
      let named? := match rest with
        | ':' :: after => namedClass? after
        | _ => none
      match named? with
      | some (s, after) => classMembers? flags steps (b.push s) after
      | none =>
        match class? flags steps rest with
        | none => none
        | some (s, after) => classMembers? flags steps (b.push s) after
    | t =>
      match classRange? flags t with
      | none => none
      | some (s, after) => classMembers? flags steps (b.push s) after

end

/-- A count of rounds: decimal digits, with white space around them, below 2^32. -/
def count? (t : Text) : Option (Nat × Text) :=
  let t := t.trimStart
  let digits := t.takeWhile Char.isDigit
  let rest := Text.trimStart (t.dropWhile Char.isDigit)
  if digits.isEmpty then none
  else (Text.readDigits 10 halfWordBound 0 digits).toOption.map fun n => (n, rest)

/-- The bounds of a repetition, from behind the opening brace. -/
def bounds? (t : Text) : Option ((Nat × Option Nat) × Text) := do
  let (least, t) ← count? t
  match t with
  | '}' :: rest => pure ((least, some least), rest)
  | ',' :: '}' :: rest => pure ((least, none), rest)
  | ',' :: rest =>
    let (most, rest) ← count? rest
    match rest with
    | '}' :: rest => if least ≤ most then pure ((least, some most), rest) else none
    | _ => none
  | _ => none

/-- How deep a pattern may be nested. -/
def maxNesting : Nat := 250

/-- A part of a pattern and how deep it is nested. A change of flags has no pattern. -/
structure Part where
  pattern : Option Pattern
  depth : Nat

namespace Part

/-- A part that has none inside it. -/
def leaf (p : Pattern) : Part := ⟨some p, 0⟩

/-- The patterns of some parts. -/
def patterns (parts : List Part) : List Pattern := parts.filterMap Part.pattern

/-- How deep what holds some parts is nested: a single part needs nothing to hold it. -/
def depthOf (parts : List Part) : Nat :=
  parts.foldl (fun depth part => max depth part.depth) 0 + (if parts.length ≤ 1 then 0 else 1)

end Part

/-- A group that is open: its number, the flags outside, its alternatives and its items so far. -/
structure OpenGroup where
  index : Option Nat
  outside : PatternFlags
  /-- The alternatives before the current one, in reverse. -/
  alternatives : List Part
  /-- The items of the current alternative, in reverse. -/
  items : List Part

namespace OpenGroup

/-- The current alternative. -/
def alternative (g : OpenGroup) : Part :=
  ⟨some (.sequence (Part.patterns g.items.reverse)), Part.depthOf g.items⟩

/-- What stands between the brackets. -/
def body (g : OpenGroup) : Pattern :=
  .choices (Part.patterns (g.alternative :: g.alternatives).reverse)

/-- How deep what stands between the brackets is nested. -/
def depth (g : OpenGroup) : Nat := Part.depthOf (g.alternative :: g.alternatives)

/-- What the group is, once it is closed. -/
def part (g : OpenGroup) : Part :=
  ⟨some (match g.index with
    | some index => .group index g.body
    | none => g.body), g.depth + 1⟩

end OpenGroup

/-- **A pattern that is being read**: the flags, the groups so far, and the open groups. -/
structure Build where
  flags : PatternFlags
  groups : Nat
  names : List Text
  current : OpenGroup
  parents : List OpenGroup

namespace Build

/-- Nothing has been read yet. -/
def start : Build := ⟨{}, 0, [], ⟨none, {}, [], []⟩, []⟩

/-- Takes one more item. -/
def push (b : Build) (item : Part) : Build :=
  { b with current := { b.current with items := item :: b.current.items } }

/-- Takes a set of characters as an item. -/
def pushSet (b : Build) (s : CharSet) : Build := b.push (.leaf (.char s))

/-- Takes an anchor as an item. -/
def pushAnchor (b : Build) (a : Anchor) : Build := b.push (.leaf (.anchor a))

/-- Begins the next alternative. -/
def nextAlternative (b : Build) : Build :=
  { b with current :=
    { b.current with
      alternatives := b.current.alternative :: b.current.alternatives, items := [] } }

/-- Opens a group, inside which `flags` hold. -/
def openGroup (b : Build) (index : Option Nat) (flags : PatternFlags) : Build :=
  { b with
    flags := flags
    groups := if index.isSome then b.groups + 1 else b.groups
    current := ⟨index, b.flags, [], []⟩
    parents := b.current :: b.parents }

/-- Closes the current group, if there is one to close. -/
def closeGroup? (b : Build) : Option Build :=
  match b.parents with
  | [] => none
  | parent :: parents =>
    let closed : Build :=
      { b with flags := b.current.outside, current := parent, parents := parents }
    some (closed.push b.current.part)

/-- Repeats the last item, if there is one that can be repeated. -/
def repeatLast? (b : Build) (least : Nat) (most : Option Nat) (short : Bool) : Option Build :=
  match b.current.items with
  | ⟨some item, depth⟩ :: items =>
    let greedy := short == b.flags.swapGreed
    let repeated : Part := ⟨some (.times item least most greedy), depth + 1⟩
    some { b with current := { b.current with items := repeated :: items } }
  | _ => none

/-- The pattern, if no group is open and it is not nested too deep. -/
def finish? (b : Build) : Option Pattern :=
  if b.parents.isEmpty ∧ b.current.depth ≤ maxNesting then some b.current.body else none

end Build

/-- A question mark after a repetition, and the text behind it. -/
def shortMark : Text → Bool × Text
  | '?' :: rest => (true, rest)
  | t => (false, t)

/-- The name of a group: letters, digits and `_.[]`, no digit or sign first except `_`. -/
def isGroupName (name : Text) : Bool :=
  match name with
  | [] => false
  | c :: rest =>
    (c == '_' || (isWordChar c && !isDecimalDigit c)) &&
      rest.all fun d => isWordChar d || d == '.' || d == '[' || d == ']'

/-- The flags between `(?` and the `)` or `:` that ends them, and whether a group opens there. -/
def flags? (flags : PatternFlags) (seen : List Char) (value : Bool) :
    Text → Option (PatternFlags × Bool × Text)
  | [] => none
  | ':' :: rest => if seen.head? = some '-' then none else some (flags, true, rest)
  | ')' :: rest => if seen.isEmpty ∨ seen.head? = some '-' then none else some (flags, false, rest)
  | c :: rest =>
    if c ∈ seen then none
    else if c = '-' then flags? flags (c :: seen) false rest
    else match flags.set? c value with
      | none => none
      | some next => flags? next (c :: seen) value rest

/-- **An opening parenthesis**, with what stands right behind it. -/
def openParenthesis? (b : Build) (t : Text) : Option (Build × Text) :=
  let named (rest : Text) : Option (Build × Text) := do
    let (name, rest) ← Text.splitFirst? '>' rest
    if isGroupName name ∧ name ∉ b.names then
      pure ({ b.openGroup (some (b.groups + 1)) b.flags with names := name :: b.names }, rest)
    else none
  match t with
  | '?' :: 'P' :: '<' :: rest => named rest
  | '?' :: '<' :: c :: rest => if c = '=' ∨ c = '!' then none else named (c :: rest)
  | '?' :: rest =>
    match flags? b.flags [] true rest with
    | none => none
    | some (flags, true, rest) => some (b.openGroup none flags, rest)
    | some (flags, false, rest) => some ({ b.push ⟨none, 0⟩ with flags := flags }, rest)
  | t => some (b.openGroup (some (b.groups + 1)) b.flags, t)

/-- Reads one item, of which `c` is the first character. -/
def item? (b : Build) (c : Char) (rest : Text) : Option (Build × Text) :=
  let repetition (least : Nat) (most : Option Nat) (rest : Text) : Option (Build × Text) :=
    let (short, rest) := shortMark rest
    (b.repeatLast? least most short).map fun next => (next, rest)
  match c with
  | '(' => openParenthesis? b rest
  | ')' => b.closeGroup?.map fun next => (next, rest)
  | '|' => some (b.nextAlternative, rest)
  | '[' =>
    (class? b.flags (rest.length + 1) rest).map fun (s, rest) =>
      (b.push ⟨some (.char s), 1⟩, rest)
  | '*' => repetition 0 none rest
  | '+' => repetition 1 none rest
  | '?' => repetition 0 (some 1) rest
  | '{' => (bounds? rest).bind fun ((least, most), rest) => repetition least most rest
  | '.' => some (b.pushSet b.flags.dot, rest)
  | '^' => some (b.pushAnchor b.flags.start, rest)
  | '$' => some (b.pushAnchor b.flags.finish, rest)
  | '\\' =>
    (escape? rest).map fun
      | (.literal d, rest) => (b.pushSet (b.flags.literal d), rest)
      | (.set s, rest) => (b.pushSet s, rest)
      | (.edge a, rest) => (b.pushAnchor a, rest)
  | c => some (b.pushSet (b.flags.literal c), rest)

/-- Reads item by item; every item takes a character at least, which bounds the steps. -/
def build : Nat → Build → Text → Option Pattern
  | 0, _, _ => none
  | steps + 1, b, t =>
    match b.flags.skipGaps t.length t with
    | [] => b.finish?
    | c :: rest =>
      match item? b c rest with
      | none => none
      | some (next, rest) => build steps next rest

end PatternNotation

/-- **Reads a pattern**, if the text is in the notation. -/
def Pattern.parse? (t : Text) : Option Pattern :=
  (PatternNotation.build (t.length + 1) .start t).bind fun p =>
    if p.size ≤ Pattern.maxSize then some p else none

end ChangeFeed
