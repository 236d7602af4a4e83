import ChangeFeed.Json.Reader

/-!
# The outline of a JSON text — its top level, and the rest for grammar only

Whoever needs one field of a large answer reads the outline: the keys at the
top level and, as text, what stands behind each. A value behind a key is
only checked for grammar: `Skim` keeps the kinds of the open brackets and no
value, so brackets may nest without limit and a surrogate escape may stand
alone. Keys are read in full. Repeated keys are all kept.
-/

namespace ChangeFeed

/-- How much of an escape is still due in a string that is skipped. -/
inductive SkippedEscape where
  | closed
  | backslash
  | unit (due : Nat)
deriving Repr, DecidableEq

namespace SkippedEscape

/-- What a character does to a string that is skipped. -/
inductive Step where
  | more (next : SkippedEscape)
  | ends

/-- Skips one character after the opening quote. -/
def step (escape : SkippedEscape) (c : Char) : Option Step :=
  match escape with
  | closed =>
    if c = '\x22' then some .ends
    else if c = '\\' then some (.more backslash)
    else if c.toNat < 0x20 then none
    else some (.more closed)
  | backslash =>
    if c = 'u' then some (.more (unit 4))
    else (unescape? c).map fun _ => .more closed
  | unit due =>
    (digitValue? 16 c).map fun _ => .more (if due ≤ 1 then closed else unit (due - 1))

end SkippedEscape

/-- An open bracket of a value that is skipped. -/
inductive Bracket where
  | square
  | curly
deriving Repr, DecidableEq

/-- What is due next in a value that is skipped. -/
inductive SkimPhase where
  | value
  | firstItem
  | key
  | firstKey
  | colon
  | string (escape : SkippedEscape)
  | keyString (escape : SkippedEscape)
  | number (phase : NumberPhase)
  | word (due : Text)
  | complete
deriving Repr, DecidableEq

/-- **How far a value has been skipped.** -/
structure Skim where
  phase : SkimPhase
  stack : List Bracket
deriving Repr, DecidableEq

namespace Skim

/-- Nothing has been skipped yet. -/
def start : Skim := ⟨.value, []⟩

/-- Skips the first character of a value. -/
def beginValue (stack : List Bracket) (c : Char) : Option Skim :=
  if c = '[' then some ⟨.firstItem, .square :: stack⟩
  else if c = '{' then some ⟨.firstKey, .curly :: stack⟩
  else if c = '\x22' then some ⟨.string .closed, stack⟩
  else if c = 't' then some ⟨.word "rue".toList, stack⟩
  else if c = 'f' then some ⟨.word "alse".toList, stack⟩
  else if c = 'n' then some ⟨.word "ull".toList, stack⟩
  else (NumberPhase.start? c).map fun phase => ⟨.number phase, stack⟩

/-- Skips a character after a complete value inside a bracket. -/
def afterValue (stack : List Bracket) (c : Char) : Option Skim :=
  if Json.isGap c then some ⟨.complete, stack⟩
  else match stack with
    | [] => none
    | .square :: rest =>
      if c = ',' then some ⟨.value, stack⟩
      else if c = ']' then some ⟨.complete, rest⟩ else none
    | .curly :: rest =>
      if c = ',' then some ⟨.key, stack⟩
      else if c = '}' then some ⟨.complete, rest⟩ else none

/-- **Skips one character.** -/
def step (s : Skim) (c : Char) : Option Skim :=
  match s.phase with
  | .value => if Json.isGap c then some s else beginValue s.stack c
  | .firstItem =>
    if Json.isGap c then some s
    else if c = ']' then some ⟨.complete, s.stack.tail⟩
    else beginValue s.stack c
  | .key =>
    if Json.isGap c then some s
    else if c = '\x22' then some ⟨.keyString .closed, s.stack⟩ else none
  | .firstKey =>
    if Json.isGap c then some s
    else if c = '}' then some ⟨.complete, s.stack.tail⟩
    else if c = '\x22' then some ⟨.keyString .closed, s.stack⟩ else none
  | .colon =>
    if Json.isGap c then some s else if c = ':' then some ⟨.value, s.stack⟩ else none
  | .string escape =>
    (escape.step c).map fun
      | .more next => ⟨.string next, s.stack⟩
      | .ends => ⟨.complete, s.stack⟩
  | .keyString escape =>
    (escape.step c).map fun
      | .more next => ⟨.keyString next, s.stack⟩
      | .ends => ⟨.colon, s.stack⟩
  | .number phase =>
    match phase.next? c with
    | some next => some ⟨.number next, s.stack⟩
    | none => if phase.isComplete then afterValue s.stack c else none
  | .word due =>
    match due with
    | [] => afterValue s.stack c
    | [d] => if c = d then some ⟨.complete, s.stack⟩ else none
    | d :: rest => if c = d then some ⟨.word rest, s.stack⟩ else none
  | .complete => afterValue s.stack c

/-- All of the value has been skipped, or may have been if it is a number. -/
def isComplete (s : Skim) : Bool :=
  match s.stack, s.phase with
  | [], .complete => true
  | [], .number phase => phase.isComplete
  | _, _ => false

end Skim

/-- **The top level of a JSON text**: texts of values, with their keys in an object. -/
inductive Outline where
  | array (items : List Text)
  | object (fields : List (Text × Text))
deriving Repr, DecidableEq

/-- What is due next at the top level. -/
inductive OutlinePhase where
  /-- The opening bracket. -/
  | opening
  /-- A first item, or the end of the array. -/
  | firstItem (items : List Text)
  /-- A value of the array, with the text so far in reverse. -/
  | item (items : List Text) (reversed : Text) (skim : Skim)
  /-- A key, or the end of the object if it is a first key. -/
  | key (isFirst : Bool) (fields : List (Text × Text))
  /-- The rest of a key. -/
  | keyString (fields : List (Text × Text)) (q : Quoted)
  /-- The colon after a key. -/
  | colon (fields : List (Text × Text)) (name : Text)
  /-- A value of the object, with the text so far in reverse. -/
  | field (fields : List (Text × Text)) (name reversed : Text) (skim : Skim)
  /-- Nothing but white space. -/
  | closed (outline : Outline)

namespace OutlinePhase

/-- Reads a character of an item: one more of its text, or the comma or bracket behind it. -/
def stepItem (items : List Text) (reversed : Text) (skim : Skim) (c : Char) :
    Option OutlinePhase :=
  match skim.step c with
  | some next => some (.item items (c :: reversed) next)
  | none =>
    if skim.isComplete then
      if c = ',' then some (.item (items ++ [reversed.reverse]) [] .start)
      else if c = ']' then some (.closed (.array (items ++ [reversed.reverse])))
      else none
    else none

/-- Reads a character of a field's value: one more of its text, or the comma or brace behind it. -/
def stepField (fields : List (Text × Text)) (name reversed : Text) (skim : Skim) (c : Char) :
    Option OutlinePhase :=
  match skim.step c with
  | some next => some (.field fields name (c :: reversed) next)
  | none =>
    if skim.isComplete then
      if c = ',' then some (.key false (fields ++ [(name, reversed.reverse)]))
      else if c = '}' then some (.closed (.object (fields ++ [(name, reversed.reverse)])))
      else none
    else none

/-- **Reads one character.** -/
def step (phase : OutlinePhase) (c : Char) : Option OutlinePhase :=
  match phase with
  | .opening =>
    if Json.isGap c then some phase
    else if c = '[' then some (.firstItem [])
    else if c = '{' then some (.key true [])
    else none
  | .firstItem items =>
    if Json.isGap c then some phase
    else if c = ']' then some (.closed (.array items))
    else stepItem items [] .start c
  | .item items reversed skim => stepItem items reversed skim c
  | .key isFirst fields =>
    if Json.isGap c then some phase
    else if c = '}' ∧ isFirst then some (.closed (.object fields))
    else if c = '\x22' then some (.keyString fields .start)
    else none
  | .keyString fields q =>
    match q.step c with
    | none => none
    | some (.more next) => some (.keyString fields next)
    | some (.ends name) => some (.colon fields name)
  | .colon fields name =>
    if Json.isGap c then some phase
    else if c = ':' then some (.field fields name [] .start) else none
  | .field fields name reversed skim => stepField fields name reversed skim c
  | .closed _ => if Json.isGap c then some phase else none

end OutlinePhase

namespace Json

/-- **Reads the outline** of a JSON array or object. -/
def outline? (t : Text) : Option Outline :=
  match t.foldlM OutlinePhase.step .opening with
  | some (.closed outline) => some outline
  | _ => none

end Json

end ChangeFeed
