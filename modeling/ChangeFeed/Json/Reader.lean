import ChangeFeed.Json.Basic
import ChangeFeed.Json.Number
import ChangeFeed.Json.Quoted
import ChangeFeed.Text.Bytes

/-!
# Reading JSON — one character at a time over a stack of open brackets

`Reading` is how far a text has been read: what is due next, and the stack
of arrays and objects that are open. `Reading.step` reads one character, so
reading a text is a fold, and reading two texts one after the other is
reading their concatenation. The grammar is strict; white space is the
space, the tab and the two line breaks; at most `maxDepth` brackets are open
at a time; a repeated key takes the last value in the place of the first.
An object that begins with the reserved key `Json.numeralKey` stands for a
number: the key's value is the number's text, and no other key may follow.
-/

namespace ChangeFeed

namespace Json

/-- How many brackets may be open at a time. -/
def maxDepth : Nat := 127

/-- The white space of JSON. -/
def isGap (c : Char) : Bool := c = ' ' || c = '\n' || c = '\t' || c = '\r'

/-- The reserved key: an object that begins with it stands for the number whose text it holds. -/
def numeralKey : Text := "$serde_json::private::Number".toList

/-- The number whose text a value is. -/
def ofNumeral? : Json → Option Json
  | .string text => (numeral? text).map .number
  | _ => none

end Json

/-- An open bracket with what has been read inside it. -/
inductive Frame where
  /-- An array, with its items in reverse. -/
  | array (reversed : List Json)
  /-- An object, with its members and the key whose value is being read. -/
  | object (members : Members) (key : Text)
  /-- An object that stands for a number, with the number's text being read. -/
  | numeral

/-- What is due next, or under way. -/
inductive Phase where
  /-- A value. -/
  | value
  /-- A first item, or the end of an array. -/
  | firstItem
  /-- A key. -/
  | key
  /-- A first key, or the end of an object. -/
  | firstKey
  /-- The colon after a key. -/
  | colon
  /-- The rest of a string that is a value. -/
  | string (q : Quoted)
  /-- The rest of a key. -/
  | keyString (q : Quoted)
  /-- The rest of a number, of which the text so far is kept in reverse. -/
  | number (phase : NumberPhase) (reversed : Text)
  /-- The rest of the word that stands for a value. -/
  | word (due : Text) (value : Json)
  /-- A value is complete. -/
  | complete (value : Json)

/-- **How far a JSON text has been read.** -/
structure Reading where
  phase : Phase
  stack : List Frame

namespace Reading

/-- Nothing has been read yet. -/
def start : Reading := ⟨.value, []⟩

/-- Opens a bracket, if there are not too many. -/
def openBracket (phase : Phase) (frame : Frame) (stack : List Frame) : Option Reading :=
  if stack.length < Json.maxDepth then some ⟨phase, frame :: stack⟩ else none

/-- Reads the first character of a value. -/
def beginValue (stack : List Frame) (c : Char) : Option Reading :=
  if c = '[' then openBracket .firstItem (.array []) stack
  else if c = '{' then openBracket .firstKey (.object [] []) stack
  else if c = '\x22' then some ⟨.string .start, stack⟩
  else if c = 't' then some ⟨.word "rue".toList (.bool true), stack⟩
  else if c = 'f' then some ⟨.word "alse".toList (.bool false), stack⟩
  else if c = 'n' then some ⟨.word "ull".toList .null, stack⟩
  else (NumberPhase.start? c).map fun phase => ⟨.number phase [c], stack⟩

/-- Reads a character after a complete value. -/
def afterValue (value : Json) (stack : List Frame) (c : Char) : Option Reading :=
  if Json.isGap c then some ⟨.complete value, stack⟩
  else match stack with
    | [] => none
    | .array reversed :: rest =>
      if c = ',' then some ⟨.value, .array (value :: reversed) :: rest⟩
      else if c = ']' then some ⟨.complete (.array (value :: reversed).reverse), rest⟩
      else none
    | .object members key :: rest =>
      if c = ',' then some ⟨.key, .object (members.put key value) [] :: rest⟩
      else if c = '}' then some ⟨.complete (.object (members.put key value)), rest⟩
      else none
    | .numeral :: rest =>
      if c = '}' then value.ofNumeral?.map fun number => ⟨.complete number, rest⟩ else none

/-- Reads a character where a key is due. -/
def beginKey (stack : List Frame) (c : Char) : Option Reading :=
  if c = '\x22' then some ⟨.keyString .start, stack⟩ else none

/-- Takes a key that has been read into the open object. -/
def endKey (key : Text) : List Frame → Option Reading
  | .object members _ :: rest =>
    let isNumeral := members.isEmpty && key == Json.numeralKey
    some ⟨.colon, (if isNumeral then .numeral else .object members key) :: rest⟩
  | _ => none

/-- **Reads one character.** -/
def step (r : Reading) (c : Char) : Option Reading :=
  match r.phase with
  | .value => if Json.isGap c then some r else beginValue r.stack c
  | .firstItem =>
    if Json.isGap c then some r
    else if c = ']' then some ⟨.complete (.array []), r.stack.tail⟩
    else beginValue r.stack c
  | .key => if Json.isGap c then some r else beginKey r.stack c
  | .firstKey =>
    if Json.isGap c then some r
    else if c = '}' then some ⟨.complete (.object []), r.stack.tail⟩
    else beginKey r.stack c
  | .colon =>
    if Json.isGap c then some r else if c = ':' then some ⟨.value, r.stack⟩ else none
  | .string q =>
    match q.step c with
    | none => none
    | some (.more next) => some ⟨.string next, r.stack⟩
    | some (.ends text) => some ⟨.complete (.string text), r.stack⟩
  | .keyString q =>
    match q.step c with
    | none => none
    | some (.more next) => some ⟨.keyString next, r.stack⟩
    | some (.ends text) => endKey text r.stack
  | .number phase reversed =>
    match phase.next? c with
    | some next => some ⟨.number next ((phase.spelling c).reverse ++ reversed), r.stack⟩
    | none =>
      if phase.isComplete then afterValue (.number reversed.reverse) r.stack c else none
  | .word due value =>
    match due with
    | [] => afterValue value r.stack c
    | [d] => if c = d then some ⟨.complete value, r.stack⟩ else none
    | d :: rest => if c = d then some ⟨.word rest value, r.stack⟩ else none
  | .complete value => afterValue value r.stack c

/-- Reads a text from where the reading stands. -/
def run : Reading → Text → Option Reading
  | r, [] => some r
  | r, c :: rest => (r.step c).bind fun next => next.run rest

/-- The value, if the text may end here. -/
def finish (r : Reading) : Option Json :=
  match r.stack, r.phase with
  | [], .complete value => some value
  | [], .number phase reversed =>
    if phase.isComplete then some (.number reversed.reverse) else none
  | _, _ => none

/-- Reading two texts one after the other is reading their concatenation. -/
theorem run_append (r : Reading) (s t : Text) :
    r.run (s ++ t) = (r.run s).bind fun next => next.run t := by
  induction s generalizing r with
  | nil => rfl
  | cons c s ih =>
    cases h : r.step c with
    | none => simp [run, h]
    | some next => simp [run, h, ih]

end Reading

namespace Json

/-- **Reads a JSON text.** -/
def read? (t : Text) : Option Json := (Reading.start.run t).bind Reading.finish

/-- Reads a JSON text in UTF-8. -/
def readBytes? (bytes : Bytes) : Option Json := bytes.text?.bind read?

end Json

end ChangeFeed
