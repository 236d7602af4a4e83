import ChangeFeed.Pattern.Places

/-!
# Searching — the leftmost match, by ordered preference

A pattern is laid on a text as a `Route`, in which every set of characters
has become the set of places where one of them stands. `Route.starts` goes
backwards: it gives all places from which the route can be taken so that it
ends at one of the places wanted. `Route.first?` goes forwards and takes at
every turn the way that is preferred among those that arrive. So a search
never goes back on a choice, and its time does not explode where a pattern
can match in many ways. Of the rounds of a repetition without bound only the
first may consume nothing. `Pattern.search` takes the first place at which
there is a match.
-/

namespace ChangeFeed

/-- What the groups have captured, the latest first. -/
abbrev Captures := List (Nat × Text)

/-- The text that a group captured last, if it took part in the match. -/
def Captures.get? (captures : Captures) (index : Nat) : Option Text :=
  captures.findSome? fun (i, t) => if i = index then some t else none

/-- How far a match has come: the place reached and what the groups have captured. -/
structure Way where
  cursor : Cursor
  captures : Captures
deriving Repr, DecidableEq

namespace Way

/-- The way as it is, if it has arrived. -/
def ifAt (ends : Places) (way : Way) : Option Way :=
  if ends.has way.cursor.index then some way else none

/-- The rounds of a body of which each consumes, at most `n`. From every place of `loop` such
rounds lead to `ends`. -/
def consuming (round : Places → Way → Option Way) (greedy : Bool) (loop ends : Places) :
    Nat → Way → Option Way
  | 0, way => way.ifAt ends
  | n + 1, way =>
    if !greedy && ends.has way.cursor.index then some way
    else match round (loop.behind way.cursor.index) way with
      | some next => consuming round greedy loop ends n next
      | none => way.ifAt ends

/-- One or more rounds of a body. If the first consumes nothing it is the only one, and every
later round consumes. -/
def oneOrMore (round : Places → Way → Option Way) (greedy : Bool) (loop ends : Places) (n : Nat)
    (way : Way) : Option Way :=
  let index := way.cursor.index
  match round ((loop.behind index).join (ends.only index)) way with
  | none => none
  | some next =>
    if index < next.cursor.index then consuming round greedy loop ends n next else some next

/-- At most `n` rounds of a body that goes back from a set of places by `step`. -/
def atMost (round : Places → Way → Option Way) (step : Places → Places) (greedy : Bool)
    (ends : Places) : Nat → Way → Option Way
  | 0, way => way.ifAt ends
  | n + 1, way =>
    if !greedy && ends.has way.cursor.index then some way
    else match round (Places.grown step ends n) way with
      | some next => atMost round step greedy ends n next
      | none => way.ifAt ends

/-- `n` rounds of a body that goes back from a set of places by `step`, up to the places from which
`last` goes on. -/
def exactly (round : Places → Way → Option Way) (step : Places → Places) (ends : Places)
    (last : Way → Option Way) : Nat → Way → Option Way
  | 0, way => last way
  | n + 1, way =>
    match round (Places.repeated step n ends) way with
    | some next => exactly round step ends last n next
    | none => none

end Way

/-- **A pattern laid on a text.** -/
inductive Route where
  /-- Consumes nothing, at one of these places. -/
  | stay (places : Places)
  /-- Consumes a character, from one of these places. -/
  | step (places : Places)
  | seq (first second : Route)
  | choice (first second : Route)
  | group (index : Nat) (body : Route)
  | times (body : Route) (least : Nat) (most : Option Nat) (greedy : Bool)

namespace Route

/-- **The places from which the route leads to one of `ends`**, in a text of that length. -/
def starts (length : Nat) : Route → Places → Places
  | stay places, ends => places.meet ends
  | step places, ends => places.meet ends.before
  | seq first second, ends => first.starts length (second.starts length ends)
  | choice first second, ends => (first.starts length ends).join (second.starts length ends)
  | group _ body, ends => body.starts length ends
  | times body least most _, ends =>
    let rounds := match most with
      | none => length
      | some most => most - least
    Places.repeated (fun s => body.starts length s) least
      (Places.grown (fun s => body.starts length s) ends rounds)

/-- **The preferred way along the route** among those that lead to one of `ends`. -/
def first? (length : Nat) : Route → Places → Way → Option Way
  | stay places, ends, way =>
    if places.has way.cursor.index then way.ifAt ends else none
  | step places, ends, way =>
    if places.has way.cursor.index then
      way.cursor.next?.bind fun cursor => (⟨cursor, way.captures⟩ : Way).ifAt ends
    else none
  | seq first second, ends, way =>
    (first.first? length (second.starts length ends) way).bind fun next =>
      second.first? length ends next
  | choice first second, ends, way =>
    match first.first? length ends way with
    | some found => some found
    | none => second.first? length ends way
  | group index body, ends, way =>
    (body.first? length ends way).map fun next =>
      ⟨next.cursor, (index, way.cursor.textTo next.cursor) :: next.captures⟩
  | times body 0 none greedy, ends, way =>
    let loop := Places.grown (fun s => body.starts length s) ends length
    let rounds := Way.oneOrMore (fun s next => body.first? length s next) greedy loop ends length
    if greedy then
      match rounds way with
      | some found => some found
      | none => way.ifAt ends
    else if ends.has way.cursor.index then some way else rounds way
  | times body (least + 1) none greedy, ends, way =>
    let loop := Places.grown (fun s => body.starts length s) ends length
    Way.exactly (fun s next => body.first? length s next) (fun s => body.starts length s)
      (body.starts length loop)
      (Way.oneOrMore (fun s next => body.first? length s next) greedy loop ends length) least way
  | times body least (some most) greedy, ends, way =>
    let rounds := most - least
    Way.exactly (fun s next => body.first? length s next) (fun s => body.starts length s)
      (Places.grown (fun s => body.starts length s) ends rounds)
      (Way.atMost (fun s next => body.first? length s next) (fun s => body.starts length s) greedy
        ends rounds) least way

end Route

namespace Pattern

/-- The pattern laid on the text with these places. -/
def route (places : List Cursor) : Pattern → Route
  | empty => .stay (Places.suchThat (fun _ => true) places)
  | char set => .step (Places.suchThat (fun cursor => cursor.rest.head?.any set.contains) places)
  | anchor a => .stay (Places.suchThat a.holds places)
  | seq first second => .seq (first.route places) (second.route places)
  | choice first second => .choice (first.route places) (second.route places)
  | group index body => .group index (body.route places)
  | times body least most greedy => .times (body.route places) least most greedy

/-- **The groups of the leftmost match** in a text, if there is one. -/
def search (p : Pattern) (t : Text) : Option Captures :=
  let places := Cursor.along 0 none t
  let route := p.route places
  let ends := Places.suchThat (fun _ => true) places
  let starts := route.starts t.length ends
  (places.find? fun cursor => starts.has cursor.index).bind fun cursor =>
    (route.first? t.length ends ⟨cursor, []⟩).map Way.captures

end Pattern

end ChangeFeed
