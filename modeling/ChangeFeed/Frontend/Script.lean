import ChangeFeed.Frontend.Session

/-!
# Scripts — frontends whose answers are known beforehand

A `Script` decides for every request which of its hosts it is put to and
whether that one can be reached then, and gives the answer to the n-th request
of either method that gets through, or none if the connection closes. Playing
a session against a script yields its result, the events in order, and the
script as it stands afterwards. A request to a host that cannot be reached has
no answer, even if there are others that could be, and no frontend sees it. A
host that makes no address is one that cannot be reached.
-/

namespace ChangeFeed

/-- **Frontends with known answers.** -/
structure Script where
  /-- Which of its hosts the n-th request is put to, counted round and round. -/
  picks : Nat → Nat
  /-- The n-th request reaches a host, if it is put to that one. -/
  reaches : Nat → Text → Bool
  /-- The answer to the n-th request of method GET that gets through. -/
  gets : Nat → Option Response
  /-- The answer to the n-th request of method POST that gets through. -/
  posts : Nat → Option Response

/-- The answers of a list in turn, the last one again and again. -/
def answersInTurn (default : Option Response) (answers : List (Option Response)) (n : Nat) :
    Option Response :=
  (answers[min n (answers.length - 1)]?).getD default

namespace Script

/-- The answer to a request of some method. -/
def answer (script : Script) : Method → Option Response
  | .get => script.gets 0
  | .post => script.posts 0

/-- **The host that the next request reaches**: the one that is picked for it, if that one can be
reached. -/
def reached? (script : Script) (hosts : List Text) : Option Text :=
  hosts[script.picks 0 % hosts.length]?.filter (script.reaches 0)

/-- The script after a request that has reached no host. -/
def miss (script : Script) : Script :=
  { script with
    picks := fun n => script.picks (n + 1)
    reaches := fun n => script.reaches (n + 1) }

/-- The script after a request of some method that has got through. -/
def advance (script : Script) : Method → Script
  | .get => { script.miss with gets := fun n => script.gets (n + 1) }
  | .post => { script.miss with posts := fun n => script.posts (n + 1) }

/-- Frontends that cannot be reached. -/
def unreachable : Script := ⟨fun _ => 0, fun _ _ => false, fun _ => none, fun _ => none⟩

end Script

/-- What a session does outside. -/
inductive Event where
  | sent (request : Request)
  /-- A request was put to a host that could not be reached. -/
  | missed
  | wrote (line : Text)
deriving Repr, DecidableEq

namespace Event

/-- The requests among some events. -/
def requests (events : List Event) : List Request :=
  events.filterMap fun
    | sent request => some request
    | missed | wrote _ => none

/-- The output of some events. -/
def output (events : List Event) : Text :=
  events.flatMap fun
    | sent _ | missed => []
    | wrote line => line

end Event

/-- **A session that has been played**: its result, the events, and what is left of the script. -/
structure Played (α : Type) where
  result : α
  events : List Event
  script : Script

namespace Session

variable {α β : Type}

/-- **Plays a session** against a script. -/
def play : Session α → Script → Played α
  | done a, script => ⟨a, [], script⟩
  | ask hosts request next, script =>
    match script.reached? hosts with
    | some host =>
      let method := (request host).method
      let played := (next (script.answer method)).play (script.advance method)
      { played with events := .sent (request host) :: played.events }
    | none =>
      let played := (next none).play script.miss
      { played with events := .missed :: played.events }
  | write line next, script =>
    let played := next.play script
    { played with events := .wrote line :: played.events }

/-- Work done one piece after the other is played one piece after the other. -/
theorem play_bind (s : Session α) (f : α → Session β) (script : Script) :
    (s.bind f).play script =
      let first := s.play script
      let second := (f first.result).play first.script
      ⟨second.result, first.events ++ second.events, second.script⟩ := by
  induction s generalizing script with
  | done a => simp [bind, play]
  | ask hosts request next ih => cases h : script.reached? hosts <;> simp [bind, play, h, ih]
  | write line next ih => simp [bind, play, ih]

end Session

end ChangeFeed
