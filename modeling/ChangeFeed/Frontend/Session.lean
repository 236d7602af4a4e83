import ChangeFeed.Frontend.Reply

/-!
# Sessions — what is asked of the frontends and what is written, as data

A `Session` is a piece of work that may put requests to the frontends and
write lines of output. It is a tree: at a request it branches on the answer,
at a line it has one branch. Which of several hosts a request is put to is
decided anew for every request, by chance and by nothing in the tree. Running
one for real and running one against a script are two readings of the same
tree.
-/

namespace ChangeFeed

/-- How a request is sent. -/
inductive Method where
  | get
  | post
deriving Repr, DecidableEq

/-- The spelling of a method. -/
def Method.name : Method → Text
  | .get => "GET".toList
  | .post => "POST".toList

/-- **A request to a frontend.** -/
structure Request where
  host : Text
  method : Method
  /-- What is put behind the host in the address. -/
  path : Text
  authorization : Text
  body : Text
deriving Repr, DecidableEq

namespace Request

/-- The type of every request's body. -/
def contentType : Text := "application/json".toList

/-- The address of a path at a frontend. -/
def url (host path : Text) : Text := "http://".toList ++ host ++ path

end Request

/-- **A piece of work** that asks frontends and writes lines. -/
inductive Session (α : Type) where
  | done (result : α)
  /-- Puts a request to one of some hosts and goes on with its answer, if there is one. -/
  | ask (hosts : List Text) (request : Text → Request) (next : Option Response → Session α)
  /-- Writes a line of output and goes on. -/
  | write (line : Text) (next : Session α)

namespace Session

variable {α β : Type}

/-- One piece of work after the other. -/
def bind : Session α → (α → Session β) → Session β
  | done a, f => f a
  | ask hosts request next, f => ask hosts request fun reply => (next reply).bind f
  | write line next, f => write line (next.bind f)

instance : Monad Session where
  pure := done
  bind := bind

/-- Carries the work out in some monad, given what a request and a line of output do there. -/
def interpret {m : Type → Type} [Monad m]
    (send : List Text → (Text → Request) → m (Option Response)) (output : Text → m Unit) :
    Session α → m α
  | done a => pure a
  | ask hosts request next => do interpret send output (next (← send hosts request))
  | write line next => do output line; interpret send output next

end Session

end ChangeFeed
