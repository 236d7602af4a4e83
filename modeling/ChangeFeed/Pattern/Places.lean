import ChangeFeed.Pattern.Basic

/-!
# Sets of places — where something in a text begins or ends

`Places` is a set of places in a text, kept in the bits of a number, so that
its operations are those of arithmetic. `before` moves every place back by
one character. `repeated` and `grown` apply a step to a set over and over:
`grown` collects what the steps lead to, and stops when nothing is added.
-/

namespace ChangeFeed

/-- **A set of places** in a text. Bit `i` says whether the place behind `i` characters belongs. -/
structure Places where
  bits : Nat
deriving Repr, DecidableEq

namespace Places

/-- The place behind `i` characters belongs. -/
def has (s : Places) (i : Nat) : Bool := s.bits.testBit i

/-- The places that belong to both. -/
def meet (s t : Places) : Places := ⟨s.bits &&& t.bits⟩

/-- The places that belong to one of the two. -/
def join (s t : Places) : Places := ⟨s.bits ||| t.bits⟩

/-- The places from which one character leads to the set. -/
def before (s : Places) : Places := ⟨s.bits >>> 1⟩

/-- The places of the set that are behind more than `i` characters. -/
def behind (i : Nat) (s : Places) : Places := ⟨(s.bits >>> (i + 1)) <<< (i + 1)⟩

/-- The place behind `i` characters, if it belongs. -/
def only (i : Nat) (s : Places) : Places := if s.has i then ⟨1 <<< i⟩ else ⟨0⟩

/-- Those of some places that satisfy a test; the places are all of a text, in order. -/
def suchThat (test : Cursor → Bool) (places : List Cursor) : Places :=
  ⟨places.foldr (fun cursor bits => 2 * bits + (test cursor).toNat) 0⟩

/-- The set after `n` steps. -/
def repeated (step : Places → Places) : Nat → Places → Places
  | 0, s => s
  | n + 1, s =>
    let next := step s
    if next = s then s else repeated step n next

/-- The set after `n` steps, each of which adds `ends`. -/
def grown (step : Places → Places) (ends : Places) (n : Nat) : Places :=
  repeated (fun s => ends.join (step s)) n ends

/-- A place is in the intersection of two sets if it is in both. -/
theorem has_meet (s t : Places) (i : Nat) : (s.meet t).has i = (s.has i && t.has i) := by
  simp [meet, has]

/-- A place is in the union of two sets if it is in one of them. -/
theorem has_join (s t : Places) (i : Nat) : (s.join t).has i = (s.has i || t.has i) := by
  simp [join, has]

/-- From a place one character leads to the set if the next place belongs. -/
theorem has_before (s : Places) (i : Nat) : s.before.has i = s.has (i + 1) := by
  simp [before, has, Nat.add_comm]

end Places

end ChangeFeed
