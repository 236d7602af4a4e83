import ChangeFeed.Proofs.Pattern.Places
import Mathlib.Data.List.Basic
/-!
# Ways — what a pattern can match, as a list in order of preference

`Pattern.ways` lists all ways on along a pattern, the preferred ones first:
the alternatives one after the other, the rounds of a greedy repetition
before the way without them. `forall_ways` is the induction that later facts
about ways are read off: they stay in the text, never lead back, and capture
the groups of the pattern and no others.
-/


namespace ChangeFeed

namespace Way

/-- The way has arrived at one of the places. -/
def arrives (ends : Places) (way : Way) : Bool := ends.has way.cursor.index

/-- The way is one through the text. -/
def IsOf (t : Text) (way : Way) : Prop := way.cursor ∈ Cursor.ofText t

/-- The way with one more character consumed, if there is one. -/
def next? (way : Way) : Option Way := way.cursor.next?.map fun cursor => ⟨cursor, way.captures⟩

/-- The way with what lies behind it since a place captured by a group. -/
def captured (index : Nat) (first : Cursor) (way : Way) : Way :=
  ⟨way.cursor, (index, first.textTo way.cursor) :: way.captures⟩

section Rounds

variable (round : Way → List Way)

/-- The ways on by exactly `n` rounds. -/
def rounds : Nat → Way → List Way
  | 0, way => [way]
  | n + 1, way => (round way).flatMap (rounds n)

/-- The ways on by at most `n` rounds, most rounds first if `greedy`. -/
def upTo (greedy : Bool) : Nat → Way → List Way
  | 0, way => [way]
  | n + 1, way =>
    if greedy then (round way).flatMap (upTo greedy n) ++ [way]
    else way :: (round way).flatMap (upTo greedy n)

/-- The ways on by any number of rounds that consume: there are at most as
many as characters. -/
def star (greedy : Bool) (way : Way) : List Way := upTo round greedy way.cursor.rest.length way

variable {round} {R : Way → Way → Prop} (hrefl : ∀ way, R way way)
  (htrans : ∀ {a b c}, R a b → R b c → R a c) (hround : ∀ way, ∀ next ∈ round way, R way next)

include hrefl htrans hround

/-- What holds along a round holds along all rounds. -/
theorem forall_rounds (n : Nat) {way next : Way} (h : next ∈ rounds round n way) :
    R way next := by
  induction n generalizing way with
  | zero =>
    rw [rounds, List.mem_singleton] at h
    exact h ▸ hrefl next
  | succ n ih =>
    obtain ⟨middle, hmiddle, hnext⟩ := List.mem_flatMap.1 h
    exact htrans (hround way middle hmiddle) (ih hnext)

theorem forall_upTo (greedy : Bool) (n : Nat) {way next : Way}
    (h : next ∈ upTo round greedy n way) : R way next := by
  induction n generalizing way with
  | zero =>
    rw [upTo, List.mem_singleton] at h
    exact h ▸ hrefl next
  | succ n ih =>
    have hcases : next = way ∨ next ∈ (round way).flatMap (upTo round greedy n) := by
      cases greedy <;> simpa [upTo, or_comm] using h
    rcases hcases with rfl | hmem
    · exact hrefl next
    · obtain ⟨middle, hmiddle, hnext⟩ := List.mem_flatMap.1 hmem
      exact htrans (hround way middle hmiddle) (ih hnext)

end Rounds

end Way

namespace Pattern

/-- **All ways on along a pattern**, the preferred ones first. -/
def ways : Pattern → Way → List Way
  | empty, way => [way]
  | char set, way => if way.cursor.rest.head?.any set.contains then way.next?.toList else []
  | anchor a, way => if a.holds way.cursor then [way] else []
  | seq first second, way => (first.ways way).flatMap fun next => second.ways next
  | choice first second, way => first.ways way ++ second.ways way
  | group index body, way => (body.ways way).map (Way.captured index way.cursor)
  | times body least none greedy, way =>
    (Way.rounds (fun next => body.ways next) least way).flatMap
      (Way.star (fun next => body.ways next) greedy)
  | times body least (some most) greedy, way =>
    (Way.rounds (fun next => body.ways next) least way).flatMap
      (Way.upTo (fun next => body.ways next) greedy (most - least))

/-- The pattern has a group of that number. -/
def hasGroup (index : Nat) : Pattern → Bool
  | empty | anchor _ | char _ => false
  | seq first second | choice first second => first.hasGroup index || second.hasGroup index
  | group other body => other = index || body.hasGroup index
  | times body _ _ _ => body.hasGroup index

/-- The pattern consumes a character at least. -/
def consumes : Pattern → Bool
  | empty | anchor _ => false
  | char _ => true
  | seq first second => first.consumes || second.consumes
  | choice first second => first.consumes && second.consumes
  | group _ body => body.consumes
  | times body least _ _ => body.consumes && 0 < least

/-- **What is repeated without bound consumes** in every round. -/
def isProgressive : Pattern → Bool
  | empty | anchor _ | char _ => true
  | seq first second | choice first second => first.isProgressive && second.isProgressive
  | group _ body => body.isProgressive
  | times body _ none _ => body.consumes && body.isProgressive
  | times body _ (some _) _ => body.isProgressive

variable {p : Pattern}

/-- A way along a repetition goes the rounds that there must be, and then
some more. -/
theorem mem_ways_times {least : Nat} {most : Option Nat} {greedy : Bool} {way next : Way}
    (h : next ∈ (times p least most greedy).ways way) :
    ∃ middle ∈ Way.rounds p.ways least way, ∃ n, next ∈ Way.upTo p.ways greedy n middle := by
  cases most with
  | none =>
    obtain ⟨middle, hmiddle, hnext⟩ := List.mem_flatMap.1 h
    exact ⟨middle, hmiddle, _, hnext⟩
  | some most =>
    obtain ⟨middle, hmiddle, hnext⟩ := List.mem_flatMap.1 h
    exact ⟨middle, hmiddle, _, hnext⟩

/-- **What holds along a pattern**: it has to hold along a character and
along the groups of the pattern, and from one stretch to the next. -/
theorem forall_ways {R : Way → Way → Prop} (hrefl : ∀ way, R way way)
    (htrans : ∀ {a b c}, R a b → R b c → R a c)
    (hnext : ∀ {way next}, way.next? = some next → R way next)
    (hgroup : ∀ index, p.hasGroup index = true → ∀ first way, R way (way.captured index first))
    {way next : Way} (h : next ∈ p.ways way) : R way next := by
  induction p generalizing way next with
  | empty =>
    rw [ways, List.mem_singleton] at h
    exact h ▸ hrefl next
  | char set =>
    rw [ways, List.mem_ite_nil_right, Option.mem_toList] at h
    exact hnext h.2
  | anchor a =>
    rw [ways, List.mem_ite_nil_right, List.mem_singleton] at h
    exact h.2 ▸ hrefl next
  | seq first second ih ih' =>
    obtain ⟨middle, hmiddle, hlast⟩ := List.mem_flatMap.1 h
    exact htrans (ih (fun i hi => hgroup i (by simp [hasGroup, hi])) hmiddle)
      (ih' (fun i hi => hgroup i (by simp [hasGroup, hi])) hlast)
  | choice first second ih ih' =>
    rcases List.mem_append.1 h with h | h
    · exact ih (fun i hi => hgroup i (by simp [hasGroup, hi])) h
    · exact ih' (fun i hi => hgroup i (by simp [hasGroup, hi])) h
  | group index body ih =>
    obtain ⟨found, hfound, rfl⟩ := List.mem_map.1 h
    exact htrans (ih (fun i hi => hgroup i (by simp [hasGroup, hi])) hfound)
      (hgroup index (by simp [hasGroup]) _ _)
  | times body least most greedy ih =>
    have hround : ∀ way, ∀ next ∈ body.ways way, R way next := fun _ _ h => ih hgroup h
    obtain ⟨middle, hmiddle, n, hlast⟩ := mem_ways_times h
    exact htrans (Way.forall_rounds hrefl htrans hround least hmiddle)
      (Way.forall_upTo hrefl htrans hround greedy n hlast)

/-- No way leads back. -/
theorem index_le {way next : Way} (h : next ∈ p.ways way) :
    way.cursor.index ≤ next.cursor.index := by
  refine forall_ways (R := fun way next => way.cursor.index ≤ next.cursor.index)
    (fun _ => Nat.le_refl _) Nat.le_trans ?_ (fun _ _ _ _ => Nat.le_refl _) h
  intro way next hnext
  obtain ⟨cursor, hcursor, rfl⟩ := Option.map_eq_some_iff.1 hnext
  have hindex : cursor.index = way.cursor.index + 1 := Cursor.index_of_next? hcursor
  exact hindex ▸ Nat.le_succ _

/-- What consumes leads on. -/
theorem index_lt_of_consumes (hp : p.consumes = true) {way next : Way} (h : next ∈ p.ways way) :
    way.cursor.index < next.cursor.index := by
  induction p generalizing way next with
  | empty => cases hp
  | anchor a => cases hp
  | char set =>
    rw [ways, List.mem_ite_nil_right, Option.mem_toList, Way.next?, Option.map_eq_some_iff] at h
    obtain ⟨-, cursor, hcursor, rfl⟩ := h
    have hindex : cursor.index = way.cursor.index + 1 := Cursor.index_of_next? hcursor
    exact hindex ▸ Nat.lt_succ_self _
  | seq first second ih ih' =>
    obtain ⟨middle, hmiddle, hlast⟩ := List.mem_flatMap.1 h
    rw [consumes, Bool.or_eq_true] at hp
    rcases hp with hp | hp
    · exact Nat.lt_of_lt_of_le (ih hp hmiddle) (index_le hlast)
    · exact Nat.lt_of_le_of_lt (index_le hmiddle) (ih' hp hlast)
  | choice first second ih ih' =>
    rw [consumes, Bool.and_eq_true] at hp
    rcases List.mem_append.1 h with h | h
    · exact ih hp.1 h
    · exact ih' hp.2 h
  | group index body ih =>
    obtain ⟨found, hfound, rfl⟩ := List.mem_map.1 h
    have hlt : way.cursor.index < found.cursor.index := ih hp hfound
    exact hlt
  | times body least most greedy ih =>
    rw [consumes, Bool.and_eq_true, decide_eq_true_eq] at hp
    -- the first of the rounds that there must be consumes already
    obtain ⟨n, rfl⟩ : ∃ n, least = n + 1 := ⟨least - 1, by omega⟩
    have hle : ∀ way, ∀ next ∈ body.ways way, way.cursor.index ≤ next.cursor.index :=
      fun _ _ h => index_le h
    obtain ⟨middle, hmiddle, m, hlast⟩ := mem_ways_times h
    obtain ⟨first, hfirst, hrounds⟩ := List.mem_flatMap.1 hmiddle
    calc way.cursor.index
        < first.cursor.index := ih hp.1 hfirst
      _ ≤ middle.cursor.index :=
          Way.forall_rounds (R := fun way next => way.cursor.index ≤ next.cursor.index)
            (fun _ => Nat.le_refl _) Nat.le_trans hle n hrounds
      _ ≤ next.cursor.index :=
          Way.forall_upTo (R := fun way next => way.cursor.index ≤ next.cursor.index)
            (fun _ => Nat.le_refl _) Nat.le_trans hle greedy m hlast

/-- **A pattern captures its own groups only.** -/
theorem get?_captures_of_mem_ways {index : Nat} (hindex : p.hasGroup index = false)
    {way next : Way} (h : next ∈ p.ways way) :
    next.captures.get? index = way.captures.get? index := by
  refine forall_ways (R := fun way next => next.captures.get? index = way.captures.get? index)
    (fun _ => rfl) (fun hab hbc => hbc.trans hab) ?_ ?_ h
  · intro way next hnext
    obtain ⟨cursor, -, rfl⟩ := Option.map_eq_some_iff.1 hnext
    rfl
  · intro other hother first way
    have hne : other ≠ index := by
      rintro rfl
      rw [hindex] at hother
      cases hother
    simp [Way.captured, Captures.get?, hne]

end Pattern

end ChangeFeed
