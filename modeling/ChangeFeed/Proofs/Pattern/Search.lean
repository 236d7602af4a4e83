import ChangeFeed.Proofs.Pattern.Ways
/-!
# Searching — the search takes the first way that arrives

The search never goes back on a choice; `Finds` says that it nevertheless
takes the first of the ways of a pattern that arrives where it is wanted.
There is one lemma for each form of a pattern, and `search_eq` puts them
together: a search gives the first way from the first place of the text that
has one. Repetitions without bound are covered where each of their rounds
consumes (`isProgressive`).
-/


namespace ChangeFeed

/-- Tests that agree on a list agree on whether one of it passes. -/
theorem any_congr_of_mem {α : Type} {l : List α} {p q : α → Bool} (h : ∀ a ∈ l, p a = q a) :
    l.any p = l.any q := by
  rw [Bool.eq_iff_iff, List.any_eq_true, List.any_eq_true]
  exact exists_congr fun a => and_congr_right fun ha => by rw [h a ha]

/-- The first success in a list of lists is in the first list that has one. -/
theorem find?_flatMap_of_any {α β : Type} {l : List α} {f : α → List β} {p : β → Bool}
    {q : α → Bool} (h : ∀ a ∈ l, q a = (f a).any p) :
    (l.flatMap f).find? p = (l.find? q).bind fun a => (f a).find? p := by
  induction l with
  | nil => rfl
  | cons a l ih =>
    have hrest := ih fun b hb => h b (List.mem_cons_of_mem a hb)
    have hfirst := h a List.mem_cons_self
    rw [List.flatMap_cons, List.find?_append, hrest]
    cases hany : (f a).any p with
    | true =>
      rw [List.find?_cons_of_pos (by rw [hfirst, hany]), Option.bind_some]
      obtain ⟨b, hb, hp⟩ := List.any_eq_true.1 hany
      cases hfind : (f a).find? p with
      | some found => rfl
      | none => exact absurd hp (List.find?_eq_none.1 hfind b hb)
    | false =>
      rw [List.find?_cons_of_neg (by rw [hfirst, hany]; exact Bool.false_ne_true)]
      have hnone : (f a).find? p = none := by
        rw [List.find?_eq_none]
        exact fun b hb hp => by simpa [hany] using List.any_eq_true.2 ⟨b, hb, hp⟩
      rw [hnone, Option.none_or]

/-- The first element that gives something is the first that passes, if
passing means to give something. -/
theorem find?_bind_eq_findSome? {α β : Type} {l : List α} {p : α → Bool} {f g : α → Option β}
    (hp : ∀ a ∈ l, p a = (g a).isSome) (hf : ∀ a ∈ l, f a = g a) :
    (l.find? p).bind f = l.findSome? g := by
  induction l with
  | nil => rfl
  | cons a l ih =>
    have hrest := ih (fun b hb => hp b (List.mem_cons_of_mem a hb))
      (fun b hb => hf b (List.mem_cons_of_mem a hb))
    have hpa := hp a List.mem_cons_self
    have hfa := hf a List.mem_cons_self
    cases hga : g a <;> simp_all

/-- **Going forwards finds the ways of a list, and going backwards the places
they start from.** -/
structure Finds (t : Text) (back : Places → Places) (go : Places → Way → Option Way)
    (ways : Way → List Way) : Prop where
  /-- The ways stay in the text. -/
  isOf : ∀ way, way.IsOf t → ∀ next ∈ ways way, next.IsOf t
  has_back : ∀ ends way, way.IsOf t →
    (back ends).has way.cursor.index = (ways way).any (Way.arrives ends)
  go_eq : ∀ ends way, way.IsOf t → go ends way = (ways way).find? (Way.arrives ends)

namespace Finds

variable {t : Text} {back back' : Places → Places} {go go' : Places → Way → Option Way}
variable {ways ways' : Way → List Way} {way : Way} {ends final : Places}

theorem ifAt_eq (ends : Places) (way : Way) : way.ifAt ends = [way].find? (Way.arrives ends) := by
  rw [List.find?_singleton]
  rfl

/-! ## What consumes at most one character -/

/-- Staying where a test is passed. -/
theorem stay (test : Cursor → Bool) :
    let route := Route.stay (Places.suchThat test (Cursor.ofText t))
    Finds t (route.starts t.length) (route.first? t.length)
      (fun way => if test way.cursor then [way] else []) where
  isOf way hway next hnext := by
    rw [List.mem_ite_nil_right, List.mem_singleton] at hnext
    exact hnext.2 ▸ hway
  has_back ends way hway := by
    rw [Route.starts, Places.has_meet, Places.has_suchThat test hway]
    cases test way.cursor <;> simp [Way.arrives]
  go_eq ends way hway := by
    rw [Route.first?, Places.has_suchThat test hway]
    cases test way.cursor with
    | true => exact ifAt_eq ends way
    | false => rfl

/-- A character of a set. -/
theorem step (set : CharSet) :
    let here (cursor : Cursor) := cursor.rest.head?.any set.contains
    let route := Route.step (Places.suchThat here (Cursor.ofText t))
    Finds t (route.starts t.length) (route.first? t.length) (Pattern.char set).ways where
  isOf way hway next hnext := by
    rw [Pattern.ways, List.mem_ite_nil_right, Option.mem_toList, Way.next?,
      Option.map_eq_some_iff] at hnext
    obtain ⟨-, cursor, hcursor, rfl⟩ := hnext
    exact Cursor.mem_of_next? hway hcursor
  has_back ends way hway := by
    rw [Route.starts, Places.has_meet, Places.has_suchThat _ hway, Places.has_before,
      Pattern.ways, Way.next?]
    cases hnext : way.cursor.next? with
    | none =>
      -- without a next character no set has it
      have hhead : way.cursor.rest.head? = none := by
        unfold Cursor.next? at hnext
        split at hnext
        · simp [*]
        · cases hnext
      simp [hhead]
    | some cursor =>
      have hindex : cursor.index = way.cursor.index + 1 := Cursor.index_of_next? hnext
      cases way.cursor.rest.head?.any set.contains <;> simp [Way.arrives, hindex]
  go_eq ends way hway := by
    rw [Route.first?, Places.has_suchThat _ hway, Pattern.ways, Way.next?]
    cases way.cursor.rest.head?.any set.contains with
    | false => rfl
    | true =>
      cases way.cursor.next? with
      | none => rfl
      | some cursor => exact ifAt_eq ends _

/-! ## One after the other, one or the other, and groups -/

theorem seq (h : Finds t back go ways) (h' : Finds t back' go' ways') :
    Finds t (fun ends => back (back' ends))
      (fun ends way => (go (back' ends) way).bind fun next => go' ends next)
      (fun way => (ways way).flatMap ways') where
  isOf way hway next hnext := by
    obtain ⟨middle, hmiddle, hnext⟩ := List.mem_flatMap.1 hnext
    exact h'.isOf middle (h.isOf way hway middle hmiddle) next hnext
  has_back ends way hway := by
    rw [h.has_back _ way hway, List.any_flatMap]
    refine any_congr_of_mem fun middle hmiddle => ?_
    exact h'.has_back ends middle (h.isOf way hway middle hmiddle)
  go_eq ends way hway := by
    have harrives : ∀ middle ∈ ways way,
        Way.arrives (back' ends) middle = (ways' middle).any (Way.arrives ends) :=
      fun middle hmiddle => h'.has_back ends middle (h.isOf way hway middle hmiddle)
    rw [find?_flatMap_of_any harrives, h.go_eq _ way hway]
    cases hfind : (ways way).find? (Way.arrives (back' ends)) with
    | none => rfl
    | some middle =>
      exact h'.go_eq ends middle (h.isOf way hway middle (List.mem_of_find?_eq_some hfind))

theorem choice (h : Finds t back go ways) (h' : Finds t back' go' ways') :
    Finds t (fun ends => (back ends).join (back' ends))
      (fun ends way => match go ends way with
        | some found => some found
        | none => go' ends way)
      (fun way => ways way ++ ways' way) where
  isOf way hway next hnext := by
    rcases List.mem_append.1 hnext with hnext | hnext
    · exact h.isOf way hway next hnext
    · exact h'.isOf way hway next hnext
  has_back ends way hway := by
    rw [Places.has_join, h.has_back ends way hway, h'.has_back ends way hway, List.any_append]
  go_eq ends way hway := by
    rw [List.find?_append, ← h.go_eq ends way hway, ← h'.go_eq ends way hway]
    cases go ends way <;> rfl

theorem group (index : Nat) (h : Finds t back go ways) :
    Finds t back
      (fun ends way => (go ends way).map fun next =>
        ⟨next.cursor, (index, way.cursor.textTo next.cursor) :: next.captures⟩)
      (fun way => (ways way).map (Way.captured index way.cursor)) where
  isOf way hway next hnext := by
    obtain ⟨found, hfound, rfl⟩ := List.mem_map.1 hnext
    exact h.isOf way hway found hfound
  has_back ends way hway := by
    rw [h.has_back ends way hway, List.any_map]
    rfl
  go_eq ends way hway := by
    rw [h.go_eq ends way hway, List.find?_map]
    rfl

/-! ## Rounds -/

theorem isOf_rounds (h : Finds t back go ways) (n : Nat) (hway : way.IsOf t) {next : Way}
    (hnext : next ∈ Way.rounds ways n way) : next.IsOf t :=
  Way.forall_rounds (R := fun way next => way.IsOf t → next.IsOf t) (fun _ => id)
    (fun hab hbc ha => hbc (hab ha)) (fun way next hnext hway => h.isOf way hway next hnext)
    n hnext hway

theorem isOf_upTo (h : Finds t back go ways) (greedy : Bool) (n : Nat) (hway : way.IsOf t)
    {next : Way} (hnext : next ∈ Way.upTo ways greedy n way) : next.IsOf t :=
  Way.forall_upTo (R := fun way next => way.IsOf t → next.IsOf t) (fun _ => id)
    (fun hab hbc ha => hbc (hab ha)) (fun way next hnext hway => h.isOf way hway next hnext)
    greedy n hnext hway

theorem has_repeated (h : Finds t back go ways) (ends : Places) (n : Nat) (hway : way.IsOf t) :
    (Places.repeated back n ends).has way.cursor.index =
      (Way.rounds ways n way).any (Way.arrives ends) := by
  rw [Places.repeated_eq_iterate]
  induction n generalizing way with
  | zero => simp [Way.rounds, Way.arrives]
  | succ n ih =>
    rw [Function.iterate_succ_apply', h.has_back _ way hway, Way.rounds, List.any_flatMap]
    exact any_congr_of_mem fun next hnext => ih (h.isOf way hway next hnext)

theorem has_grown (h : Finds t back go ways) (greedy : Bool) (ends : Places) (n : Nat)
    (hway : way.IsOf t) :
    (Places.grown back ends n).has way.cursor.index =
      (Way.upTo ways greedy n way).any (Way.arrives ends) := by
  rw [Places.grown, Places.repeated_eq_iterate]
  induction n generalizing way with
  | zero => simp [Way.upTo, Way.arrives]
  | succ n ih =>
    have hrounds : (ways way).any (Way.arrives ((fun s => ends.join (back s))^[n] ends)) =
        (ways way).any fun next => (Way.upTo ways greedy n next).any (Way.arrives ends) :=
      any_congr_of_mem fun next hnext => ih (h.isOf way hway next hnext)
    rw [Function.iterate_succ_apply', Places.has_join, h.has_back _ way hway, hrounds,
      ← List.any_flatMap, Way.upTo]
    cases greedy <;> simp [Way.arrives, Bool.or_comm]

/-- Some rounds and then what is last. -/
theorem exactly_eq (h : Finds t back go ways) {last : Way → Option Way} {lastWays : Way → List Way}
    (hhas : ∀ way, way.IsOf t → ends.has way.cursor.index =
      (lastWays way).any (Way.arrives final))
    (hlast : ∀ way, way.IsOf t → last way = (lastWays way).find? (Way.arrives final))
    (n : Nat) (hway : way.IsOf t) :
    Way.exactly go back ends last n way =
      ((Way.rounds ways n way).flatMap lastWays).find? (Way.arrives final) := by
  induction n generalizing way with
  | zero => simp [Way.exactly, Way.rounds, hlast way hway]
  | succ n ih =>
    have hof : ∀ next ∈ ways way, next.IsOf t := h.isOf way hway
    have harrives : ∀ next ∈ ways way, Way.arrives (Places.repeated back n ends) next =
        ((Way.rounds ways n next).flatMap lastWays).any (Way.arrives final) := by
      intro next hnext
      rw [Way.arrives, h.has_repeated ends n (hof next hnext), List.any_flatMap]
      exact any_congr_of_mem fun other hother =>
        hhas other (h.isOf_rounds n (hof next hnext) hother)
    rw [Way.exactly, Way.rounds, List.flatMap_assoc, find?_flatMap_of_any harrives,
      h.go_eq _ way hway]
    cases hfind : (ways way).find? (Way.arrives (Places.repeated back n ends)) with
    | none => rfl
    | some next => exact ih (hof next (List.mem_of_find?_eq_some hfind))

/-- **One more round, or not.** If going through a round arrives where the
rest of the way begins, a repetition takes the first way of its list. -/
theorem round_eq (greedy : Bool) {middle : Places} {goRest : Way → Option Way}
    {rest : Way → List Way}
    (hmiddle : ∀ next ∈ ways way, Way.arrives middle next = (rest next).any (Way.arrives ends))
    (hrest : ∀ next ∈ ways way, goRest next = (rest next).find? (Way.arrives ends)) :
    (if !greedy && ends.has way.cursor.index then some way
      else match (ways way).find? (Way.arrives middle) with
        | some next => goRest next
        | none => way.ifAt ends) =
      (if greedy then (ways way).flatMap rest ++ [way]
        else way :: (ways way).flatMap rest).find? (Way.arrives ends) := by
  have hfind := find?_flatMap_of_any hmiddle
  cases hnext : (ways way).find? (Way.arrives middle) with
  | none =>
    rw [hnext, Option.bind_none] at hfind
    rw [ifAt_eq]
    cases greedy <;> cases hends : ends.has way.cursor.index <;>
      simp [List.find?_append, hfind, Way.arrives, hends]
  | some next =>
    have hmem := List.mem_of_find?_eq_some hnext
    have harrives : (rest next).any (Way.arrives ends) = true := by
      rw [← hmiddle next hmem]
      exact List.find?_some hnext
    obtain ⟨found, hfound⟩ := Option.isSome_iff_exists.1
      (List.find?_isSome.2 (List.any_eq_true.1 harrives))
    rw [hnext, Option.bind_some, hfound] at hfind
    cases greedy <;> cases hends : ends.has way.cursor.index <;>
      simp [List.find?_append, hfind, hrest next hmem, hfound, Way.arrives, hends]

/-- At most so many rounds. -/
theorem atMost_eq (h : Finds t back go ways) (greedy : Bool) (ends : Places) (n : Nat)
    (hway : way.IsOf t) :
    Way.atMost go back greedy ends n way =
      (Way.upTo ways greedy n way).find? (Way.arrives ends) := by
  induction n generalizing way with
  | zero => exact ifAt_eq ends way
  | succ n ih =>
    rw [Way.atMost, Way.upTo, h.go_eq _ way hway]
    refine round_eq greedy (fun next hnext => ?_) (fun next hnext => ?_)
    · exact h.has_grown greedy ends n (h.isOf way hway next hnext)
    · exact ih (h.isOf way hway next hnext)

/-! ## Rounds that consume -/

section Consuming

variable (h : Finds t back go ways)
  (hconsumes : ∀ way, ∀ next ∈ ways way, way.cursor.index < next.cursor.index)

include h hconsumes

/-- What is left of the text gets shorter in every round. -/
theorem length_lt (hway : way.IsOf t) {next : Way} (hnext : next ∈ ways way) :
    next.cursor.rest.length < way.cursor.rest.length := by
  have hlt := hconsumes way next hnext
  have hsum := (Cursor.index_add_length hway).2
  have hsum' := (Cursor.index_add_length (h.isOf way hway next hnext)).2
  omega

/-- More rounds than characters are left make no difference. -/
theorem upTo_eq_star (greedy : Bool) {n : Nat} (hway : way.IsOf t)
    (hn : way.cursor.rest.length ≤ n) : Way.upTo ways greedy n way = Way.star ways greedy way := by
  -- any two sufficient numbers of rounds give the same list
  have hany : ∀ n m way, way.IsOf t → way.cursor.rest.length ≤ n → way.cursor.rest.length ≤ m →
      Way.upTo ways greedy n way = Way.upTo ways greedy m way := by
    have hend : ∀ n way, way.IsOf t → way.cursor.rest.length = 0 →
        Way.upTo ways greedy n way = [way] := by
      intro n way hway hlength
      have hnil : ways way = [] := by
        rw [List.eq_nil_iff_forall_not_mem]
        intro next hnext
        have hlt := h.length_lt hconsumes hway hnext
        omega
      cases n with
      | zero => rfl
      | succ n => cases greedy <;> simp [Way.upTo, hnil]
    intro n
    induction n with
    | zero =>
      intro m way hway hn hm
      rw [hend 0 way hway (by omega), hend m way hway (by omega)]
    | succ n ih =>
      intro m way hway hn hm
      cases m with
      | zero => rw [hend _ way hway (by omega), hend _ way hway (by omega)]
      | succ m =>
        have hrest : (ways way).flatMap (Way.upTo ways greedy n) =
            (ways way).flatMap (Way.upTo ways greedy m) := by
          refine List.flatMap_congr fun next hnext => ?_
          have hlt := h.length_lt hconsumes hway hnext
          exact ih m next (h.isOf way hway next hnext) (by omega) (by omega)
        rw [Way.upTo, Way.upTo, hrest]
  exact hany n _ way hway hn (Nat.le_refl _)

/-- **A repetition without bound** is one more round and the same again, or
no more. -/
theorem star_eq (greedy : Bool) (hway : way.IsOf t) :
    Way.star ways greedy way =
      if greedy then (ways way).flatMap (Way.star ways greedy) ++ [way]
      else way :: (ways way).flatMap (Way.star ways greedy) := by
  have hrest : (ways way).flatMap (Way.upTo ways greedy way.cursor.rest.length) =
      (ways way).flatMap (Way.star ways greedy) := by
    refine List.flatMap_congr fun next hnext => ?_
    have hlt := h.length_lt hconsumes hway hnext
    exact h.upTo_eq_star hconsumes greedy (h.isOf way hway next hnext) (by omega)
  rw [← hrest, ← h.upTo_eq_star hconsumes greedy hway (Nat.le_succ _), Way.upTo]

theorem has_loop (greedy : Bool) (ends : Places) (hway : way.IsOf t) :
    (Places.grown back ends t.length).has way.cursor.index =
      (Way.star ways greedy way).any (Way.arrives ends) := by
  have hsum := (Cursor.index_add_length hway).2
  rw [h.has_grown greedy ends _ hway, h.upTo_eq_star hconsumes greedy hway (by omega)]

theorem consuming_eq (greedy : Bool) (ends : Places) (n : Nat) (hway : way.IsOf t)
    (hn : way.cursor.rest.length ≤ n) :
    Way.consuming go greedy (Places.grown back ends t.length) ends n way =
      (Way.star ways greedy way).find? (Way.arrives ends) := by
  induction n generalizing way with
  | zero => rw [← h.upTo_eq_star hconsumes greedy hway hn]; exact ifAt_eq ends way
  | succ n ih =>
    rw [h.star_eq hconsumes greedy hway, Way.consuming, h.go_eq _ way hway]
    refine round_eq greedy (fun next hnext => ?_) (fun next hnext => ?_)
    · -- every place that a round leads to is behind the one it comes from
      rw [Way.arrives, Places.has_behind, decide_eq_true (hconsumes way next hnext), Bool.true_and]
      exact h.has_loop hconsumes greedy ends (h.isOf way hway next hnext)
    · have hlt := h.length_lt hconsumes hway hnext
      exact ih (h.isOf way hway next hnext) (by omega)

theorem oneOrMore_eq (greedy : Bool) (ends : Places) (hway : way.IsOf t) :
    Way.oneOrMore go greedy (Places.grown back ends t.length) ends t.length way =
      ((ways way).flatMap (Way.star ways greedy)).find? (Way.arrives ends) := by
  have hmiddle : ∀ next ∈ ways way,
      Way.arrives (((Places.grown back ends t.length).behind way.cursor.index).join
        (ends.only way.cursor.index)) next =
      (Way.star ways greedy next).any (Way.arrives ends) := by
    intro next hnext
    have hlt := hconsumes way next hnext
    rw [Way.arrives, Places.has_join, Places.has_behind, decide_eq_true hlt, Bool.true_and,
      Places.has_only, decide_eq_false (Nat.ne_of_lt hlt), Bool.false_and, Bool.or_false]
    exact h.has_loop hconsumes greedy ends (h.isOf way hway next hnext)
  rw [find?_flatMap_of_any hmiddle, Way.oneOrMore, h.go_eq _ way hway]
  cases hfind : (ways way).find? _ with
  | none => rfl
  | some next =>
    have hnext := List.mem_of_find?_eq_some hfind
    have hsum := (Cursor.index_add_length (h.isOf way hway next hnext)).2
    simp only [if_pos (hconsumes way next hnext), Option.bind_some]
    exact h.consuming_eq hconsumes greedy ends _ (h.isOf way hway next hnext) (by omega)

end Consuming

/-! ## Repetitions -/

theorem rounds_succ (n : Nat) (way : Way) :
    Way.rounds ways (n + 1) way = (Way.rounds ways n way).flatMap ways := by
  induction n generalizing way with
  | zero => simp [Way.rounds]
  | succ n ih =>
    rw [Way.rounds, Way.rounds, List.flatMap_assoc]
    exact List.flatMap_congr fun next _ => ih next

/-- A repetition with a bound. -/
theorem bounded (h : Finds t back go ways) (least most : Nat) (greedy : Bool) :
    Finds t
      (fun ends => Places.repeated back least (Places.grown back ends (most - least)))
      (fun ends => Way.exactly go back (Places.grown back ends (most - least))
        (Way.atMost go back greedy ends (most - least)) least)
      (fun way => (Way.rounds ways least way).flatMap (Way.upTo ways greedy (most - least))) where
  isOf way hway next hnext := by
    obtain ⟨middle, hmiddle, hnext⟩ := List.mem_flatMap.1 hnext
    exact h.isOf_upTo greedy _ (h.isOf_rounds least hway hmiddle) hnext
  has_back ends way hway := by
    rw [h.has_repeated _ least hway, List.any_flatMap]
    refine any_congr_of_mem fun next hnext => ?_
    exact h.has_grown greedy ends _ (h.isOf_rounds least hway hnext)
  go_eq ends way hway :=
    h.exactly_eq (fun _ hway => h.has_grown greedy ends _ hway)
      (fun _ hway => h.atMost_eq greedy ends _ hway) least hway

/-- A repetition without bound. -/
theorem unbounded (h : Finds t back go ways)
    (hconsumes : ∀ way, ∀ next ∈ ways way, way.cursor.index < next.cursor.index)
    (least : Nat) (greedy : Bool) {times : Places → Way → Option Way}
    (htimes : ∀ ends way, way.IsOf t → times ends way =
      ((Way.rounds ways least way).flatMap (Way.star ways greedy)).find? (Way.arrives ends)) :
    Finds t
      (fun ends => Places.repeated back least (Places.grown back ends t.length))
      times (fun way => (Way.rounds ways least way).flatMap (Way.star ways greedy)) where
  isOf way hway next hnext := by
    obtain ⟨middle, hmiddle, hnext⟩ := List.mem_flatMap.1 hnext
    exact h.isOf_upTo greedy _ (h.isOf_rounds least hway hmiddle) hnext
  has_back ends way hway := by
    rw [h.has_repeated _ least hway, List.any_flatMap]
    refine any_congr_of_mem fun next hnext => ?_
    exact h.has_loop hconsumes greedy ends (h.isOf_rounds least hway hnext)
  go_eq := htimes

end Finds

namespace Pattern

variable {t : Text} {p : Pattern}

/-- **Going along a pattern finds its ways.** -/
theorem finds_route (hp : p.isProgressive = true) :
    Finds t ((p.route (Cursor.ofText t)).starts t.length)
      ((p.route (Cursor.ofText t)).first? t.length) p.ways := by
  induction p with
  | empty => exact Finds.stay fun _ => true
  | char set => exact Finds.step set
  | anchor a => exact Finds.stay a.holds
  | seq first second ih ih' =>
    rw [isProgressive, Bool.and_eq_true] at hp
    exact (ih hp.1).seq (ih' hp.2)
  | choice first second ih ih' =>
    rw [isProgressive, Bool.and_eq_true] at hp
    exact (ih hp.1).choice (ih' hp.2)
  | group index body ih => exact (ih hp).group index
  | times body least most greedy ih =>
    cases most with
    | some most =>
      cases least <;> exact (ih hp).bounded _ most greedy
    | none =>
      rw [isProgressive, Bool.and_eq_true] at hp
      have hbody := ih hp.2
      have hconsumes : ∀ way, ∀ next ∈ body.ways way, way.cursor.index < next.cursor.index :=
        fun _ _ h => index_lt_of_consumes hp.1 h
      refine hbody.unbounded hconsumes least greedy fun ends way hway => ?_
      cases least with
      | zero =>
        have hmore := hbody.oneOrMore_eq hconsumes greedy ends hway
        rw [Way.rounds, List.flatMap_singleton, hbody.star_eq hconsumes greedy hway, route,
          Route.first?, hmore, Finds.ifAt_eq]
        cases greedy with
        | true =>
          rw [if_pos rfl, if_pos rfl, List.find?_append]
          cases List.find? (Way.arrives ends) _ <;> rfl
        | false =>
          rw [if_neg Bool.false_ne_true, if_neg Bool.false_ne_true]
          cases hends : ends.has way.cursor.index <;> simp [Way.arrives, hends]
      | succ least =>
        rw [Finds.rounds_succ, List.flatMap_assoc]
        refine hbody.exactly_eq (fun way hway => ?_)
          (fun way hway => hbody.oneOrMore_eq hconsumes greedy ends hway) least hway
        rw [hbody.has_back _ way hway, List.any_flatMap]
        exact any_congr_of_mem fun next hnext =>
          hbody.has_loop hconsumes greedy ends (hbody.isOf way hway next hnext)

/-- **A search is leftmost and goes by preference.** It gives the groups of
the first way from the first place of the text that has one. -/
theorem search_eq (hp : p.isProgressive = true) (t : Text) :
    p.search t = (Cursor.ofText t).findSome? fun cursor =>
      (p.ways ⟨cursor, []⟩).head?.map Way.captures := by
  have hfinds := finds_route (t := t) hp
  let ends := Places.suchThat (fun _ => true) (Cursor.ofText t)
  have hends : ∀ cursor ∈ Cursor.ofText t, ∀ next ∈ p.ways ⟨cursor, []⟩,
      Way.arrives ends next = true := by
    intro cursor hcursor next hnext
    -- every place of the text is one where a match may end
    exact Places.has_suchThat _ (hfinds.isOf ⟨cursor, []⟩ hcursor next hnext)
  have hstart : ∀ cursor ∈ Cursor.ofText t,
      ((p.route (Cursor.ofText t)).starts t.length ends).has cursor.index =
        ((p.ways ⟨cursor, []⟩).head?.map Way.captures).isSome := by
    intro cursor hcursor
    have hback := hfinds.has_back ends ⟨cursor, []⟩ hcursor
    rw [hback, Option.isSome_map]
    cases hways : p.ways ⟨cursor, []⟩ with
    | nil => rfl
    | cons next rest => simp [hends cursor hcursor next (by simp [hways])]
  have hfirst : ∀ cursor ∈ Cursor.ofText t,
      ((p.route (Cursor.ofText t)).first? t.length ends ⟨cursor, []⟩).map Way.captures =
        (p.ways ⟨cursor, []⟩).head?.map Way.captures := by
    intro cursor hcursor
    rw [hfinds.go_eq ends ⟨cursor, []⟩ hcursor]
    cases hways : p.ways ⟨cursor, []⟩ with
    | nil => rfl
    | cons next rest => simp [hends cursor hcursor next (by simp [hways])]
  exact find?_bind_eq_findSome? hstart hfirst

end Pattern

end ChangeFeed
