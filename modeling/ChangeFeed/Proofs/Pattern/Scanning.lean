import ChangeFeed.Proofs.Pattern.Search
import ChangeFeed.Proofs.Pattern.Sets
import ChangeFeed.Proofs.Text.Words
/-!
# Scanning — a pattern and what comes after it

`Pattern.first` goes along a pattern for the sake of what comes after: it is
the answer of the continuation at the first way that has one. In this form a
sequence is a composition (`first_sequence`), and the way that a greedy run
takes is decided by the continuation alone. Where that refuses to go on inside
a run the longest run is the only one (`first_run`), so between gaps a run of
other characters is a whole word (`first_word`), and the letters of a keyword
are one up to case (`first_keyword`).
-/


namespace ChangeFeed

namespace Cursor

/-- The place so many characters on, or the end of the text. -/
def skip : Nat → Cursor → Cursor
  | 0, cursor => cursor
  | n + 1, cursor => match cursor.next? with
    | none => cursor
    | some next => skip n next

variable (n : Nat) (cursor : Cursor)

theorem rest_skip : (cursor.skip n).rest = cursor.rest.drop n := by
  induction n generalizing cursor with
  | zero => rfl
  | succ n ih =>
    obtain ⟨index, before, t⟩ := cursor
    cases t with
    | nil => rfl
    | cons c t => exact ih _

theorem index_skip : (cursor.skip n).index = cursor.index + min n cursor.rest.length := by
  induction n generalizing cursor with
  | zero => simp [skip]
  | succ n ih =>
    obtain ⟨index, before, t⟩ := cursor
    cases t with
    | nil => rfl
    | cons c t =>
      have hskip : (skip (n + 1) ⟨index, before, c :: t⟩).index = index + 1 + min n t.length :=
        ih _
      have hlength : min (n + 1) (c :: t).length = min n t.length + 1 :=
        Nat.succ_min_succ n t.length
      rw [hskip, hlength]
      exact Nat.add_right_comm index 1 _

theorem textTo_skip : cursor.textTo (cursor.skip n) = cursor.rest.take n := by
  rw [textTo, index_skip, Nat.add_sub_cancel_left, ← List.take_eq_take_min]

end Cursor

namespace Way

/-- The text after the way. -/
def rest (way : Way) : Text := way.cursor.rest

/-- The way so many characters on, or to the end of the text. -/
def skip (n : Nat) (way : Way) : Way := ⟨way.cursor.skip n, way.captures⟩

variable (n : Nat) (way : Way)

@[simp] theorem skip_zero : way.skip 0 = way := rfl

@[simp] theorem captures_skip : (way.skip n).captures = way.captures := rfl

@[simp] theorem rest_skip : (way.skip n).rest = way.rest.drop n := way.cursor.rest_skip n

@[simp] theorem rest_captured (index : Nat) (first : Cursor) :
    (way.captured index first).rest = way.rest := rfl

theorem captured_skip (index : Nat) :
    (way.skip n).captured index way.cursor =
      ⟨way.cursor.skip n, (index, way.rest.take n) :: way.captures⟩ := by
  rw [captured, skip, Cursor.textTo_skip, rest]

theorem next?_of_rest {way : Way} {c : Char} {t : Text} (h : way.rest = c :: t) :
    way.next? = some (way.skip 1) := by
  obtain ⟨⟨index, before, rest⟩, captures⟩ := way
  cases h
  rfl

theorem skip_succ {way : Way} {c : Char} {t : Text} (h : way.rest = c :: t) :
    way.skip (n + 1) = (way.skip 1).skip n := by
  obtain ⟨⟨index, before, rest⟩, captures⟩ := way
  cases h
  rfl

theorem mem_upTo (round : Way → List Way) (greedy : Bool) : way ∈ upTo round greedy n way := by
  cases n <;> cases greedy <;> simp [upTo]

end Way

namespace Pattern

variable {α : Type}

theorem findSome?_flatMap {β γ : Type} (l : List β) (f : β → List γ) (g : γ → Option α) :
    (l.flatMap f).findSome? g = l.findSome? fun b => (f b).findSome? g := by
  induction l with
  | nil => rfl
  | cons b l ih =>
    rw [List.flatMap_cons, List.findSome?_append, List.findSome?_cons, ih]
    cases (f b).findSome? g <;> rfl

/-- **A pattern with a continuation**: what that gives at the first way along
the pattern at which it gives anything. -/
def first (p : Pattern) (k : Way → Option α) (way : Way) : Option α := (p.ways way).findSome? k

variable {p q : Pattern} {k : Way → Option α} {way : Way}

theorem first_seq : (seq p q).first k = p.first (q.first k) := by
  funext way
  exact findSome?_flatMap _ _ _

/-- **One pattern after the other** is one continuation inside the other. -/
theorem first_sequence (ps : List Pattern) : (sequence ps).first k = ps.foldr first k := by
  cases ps with
  | nil =>
    funext way
    simp [sequence, first, ways]
  | cons p ps =>
    have hfoldl : ∀ p : Pattern, (ps.foldl seq p).first k = p.first (ps.foldr first k) := by
      induction ps with
      | nil => exact fun _ => rfl
      | cons q ps ih =>
        intro p
        rw [List.foldl_cons, ih, first_seq, List.foldr_cons]
    exact hfoldl p

theorem first_choice : (choice p q).first k way = (p.first k way).or (q.first k way) :=
  List.findSome?_append

theorem first_group (index : Nat) :
    (group index p).first k way = p.first (fun next => k (next.captured index way.cursor)) way :=
  List.findSome?_map

/-- What may be left out is left out if the continuation does not go on
behind it. -/
theorem first_optional : (times p 0 (some 1) true).first k way = (p.first k way).or (k way) := by
  simp [first, ways, Way.rounds, Way.upTo, List.findSome?_append]

/-- If all ways get the same answer it does not matter which is taken. -/
theorem first_of_forall {a : α} (hp : p.ways way ≠ []) (h : ∀ next ∈ p.ways way, k next = some a) :
    p.first k way = some a := by
  obtain ⟨next, others, hways⟩ := List.exists_cons_of_ne_nil hp
  have hnext : k next = some a := h next (by simp [hways])
  rw [first, hways, List.findSome?_cons, hnext]

/-- A continuation that always goes on gets the preferred way. -/
theorem first_some (g : Way → α) :
    p.first (fun next => some (g next)) way = (p.ways way).head?.map g := by
  rw [first]
  cases p.ways way <;> rfl

/-- There is a way along what need not be there. -/
theorem ways_times_ne_nil (most : Option Nat) (greedy : Bool) :
    (times p 0 most greedy).ways way ≠ [] := by
  have hmem : ∀ n, Way.upTo p.ways greedy n way ≠ [] :=
    fun n => List.ne_nil_of_mem (Way.mem_upTo n way p.ways greedy)
  cases most with
  | none => simpa [ways, Way.rounds, Way.star] using hmem _
  | some most => simpa [ways, Way.rounds] using hmem _

/-! ## Characters -/

theorem ways_char (set : CharSet) :
    (char set).ways way = if way.rest.head?.any set.contains then [way.skip 1] else [] := by
  cases hrest : way.rest with
  | nil => simp [ways, show way.cursor.rest = [] from hrest]
  | cons c t =>
    rw [ways, Way.next?_of_rest hrest, show way.cursor.rest = c :: t from hrest]
    rfl

theorem first_char (set : CharSet) :
    (char set).first k way = if way.rest.head?.any set.contains then k (way.skip 1) else none := by
  rw [first, ways_char]
  split
  · simp
  · rfl

/-- The letters of a keyword, in either case. -/
def letters (s : Text) : List Pattern :=
  s.map fun c => char (PatternFlags.literal { ignoreCase := true } c)

theorem first_letters {s : Text} (hs : s ⊆ keywordLetters) :
    (letters s).foldr first k way =
      if Text.sameLetters (way.rest.take s.length) s then k (way.skip s.length) else none := by
  induction s generalizing way with
  | nil => simp [letters, Text.sameLetters]
  | cons c s ih =>
    have hfold : (letters (c :: s)).foldr first k =
        (char (PatternFlags.literal { ignoreCase := true } c)).first ((letters s).foldr first k) :=
      rfl
    rw [hfold, first_char, ih (List.subset_of_cons_subset hs)]
    cases hrest : way.rest with
    | nil => rfl
    | cons d t =>
      have hd := contains_literal (hs List.mem_cons_self) d
      rw [List.head?_cons, Option.any_some, hd, List.length_cons, List.take_succ_cons,
        Text.sameLetters_cons, Way.skip_succ s.length hrest, Way.rest_skip, hrest, List.drop_one,
        List.tail_cons]
      cases d.toLower == c.toLower <;> simp

/-! ## Runs -/

/-- One or more characters of a set, as many as there can be. -/
def run (set : CharSet) : Pattern := times (char set) 1 none true

/-- The longest run comes first, and every other way stops inside of it. -/
theorem star_char (set : CharSet) (way : Way) :
    ∃ others, Way.star (char set).ways true way =
        way.skip (way.rest.takeWhile set.contains).length :: others ∧
      ∀ other ∈ others, other.rest.head?.any set.contains = true := by
  have hupTo : ∀ t : Text, ∀ way : Way, way.rest = t →
      ∃ others, Way.upTo (char set).ways true t.length way =
          way.skip (t.takeWhile set.contains).length :: others ∧
        ∀ other ∈ others, other.rest.head?.any set.contains = true := by
    intro t
    induction t with
    | nil => exact fun way _ => ⟨[], rfl, fun _ h => by cases h⟩
    | cons c t ih =>
      intro way hrest
      have hhead : way.rest.head?.any set.contains = set.contains c := by rw [hrest]; rfl
      rw [List.length_cons, Way.upTo, if_pos rfl, ways_char, hhead]
      cases hc : set.contains c with
      | false => exact ⟨[], by simp [hc], fun _ h => by cases h⟩
      | true =>
        obtain ⟨others, hways, hothers⟩ := ih (way.skip 1) (by simp [hrest])
        refine ⟨others ++ [way], ?_, ?_⟩
        · rw [if_pos rfl, List.flatMap_singleton, hways, List.takeWhile_cons_of_pos hc,
            List.length_cons, Way.skip_succ (t.takeWhile set.contains).length hrest,
            List.cons_append]
        · intro other hother
          rcases List.mem_append.1 hother with hother | hother
          · exact hothers other hother
          · rw [List.mem_singleton.1 hother, hhead, hc]
  exact hupTo way.rest way rfl

/-- **A greedy run is the longest one**, if a continuation that refuses it
refuses every shorter one as well. -/
theorem first_run (set : CharSet)
    (hk : ∀ other : Way, other.rest.head?.any set.contains = true →
      k (way.skip (way.rest.takeWhile set.contains).length) = none → k other = none) :
    (run set).first k way =
      if way.rest.head?.any set.contains then k (way.skip (way.rest.takeWhile set.contains).length)
      else none := by
  have hways : (run set).ways way =
      ((char set).ways way).flatMap (Way.star (char set).ways true) := by
    simp [run, ways, Way.rounds]
  rw [first, hways, ways_char]
  cases hrest : way.rest with
  | nil => rfl
  | cons c t =>
    rw [List.head?_cons, Option.any_some]
    cases hc : set.contains c with
    | false => rfl
    | true =>
      obtain ⟨others, hstar, hothers⟩ := star_char set (way.skip 1)
      have hlongest : (way.skip 1).skip ((way.skip 1).rest.takeWhile set.contains).length =
          way.skip (way.rest.takeWhile set.contains).length := by
        rw [Way.rest_skip, hrest, List.drop_one, List.tail_cons, List.takeWhile_cons_of_pos hc,
          List.length_cons, Way.skip_succ (t.takeWhile set.contains).length hrest]
      rw [if_pos rfl, if_pos rfl, List.flatMap_singleton, hstar, hlongest, List.findSome?_cons,
        ← hrest]
      cases hanswer : k (way.skip (way.rest.takeWhile set.contains).length) with
      | some a => rfl
      | none =>
        exact List.findSome?_eq_none_iff.2 fun other hother =>
          hk other (hothers other hother) hanswer

/-! ## Words and gaps -/

/-- The characters of words. -/
def wordSet : CharSet := .negated (.anyCase .space)

theorem contains_wordSet : wordSet.contains = fun c => !isSpace c := by
  funext c
  rw [wordSet, CharSet.contains, contains_anyCase_space]

/-- **A run of other characters is a whole word**, if a continuation that
refuses it refuses every part of it as well. -/
theorem first_word
    (hk : ∀ other : Way, other.rest.atWord = true →
      k (way.skip way.rest.firstWord.length) = none → k other = none) :
    (run wordSet).first k way =
      if way.rest.atWord then k (way.skip way.rest.firstWord.length) else none := by
  have hlength : (way.rest.takeWhile wordSet.contains).length = way.rest.firstWord.length := by
    rw [contains_wordSet, Text.firstWord]
  have hhead : ∀ t : Text, t.head?.any wordSet.contains = t.atWord := by
    intro t
    rw [contains_wordSet, Text.atWord]
  rw [first_run wordSet, hlength, hhead]
  intro other hother hnone
  rw [hlength] at hnone
  exact hk other ((hhead _).symm.trans hother) hnone

/-- A gap goes up to the next word, if the continuation only goes on at words. -/
theorem first_gap
    (hk : ∀ other : Way, other.rest.head?.any isSpace = true → k other = none) :
    (run .space).first k way =
      if way.rest.head?.any isSpace then k (way.skip (way.rest.takeWhile isSpace).length)
      else none :=
  first_run .space fun other hother _ => hk other hother

/-- A keyword is one word, however its letters are written. -/
theorem isUnbroken_of_sameLetters {s t : Text} (hs : s ⊆ keywordLetters)
    (h : t.sameLetters s = true) : t.IsUnbroken := by
  induction t generalizing s with
  | nil => exact fun c hc => by cases hc
  | cons d t ih =>
    cases s with
    | nil => simp [Text.sameLetters] at h
    | cons c s =>
      rw [Text.sameLetters_cons, Bool.and_eq_true, beq_iff_eq] at h
      have hc : c ∈ keywordLetters := hs List.mem_cons_self
      obtain ⟨hupper, hspace, hspace', -⟩ := of_mem_keywordLetters hc
      have hd : isSpace d = false := by
        rcases (toLower_eq_toLower_iff hupper).1 h.1 with rfl | rfl
        · exact hspace'
        · exact hspace
      have ht : Text.IsUnbroken t := ih (List.subset_of_cons_subset hs) h.2
      intro e he
      rcases List.mem_cons.1 he with rfl | he
      · exact hd
      · exact ht e he

/-- **The letters of a keyword are a whole word** up to case, if the
continuation only goes on at gaps. -/
theorem first_keyword {s : Text} (hs : s ⊆ keywordLetters)
    (hk : ∀ other : Way, other.rest.head?.any isSpace = false → k other = none) :
    (letters s).foldr first k way =
      if way.rest.firstWord.sameLetters s then k (way.skip way.rest.firstWord.length)
      else none := by
  rw [first_letters hs]
  by_cases hword : way.rest.firstWord.sameLetters s = true
  · have htake : way.rest.take s.length = way.rest.firstWord := by
      rw [← Text.length_of_sameLetters hword, Text.take_firstWord]
    rw [htake, if_pos hword, if_pos hword, Text.length_of_sameLetters hword]
  · rw [if_neg hword]
    split
    · next hsame =>
      -- the word goes on behind the letters, for else it would be the keyword
      refine hk _ ?_
      by_contra hgap
      have hrest : Text.AtGap (way.rest.drop s.length) := by
        intro c hc
        simpa [hc] using hgap
      have hfirst := Text.firstWord_append (isUnbroken_of_sameLetters hs hsame) hrest
      rw [List.take_append_drop] at hfirst
      rw [hfirst] at hword
      exact hword hsame
    · rfl

end Pattern

end ChangeFeed
