import ChangeFeed.Proofs.Pattern.Scanning
/-!
# Word scans — patterns that read a text word by word

A continuation that only goes on at words, and whose answer depends on the
words ahead and on what one group has captured, is a reading of those words
(`ReadsWords`); one that only goes on at gaps is the same in front of a gap
(`ReadsGap`). Gaps, words and keywords lead from one to the other, so a pattern
that is a sequence of them reads the words of a text. As it may begin inside of
a word, the leftmost match is that of the first word with the right ending
(`findSome?_tails_eq_words`).
-/


namespace ChangeFeed

/-- The texts after the places of a text are its ends. -/
theorem Cursor.map_rest_along (index : Nat) (before : Option Char) (t : Text) :
    (along index before t).map rest = t.tails := by
  induction t generalizing index before with
  | nil => rfl
  | cons c t ih => rw [along, List.map_cons, ih, List.tails_cons]

namespace Pattern

/-- What is read off the words ahead, given what a group has captured. -/
abbrev WordReading (α : Type) := Option Text → List Text → Option α

variable {α : Type} {i : Nat} {k : Way → Option α} {f : WordReading α}

/-- **The continuation goes on at words**, and reads off the words ahead and
the text of group `i` what `f` does. -/
def ReadsWords (i : Nat) (k : Way → Option α) (f : WordReading α) : Prop :=
  ∀ way, k way = if way.rest.atWord then
    f (way.captures.get? i) way.rest.words else none

/-- **The continuation goes on at gaps**, and reads off the words ahead and
the text of group `i` what `f` does. -/
def ReadsGap (i : Nat) (k : Way → Option α) (f : WordReading α) : Prop :=
  ∀ way, k way = if way.rest.head?.any isSpace then
    f (way.captures.get? i) way.rest.words else none

/-- Behind a keyword. -/
def afterKeyword (s : Text) (f : WordReading α) : WordReading α
  | captured, word :: words => if word.sameLetters s then f captured words else none
  | _, [] => none

/-- Behind any word. -/
def afterWord (f : WordReading α) : WordReading α
  | captured, _ :: words => f captured words
  | _, [] => none

/-- Behind one of two keywords, which is captured. -/
def afterEither (s t : Text) (f : WordReading α) : WordReading α
  | _, word :: words =>
    if word.sameLetters s || word.sameLetters t then f (some word) words else none
  | _, [] => none

section Inversion

variable {s t : Text} {captured : Option Text} {words : List Text} {a : α}

theorem afterKeyword_eq_some_iff : afterKeyword s f captured words = some a ↔
    ∃ word rest, words = word :: rest ∧ word.sameLetters s = true ∧ f captured rest = some a := by
  cases words with
  | nil => simp [afterKeyword]
  | cons word rest => simp [afterKeyword]

theorem afterWord_eq_some_iff : afterWord f captured words = some a ↔
    ∃ word rest, words = word :: rest ∧ f captured rest = some a := by
  cases words with
  | nil => simp [afterWord]
  | cons word rest => simp [afterWord]

theorem afterEither_eq_some_iff : afterEither s t f captured words = some a ↔
    ∃ word rest, words = word :: rest ∧
      (word.sameLetters s = true ∨ word.sameLetters t = true) ∧ f (some word) rest = some a := by
  cases words with
  | nil => simp [afterEither]
  | cons word rest => simp [afterEither]

end Inversion

/-! ## Gaps -/

theorem ReadsWords.refuses (h : ReadsWords i k f) (other : Way)
    (hother : other.rest.head?.any isSpace = true) : k other = none := by
  rw [h other]
  cases hrest : other.rest with
  | nil => rfl
  | cons c t =>
    rw [hrest, List.head?_cons, Option.any_some] at hother
    simp [hother]

theorem ReadsGap.refuses (h : ReadsGap i k f) (other : Way)
    (hother : other.rest.head?.any isSpace = false) : k other = none := by
  rw [h other, if_neg (by simp [hother])]

theorem ReadsGap.refuses_word (h : ReadsGap i k f) (other : Way)
    (hother : other.rest.atWord = true) : k other = none := by
  refine h.refuses other ?_
  cases hrest : other.rest with
  | nil => rfl
  | cons c t => simpa [hrest] using hother

/-- Where a text ends or goes on with a gap the continuation gives its answer
either way, as there is nothing to read at the end. -/
theorem ReadsGap.eq_of_atGap (h : ReadsGap i k f) (hf : ∀ captured, f captured [] = none)
    {way : Way} (hway : way.rest.AtGap) :
    k way = f (way.captures.get? i) way.rest.words := by
  rw [h way]
  cases hrest : way.rest with
  | nil => simp [hf]
  | cons c t =>
    have hc : isSpace c = true := hway c (by rw [hrest, List.head?_cons])
    simp [hc]

/-- **In front of a word comes a gap.** -/
theorem ReadsWords.gap (h : ReadsWords i k f) (hf : ∀ captured, f captured [] = none) :
    ReadsGap i ((run .space).first k) f := by
  intro way
  rw [first_gap h.refuses]
  by_cases hspace : way.rest.head?.any isSpace = true
  · rw [if_pos hspace, if_pos hspace, h, Way.rest_skip, Text.drop_length_takeWhile,
      Text.words_dropWhile_isSpace, Way.captures_skip]
    cases hrest : way.rest.dropWhile isSpace with
    | nil =>
      have hwords : way.rest.words = [] := by rw [← Text.words_dropWhile_isSpace, hrest]; rfl
      rw [hwords, hf]
      rfl
    | cons c t =>
      have hc := List.head?_dropWhile_not isSpace way.rest
      rw [hrest] at hc
      have hc' : isSpace c = false := by simpa using hc
      simp [hc']
  · rw [if_neg hspace, if_neg hspace]

/-! ## Words -/

/-- The answer behind a word that has just been read, and perhaps captured. -/
theorem ReadsGap.behindWord (h : ReadsGap i k f) (hf : ∀ captured, f captured [] = none)
    {way next : Way} (hnext : next.rest = way.rest.drop way.rest.firstWord.length) :
    k next = f (next.captures.get? i) way.rest.behindWord.words := by
  rw [Text.drop_firstWord] at hnext
  rw [h.eq_of_atGap hf (hnext ▸ Text.atGap_behindWord _), hnext]

/-- **Any word** may stand before a gap. -/
theorem ReadsGap.word (h : ReadsGap i k f) (hf : ∀ captured, f captured [] = none) :
    ReadsWords i ((run wordSet).first k) (afterWord f) := by
  intro way
  rw [first_word fun other hother _ => h.refuses_word other hother]
  by_cases hword : way.rest.atWord = true
  · rw [if_pos hword, if_pos hword, Text.words_of_atWord hword, afterWord,
      h.behindWord hf (Way.rest_skip _ way), Way.captures_skip]
  · rw [if_neg hword, if_neg hword]

/-- **A keyword** is a word. -/
theorem ReadsGap.keyword (h : ReadsGap i k f) (hf : ∀ captured, f captured [] = none) {s : Text}
    (hs : s ⊆ keywordLetters) (hne : s ≠ []) :
    ReadsWords i ((letters s).foldr first k) (afterKeyword s f) := by
  intro way
  rw [first_keyword hs h.refuses]
  by_cases hword : way.rest.atWord = true
  · rw [if_pos hword, Text.words_of_atWord hword, afterKeyword,
      h.behindWord hf (Way.rest_skip _ way), Way.captures_skip]
  · rw [if_neg hword, Text.firstWord_of_not_atWord hword, Text.sameLetters_nil hne]
    rfl

/-- **One of two keywords, captured.** -/
theorem ReadsGap.either (h : ReadsGap i k f) (hf : ∀ captured, f captured [] = none) {s t : Text}
    (hs : s ⊆ keywordLetters) (ht : t ⊆ keywordLetters)
    (hsne : s ≠ []) (htne : t ≠ []) :
    ReadsWords i ((group i (choice (sequence (letters s)) (sequence (letters t)))).first k)
      (afterEither s t f) := by
  intro way
  have hrefuses : ∀ other : Way, other.rest.head?.any isSpace = false →
      k (other.captured i way.cursor) = none := fun other hother => h.refuses _ hother
  rw [first_group, first_choice, first_sequence, first_sequence, first_keyword hs hrefuses,
    first_keyword ht hrefuses]
  by_cases hword : way.rest.atWord = true
  · have hbehind : k ((way.skip way.rest.firstWord.length).captured i way.cursor) =
        f (some way.rest.firstWord) way.rest.behindWord.words := by
      have hrest : ((way.skip way.rest.firstWord.length).captured i way.cursor).rest =
          way.rest.drop way.rest.firstWord.length := Way.rest_skip _ way
      rw [h.behindWord hf hrest, Way.captured_skip, Text.take_firstWord]
      simp [Captures.get?]
    rw [if_pos hword, Text.words_of_atWord hword, afterEither, hbehind]
    cases way.rest.firstWord.sameLetters s <;> cases way.rest.firstWord.sameLetters t <;>
      simp
  · rw [if_neg hword, Text.firstWord_of_not_atWord hword, Text.sameLetters_nil hsne,
      Text.sameLetters_nil htne]
    rfl

/-- Capturing another group does not change what is read. -/
theorem ReadsWords.captured (h : ReadsWords i k f) {j : Nat} (hj : j ≠ i) (first : Cursor) :
    ReadsWords i (fun next => k (next.captured j first)) f := by
  intro way
  have hget : (way.captured j first).captures.get? i = way.captures.get? i := by
    simp [Way.captured, Captures.get?, hj]
  exact (h _).trans (by rw [hget, Way.rest_captured])

/-! ## The leftmost match -/

/-- What is read from a word on whose end is a keyword. -/
def readsFrom (s : Text) (f : List Text → Option α) : List Text → Option α
  | word :: words => if word.endsInLetters s then f words else none
  | [] => none

theorem readsFrom_eq_some_iff {s : Text} {f : List Text → Option α} {words : List Text} {a : α} :
    readsFrom s f words = some a ↔
      ∃ word rest, words = word :: rest ∧ word.endsInLetters s = true ∧ f rest = some a := by
  cases words with
  | nil => simp [readsFrom]
  | cons word rest => simp [readsFrom]

/-- The ends of a text that begin inside of its first word. -/
theorem findSome?_tails_append {s : Text} (hs : s ≠ []) {g : Text → Option α}
    {f : List Text → Option α} {word rest : Text} (hword : word.IsUnbroken)
    (hg : ∀ word : Text, word ≠ [] → word.IsUnbroken →
      g (word ++ rest) = if word.sameLetters s then f rest.words else none) :
    (word ++ rest).tails.findSome? g =
      (if word.endsInLetters s then f rest.words else none).or (rest.tails.findSome? g) := by
  induction word with
  | nil =>
    have hends : Text.endsInLetters [] s = false := by
      simp [Text.endsInLetters, Text.sameLetters_nil hs]
    rw [hends, List.nil_append]
    rfl
  | cons c word ih =>
    have hword' : Text.IsUnbroken word := fun d hd => hword d (List.mem_cons_of_mem c hd)
    have hends : Text.endsInLetters (c :: word) s =
        (Text.sameLetters (c :: word) s || Text.endsInLetters word s) := by
      rw [Text.endsInLetters, List.tails_cons, List.any_cons, ← Text.endsInLetters]
    rw [List.cons_append, List.tails_cons, List.findSome?_cons, ← List.cons_append,
      hg (c :: word) (List.cons_ne_nil c word) hword, ih hword', hends]
    cases Text.sameLetters (c :: word) s <;> cases f rest.words <;>
      cases Text.endsInLetters word s <;> rfl

/-- **From the ends of a text to its words.** What begins with a keyword and
is looked for at every place of a text is found at the first word that ends in
the keyword. -/
theorem findSome?_tails_eq_words {s : Text} (hs : s ≠ []) {g : Text → Option α}
    {f : List Text → Option α}
    (hgap : ∀ t : Text, t.atWord ≠ true → g t = none)
    (hword : ∀ word rest : Text, word ≠ [] → word.IsUnbroken → rest.AtGap →
      g (word ++ rest) = if word.sameLetters s then f rest.words else none) (t : Text) :
    t.tails.findSome? g = t.words.tails.findSome? (readsFrom s f) := by
  induction hn : t.length using Nat.strong_induction_on generalizing t with
  | _ n ih =>
    subst hn
    cases t with
    | nil =>
      have hnil : g [] = none := hgap [] (by simp)
      simp [hnil, readsFrom]
    | cons c t =>
      cases hc : isSpace c with
      | true =>
        have hnone : g (c :: t) = none := hgap (c :: t) (by simp [hc])
        rw [List.tails_cons, List.findSome?_cons, hnone, Text.words_cons_of_isSpace hc]
        exact ih t.length (Nat.lt_succ_self _) t rfl
      | false =>
        have hsplit := Text.firstWord_append_behindWord (c :: t)
        have hunbroken := Text.isUnbroken_firstWord (c :: t)
        have hbehind := Text.atGap_behindWord (c :: t)
        have hne : Text.firstWord (c :: t) ≠ [] := by simp [Text.firstWord, hc]
        have hlength : (Text.behindWord (c :: t)).length < (c :: t).length := by
          have hpos := List.length_pos_of_ne_nil hne
          have hsum := congrArg List.length hsplit
          rw [List.length_append] at hsum
          omega
        conv_lhs => rw [← hsplit]
        rw [findSome?_tails_append hs hunbroken fun word hne hword' =>
          hword word _ hne hword' hbehind, ih _ hlength _ rfl, Text.words_cons hc,
          List.tails_cons, List.findSome?_cons, readsFrom]
        cases (if (Text.firstWord (c :: t)).endsInLetters s then
          f (Text.behindWord (c :: t)).words else none) <;> rfl

/-- The first of the ends of a list at which something is found. -/
theorem findSome?_tails_eq_some_iff {β γ : Type} {f : List β → Option γ} (hf : f [] = none)
    {l : List β} {a : γ} :
    l.tails.findSome? f = some a ↔ ∃ k, f (l.drop k) = some a ∧ ∀ j < k, f (l.drop j) = none := by
  induction l with
  | nil => simp [hf]
  | cons b l ih =>
    rw [List.tails_cons, List.findSome?_cons]
    cases hhead : f (b :: l) with
    | some found =>
      constructor
      · intro h
        exact ⟨0, by rw [List.drop_zero, hhead, ← h], fun j hj => absurd hj (Nat.not_lt_zero j)⟩
      · rintro ⟨k, hk, hbefore⟩
        cases k with
        | zero => rw [← hk, List.drop_zero, hhead]
        | succ k =>
          have hnone := hbefore 0 (Nat.succ_pos k)
          rw [List.drop_zero, hhead] at hnone
          cases hnone
    | none =>
      dsimp only
      rw [ih]
      constructor
      · rintro ⟨k, hk, hbefore⟩
        refine ⟨k + 1, hk, fun j hj => ?_⟩
        cases j with
        | zero => exact hhead
        | succ j => exact hbefore j (Nat.lt_of_succ_lt_succ hj)
      · rintro ⟨k, hk, hbefore⟩
        cases k with
        | zero =>
          rw [List.drop_zero, hhead] at hk
          cases hk
        | succ k => exact ⟨k, hk, fun j hj => hbefore (j + 1) (Nat.succ_lt_succ hj)⟩

end Pattern

end ChangeFeed
