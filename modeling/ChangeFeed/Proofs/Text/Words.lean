import ChangeFeed.Text.Blank
import Mathlib.Data.List.Infix
import Mathlib.Data.List.TakeWhile
/-!
# Words — a text as its words and the gaps between them

The words of a text are found one after the other: white space before a word
does not count (`words_cons_of_isSpace`), and a stretch of other characters up
to the next white space is the next word (`words_append`). Words are compared
in letters of either case, which keeps their length.
-/


namespace ChangeFeed

namespace Text

variable {c : Char} {t word rest : Text}

/-- The text has no white space. -/
def IsUnbroken (t : Text) : Prop := ∀ c ∈ t, isSpace c = false

instance (t : Text) : Decidable t.IsUnbroken :=
  decidable_of_iff (t.all fun c => !isSpace c) (by simp [IsUnbroken])

/-- The text goes on with a word. -/
def atWord (t : Text) : Bool := t.head?.any fun c => !isSpace c

@[simp] theorem atWord_nil : atWord [] = false := rfl

@[simp] theorem atWord_cons : atWord (c :: t) = !isSpace c := by
  rw [atWord, List.head?_cons, Option.any_some]

/-- The text is at its end or goes on with white space. -/
def AtGap (t : Text) : Prop := ∀ c, t.head? = some c → isSpace c = true

@[simp] theorem words_nil : words [] = [] := rfl

theorem words_cons_of_isSpace (h : isSpace c = true) : words (c :: t) = words t := by
  simp [words, wordsFrom, h]

theorem wordsFrom_append {current : Text} (h : word.IsUnbroken) :
    wordsFrom current (word ++ rest) = wordsFrom (current ++ word) rest := by
  induction word generalizing current with
  | nil => simp
  | cons c word ih =>
    have hc : isSpace c = false := h c List.mem_cons_self
    have hrest : IsUnbroken word := fun d hd => h d (List.mem_cons_of_mem c hd)
    simp [wordsFrom, hc, ih hrest]

theorem wordsFrom_of_atGap {current : Text} (hcurrent : current ≠ []) (h : rest.AtGap) :
    wordsFrom current rest = current :: words rest := by
  cases rest with
  | nil => simp [wordsFrom, hcurrent]
  | cons c rest => simp [words, wordsFrom, h c rfl, hcurrent]

/-- **The first word** of a text is what stands before the first white space. -/
theorem words_append (hword : word ≠ []) (hunbroken : word.IsUnbroken) (hrest : rest.AtGap) :
    words (word ++ rest) = word :: words rest := by
  rw [words, wordsFrom_append hunbroken, List.nil_append, wordsFrom_of_atGap hword hrest]

/-- The first word of a text that begins with one. -/
def firstWord (t : Text) : Text := t.takeWhile fun c => !isSpace c

/-- The text behind its first word. -/
def behindWord (t : Text) : Text := t.dropWhile fun c => !isSpace c

theorem firstWord_append_behindWord (t : Text) : t.firstWord ++ t.behindWord = t :=
  List.takeWhile_append_dropWhile

theorem take_firstWord (t : Text) : t.take t.firstWord.length = t.firstWord :=
  (List.prefix_iff_eq_take.1 (List.takeWhile_prefix _)).symm

theorem drop_length_takeWhile (p : Char → Bool) (t : Text) :
    t.drop (t.takeWhile p).length = t.dropWhile p := by
  induction t with
  | nil => rfl
  | cons c t ih => cases hc : p c <;> simp [hc, ih]

theorem drop_firstWord (t : Text) : t.drop t.firstWord.length = t.behindWord :=
  drop_length_takeWhile _ t

theorem isUnbroken_firstWord (t : Text) : t.firstWord.IsUnbroken := by
  intro c hc
  simpa using List.mem_takeWhile_imp hc

theorem atGap_behindWord (t : Text) : t.behindWord.AtGap := by
  intro c hc
  have hhead := List.head?_dropWhile_not (fun c => !isSpace c) t
  rw [behindWord] at hc
  rw [hc] at hhead
  simpa using hhead

theorem firstWord_append (hunbroken : word.IsUnbroken) (hrest : rest.AtGap) :
    firstWord (word ++ rest) = word := by
  have hnil : firstWord rest = [] := by
    cases rest with
    | nil => rfl
    | cons c rest => simp [firstWord, hrest c rfl]
  rw [firstWord, List.takeWhile_append_of_pos fun c hc => by simp [hunbroken c hc], ← firstWord,
    hnil, List.append_nil]

theorem behindWord_append (hunbroken : word.IsUnbroken) (hrest : rest.AtGap) :
    behindWord (word ++ rest) = rest := by
  have hwhole := firstWord_append_behindWord (word ++ rest)
  rw [firstWord_append hunbroken hrest] at hwhole
  exact List.append_cancel_left hwhole

theorem words_cons (h : isSpace c = false) :
    words (c :: t) = firstWord (c :: t) :: words (behindWord (c :: t)) := by
  have hword : firstWord (c :: t) ≠ [] := by simp [firstWord, h]
  rw [← words_append hword (isUnbroken_firstWord _) (atGap_behindWord _),
    firstWord_append_behindWord]

/-- A text that goes on with a word goes on with the words behind it. -/
theorem words_of_atWord (h : t.atWord = true) : t.words = t.firstWord :: t.behindWord.words := by
  cases t with
  | nil => cases h
  | cons c t => exact words_cons (by simpa using h)

/-- A text that does not go on with a word has nothing before its first white
space. -/
theorem firstWord_of_not_atWord (h : t.atWord ≠ true) : t.firstWord = [] := by
  cases t with
  | nil => rfl
  | cons c t => exact List.takeWhile_cons_of_neg (by simpa using h)

/-- White space before the first word does not count. -/
theorem words_dropWhile_isSpace (t : Text) : words (t.dropWhile isSpace) = words t := by
  induction t with
  | nil => rfl
  | cons c t ih =>
    cases hc : isSpace c with
    | true => rw [List.dropWhile_cons_of_pos hc, words_cons_of_isSpace hc, ih]
    | false => rw [List.dropWhile_cons_of_neg (by simp [hc])]

/-! ## Words with gaps behind them -/

/-- The text is a word: it is not empty and has no white space. -/
def IsWord (t : Text) : Prop := t ≠ [] ∧ t.IsUnbroken

instance (t : Text) : Decidable t.IsWord := inferInstanceAs (Decidable (_ ∧ _))

/-- A word is not blank. -/
theorem IsWord.isBlank (h : t.IsWord) : t.isBlank = false := by
  obtain ⟨hne, hunbroken⟩ := h
  obtain ⟨c, rest, rfl⟩ := List.exists_cons_of_ne_nil hne
  rw [Text.isBlank, List.all_cons, hunbroken c List.mem_cons_self, Bool.false_and]

/-- Every word of a text is one. -/
theorem isWord_of_mem_words (h : word ∈ t.words) : word.IsWord := by
  suffices hfrom : ∀ current : Text, current.IsUnbroken → word ∈ wordsFrom current t →
      word.IsWord by
    exact hfrom [] (fun c hc => absurd hc List.not_mem_nil) h
  clear h
  induction t with
  | nil =>
    intro current hcurrent hword
    rw [wordsFrom] at hword
    split at hword
    · cases hword
    · next hne =>
      rw [List.mem_singleton.1 hword]
      exact ⟨fun hnil => hne (by rw [hnil]; rfl), hcurrent⟩
  | cons c t ih =>
    intro current hcurrent hword
    rw [wordsFrom] at hword
    split at hword
    · have hnext := ih [] fun d hd => absurd hd List.not_mem_nil
      split at hword
      · exact hnext hword
      · next hne =>
        rcases List.mem_cons.1 hword with rfl | hword
        · exact ⟨fun hnil => hne (by rw [hnil]; rfl), hcurrent⟩
        · exact hnext hword
    · next hc =>
      refine ih (current ++ [c]) (fun d hd => ?_) hword
      rcases List.mem_append.1 hd with hd | hd
      · exact hcurrent d hd
      · rw [List.mem_singleton.1 hd]
        exact Bool.eq_false_iff.2 hc

/-- The text is a gap: some white space and nothing else. -/
def IsGap (t : Text) : Prop := t ≠ [] ∧ t.isBlank = true

instance (t : Text) : Decidable t.IsGap := inferInstanceAs (Decidable (_ ∧ _))

/-- Parts, each a word and the gap behind it, as a text. -/
def spaced (parts : List (Text × Text)) : Text := parts.flatMap fun part => part.1 ++ part.2

theorem words_append_of_isBlank {gap : Text} (h : gap.isBlank = true) :
    words (gap ++ rest) = words rest := by
  induction gap with
  | nil => rfl
  | cons c gap ih =>
    rw [isBlank, List.all_cons, Bool.and_eq_true] at h
    rw [List.cons_append, words_cons_of_isSpace h.1, ih h.2]

theorem IsGap.atGap_append {gap : Text} (h : gap.IsGap) : (gap ++ rest).AtGap := by
  obtain ⟨hne, hblank⟩ := h
  obtain ⟨c, gap, rfl⟩ := List.exists_cons_of_ne_nil hne
  rw [isBlank, List.all_cons, Bool.and_eq_true] at hblank
  intro d hd
  cases hd
  exact hblank.1

/-- **The words of spaced parts** are theirs, and then those of the rest. -/
theorem words_spaced {parts : List (Text × Text)}
    (h : ∀ part ∈ parts, part.1.IsWord ∧ part.2.IsGap) :
    words (spaced parts ++ rest) = parts.map Prod.fst ++ words rest := by
  induction parts with
  | nil => rfl
  | cons part parts ih =>
    obtain ⟨⟨⟨hne, hunbroken⟩, hgap⟩, hparts⟩ := List.forall_mem_cons.1 h
    have hassoc : spaced (part :: parts) ++ rest =
        part.1 ++ (part.2 ++ (spaced parts ++ rest)) := by simp [spaced]
    rw [hassoc, words_append hne hunbroken hgap.atGap_append, words_append_of_isBlank hgap.2,
      ih hparts]
    rfl

/-! ## Letters of either case -/

/-- The text ends in these letters, in either case. -/
def endsInLetters (t ending : Text) : Bool := t.tails.any fun suffix => sameLetters suffix ending

theorem sameLetters_iff {s t : Text} :
    s.sameLetters t = true ↔ s.map Char.toLower = t.map Char.toLower := by
  rw [sameLetters, beq_iff_eq]

/-- The empty word is no keyword. -/
theorem sameLetters_nil {s : Text} (hs : s ≠ []) : sameLetters [] s = false := by
  cases s with
  | nil => exact absurd rfl hs
  | cons c s => rfl

theorem length_of_sameLetters {s t : Text} (h : s.sameLetters t = true) : s.length = t.length := by
  simpa using congrArg List.length (sameLetters_iff.1 h)

theorem sameLetters_cons {d : Char} {s t : Text} :
    sameLetters (c :: s) (d :: t) = (c.toLower == d.toLower && s.sameLetters t) := by
  simp [sameLetters]

end Text

end ChangeFeed
