import ChangeFeed.Text.Basic

/-!
# White space — what trimming and word splitting go by

`isSpace` is the Unicode property `White_Space`: the tab to carriage return
block, the space, the next-line and no-break spaces, and the general
punctuation and ideographic spaces. The zero-width space, the byte order
mark and the Mongolian vowel separator are not in it. A text is *blank* if
it holds nothing else, and its *words* are its longest runs of other
characters.
-/

namespace ChangeFeed

/-- **White space**: the twenty-five characters of the Unicode property. -/
def isSpace (c : Char) : Bool :=
  let n := c.toNat
  (0x09 ≤ n && n ≤ 0x0D) || n == 0x20 || n == 0x85 || n == 0xA0 || n == 0x1680 ||
    (0x2000 ≤ n && n ≤ 0x200A) || n == 0x2028 || n == 0x2029 || n == 0x202F ||
    n == 0x205F || n == 0x3000

/-- What core counts as white space is white space here. -/
theorem isSpace_of_isWhitespace {c : Char} (h : c.isWhitespace = true) : isSpace c = true := by
  simp only [Char.isWhitespace, Bool.or_eq_true, decide_eq_true_eq] at h
  rcases h with ((rfl | rfl) | rfl) | rfl <;> rfl

namespace Text

/-- The text without white space at its start. -/
def trimStart (t : Text) : Text := t.dropWhile isSpace

/-- The text without white space at its end. -/
def trimEnd (t : Text) : Text := trimEndWhile isSpace t

/-- The text without white space at either end. -/
def trim (t : Text) : Text := trimWhile isSpace t

/-- A text is blank if it holds white space only. -/
def isBlank (t : Text) : Bool := t.all isSpace

/-- The text, unless it is blank. -/
def unlessBlank (t : Text) : Option Text := if t.isBlank then none else some t

/-- The words of a text, given the letters of the word that is being read. -/
def wordsFrom (current : Text) : Text → List Text
  | [] => if current.isEmpty then [] else [current]
  | c :: rest =>
    if isSpace c then
      if current.isEmpty then wordsFrom [] rest else current :: wordsFrom [] rest
    else wordsFrom (current ++ [c]) rest

/-- The words of a text: its longest runs of characters other than white space. -/
def words (t : Text) : List Text := wordsFrom [] t

/-- Trimming a text empties it exactly if it is blank. -/
theorem trim_eq_nil_iff {t : Text} : t.trim = [] ↔ t.isBlank = true := by
  have drop : ∀ s : Text, s.dropWhile isSpace = [] ↔ ∀ c ∈ s, isSpace c = true := by
    intro s
    induction s with
    | nil => simp
    | cons c s ih =>
      by_cases hc : isSpace c = true
      · simp [hc, ih]
      · simp [hc]
  constructor
  · intro h
    have hall : ∀ c ∈ t.dropWhile isSpace, isSpace c = true := by
      have := (drop (t.dropWhile isSpace).reverse).1
        (by simpa [trim, trimWhile, trimEndWhile] using h)
      intro c hc
      exact this c (by simpa using hc)
    have hnil : t.dropWhile isSpace = [] := by
      cases hd : t.dropWhile isSpace with
      | nil => rfl
      | cons c s =>
        have hhead := List.head_dropWhile_not isSpace (l := t) (by simp [hd])
        simp only [hd, List.head_cons] at hhead
        have := hall c (by simp [hd])
        simp [this] at hhead
    simpa [isBlank] using (drop t).1 hnil
  · intro h
    have hnil : t.dropWhile isSpace = [] := (drop t).2 (by simpa [isBlank] using h)
    simp [trim, trimWhile, trimEndWhile, hnil]

end Text

end ChangeFeed
