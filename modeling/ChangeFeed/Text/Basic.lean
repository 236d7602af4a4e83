/-!
# Text — what every reader and writer of this library works on

A `Text` is the list of its characters, so that readers and writers are
recursions on data. Here are the cuts that several formats share: at the
first occurrence of a character, off either end, and the doubling of a
quote. `splitFirst?` never loses anything: the two parts and the separator
give the text back.
-/

namespace ChangeFeed

/-- A text, as the characters it is read and written by. -/
abbrev Text := List Char

namespace Text

/-- The parts before and after the first `c`, if the text has one. -/
def splitFirst? (c : Char) : Text → Option (Text × Text)
  | [] => none
  | d :: rest =>
    if d = c then some ([], rest)
    else (splitFirst? c rest).map fun (before, after) => (d :: before, after)

/-- The two parts and the separator give the text back. -/
theorem eq_of_splitFirst? {c : Char} {t before after : Text}
    (h : splitFirst? c t = some (before, after)) : t = before ++ c :: after := by
  induction t generalizing before with
  | nil => simp [splitFirst?] at h
  | cons d rest ih =>
    by_cases hd : d = c
    · simp [splitFirst?, hd] at h
      obtain ⟨rfl, rfl⟩ := h
      simp [hd]
    · simp only [splitFirst?, hd, if_false, Option.map_eq_some_iff, Prod.mk.injEq] at h
      obtain ⟨⟨b, a⟩, hr, rfl, rfl⟩ := h
      simp [ih hr]

/-- A text has a first `c` exactly if it has one at all. -/
theorem splitFirst?_eq_none_iff {c : Char} {t : Text} :
    splitFirst? c t = none ↔ c ∉ t := by
  induction t with
  | nil => simp [splitFirst?]
  | cons d rest ih =>
    by_cases hd : d = c
    · simp [splitFirst?, hd]
    · simp [splitFirst?, hd, ih, Ne.symm hd]

/-- What follows `start`, if the text starts with it. -/
def stripStart? : Text → Text → Option Text
  | [], t => some t
  | _ :: _, [] => none
  | c :: start, d :: t => if c = d then stripStart? start t else none

/-- What comes before `ending`, if the text ends with it. -/
def stripEnd? (ending t : Text) : Option Text :=
  (stripStart? ending.reverse t.reverse).map List.reverse

/-- The text without the longest run at its end that satisfies `p`. -/
def trimEndWhile (p : Char → Bool) (t : Text) : Text :=
  (t.reverse.dropWhile p).reverse

/-- The text without the longest runs at either end that satisfy `p`. -/
def trimWhile (p : Char → Bool) (t : Text) : Text :=
  trimEndWhile p (t.dropWhile p)

/-- The text with every `quote` written twice. -/
def doubled (quote : Char) : Text → Text
  | [] => []
  | c :: rest => if c = quote then c :: c :: doubled quote rest else c :: doubled quote rest

/-- Two texts are the same up to the case of the letters `A` to `Z`. -/
def sameLetters (s t : Text) : Bool :=
  s.map Char.toLower == t.map Char.toLower

/-- The parts between the occurrences of `c`: one more than there are. -/
def splitAll (c : Char) : Text → List Text
  | [] => [[]]
  | d :: rest =>
    if d = c then [] :: splitAll c rest
    else match splitAll c rest with
      | [] => [[d]]
      | part :: parts => (d :: part) :: parts

/-- The parts joined by a separator. -/
def joined (separator : Text) : List Text → Text
  | [] => []
  | [part] => part
  | part :: parts => part ++ separator ++ joined separator parts

/-- The order of texts by code point, which is also that of their UTF-8 bytes. -/
def precedes : Text → Text → Bool
  | [], _ => true
  | _ :: _, [] => false
  | c :: s, d :: t => if c = d then precedes s t else c.toNat ≤ d.toNat

end Text

end ChangeFeed
