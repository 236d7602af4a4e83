import ChangeFeed.Json.Number
import ChangeFeed.Proofs.Json.Quoted
/-!
# Numerals — the text of a number is its own spelling

Only an exponent is ever respelled, and `Spelled` says what a number's text
looks like after that: the grammar goes on with each of its characters and
spells it as it stands. `Spelled.spelling` is the step that keeps it, so
whatever is read as a number has a text that is read as itself, and a second
reading changes nothing.
-/


namespace ChangeFeed

namespace NumberPhase

/-- **A number's text up to a phase**, in reverse, with nothing left to
respell. -/
inductive Spelled : NumberPhase → Text → Prop where
  | start {phase : NumberPhase} {c : Char} (h : start? c = some phase) : Spelled phase [c]
  | next {phase next : NumberPhase} {c : Char} {reversed : Text} (h : Spelled phase reversed)
      (hnext : phase.next? c = some next) (hspelling : phase.spelling c = [c]) :
      Spelled next (c :: reversed)

variable {phase next : NumberPhase} {c : Char} {reversed : Text}

/-! ## The characters of a number -/

/-- A digit is one of the codes 48 to 57. -/
theorem toNat_of_isDigit (h : c.isDigit = true) : 48 ≤ c.toNat ∧ c.toNat ≤ 57 := by
  simp only [Char.isDigit, Bool.and_eq_true, decide_eq_true_eq] at h
  exact h

/-- A number begins with a minus or a digit. -/
theorem isDigit_of_start? (h : start? c = some phase) : c = '-' ∨ c.isDigit = true := by
  unfold start? at h
  split at h
  · exact Or.inl ‹_›
  · split at h
    · subst c
      exact Or.inr rfl
    · split at h
      · exact Or.inr ‹_›
      · cases h

/-- It goes on with a digit, a point, an exponent mark or a sign. -/
theorem mem_of_next? (h : phase.next? c = some next) :
    c.isDigit = true ∨ c ∈ ['.', 'e', 'E', '+', '-'] := by
  cases hdigit : c.isDigit with
  | true => exact Or.inl rfl
  | false =>
    have hzero : c ≠ '0' := by
      rintro rfl
      cases hdigit
    cases phase <;> simp only [next?, hdigit] at h <;> grind

/-- The characters that may stand right behind a number. -/
def ends : List Char := [',', ']', '\x7d', ' ', '\n', '\t', '\r']

/-- What may stand behind a number does not belong to it. -/
theorem next?_of_mem_ends (hc : c ∈ ends) : phase.next? c = none := by
  simp only [ends, List.mem_cons, List.not_mem_nil, or_false] at hc
  rcases hc with rfl | rfl | rfl | rfl | rfl | rfl | rfl <;> cases phase <;> rfl

namespace Spelled

/-- **Spelling keeps a number's text spelled.** A capital mark is written
small, and a sign that is left out is put in. -/
theorem spelling (h : Spelled phase reversed) (hnext : phase.next? c = some next) :
    Spelled next ((phase.spelling c).reverse ++ reversed) := by
  unfold NumberPhase.spelling
  split
  case isTrue hmark =>
    -- the small mark leads where the capital one does
    subst hmark
    have hsmall : phase.next? 'e' = some next := by
      cases phase <;> exact hnext
    refine .next h hsmall ?_
    cases phase <;> rfl
  case isFalse hmark =>
    split
    case isTrue hexponent =>
      -- a digit right after the mark: the sign goes between the two
      obtain ⟨rfl, hdigit⟩ := hexponent
      have hrange := toNat_of_isDigit hdigit
      have hsign : c ≠ '+' ∧ c ≠ '-' := by
        constructor <;> (rintro rfl; revert hrange; decide)
      simp only [next?, hsign, or_self, if_false, hdigit, if_true, Option.some.injEq] at hnext
      subst hnext
      have hplus : Spelled markSign ('+' :: reversed) := .next h rfl rfl
      refine .next hplus ?_ ?_
      · simp [next?, hdigit]
      · simp [NumberPhase.spelling, hmark]
    case isFalse hexponent =>
      refine .next h hnext ?_
      rw [NumberPhase.spelling, if_neg hmark, if_neg hexponent]

/-- A number's text holds no control character. -/
theorem isPlain (h : Spelled phase reversed) : reversed.IsPlain := by
  have hdigit : ∀ c : Char, c.isDigit = true → 0x20 ≤ c.toNat := by
    intro c hc
    have hrange := toNat_of_isDigit hc
    omega
  induction h with
  | start h =>
    refine Text.isPlain_cons.2 ⟨?_, Text.isPlain_nil⟩
    rcases isDigit_of_start? h with rfl | hc
    · decide
    · exact hdigit _ hc
  | next _ hnext _ ih =>
    refine Text.isPlain_cons.2 ⟨?_, ih⟩
    rcases mem_of_next? hnext with hc | hc
    · exact hdigit _ hc
    · simp only [List.mem_cons, List.not_mem_nil, or_false] at hc
      rcases hc with rfl | rfl | rfl | rfl | rfl <;> decide

/-- What follows a spelled text is read from its phase. -/
theorem numeral?_append (h : Spelled phase reversed) (rest : Text) :
    ChangeFeed.numeral? (reversed.reverse ++ rest) = phase.numeral? reversed rest := by
  induction h generalizing rest with
  | start h => simp [ChangeFeed.numeral?, h]
  | next _ hnext hspelling ih =>
    -- the last character is handed over to what follows
    rw [List.reverse_cons, List.append_assoc, ih]
    simp [NumberPhase.numeral?, hnext, hspelling]

/-- **A complete spelled text is a number of that text.** -/
theorem numeral? (h : Spelled phase reversed) (hcomplete : phase.isComplete = true) :
    ChangeFeed.numeral? reversed.reverse = some reversed.reverse := by
  have hread := h.numeral?_append []
  rwa [List.append_nil, NumberPhase.numeral?, if_pos hcomplete] at hread

end Spelled

theorem spelled_of_numeral? {t numeral : Text} (h : Spelled phase reversed)
    (hread : phase.numeral? reversed t = some numeral) :
    ∃ last text, Spelled last text ∧ last.isComplete = true ∧ numeral = text.reverse := by
  induction t generalizing phase reversed with
  | nil =>
    unfold NumberPhase.numeral? at hread
    split at hread
    · cases hread
      exact ⟨phase, reversed, h, ‹_›, rfl⟩
    · cases hread
  | cons c t ih =>
    unfold NumberPhase.numeral? at hread
    split at hread
    · cases hread
    · exact ih (h.spelling ‹_›) hread

end NumberPhase

/-- **What is read as a number is spelled out.** -/
theorem spelled_of_numeral? {t numeral : Text} (h : numeral? t = some numeral) :
    ∃ phase text, NumberPhase.Spelled phase text ∧ phase.isComplete = true ∧
      numeral = text.reverse := by
  cases t with
  | nil => cases h
  | cons c t =>
    obtain ⟨phase, hstart, hread⟩ := Option.bind_eq_some_iff.1 h
    exact NumberPhase.spelled_of_numeral? (.start hstart) hread

/-- **A number is respelled once**: its spelling is read as itself. -/
theorem numeral?_of_numeral? {t numeral : Text} (h : numeral? t = some numeral) :
    numeral? numeral = some numeral := by
  obtain ⟨phase, text, hspelled, hcomplete, rfl⟩ := spelled_of_numeral? h
  exact hspelled.numeral? hcomplete

end ChangeFeed
