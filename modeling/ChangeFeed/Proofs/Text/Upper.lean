import ChangeFeed.Proofs.Pattern.Sets
import ChangeFeed.Proofs.Text.Words
import ChangeFeed.Text.Upper
/-!
# Upper case — the words of a name in any letters and spacing

A name is compared word by word, after its ends are trimmed and its letters
made upper-case. Neither moves a border between words: what is trimmed belongs
to none (`words_trim`), and a character is white space exactly if its
upper-case form is (`words_upper`). What a keyword is written as, in letters of
either case, becomes the keyword (`upper_of_sameLetters`).
-/


namespace ChangeFeed

/-! ## Characters -/

theorem isLower_val_iff (c : Char) :
    (c.val ≥ 'a'.val ∧ c.val ≤ 'z'.val) ↔ 97 ≤ c.toNat ∧ c.toNat ≤ 122 := by
  rw [ge_iff_le, UInt32.le_iff_toNat_le, UInt32.le_iff_toNat_le]
  exact Iff.rfl

theorem toNat_toUpper (c : Char) :
    c.toUpper.toNat = if 97 ≤ c.toNat ∧ c.toNat ≤ 122 then c.toNat - 32 else c.toNat := by
  have hlower := isLower_val_iff c
  unfold Char.toUpper
  split
  · next h =>
    have hbound := hlower.1 h
    have hval : (c.val + ('A'.val - 'a'.val)).toNat = (c.toNat + (2 ^ 32 - 32)) % 2 ^ 32 :=
      UInt32.toNat_add _ _
    rw [if_pos hbound, Char.toNat, hval]
    omega
  · next h => rw [if_neg (mt hlower.2 h)]

/-- White space is its own upper-case form. -/
theorem upperForm_of_isSpace {c : Char} (h : isSpace c = true) : upperForm c = [c] := by
  have htable : ∀ n ∈ spaceCodes, upperForm (Char.ofNat n) = [Char.ofNat n] := by decide
  have hcode := htable c.toNat (mem_spaceCodes h)
  rwa [Char.ofNat_toNat] at hcode

/-- What is no white space has an upper-case form, with no white space in it. -/
theorem isWord_upperForm {c : Char} (h : isSpace c = false) : Text.IsWord (upperForm c) := by
  have hupper : isSpace c.toUpper = false := by
    rw [Bool.eq_false_iff]
    intro hspace
    have hcode := mem_spaceCodes hspace
    rw [toNat_toUpper] at hcode
    split at hcode
    · -- no code of a letter from A to Z is one of white space
      simp only [spaceCodes, List.mem_cons, List.not_mem_nil, or_false] at hcode
      omega
    · next hlower =>
      have hsame : c.toUpper = c := by
        rw [← Char.toNat_inj, toNat_toUpper, if_neg hlower]
      rw [hsame, h] at hspace
      cases hspace
  unfold upperForm
  split
  all_goals try decide
  exact ⟨List.cons_ne_nil _ _, fun d hd => by rw [List.mem_singleton.1 hd, hupper]⟩

/-- A letter of either case has the upper-case letter for its form. -/
theorem upperForm_of_toLower_eq {c d : Char} (hd : d.isUpper = true)
    (h : c.toLower = d.toLower) : upperForm c = [d] := by
  have htable : ∀ n < 26, upperForm (Char.ofNat (65 + n)) = [Char.ofNat (65 + n)] ∧
      upperForm (Char.ofNat (65 + n)).toLower = [Char.ofNat (65 + n)] := by decide
  have hbound : 65 ≤ d.toNat ∧ d.toNat ≤ 90 := (isUpper_val_iff d).1 (of_decide_eq_true hd)
  obtain ⟨hsame, hsmall⟩ := htable (d.toNat - 65) (by omega)
  rw [Nat.add_sub_of_le hbound.1, Char.ofNat_toNat] at hsame hsmall
  rcases (toLower_eq_toLower_iff hd).1 h with rfl | rfl
  · exact hsmall
  · exact hsame

namespace Text

variable {t word keyword gap current : Text}

/-! ## Words -/

/-- White space behind a text belongs to no word. -/
theorem wordsFrom_append_of_isBlank (hgap : gap.isBlank = true) :
    wordsFrom current (t ++ gap) = wordsFrom current t := by
  induction t generalizing current with
  | nil =>
    cases gap with
    | nil => rfl
    | cons c gap =>
      rw [isBlank, List.all_cons, Bool.and_eq_true] at hgap
      have hnone : words gap = [] := by
        rw [← List.append_nil gap, words_append_of_isBlank hgap.2]
        rfl
      rw [words] at hnone
      cases current with
      | nil => simp [wordsFrom, hgap.1, hnone]
      | cons d current => simp [wordsFrom, hgap.1, hnone]
  | cons c t ih =>
    cases hc : isSpace c with
    | true => cases current <;> simp [wordsFrom, hc, ih]
    | false => simp [wordsFrom, hc, ih]

theorem words_trimEnd (t : Text) : words (trimEndWhile isSpace t) = words t := by
  have hgap : isBlank (t.reverse.takeWhile isSpace).reverse = true := by
    rw [isBlank, List.all_eq_true]
    intro c hc
    exact List.mem_takeWhile_imp (List.mem_reverse.1 hc)
  have hsplit : t = trimEndWhile isSpace t ++ (t.reverse.takeWhile isSpace).reverse := by
    rw [trimEndWhile, ← List.reverse_append, List.takeWhile_append_dropWhile, List.reverse_reverse]
  conv_rhs => rw [hsplit]
  exact (wordsFrom_append_of_isBlank hgap).symm

/-- **Trimming keeps the words.** -/
theorem words_trim (t : Text) : words t.trim = words t := by
  rw [trim, trimWhile, words_trimEnd, words_dropWhile_isSpace]

@[simp] theorem upper_nil : upper [] = [] := rfl

theorem upper_cons (c : Char) (t : Text) : upper (c :: t) = upperForm c ++ upper t := rfl

/-- Upper case neither empties a text nor fills it. -/
theorem isEmpty_upper (t : Text) : (upper t).isEmpty = t.isEmpty := by
  cases t with
  | nil => rfl
  | cons c t =>
    have hform : upperForm c ≠ [] := by
      cases hc : isSpace c with
      | true => simp [upperForm_of_isSpace hc]
      | false => exact (isWord_upperForm hc).1
    exact List.isEmpty_eq_false_iff.2 (List.append_ne_nil_of_left_ne_nil hform _)

/-- The words of an upper-case text, with the word that is being read. -/
theorem wordsFrom_upper (current t : Text) :
    wordsFrom (upper current) (upper t) = (wordsFrom current t).map upper := by
  induction t generalizing current with
  | nil =>
    rw [upper_nil, wordsFrom, wordsFrom, isEmpty_upper]
    split <;> rfl
  | cons c t ih =>
    rw [upper_cons]
    cases hc : isSpace c with
    | true =>
      have hrest : wordsFrom [] (upper t) = (wordsFrom [] t).map upper := ih []
      rw [upperForm_of_isSpace hc, List.singleton_append, wordsFrom, wordsFrom, if_pos hc,
        if_pos hc, isEmpty_upper, hrest]
      split <;> rfl
    | false =>
      -- the word that is being read goes on with the whole of the form
      have hform : upper current ++ upperForm c = upper (current ++ [c]) := by
        simp [upper]
      have hnot : ¬ isSpace c = true := by simp [hc]
      rw [wordsFrom_append (isWord_upperForm hc).2, hform, ih, wordsFrom, if_neg hnot]

/-- **Upper case keeps the words**, each in upper case. -/
theorem words_upper (t : Text) : words t.upper = (words t).map upper := wordsFrom_upper [] t

/-! ## Keywords -/

/-- **A keyword in letters of either case** has the keyword for its upper case. -/
theorem upper_of_sameLetters (hkeyword : keyword.all Char.isUpper = true)
    (h : word.sameLetters keyword = true) : upper word = keyword := by
  induction keyword generalizing word with
  | nil =>
    cases word with
    | nil => rfl
    | cons c word => cases h
  | cons d keyword ih =>
    cases word with
    | nil => cases h
    | cons c word =>
      rw [List.all_cons, Bool.and_eq_true] at hkeyword
      obtain ⟨hd, hkeyword⟩ := hkeyword
      rw [sameLetters_cons, Bool.and_eq_true, beq_iff_eq] at h
      have hword : upper word = keyword := ih hkeyword h.2
      rw [upper_cons, upperForm_of_toLower_eq hd h.1, hword, List.singleton_append]

end Text

end ChangeFeed
