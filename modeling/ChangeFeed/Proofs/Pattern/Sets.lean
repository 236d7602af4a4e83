import ChangeFeed.Pattern.Parser
import Mathlib.Tactic.ByContra
/-!
# Sets without case — white space and the letters of keywords

Where case is ignored, a set holds the characters that fold together with one
of its own. White space has no case, so its set stays as it is
(`contains_anyCase_space`). Of a keyword letter the set has the letter and its
small form and nothing else (`contains_literal`), since none of
these letters is one that a character outside of the alphabet folds to.
-/


namespace ChangeFeed

namespace FoldRun

variable {run : FoldRun} {n m : Nat}

/-- A code point that is folded is found again from its image. -/
theorem preimage?_of_image? (h : run.image? n = some m) : run.preimage? m = some n := by
  obtain ⟨first, last, step, image⟩ := run
  simp only [image?, Option.ite_none_right_eq_some, Option.some.injEq] at h
  obtain ⟨⟨hfirst, hlast, hstep⟩, rfl⟩ := h
  have hback : image + (n - first) - image = n - first := by omega
  have hagain : first + (n - first) = n := by omega
  simp only [preimage?, hback, hagain]
  exact if_pos ⟨by omega, by omega, hstep⟩

/-- What is found from an image is folded. -/
theorem image?_of_preimage? (hrun : run.1 ≤ run.2.1) (h : run.preimage? m = some n) :
    run.image? n = some m := by
  obtain ⟨first, last, step, image⟩ := run
  have hle : first ≤ last := hrun
  simp only [preimage?, Option.ite_none_right_eq_some, Option.some.injEq] at h
  obtain ⟨⟨himage, hlast, hstep⟩, rfl⟩ := h
  have hback : first + (m - image) - first = m - image := by omega
  have hagain : image + (m - image) = m := by omega
  simp only [image?, hback, hagain]
  exact if_pos ⟨by omega, by omega, hstep⟩

end FoldRun

/-! ## White space -/

/-- The code points of white space. -/
def spaceCodes : List Nat :=
  [0x09, 0x0A, 0x0B, 0x0C, 0x0D, 0x20, 0x85, 0xA0, 0x1680, 0x2000, 0x2001, 0x2002, 0x2003, 0x2004,
    0x2005, 0x2006, 0x2007, 0x2008, 0x2009, 0x200A, 0x2028, 0x2029, 0x202F, 0x205F, 0x3000]

theorem mem_spaceCodes {c : Char} (h : isSpace c = true) : c.toNat ∈ spaceCodes := by
  simp only [isSpace, Bool.or_eq_true, Bool.and_eq_true, decide_eq_true_eq, beq_iff_eq] at h
  simp only [spaceCodes, List.mem_cons, List.not_mem_nil, or_false]
  omega

theorem mem_spaceCodes_of_ofNat {n : Nat} (h : isSpace (Char.ofNat n) = true) :
    n ∈ spaceCodes := by
  by_cases hn : n.isValidChar
  · have hnat : (Char.ofNat n).toNat = n := congrArg Char.toNat (dif_pos hn)
    exact hnat ▸ mem_spaceCodes h
  · have hnull : Char.ofNat n = '\x00' := dif_neg hn
    rw [hnull] at h
    exact absurd h (by decide)

/-- No white space folds to anything, and nothing folds to white space. -/
theorem fold_spaceCodes : ∀ run ∈ foldRuns, run.1 ≤ run.2.1 ∧
    ∀ n ∈ spaceCodes, run.image? n = none ∧ run.preimage? n = none := by
  decide +kernel

/-- **White space has no case.** -/
theorem isSpace_of_mem_caseVariants {c d : Char} (hd : d ∈ caseVariants c) :
    isSpace d = isSpace c := by
  have hfold : isSpace (foldCase c) = isSpace c := by
    unfold foldCase
    cases hfind : foldRuns.findSome? (·.image? c.toNat) with
    | none => rfl
    | some m =>
      obtain ⟨run, hrun, himage⟩ := List.exists_of_findSome?_eq_some hfind
      have hc : isSpace c = false := by
        by_contra hspace
        have hnone := ((fold_spaceCodes run hrun).2 _ (mem_spaceCodes (by simpa using hspace))).1
        rw [himage] at hnone
        cases hnone
      have hm : isSpace (Char.ofNat m) = false := by
        by_contra hspace
        have hmem := mem_spaceCodes_of_ofNat (by simpa using hspace)
        have hnone := ((fold_spaceCodes run hrun).2 m hmem).2
        rw [FoldRun.preimage?_of_image? himage] at hnone
        cases hnone
      simp only [hc, hm]
  rw [← hfold]
  rcases List.mem_cons.1 hd with rfl | hd
  · rfl
  · obtain ⟨n, hn, rfl⟩ := List.mem_map.1 hd
    obtain ⟨run, hrun, hpreimage⟩ := List.mem_filterMap.1 hn
    obtain ⟨hle, hcodes⟩ := fold_spaceCodes run hrun
    have himage := FoldRun.image?_of_preimage? hle hpreimage
    have hspace : isSpace (Char.ofNat n) = false := by
      by_contra hspace
      have hnone := (hcodes n (mem_spaceCodes_of_ofNat (by simpa using hspace))).1
      rw [himage] at hnone
      cases hnone
    have hfolded : isSpace (foldCase c) = false := by
      by_contra hspace
      have hnone := (hcodes _ (mem_spaceCodes (by simpa using hspace))).2
      rw [hpreimage] at hnone
      cases hnone
    rw [hspace, hfolded]

theorem contains_anyCase_space (c : Char) : (CharSet.anyCase .space).contains c = isSpace c := by
  have hvariants : ∀ d ∈ caseVariants c, CharSet.space.contains d = isSpace c := fun d hd =>
    isSpace_of_mem_caseVariants hd
  rw [CharSet.contains]
  cases hc : isSpace c with
  | true =>
    rw [hc] at hvariants
    exact List.any_eq_true.2 ⟨foldCase c, List.mem_cons_self, hvariants _ List.mem_cons_self⟩
  | false =>
    rw [hc] at hvariants
    exact List.any_eq_false.2 fun d hd => by simp [hvariants d hd]

/-! ## Letters -/

/-- The letters of keywords. -/
def keywordLetters : Text := "ABCDELMNOPRTU".toList

/-- A keyword letter and its small form are all that folds together with it,
and neither is white space. -/
theorem of_mem_keywordLetters {c : Char} (h : c ∈ keywordLetters) :
    c.isUpper = true ∧ isSpace c = false ∧ isSpace c.toLower = false ∧
      caseVariants c = [c.toLower, c] := by
  -- all of them are tried in one table, as a test that is computed
  have hall : keywordLetters.all (fun c => c.isUpper && !isSpace c && !isSpace c.toLower &&
      caseVariants c == [c.toLower, c]) = true := by
    decide +kernel
  simpa [and_assoc] using List.all_eq_true.1 hall c h

theorem isUpper_val_iff (c : Char) :
    (c.val ≥ 'A'.val ∧ c.val ≤ 'Z'.val) ↔ 65 ≤ c.toNat ∧ c.toNat ≤ 90 := by
  rw [ge_iff_le, UInt32.le_iff_toNat_le, UInt32.le_iff_toNat_le]
  exact Iff.rfl

theorem toNat_toLower (c : Char) :
    c.toLower.toNat = if 65 ≤ c.toNat ∧ c.toNat ≤ 90 then c.toNat + 32 else c.toNat := by
  have hupper := isUpper_val_iff c
  unfold Char.toLower
  split
  · next h =>
    have hbound := hupper.1 h
    have hval : (c.val + ('a'.val - 'A'.val)).toNat = (c.toNat + 32) % 2 ^ 32 :=
      UInt32.toNat_add _ _
    rw [if_pos hbound, Char.toNat, hval]
    omega
  · next h => rw [if_neg (mt hupper.2 h)]

/-- A character is a letter up to case exactly if it is the letter or its
small form. -/
theorem toLower_eq_toLower_iff {c d : Char} (hc : c.isUpper = true) :
    d.toLower = c.toLower ↔ d = c.toLower ∨ d = c := by
  have hbound : 65 ≤ c.toNat ∧ c.toNat ≤ 90 := (isUpper_val_iff c).1 (of_decide_eq_true hc)
  rw [← Char.toNat_inj, ← Char.toNat_inj, ← Char.toNat_inj, toNat_toLower, toNat_toLower,
    if_pos hbound]
  split <;> omega

/-- **A keyword letter without case** is the letter up to the case of the
letters `A` to `Z`. -/
theorem contains_literal {c : Char} (hc : c ∈ keywordLetters) (d : Char) :
    ((PatternFlags.literal { ignoreCase := true } c).contains d) = (d.toLower == c.toLower) := by
  obtain ⟨hupper, -, -, hvariants⟩ := of_mem_keywordLetters hc
  rw [PatternFlags.literal, if_pos rfl, hvariants, CharSet.contains, Bool.eq_iff_iff, beq_iff_eq,
    toLower_eq_toLower_iff hupper]
  simp

end ChangeFeed
