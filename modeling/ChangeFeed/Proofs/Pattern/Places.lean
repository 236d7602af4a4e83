import ChangeFeed.Pattern.Search
import Mathlib.Logic.Function.Iterate
/-!
# Sets of places — what belongs to them

The bits of a set of places are read at the cursors of a text: every cursor
has as many characters before it as its index says (`Cursor.index_add_length`),
so the set that a test picks out contains a cursor exactly if the cursor passes
(`has_suchThat`). Steps that are applied over and over, with a stop once
nothing changes, come to the plain iterate (`repeated_eq_iterate`).
-/


namespace ChangeFeed

namespace Cursor

variable {t : Text} {cursor other : Cursor} {index : Nat} {before : Option Char}

/-- **The cursors of a text**, from its start to its end. -/
def ofText (t : Text) : List Cursor := along 0 none t

/-- What is before a cursor of a text and what is after it make up the text. -/
theorem index_add_length (h : cursor ∈ along index before t) :
    index ≤ cursor.index ∧ cursor.index + cursor.rest.length = index + t.length := by
  induction t generalizing index before with
  | nil =>
    rw [along, List.mem_singleton] at h
    subst h
    exact ⟨Nat.le_refl _, rfl⟩
  | cons c t ih =>
    rw [along, List.mem_cons] at h
    rcases h with rfl | h
    · exact ⟨Nat.le_refl _, rfl⟩
    · obtain ⟨hle, hsum⟩ := ih h
      rw [List.length_cons]
      omega

/-- The place behind the next character is of the same text. -/
theorem mem_of_next? (h : cursor ∈ along index before t) (hnext : cursor.next? = some other) :
    other ∈ along index before t := by
  induction t generalizing index before with
  | nil =>
    rw [along, List.mem_singleton] at h
    subst h
    cases hnext
  | cons c t ih =>
    rw [along, List.mem_cons] at h ⊢
    rcases h with rfl | h
    · cases hnext
      exact Or.inr (by cases t <;> simp [along])
    · exact Or.inr (ih h)

/-- The next place is one character on. -/
theorem index_of_next? (hnext : cursor.next? = some other) : other.index = cursor.index + 1 := by
  unfold next? at hnext
  split at hnext
  · cases hnext
  · cases hnext
    rfl

end Cursor

namespace Places

variable {t : Text} {cursor : Cursor}

theorem has_suchThat_along {index : Nat} {before : Option Char} (test : Cursor → Bool)
    (h : cursor ∈ Cursor.along index before t) :
    (suchThat test (Cursor.along index before t)).has (cursor.index - index) = test cursor := by
  -- the first cursor is the lowest bit, and the others are those of the rest
  have hcons : ∀ first rest i, (suchThat test (first :: rest)).has i =
      if i = 0 then test first else (suchThat test rest).has (i - 1) := by
    intro first rest i
    cases i with
    | zero => cases hfirst : test first <;> simp [suchThat, has, hfirst]
    | succ i =>
      have hhalf : ∀ n : Nat, (2 * n + (test first).toNat) / 2 = n := by
        intro n
        have hbit : (test first).toNat < 2 := Bool.toNat_lt _
        omega
      simp [suchThat, has, Nat.testBit_succ, hhalf]
  induction t generalizing index before with
  | nil =>
    rw [Cursor.along, List.mem_singleton] at h
    subst h
    rw [Cursor.along, hcons, if_pos (Nat.sub_self _)]
  | cons c t ih =>
    rw [Cursor.along, List.mem_cons] at h
    rw [Cursor.along, hcons]
    rcases h with rfl | h
    · rw [if_pos (Nat.sub_self _)]
    · have hle : index + 1 ≤ cursor.index := (Cursor.index_add_length h).1
      rw [if_neg (by omega), Nat.sub_sub, ih h]

/-- **A set picked out by a test** contains a cursor of the text exactly if
the cursor passes. -/
theorem has_suchThat (test : Cursor → Bool) (h : cursor ∈ Cursor.ofText t) :
    (suchThat test (Cursor.ofText t)).has cursor.index = test cursor :=
  has_suchThat_along test h

/-- Of the places behind an index only the later ones are left. -/
theorem has_behind (s : Places) (i j : Nat) : (s.behind i).has j = (decide (i < j) && s.has j) := by
  have hbound : decide (j ≥ i + 1) = decide (i < j) := rfl
  rw [behind, has, Nat.testBit_shiftLeft, Nat.testBit_shiftRight, hbound]
  by_cases hij : i < j
  · have hsum : i + 1 + (j - (i + 1)) = j := by omega
    rw [hsum, has]
  · simp [hij]

/-- Of the place at an index nothing else is left. -/
theorem has_only (s : Places) (i j : Nat) : (only i s).has j = (decide (i = j) && s.has i) := by
  unfold only
  cases hi : s.has i with
  | true => simp [has, Nat.one_shiftLeft, Nat.testBit_two_pow]
  | false => simp [has]

/-- Steps that stop once nothing changes come to as many steps. -/
theorem repeated_eq_iterate (step : Places → Places) (n : Nat) (s : Places) :
    repeated step n s = step^[n] s := by
  induction n generalizing s with
  | zero => rfl
  | succ n ih =>
    rw [repeated, Function.iterate_succ_apply]
    by_cases hfixed : step s = s
    · rw [if_pos hfixed, hfixed, Function.iterate_fixed hfixed]
    · rw [if_neg hfixed, ih]

end Places

end ChangeFeed
