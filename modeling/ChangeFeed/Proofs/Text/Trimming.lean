import ChangeFeed.Text.Blank
import Mathlib.Data.List.DropRight
/-!
# Trimming — what is cut off the ends of a text

The characters that are cut off stand at an end and have the property that is
trimmed by, so a character without it stays, and so does all that stands on
the other side of it.
-/


namespace ChangeFeed

namespace Text

variable {p : Char → Bool} {c : Char} {s t : Text}

theorem trimEndWhile_eq_rdropWhile : trimEndWhile p t = t.rdropWhile p := rfl

/-- What is cut off the end does not reach a character that stays. -/
theorem trimEndWhile_cons (h : p c = false) :
    trimEndWhile p (c :: t) = c :: trimEndWhile p t := by
  rw [trimEndWhile, trimEndWhile, List.reverse_cons, List.dropWhile_append]
  split
  · next hnil => simp [List.isEmpty_iff.1 hnil, h]
  · simp

/-- A text that is cut off as a whole leaves what stands before it to be
trimmed. -/
theorem trimEndWhile_append_of_forall (h : ∀ c ∈ t, p c = true) :
    trimEndWhile p (s ++ t) = trimEndWhile p s := by
  rw [trimEndWhile, List.reverse_append,
    List.dropWhile_append_of_pos fun c hc => h c (List.mem_reverse.1 hc)]
  rfl

/-- Where a character stays, so does all that stands before. -/
theorem trimEndWhile_append_of_mem (hc : c ∈ t) (h : p c = false) :
    trimEndWhile p (s ++ t) = s ++ trimEndWhile p t := by
  have hkept : t.reverse.dropWhile p ≠ [] := by
    intro hnil
    have hall := List.dropWhile_eq_nil_iff.1 hnil c (List.mem_reverse.2 hc)
    rw [h] at hall
    cases hall
  rw [trimEndWhile, trimEndWhile, List.reverse_append, List.dropWhile_append,
    if_neg (by simpa using hkept), List.reverse_append, List.reverse_reverse]

theorem eq_false_of_getLast?_trimEndWhile (h : (trimEndWhile p t).getLast? = some c) :
    p c = false := by
  have hne : t.rdropWhile p ≠ [] := List.ne_nil_of_mem (List.mem_of_getLast? h)
  have hlast := List.rdropWhile_last_not p t hne
  rw [trimEndWhile_eq_rdropWhile, List.getLast?_eq_some_getLast hne] at h
  cases h
  simpa using hlast

/-- **What is trimmed at the end** has been cut off, and nothing is left there
to be. -/
theorem trimEndWhile_eq_iff :
    trimEndWhile p t = s ↔ (∃ cut, (∀ c ∈ cut, p c = true) ∧ t = s ++ cut) ∧
      ∀ c, s.getLast? = some c → p c = false := by
  constructor
  · rintro rfl
    exact ⟨⟨t.rtakeWhile p, fun _ => List.mem_rtakeWhile_imp,
      List.rdropWhile_append_rtakeWhile.symm⟩, fun _ => eq_false_of_getLast?_trimEndWhile⟩
  · rintro ⟨⟨cut, hcut, rfl⟩, hlast⟩
    rw [trimEndWhile_append_of_forall hcut, trimEndWhile_eq_rdropWhile,
      List.rdropWhile_eq_self_iff]
    intro hne
    simp [hlast _ (List.getLast?_eq_some_getLast hne)]

/-- One character is trimmed by, and the text does not end in it any more. -/
theorem trimEndWhile_char_eq_iff :
    trimEndWhile (· == c) t = s ↔ (∃ cut, (∀ d ∈ cut, d = c) ∧ t = s ++ cut) ∧
      s.getLast? ≠ some c := by
  rw [trimEndWhile_eq_iff]
  simp only [beq_iff_eq, beq_eq_false_iff_ne]
  refine and_congr_right fun _ => ?_
  constructor
  · intro h hlast
    exact h c hlast rfl
  · rintro h d hlast rfl
    exact h hlast

/-- **Nothing is trimmed at the end** where the last character stays. -/
theorem trimEndWhile_eq_self_iff :
    trimEndWhile p t = t ↔ ∀ c, t.getLast? = some c → p c = false := by
  rw [trimEndWhile_eq_iff]
  exact and_iff_right ⟨[], List.forall_mem_nil _, (List.append_nil t).symm⟩

theorem trimEndWhile_eq_self (h : ∀ c ∈ t, p c = false) : trimEndWhile p t = t :=
  trimEndWhile_eq_self_iff.2 fun c hc => h c (List.mem_of_getLast? hc)

/-- **What is not trimmed by stays.** -/
theorem mem_trimEndWhile (hc : c ∈ t) (h : p c = false) : c ∈ trimEndWhile p t := by
  obtain ⟨s, rest, rfl⟩ := List.append_of_mem hc
  rw [trimEndWhile_append_of_mem List.mem_cons_self h, trimEndWhile_cons h]
  exact List.mem_append_right s List.mem_cons_self

theorem mem_trimWhile (hc : c ∈ t) (h : p c = false) : c ∈ trimWhile p t := by
  refine mem_trimEndWhile ?_ h
  rw [← List.takeWhile_append_dropWhile (p := p) (l := t)] at hc
  rcases List.mem_append.1 hc with hcut | hkept
  · have hp := List.mem_takeWhile_imp hcut
    rw [h] at hp
    cases hp
  · exact hkept

/-- **Whatever is trimmed by may stand around a text.** -/
theorem trimWhile_append {rest : Text} (hs : ∀ c ∈ s, p c = true) (hrest : ∀ c ∈ rest, p c = true) :
    trimWhile p (s ++ (t ++ rest)) = trimWhile p t := by
  rw [trimWhile, trimWhile, List.dropWhile_append_of_pos hs, List.dropWhile_append]
  split
  · next hnil =>
    rw [List.isEmpty_iff.1 hnil, List.dropWhile_eq_nil_iff.2 hrest]
  · exact trimEndWhile_append_of_forall hrest

/-- **Nothing is trimmed** where neither end has what is trimmed by. -/
theorem trimWhile_eq_self_iff :
    trimWhile p t = t ↔
      (∀ c, t.head? = some c → p c = false) ∧ ∀ c, t.getLast? = some c → p c = false := by
  cases t with
  | nil => simp [trimWhile, trimEndWhile]
  | cons c t =>
    cases hc : p c with
    | true =>
      -- the first character is gone, and with it the length
      constructor
      · intro h
        have hlength : (trimWhile p (c :: t)).length ≤ t.length := by
          rw [trimWhile, List.dropWhile_cons_of_pos hc, trimEndWhile_eq_rdropWhile]
          exact (List.rdropWhile_prefix p _).length_le.trans (List.dropWhile_suffix p).length_le
        rw [h, List.length_cons] at hlength
        omega
      · intro h
        rw [h.1 c rfl] at hc
        cases hc
    | false =>
      rw [trimWhile, List.dropWhile_cons_of_neg (by simp [hc]), trimEndWhile_eq_self_iff]
      constructor
      · intro h
        refine ⟨fun d hd => ?_, h⟩
        cases hd
        exact hc
      · exact And.right

theorem trimWhile_eq_self (ht : ∀ c ∈ t, p c = false) : trimWhile p t = t :=
  trimWhile_eq_self_iff.2
    ⟨fun c hc => ht c (List.mem_of_head? hc), fun c hc => ht c (List.mem_of_getLast? hc)⟩

/-- **What is trimmed at both ends** has been cut off, and nothing is left there
to be. -/
theorem trimWhile_eq_iff :
    trimWhile p t = s ↔ (∃ before after, (∀ c ∈ before, p c = true) ∧ (∀ c ∈ after, p c = true) ∧
      t = before ++ (s ++ after)) ∧ trimWhile p s = s := by
  constructor
  · rintro rfl
    obtain ⟨⟨after, hafter, hrest⟩, hlast⟩ :=
      trimEndWhile_eq_iff.1 (show trimEndWhile p (t.dropWhile p) = trimWhile p t from rfl)
    refine ⟨⟨t.takeWhile p, after, fun _ => List.mem_takeWhile_imp, hafter, ?_⟩,
      trimWhile_eq_self_iff.2 ⟨fun c hc => ?_, hlast⟩⟩
    · rw [← hrest, List.takeWhile_append_dropWhile]
    · -- the first character is also that of what the front was cut off
      have hhead : (t.dropWhile p).head? = some c := by
        rw [hrest, List.head?_append, hc, Option.some_or]
      have hfirst := List.head?_dropWhile_not p t
      rwa [hhead] at hfirst
  · rintro ⟨⟨before, after, hbefore, hafter, rfl⟩, hself⟩
    rw [trimWhile_append hbefore hafter, hself]

/-- A text between characters that are trimmed by is what is left of both. -/
theorem trimWhile_between (ht : ∀ c ∈ t, p c = false) (hs : p c = true) :
    trimWhile p (c :: (t ++ [c])) = t := by
  have hend : ∀ d ∈ [c], p d = true := List.forall_mem_singleton.2 hs
  exact (trimWhile_append hend hend).trans (trimWhile_eq_self ht)

/-- A text that is not blank is not blank when it is trimmed. -/
theorem isBlank_trim (h : t.isBlank = false) : t.trim.isBlank = false := by
  obtain ⟨c, hc, hspace⟩ := List.all_eq_false.1 h
  exact List.all_eq_false.2 ⟨c, mem_trimWhile hc (by simpa using hspace), hspace⟩

end Text

end ChangeFeed
