import ChangeFeed.Text.Natural
/-!
# Cutting — parts that are put together are found again

A text is cut behind what it starts with, at the first separator or at every
one. Parts without a separator are found again in what they are joined to
(`splitAll_joined`). Numbers in decimal have no comma, so a list of them that is
joined by commas is read back from the text (`numbers_joined`).
-/


namespace ChangeFeed

namespace Text

variable {c : Char} {s t : Text}

theorem stripStart?_append (s t : Text) : stripStart? s (s ++ t) = some t := by
  induction s with
  | nil => rfl
  | cons c s ih => rw [List.cons_append, stripStart?, if_pos rfl, ih]

theorem stripStart?_eq_some_iff {start rest : Text} :
    stripStart? start t = some rest ↔ t = start ++ rest := by
  constructor
  · intro h
    induction start generalizing t with
    | nil => exact Option.some.inj h
    | cons c start ih =>
      cases t with
      | nil => cases h
      | cons d t =>
        rw [stripStart?] at h
        split at h
        · next heq => rw [ih h, heq, List.cons_append]
        · cases h
  · rintro rfl
    exact stripStart?_append start rest

theorem stripEnd?_eq_some_iff {ending front : Text} :
    stripEnd? ending t = some front ↔ t = front ++ ending := by
  rw [stripEnd?, Option.map_eq_some_iff]
  constructor
  · rintro ⟨reversed, hreversed, rfl⟩
    have hback := congrArg List.reverse (stripStart?_eq_some_iff.1 hreversed)
    rwa [List.reverse_reverse, List.reverse_append, List.reverse_reverse] at hback
  · rintro rfl
    refine ⟨front.reverse, ?_, List.reverse_reverse front⟩
    rw [List.reverse_append, stripStart?_append]

/-- A text has one last character, so it does not end in one that ends in
another. -/
theorem stripEnd?_eq_none_of_getLast? {ending : Text} {last : Char} (h : t.getLast? = some c)
    (hending : ending.getLast? = some last) (hne : c ≠ last) : stripEnd? ending t = none := by
  rw [Option.eq_none_iff_forall_ne_some]
  intro front hfront
  rw [stripEnd?_eq_some_iff.1 hfront, List.getLast?_append, hending] at h
  exact hne (Option.some.inj h).symm

/-- **The cut at the first separator**: no other stands before it. -/
theorem splitFirst?_eq_some_iff {before after : Text} :
    t.splitFirst? c = some (before, after) ↔ t = before ++ c :: after ∧ c ∉ before := by
  constructor
  · intro h
    refine ⟨eq_of_splitFirst? h, ?_⟩
    induction t generalizing before with
    | nil => cases h
    | cons d t ih =>
      rw [splitFirst?] at h
      split at h
      · cases h
        exact List.not_mem_nil
      · next hd =>
        obtain ⟨⟨inner, _⟩, hinner, heq⟩ := Option.map_eq_some_iff.1 h
        cases heq
        have hc : c ∉ inner := ih hinner
        simp [hc, Ne.symm hd]
  · rintro ⟨rfl, hc⟩
    induction before with
    | nil => simp [splitFirst?]
    | cons d before ih =>
      rw [List.mem_cons, not_or] at hc
      rw [List.cons_append, splitFirst?, if_neg (Ne.symm hc.1), ih hc.2, Option.map_some]

theorem splitAll_of_notMem (h : c ∉ s) : splitAll c s = [s] := by
  induction s with
  | nil => rfl
  | cons d s ih =>
    rw [List.mem_cons, not_or] at h
    rw [splitAll, if_neg (Ne.symm h.1), ih h.2]

theorem splitAll_append (h : c ∉ s) : splitAll c (s ++ c :: t) = s :: splitAll c t := by
  induction s with
  | nil => rw [List.nil_append, splitAll, if_pos rfl]
  | cons d s ih =>
    rw [List.mem_cons, not_or] at h
    rw [List.cons_append, splitAll, if_neg (Ne.symm h.1), ih h.2]

theorem joined_cons {separator part : Text} {parts : List Text} (hne : parts ≠ []) :
    joined separator (part :: parts) = part ++ (separator ++ joined separator parts) := by
  obtain ⟨next, parts, rfl⟩ := List.exists_cons_of_ne_nil hne
  rw [joined, List.append_assoc]
  exact List.cons_ne_nil next parts

/-- What is joined begins with the first part. -/
theorem exists_joined_cons (separator part : Text) (parts : List Text) :
    ∃ tail, joined separator (part :: parts) = part ++ tail := by
  cases parts with
  | nil => exact ⟨[], (List.append_nil part).symm⟩
  | cons next parts => exact ⟨_, joined_cons (List.cons_ne_nil next parts)⟩

/-- What is joined is the first part and each other behind a separator. -/
theorem joined_cons_eq_flatMap (separator part : Text) (parts : List Text) :
    joined separator (part :: parts) = part ++ parts.flatMap (separator ++ ·) := by
  induction parts generalizing part with
  | nil => exact (List.append_nil part).symm
  | cons next parts ih =>
    rw [joined_cons (List.cons_ne_nil next parts), ih, List.flatMap_cons, List.append_assoc]

/-- **Parts that are joined are found again**, if no separator is in them. -/
theorem splitAll_joined {parts : List Text} (hne : parts ≠ []) (h : ∀ part ∈ parts, c ∉ part) :
    splitAll c (joined [c] parts) = parts := by
  induction parts with
  | nil => exact absurd rfl hne
  | cons part rest ih =>
    obtain ⟨hpart, hrest⟩ := List.forall_mem_cons.1 h
    cases rest with
    | nil => exact splitAll_of_notMem hpart
    | cons next rest =>
      rw [joined_cons (List.cons_ne_nil next rest), List.singleton_append, splitAll_append hpart,
        ih (List.cons_ne_nil next rest) hrest]

/-! ## Lists of numbers -/

theorem isDigit_of_mem_ofNatural {n : Nat} (h : c ∈ ofNatural n) : c.isDigit = true :=
  Nat.isDigit_of_mem_toDigits (by decide) (by decide) h

theorem comma_notMem_ofNatural (n : Nat) : ',' ∉ ofNatural n := by
  intro hmem
  cases isDigit_of_mem_ofNatural hmem

/-- The numbers between the commas of a text. -/
def numbers (t : Text) : List Nat := (splitAll ',' t).map fun part => Nat.ofDigitChars 10 part 0

/-- **Numbers that are joined by commas are read back.** -/
theorem numbers_joined {parameters : List Nat} (h : parameters ≠ []) :
    numbers (joined [','] (parameters.map ofNatural)) = parameters := by
  have hback : ∀ n, Nat.ofDigitChars 10 (ofNatural n) 0 = n :=
    fun n => Nat.ofDigitChars_ten_toDigits
  rw [numbers, splitAll_joined (by simpa using h)
    (List.forall_mem_map.2 fun n _ => comma_notMem_ofNatural n), List.map_map]
  exact (List.map_congr_left fun n _ => hback n).trans (List.map_id parameters)

/-- What is joined has the characters of its parts and of the separator. -/
theorem mem_joined {separator : Text} {parts : List Text} (h : c ∈ joined separator parts) :
    c ∈ separator ∨ ∃ part ∈ parts, c ∈ part := by
  induction parts with
  | nil => cases h
  | cons part parts ih =>
    cases parts with
    | nil => exact Or.inr ⟨part, List.mem_singleton_self part, h⟩
    | cons next parts =>
      rw [joined_cons (List.cons_ne_nil next parts), List.mem_append, List.mem_append] at h
      rcases h with hpart | hseparator | hrest
      · exact Or.inr ⟨part, List.mem_cons_self, hpart⟩
      · exact Or.inl hseparator
      · rcases ih hrest with hseparator | ⟨other, hmem, hother⟩
        · exact Or.inl hseparator
        · exact Or.inr ⟨other, List.mem_cons_of_mem part hmem, hother⟩

end Text

end ChangeFeed
