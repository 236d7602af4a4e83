import ChangeFeed.Proofs.Pattern.Sets
import ChangeFeed.Proofs.Text.Cutting
import Mathlib.Data.List.Nodup
/-!
# Digits — the numbers that texts write

`WritesNatural` says what writes a number in some base: one digit or more,
perhaps behind a plus. A number is read from exactly the texts that write one
below the bound (`readNatural_eq_ok_iff`). A reader gives up where the value
reaches the bound, before it has seen the rest: nothing is lost by that, as more
digits never make a number smaller. So the number that is read is the one that
is written, and never what a bound has left of it.
-/


namespace ChangeFeed

variable {base bound value d n : Nat} {c : Char} {t : Text}

/-! ## Digits -/

/-- The digits up to base sixteen, each at the place of its value. -/
def hexDigits : Text := "0123456789abcdef".toList

/-- **A hexadecimal digit** of some value, in letters of either case. -/
def IsHexDigit (c : Char) (d : Nat) : Prop := hexDigits[d]? = some c.toLower

theorem isSpace_of_isDigit (h : c.isDigit = true) : isSpace c = false := by
  have hrange : 48 ≤ c.toNat ∧ c.toNat ≤ 57 := Char.isDigit_iff_toNat.1 h
  simp only [isSpace, Bool.or_eq_false_iff, Bool.and_eq_false_iff, decide_eq_false_iff_not,
    beq_eq_false_iff_ne]
  omega

/-- A digit is less than the base. -/
theorem lt_of_digitValue? (h : digitValue? base c = some d) : d < base := by
  have hfilter := (Option.filter_eq_some_iff.1 h).2
  exact of_decide_eq_true hfilter

theorem digitValue?_ten_eq_some_iff :
    digitValue? 10 c = some d ↔ c.isDigit = true ∧ c.toNat - '0'.toNat = d := by
  unfold digitValue?
  rw [Option.filter_eq_some_iff, decide_eq_true_eq]
  split
  · next hdigit =>
    have hrange : c.toNat ≤ 57 := (Char.isDigit_iff_toNat.1 hdigit).2
    have hzero : '0'.toNat = 48 := rfl
    simp only [Option.some.injEq, hdigit, true_and]
    constructor
    · exact And.left
    · intro heq
      exact ⟨heq, by omega⟩
  · next hdigit =>
    -- the letters have values from ten on
    constructor
    · rintro ⟨hvalue, hlt⟩
      split at hvalue
      · cases hvalue
        omega
      split at hvalue
      · cases hvalue
        omega
      · cases hvalue
    · exact fun h => absurd h.1 hdigit

theorem toNat_lt_of_digitValue? (h : digitValue? base c = some d) : c.toNat < 128 := by
  unfold digitValue? at h
  obtain ⟨hvalue, -⟩ := Option.filter_eq_some_iff.1 h
  split at hvalue
  · next hdigit =>
    have hrange : c.toNat ≤ 57 := (Char.isDigit_iff_toNat.1 hdigit).2
    omega
  split at hvalue
  · next hsmall =>
    have hrange : c.toNat ≤ 102 := hsmall.2
    omega
  split at hvalue
  · next hcapital =>
    have hrange : c.toNat ≤ 70 := hcapital.2
    omega
  · cases hvalue

theorem IsHexDigit.toNat_lt (h : IsHexDigit c d) : c.toNat < 128 := by
  have hascii : hexDigits.all (·.toNat < 128) = true := by decide
  have hlower := of_decide_eq_true (List.all_eq_true.1 hascii _ (List.mem_of_getElem? h))
  rw [toNat_toLower] at hlower
  split at hlower
  · omega
  · exact hlower

/-- **The digits that are read in base sixteen.** -/
theorem digitValue?_sixteen_eq_some_iff : digitValue? 16 c = some d ↔ IsHexDigit c d := by
  have htable : ∀ n < 128, digitValue? 16 (Char.ofNat n) =
      hexDigits.idxOf? (Char.ofNat n).toLower := by decide
  have hplace : hexDigits.idxOf? c.toLower = some d ↔ IsHexDigit c d := by
    have hnodup : hexDigits.Nodup := by decide
    unfold IsHexDigit
    rw [List.idxOf?_eq_some_iff, List.getElem?_eq_some_iff]
    refine exists_congr fun hd => and_iff_left_of_imp fun heq i hi hfirst => ?_
    have hsame : i = d := hnodup.getElem_inj_iff.1 (hfirst.trans heq.symm)
    omega
  rcases Nat.lt_or_ge c.toNat 128 with hlt | hge
  · have hvalue := htable c.toNat hlt
    rw [Char.ofNat_toNat] at hvalue
    rw [hvalue, hplace]
  · constructor
    · intro h
      have hlt := toNat_lt_of_digitValue? h
      omega
    · intro h
      have hlt := h.toNat_lt
      omega

namespace Text

/-! ## Numbers -/

/-- **The value of digits** of a base, behind others of some value. -/
def digitsValue? (base value : Nat) : Text → Option Nat
  | [] => some value
  | c :: t => (digitValue? base c).bind fun d => digitsValue? base (value * base + d) t

/-- **What writes a number**: digits of the base, at least one, perhaps behind
a plus. -/
inductive WritesNatural (base n : Nat) : Text → Prop where
  | plain {digits : Text} (hne : digits ≠ []) (h : digitsValue? base 0 digits = some n) :
      WritesNatural base n digits
  | signed {digits : Text} (hne : digits ≠ []) (h : digitsValue? base 0 digits = some n) :
      WritesNatural base n ('+' :: digits)

/-- More digits never make a number smaller. -/
theorem le_of_digitsValue? (h : digitsValue? base value t = some n) : value ≤ n := by
  induction t generalizing value with
  | nil => exact Nat.le_of_eq (Option.some.inj h)
  | cons c t ih =>
    obtain ⟨d, hd, ht⟩ := Option.bind_eq_some_iff.1 h
    have hlt : d < base := lt_of_digitValue? hd
    calc value ≤ value * base := Nat.le_mul_of_pos_right value (by omega)
      _ ≤ value * base + d := Nat.le_add_right _ _
      _ ≤ n := ih ht

theorem toNat_lt_of_digitsValue? (h : digitsValue? base value t = some n) (hc : c ∈ t) :
    c.toNat < 128 := by
  induction t generalizing value with
  | nil => cases hc
  | cons d t ih =>
    obtain ⟨_, hd, ht⟩ := Option.bind_eq_some_iff.1 h
    rcases List.mem_cons.1 hc with rfl | hmem
    · exact toNat_lt_of_digitValue? hd
    · exact ih ht hmem

/-- A number is written in ASCII. -/
theorem WritesNatural.toNat_lt (h : WritesNatural base n t) (hc : c ∈ t) : c.toNat < 128 := by
  cases h with
  | plain _ hdigits => exact toNat_lt_of_digitsValue? hdigits hc
  | signed _ hdigits =>
    rcases List.mem_cons.1 hc with rfl | hmem
    · decide
    · exact toNat_lt_of_digitsValue? hdigits hmem

/-- In base ten the digits are `0` to `9`. -/
theorem digitsValue?_ten_eq_some_iff :
    digitsValue? 10 value t = some n ↔
      (∀ c ∈ t, c.isDigit = true) ∧ Nat.ofDigitChars 10 t value = n := by
  induction t generalizing value with
  | nil => simp [digitsValue?]
  | cons c t ih =>
    rw [digitsValue?, Option.bind_eq_some_iff, List.forall_mem_cons, Nat.ofDigitChars_cons]
    constructor
    · rintro ⟨d, hd, ht⟩
      obtain ⟨hdigit, rfl⟩ := digitValue?_ten_eq_some_iff.1 hd
      obtain ⟨hdigits, hvalue⟩ := ih.1 ht
      rw [Nat.mul_comm] at hvalue
      exact ⟨⟨hdigit, hdigits⟩, hvalue⟩
    · rintro ⟨⟨hdigit, hdigits⟩, hvalue⟩
      rw [Nat.mul_comm] at hvalue
      exact ⟨_, digitValue?_ten_eq_some_iff.2 ⟨hdigit, rfl⟩, ih.2 ⟨hdigits, hvalue⟩⟩

/-- A number is written by its decimal digits. -/
theorem writesNatural_ofNatural (n : Nat) : WritesNatural 10 n (ofNatural n) :=
  .plain Nat.toDigits_ne_nil (digitsValue?_ten_eq_some_iff.2
    ⟨fun _ hc => isDigit_of_mem_ofNatural hc, Nat.ofDigitChars_ten_toDigits⟩)

/-! ## Reading -/

/-- **The reader gives the value if that stays below the bound.** -/
theorem readDigits_eq_ok_iff (hvalue : value < bound) :
    readDigits base bound value t = .ok n ↔ digitsValue? base value t = some n ∧ n < bound := by
  induction t generalizing value with
  | nil =>
    simp only [readDigits, digitsValue?, Except.ok.injEq, Option.some.injEq]
    constructor
    · rintro rfl
      exact ⟨rfl, hvalue⟩
    · exact And.left
  | cons c t ih =>
    rw [readDigits, digitsValue?]
    cases hd : digitValue? base c with
    | none => simp
    | some d =>
      rw [Option.bind_some]
      dsimp only
      split
      · next hfits => exact ih hfits
      · next hfull =>
        -- what the digits have come to is part of the number
        constructor
        · intro h
          cases h
        · rintro ⟨hdigits, hlt⟩
          have hle := le_of_digitsValue? hdigits
          omega

/-- **The number that is read is the one that is written**, if it is below the
bound. -/
theorem readNatural_eq_ok_iff (hbound : 0 < bound) :
    readNatural base bound t = .ok n ↔ WritesNatural base n t ∧ n < bound := by
  constructor
  · intro h
    unfold readNatural at h
    split at h
    · cases h
    · cases h
    · next digits hne =>
      obtain ⟨hdigits, hlt⟩ := (readDigits_eq_ok_iff hbound).1 h
      exact ⟨.signed (by simpa using hne) hdigits, hlt⟩
    · next hne _ _ =>
      obtain ⟨hdigits, hlt⟩ := (readDigits_eq_ok_iff hbound).1 h
      exact ⟨.plain (by simpa using hne) hdigits, hlt⟩
  · rintro ⟨hwrites, hlt⟩
    cases hwrites with
    | plain hne h =>
      have hread := (readDigits_eq_ok_iff hbound).2 ⟨h, hlt⟩
      unfold readNatural
      split
      · exact absurd rfl hne
      · cases h
      · cases h
      · exact hread
    | signed hne h =>
      have hread := (readDigits_eq_ok_iff hbound).2 ⟨h, hlt⟩
      unfold readNatural
      split
      · next heq => cases heq
      · next heq =>
        cases heq
        exact absurd rfl hne
      · next heq =>
        cases heq
        exact hread
      · next hother => exact absurd rfl (hother _)

/-- A number in base ten. -/
theorem readNatural_ten_eq_ok_iff (hbound : 0 < bound) :
    readNatural 10 bound t = .ok n ↔ n < bound ∧ ∃ sign digits, t = sign ++ digits ∧
      (sign = [] ∨ sign = ['+']) ∧ digits ≠ [] ∧ (∀ c ∈ digits, c.isDigit = true) ∧
      Nat.ofDigitChars 10 digits 0 = n := by
  rw [readNatural_eq_ok_iff hbound, and_comm]
  refine and_congr_right fun _ => ?_
  constructor
  · intro hwrites
    cases hwrites with
    | plain hne h =>
      obtain ⟨hdigits, hvalue⟩ := digitsValue?_ten_eq_some_iff.1 h
      exact ⟨[], _, rfl, Or.inl rfl, hne, hdigits, hvalue⟩
    | signed hne h =>
      obtain ⟨hdigits, hvalue⟩ := digitsValue?_ten_eq_some_iff.1 h
      exact ⟨['+'], _, rfl, Or.inr rfl, hne, hdigits, hvalue⟩
  · rintro ⟨sign, digits, rfl, rfl | rfl, hne, hdigits, hvalue⟩
    · exact .plain hne (digitsValue?_ten_eq_some_iff.2 ⟨hdigits, hvalue⟩)
    · exact .signed hne (digitsValue?_ten_eq_some_iff.2 ⟨hdigits, hvalue⟩)

end Text

end ChangeFeed
