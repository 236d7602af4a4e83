import ChangeFeed.Config.Duration
import ChangeFeed.Proofs.Text.Digits
import ChangeFeed.Proofs.Text.Trimming
import Mathlib.Algebra.Group.Nat.Defs
/-!
# Units — what a duration is written as, and how long it is

A duration is a number and one of four units, of which one is not written
(`Writes`). Units end alike and digits are no letters, so a number and its unit
are found again in what they are written as (`splitUnit_append`). The length is
exact, in nanoseconds: where a word of 64 bits would not hold the number or the
seconds of so many minutes, the text is refused and not cut down.
-/


namespace ChangeFeed

/-- A unit as it is written. -/
def TimeUnit.text : TimeUnit → Text
  | milliseconds => "ms".toList
  | minutes => ['m']
  | seconds => ['s']
  | none => []

/-- **The length of a unit.** -/
def TimeUnit.nanoseconds : TimeUnit → Nat
  | milliseconds => 1000000
  | minutes => 60000000000
  | seconds | none => 1000000000

namespace Duration

/-- So many nanoseconds. -/
def ofNanoseconds (n : Nat) : Duration := ⟨n / 1000000000, n % 1000000000⟩

/-- **What writes a duration**: decimal digits, perhaps behind a plus, and a
unit. The number has 64 bits, and of minutes also that of the seconds. -/
inductive Writes : Text → Duration → Prop where
  | intro {sign digits : Text} {n : Nat} (unit : TimeUnit) (hsign : sign = [] ∨ sign = ['+'])
      (hne : digits ≠ []) (hdigits : ∀ c ∈ digits, c.isDigit = true)
      (hvalue : Nat.ofDigitChars 10 digits 0 = n) (hword : n < 2 ^ 64)
      (hminutes : unit = .minutes → 60 * n < 2 ^ 64) :
      Writes (sign ++ (digits ++ unit.text)) (ofNanoseconds (n * unit.nanoseconds))

variable {c : Char} {n : Nat} {raw t number : Text} {unit : TimeUnit} {duration : Duration}

/-! ## Numbers and units -/

/-- What is split was put together. -/
theorem append_of_splitUnit (h : splitUnit t = (number, unit)) : t = number ++ unit.text := by
  unfold splitUnit at h
  split at h
  · next hms =>
    cases h
    exact Text.stripEnd?_eq_some_iff.1 hms
  split at h
  · next hm =>
    cases h
    exact Text.stripEnd?_eq_some_iff.1 hm
  split at h
  · next hs =>
    cases h
    exact Text.stripEnd?_eq_some_iff.1 hs
  · cases h
    exact (List.append_nil _).symm

/-- **A number is found again before its unit.** -/
theorem splitUnit_append (unit : TimeUnit) (hlast : number.getLast? = some c)
    (hdigit : c.isDigit = true) : splitUnit (number ++ unit.text) = (number, unit) := by
  have hm : c ≠ 'm' := by
    rintro rfl
    cases hdigit
  have hs : c ≠ 's' := by
    rintro rfl
    cases hdigit
  unfold splitUnit
  cases unit with
  | milliseconds =>
    have hms : Text.stripEnd? "ms".toList (number ++ "ms".toList) = some number :=
      Text.stripEnd?_eq_some_iff.2 rfl
    simp only [TimeUnit.text, hms]
  | minutes =>
    have hms : Text.stripEnd? "ms".toList (number ++ ['m']) = none :=
      Text.stripEnd?_eq_none_of_getLast? (List.getLast?_concat) rfl (by decide)
    have hunit : Text.stripEnd? ['m'] (number ++ ['m']) = some number :=
      Text.stripEnd?_eq_some_iff.2 rfl
    simp only [TimeUnit.text, hms, hunit]
  | seconds =>
    have hms : Text.stripEnd? "ms".toList (number ++ ['s']) = none := by
      rw [Option.eq_none_iff_forall_ne_some]
      intro front hfront
      have happend : number ++ ['s'] = (front ++ ['m']) ++ ['s'] := by
        rw [Text.stripEnd?_eq_some_iff.1 hfront, List.append_assoc]
        rfl
      rw [List.append_cancel_right happend, List.getLast?_concat] at hlast
      exact hm (Option.some.inj hlast).symm
    have hminutes : Text.stripEnd? ['m'] (number ++ ['s']) = none :=
      Text.stripEnd?_eq_none_of_getLast? (List.getLast?_concat) rfl (by decide)
    have hunit : Text.stripEnd? ['s'] (number ++ ['s']) = some number :=
      Text.stripEnd?_eq_some_iff.2 rfl
    simp only [TimeUnit.text, hms, hminutes, hunit]
  | none =>
    have hms : Text.stripEnd? "ms".toList number = .none :=
      Text.stripEnd?_eq_none_of_getLast? hlast rfl hs
    have hminutes : Text.stripEnd? ['m'] number = .none :=
      Text.stripEnd?_eq_none_of_getLast? hlast rfl hm
    have hseconds : Text.stripEnd? ['s'] number = .none :=
      Text.stripEnd?_eq_none_of_getLast? hlast rfl hs
    simp only [TimeUnit.text, List.append_nil, hms, hminutes, hseconds]

/-! ## Lengths -/

theorem ofSeconds_eq (n : Nat) : ofSeconds n = ofNanoseconds (n * 1000000000) := by
  rw [ofSeconds, ofNanoseconds, Nat.mul_div_cancel _ (by decide), Nat.mul_mod_left]

theorem ofMilliseconds_eq (n : Nat) : ofMilliseconds n = ofNanoseconds (n * 1000000) := by
  have hseconds : n * 1000000 / 1000000000 = n / 1000 := by omega
  have hrest : n * 1000000 % 1000000000 = n % 1000 * 1000000 := by omega
  rw [ofMilliseconds, ofNanoseconds, hseconds, hrest]

/-! ## Reading -/

theorem wordBound_eq : wordBound = 2 ^ 64 := by decide

/-- **A number and its unit are read as their product**, unless the seconds of
so many minutes are no word. -/
theorem parse_of_splitUnit (hsplit : splitUnit raw.trim = (number, unit))
    (hread : Text.readNatural 10 wordBound number = .ok n) :
    parse raw = if unit = .minutes ∧ wordBound ≤ 60 * n then .error (.tooManyMinutes number)
      else .ok (ofNanoseconds (n * unit.nanoseconds)) := by
  have hne : raw.trim.isEmpty = false := by
    cases htrim : raw.trim with
    | nil =>
      rw [htrim] at hsplit
      cases hsplit
      cases hread
    | cons c t => rfl
  unfold parse
  simp only [hne, hsplit, hread]
  cases unit with
  | milliseconds => simp [ofMilliseconds_eq, TimeUnit.nanoseconds]
  | minutes =>
    have hseconds : ofSeconds (n * 60) = ofNanoseconds (n * 60000000000) := by
      rw [ofSeconds_eq, Nat.mul_assoc]
    by_cases hfits : n * 60 < wordBound
    · have hnot : ¬ wordBound ≤ 60 * n := by omega
      simp [hfits, hnot, hseconds, TimeUnit.nanoseconds]
    · have hfull : wordBound ≤ 60 * n := by omega
      simp [hfits, hfull]
  | seconds => simp [ofSeconds_eq, TimeUnit.nanoseconds]
  | none => simp [ofSeconds_eq, TimeUnit.nanoseconds]

/-- What is read as a duration has a number. -/
theorem exists_splitUnit_of_parse (h : parse raw = .ok duration) :
    ∃ number unit n, splitUnit raw.trim = (number, unit) ∧
      Text.readNatural 10 wordBound number = .ok n := by
  unfold parse at h
  dsimp only at h
  split at h
  · cases h
  cases hread : Text.readNatural 10 wordBound (splitUnit raw.trim).1 with
  | error cause =>
    simp only [hread] at h
    cases h
  | ok n => exact ⟨_, _, n, rfl, hread⟩

/-- **A text is read as the duration that it writes**, and as none if it writes
none. -/
theorem parse_eq_ok_iff : parse raw = .ok duration ↔ Writes raw.trim duration := by
  constructor
  · intro h
    obtain ⟨number, unit, n, hsplit, hread⟩ := exists_splitUnit_of_parse h
    rw [parse_of_splitUnit hsplit hread] at h
    split at h
    · cases h
    next hfits =>
    cases h
    obtain ⟨hword, sign, digits, rfl, hsign, hne, hdigits, hvalue⟩ :=
      (Text.readNatural_ten_eq_ok_iff (by decide)).1 hread
    rw [append_of_splitUnit hsplit, List.append_assoc]
    rw [wordBound_eq] at hword hfits
    exact .intro unit hsign hne hdigits hvalue hword fun hunit => by
      rw [not_and] at hfits
      exact Nat.lt_of_not_le (hfits hunit)
  · generalize htrim : raw.trim = t
    intro h
    cases h with
    | @intro sign digits n unit hsign hne hdigits hvalue hword hminutes =>
      have hlast : (sign ++ digits).getLast? = some (digits.getLast hne) := by
        rw [List.getLast?_append, List.getLast?_eq_some_getLast hne, Option.some_or]
      have hsplit := splitUnit_append unit hlast (hdigits _ (List.getLast_mem hne))
      rw [List.append_assoc, ← htrim] at hsplit
      have hread : Text.readNatural 10 wordBound (sign ++ digits) = .ok n :=
        (Text.readNatural_ten_eq_ok_iff (by decide)).2
          ⟨wordBound_eq ▸ hword, sign, digits, rfl, hsign, hne, hdigits, hvalue⟩
      rw [parse_of_splitUnit hsplit hread, if_neg]
      rintro ⟨hunit, hfull⟩
      rw [wordBound_eq] at hfull
      exact Nat.not_lt_of_le hfull (hminutes hunit)

/-- **A number that is written with a unit** is read as that duration, except
minutes beyond the limit. -/
theorem parse_ofNatural (unit : TimeUnit) (hn : n < 2 ^ 64) :
    parse (Text.ofNatural n ++ unit.text) = if unit = .minutes ∧ 2 ^ 64 ≤ 60 * n then
      .error (.tooManyMinutes (Text.ofNatural n))
      else .ok (ofNanoseconds (n * unit.nanoseconds)) := by
  have hne : Text.ofNatural n ≠ [] := Nat.toDigits_ne_nil
  have hdigits : ∀ c ∈ Text.ofNatural n, c.isDigit = true :=
    fun _ hc => Text.isDigit_of_mem_ofNatural hc
  have hunit : ∀ unit : TimeUnit, unit.text.all (!isSpace ·) = true := by
    rintro ⟨⟩ <;> decide
  have htrim : (Text.ofNatural n ++ unit.text).trim = Text.ofNatural n ++ unit.text := by
    refine Text.trimWhile_eq_self fun c hc => ?_
    rcases List.mem_append.1 hc with hc | hc
    · exact isSpace_of_isDigit (hdigits c hc)
    · simpa using List.all_eq_true.1 (hunit unit) c hc
  have hsplit := splitUnit_append unit (List.getLast?_eq_some_getLast hne)
    (hdigits _ (List.getLast_mem hne))
  have hread : Text.readNatural 10 wordBound (Text.ofNatural n) = .ok n :=
    (Text.readNatural_eq_ok_iff (by decide)).2 ⟨Text.writesNatural_ofNatural n, wordBound_eq ▸ hn⟩
  rw [← htrim] at hsplit
  rw [parse_of_splitUnit hsplit hread, wordBound_eq]

/-- What is written fits: the seconds are a word, and the rest is less than
one. -/
theorem Writes.seconds_lt (h : Writes t duration) :
    duration.seconds < 2 ^ 64 ∧ duration.nanoseconds < 1000000000 := by
  obtain ⟨unit, -, -, -, -, hword, hminutes⟩ := h
  constructor
  · show _ / 1000000000 < 2 ^ 64
    cases unit with
    | minutes =>
      have hfits := hminutes rfl
      simp only [TimeUnit.nanoseconds]
      omega
    | _ =>
      simp only [TimeUnit.nanoseconds]
      omega
  · exact Nat.mod_lt _ (by decide)

/-- **Durations are read exactly.** A text is read as the duration that it writes
without the white space around it, and as none if it writes none. No length is
wrapped around or cut off. A number is read back with its unit, or refused if
there are too many minutes. -/
theorem parse_is_exact :
    (∀ raw duration, parse raw = .ok duration ↔ Writes raw.trim duration) ∧
      (∀ raw duration, parse raw = .ok duration →
        duration.seconds < 2 ^ 64 ∧ duration.nanoseconds < 1000000000) ∧
      ∀ n < 2 ^ 64, ∀ unit : TimeUnit, parse (Text.ofNatural n ++ unit.text) =
        if unit = .minutes ∧ 2 ^ 64 ≤ 60 * n then .error (.tooManyMinutes (Text.ofNatural n))
        else .ok (ofNanoseconds (n * unit.nanoseconds)) :=
  ⟨fun _ _ => parse_eq_ok_iff, fun _ _ h => (parse_eq_ok_iff.1 h).seconds_lt,
    fun _ hn unit => parse_ofNatural unit hn⟩

/-- The last number of minutes, and the first that are too many. -/
theorem parse_is_exact_minutes :
    let last := "307445734561825860".toList
    let first := "307445734561825861".toList
    parse (last ++ ['m']) = .ok ⟨18446744073709551600, 0⟩ ∧
      (⟨18446744073709551600, 0⟩ : Duration).seconds < 2 ^ 64 ∧
      parse (first ++ ['m']) = .error (.tooManyMinutes first) ∧
      parse " +05ms\n".toList = .ok ⟨0, 5000000⟩ := by
  intro last first
  have hlast : Text.ofNatural 307445734561825860 = last := by decide +kernel
  have hfirst : Text.ofNatural 307445734561825861 = first := by decide +kernel
  have hread := parse_is_exact.2.2 307445734561825860 (by decide) .minutes
  have hfull := parse_is_exact.2.2 307445734561825861 (by decide) .minutes
  rw [hlast] at hread
  rw [hfirst] at hfull
  refine ⟨hread, (parse_is_exact.2.1 _ _ hread).1, hfull, ?_⟩
  have hdigits : "05".toList.all (·.isDigit) = true := by decide
  have hwrites : Writes (['+'] ++ ("05".toList ++ TimeUnit.milliseconds.text))
      (ofNanoseconds (5 * TimeUnit.milliseconds.nanoseconds)) :=
    .intro .milliseconds (Or.inr rfl) (by decide) (List.all_eq_true.1 hdigits) (by decide)
      (by decide) (fun h => by cases h)
  exact (parse_is_exact.1 _ _).2 hwrites

end Duration

end ChangeFeed
