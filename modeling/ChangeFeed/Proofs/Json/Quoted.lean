import ChangeFeed.Json.Reader
/-!
# Quoted texts — what is written between quotes reads back

Between quotes a character has several spellings: itself, an escape of one
letter, or one or two escapes of four digits. A string is read character by
character, so reading undoes a spelling at each character by itself:
`SpellsChar.run` is that one step. Quoting uses one of the spellings
(`spellsText_flatMap_escapeChar`). It never writes a control character,
whatever the text holds, and so never a line break.
-/


namespace ChangeFeed

/-- No control character below the space is in the text. -/
def Text.IsPlain (t : Text) : Prop := ∀ c ∈ t, 0x20 ≤ c.toNat

namespace Text

instance (t : Text) : Decidable t.IsPlain :=
  decidable_of_iff (t.all fun c => decide (0x20 ≤ c.toNat)) (by simp [IsPlain])

theorem isPlain_nil : IsPlain [] := by
  simp [IsPlain]

theorem isPlain_cons {c : Char} {t : Text} :
    IsPlain (c :: t) ↔ 0x20 ≤ c.toNat ∧ IsPlain t := by
  simp [IsPlain]

theorem isPlain_append {s t : Text} : IsPlain (s ++ t) ↔ IsPlain s ∧ IsPlain t := by
  simp only [IsPlain, List.mem_append]
  constructor
  · intro h
    exact ⟨fun c hc => h c (Or.inl hc), fun c hc => h c (Or.inr hc)⟩
  · rintro ⟨hs, ht⟩ c (hc | hc)
    · exact hs c hc
    · exact ht c hc

/-- A plain text is one line. -/
theorem IsPlain.newline_notMem {t : Text} (h : t.IsPlain) : '\n' ∉ t :=
  fun hmem => absurd (h '\n' hmem) (by decide)

end Text

/-! ## Quoting -/

theorem isPlain_hexDigit : ∀ d < 16, 0x20 ≤ (hexDigit d).toNat := by decide

theorem digitValue?_hexDigit : ∀ d < 16, digitValue? 16 (hexDigit d) = some d := by decide

theorem isPlain_escapeChar (c : Char) : (escapeChar c).IsPlain := by
  unfold escapeChar
  split
  case h_8 =>
    split
    · have hhigh := isPlain_hexDigit (c.toNat / 16) (by omega)
      have hlow := isPlain_hexDigit (c.toNat % 16) (by omega)
      simp only [Text.isPlain_cons, hhigh, hlow, Text.isPlain_nil, and_true]
      decide
    · simp only [Text.isPlain_cons, Text.isPlain_nil, and_true]
      omega
  all_goals
    simp only [Text.isPlain_cons, Text.isPlain_nil]
    decide

/-- **What is quoted holds no control character.** -/
theorem Text.isPlain_quote (t : Text) : t.quote.IsPlain := by
  unfold quote
  rw [isPlain_cons, isPlain_append]
  refine ⟨by decide, ?_, by simp [isPlain_cons, isPlain_nil]⟩
  intro c hc
  obtain ⟨d, -, hd⟩ := List.mem_flatMap.1 hc
  exact isPlain_escapeChar d c hd

/-! ## Spellings -/

/-- The value of hexadecimal digits, with letters of either case, behind others
of this value. -/
def hexValue? (value : Nat) : Text → Option Nat
  | [] => some value
  | c :: rest => (digitValue? 16 c).bind fun d => hexValue? (value * 16 + d) rest

/-- The value of the four digits of an escape. -/
def unitValue? (digits : Text) : Option Nat :=
  if digits.length = 4 then hexValue? 0 digits else none

/-- **What may stand for a character** inside a JSON string. -/
inductive SpellsChar (c : Char) : Text → Prop where
  | plain (hquote : c ≠ '\x22') (hslash : c ≠ '\\') (hcontrol : 0x20 ≤ c.toNat) : SpellsChar c [c]
  | escape {letter : Char} (h : unescape? letter = some c) : SpellsChar c ['\\', letter]
  | unit {digits : Text} (h : unitValue? digits = some c.toNat) :
      SpellsChar c ('\\' :: 'u' :: digits)
  /-- A high and a low surrogate, for a character beyond the first plane. -/
  | pair {high low : Text} {first second : Nat} (hhigh : unitValue? high = some first)
      (hlow : unitValue? low = some second) (hfirst : Quoted.isHigh first = true)
      (hsecond : Quoted.isLow second = true)
      (h : c.toNat = 0x10000 + (first - 0xD800) * 0x400 + (second - 0xDC00)) :
      SpellsChar c ('\\' :: 'u' :: (high ++ '\\' :: 'u' :: low))

/-- **What may stand for a text**, character by character. -/
inductive SpellsText : Text → Text → Prop where
  | nil : SpellsText [] []
  | cons {c : Char} {t spelled inside : Text} (hchar : SpellsChar c spelled)
      (h : SpellsText t inside) : SpellsText (c :: t) (spelled ++ inside)

/-- Quoting spells every character. -/
theorem spellsChar_escapeChar (c : Char) : SpellsChar c (escapeChar c) := by
  unfold escapeChar
  split
  case h_8 hquote hslash _ _ _ _ _ =>
    split
    case isTrue hcontrol =>
      -- the escape's four digits are `0`, `0` and the two of the character
      have hhigh := digitValue?_hexDigit (c.toNat / 16) (by omega)
      have hlow := digitValue?_hexDigit (c.toNat % 16) (by omega)
      have hzero : digitValue? 16 '0' = some 0 := by decide
      have hvalue : c.toNat / 16 * 16 + c.toNat % 16 = c.toNat := by omega
      exact .unit (by simp [unitValue?, hexValue?, hzero, hhigh, hlow, hvalue])
    case isFalse hcontrol => exact .plain hquote hslash (by omega)
  all_goals exact .escape rfl

theorem spellsText_flatMap_escapeChar (t : Text) : SpellsText t (t.flatMap escapeChar) := by
  induction t with
  | nil => exact .nil
  | cons c t ih => exact .cons (spellsChar_escapeChar c) ih

/-! ## Reading back -/

namespace Quoted

/-- Only a quote outside every escape ends a string, with the text that has
been read. -/
theorem eq_quote_of_ends {q : Quoted} {c : Char} {t : Text} (h : q.step c = some (.ends t)) :
    c = '\x22' ∧ q = ⟨.closed, t.reverse⟩ := by
  obtain ⟨escape, reversed⟩ := q
  cases escape with
  | closed =>
    by_cases hquote : c = '\x22'
    · simp only [step, hquote, if_true, Option.some.injEq, Step.ends.injEq] at h
      rw [← h, List.reverse_reverse]
      exact ⟨hquote, rfl⟩
    · simp only [step, hquote, if_false] at h
      grind
  | _ => simp only [step] at h; grind [Option.map_eq_some_iff]

/-- Reads a text that does not end the string. -/
def run (q : Quoted) : Text → Option Quoted
  | [] => some q
  | c :: rest =>
    match q.step c with
    | some (.more next) => next.run rest
    | _ => none

theorem run_append (q : Quoted) (s t : Text) :
    q.run (s ++ t) = (q.run s).bind fun next => next.run t := by
  induction s generalizing q with
  | nil => rfl
  | cons c s ih =>
    simp only [List.cons_append, run]
    split
    · exact ih _
    · rfl

/-- The digits that are due are read as their value. -/
theorem run_hexValue? {digits : Text} {value total : Nat} (hne : digits ≠ [])
    (h : hexValue? value digits = some total) (high : Option Nat) (reversed : Text) :
    run ⟨.unit digits.length value high, reversed⟩ digits = endUnit total high reversed := by
  induction digits generalizing value with
  | nil => exact absurd rfl hne
  | cons c rest ih =>
    obtain ⟨d, hd, hrest⟩ := Option.bind_eq_some_iff.1 h
    cases rest with
    | nil =>
      cases hrest
      cases hend : endUnit (value * 16 + d) high reversed <;> simp [run, step, hd, hend]
    | cons next rest =>
      have hdue : ¬ (c :: next :: rest).length ≤ 1 := by simp
      have htail := ih (List.cons_ne_nil next rest) hrest
      simp only [run, step, hd, if_neg hdue]
      exact htail

theorem run_unit {digits : Text} {value : Nat} (h : unitValue? digits = some value)
    (high : Option Nat) (reversed : Text) :
    run ⟨.unit 4 0 high, reversed⟩ digits = endUnit value high reversed := by
  unfold unitValue? at h
  split at h
  · next hlength =>
    have hne : digits ≠ [] := by
      rintro rfl
      cases hlength
    rw [← hlength]
    exact run_hexValue? hne h high reversed
  · cases h

end Quoted

/-- No character is a surrogate. -/
theorem isHigh_isLow_toNat (c : Char) :
    Quoted.isHigh c.toNat = false ∧ Quoted.isLow c.toNat = false := by
  have hvalid : c.toNat < 0xD800 ∨ 0xDFFF < c.toNat ∧ c.toNat < 0x110000 := c.valid
  simp only [Quoted.isHigh, Quoted.isLow, Bool.and_eq_false_iff, decide_eq_false_iff_not]
  omega

/-- **Reading undoes every spelling of a character.** -/
theorem SpellsChar.run {c : Char} {spelled : Text} (h : SpellsChar c spelled) (reversed : Text) :
    Quoted.run ⟨.closed, reversed⟩ spelled = some ⟨.closed, c :: reversed⟩ := by
  cases h with
  | plain hquote hslash hcontrol =>
    have hplain : ¬ c.toNat < 0x20 := by omega
    simp [Quoted.run, Quoted.step, hquote, hslash, hplain]
  | @escape letter h =>
    have hletter : letter ≠ 'u' := by
      rintro rfl
      cases h
    simp [Quoted.run, Quoted.step, hletter, h]
  | @unit digits h =>
    have hopen : Quoted.run ⟨.closed, reversed⟩ ('\\' :: 'u' :: digits) =
        Quoted.run ⟨.unit 4 0 none, reversed⟩ digits := by
      simp [Quoted.run, Quoted.step]
    rw [hopen, Quoted.run_unit h]
    simp [Quoted.endUnit, isHigh_isLow_toNat c]
  | @pair high low first second hhigh hlow hfirst hsecond h =>
    have hopen : Quoted.run ⟨.closed, reversed⟩ ('\\' :: 'u' :: (high ++ '\\' :: 'u' :: low)) =
        Quoted.run ⟨.unit 4 0 none, reversed⟩ (high ++ '\\' :: 'u' :: low) := by
      simp [Quoted.run, Quoted.step]
    have hpartner : Quoted.run ⟨.partner first, reversed⟩ ('\\' :: 'u' :: low) =
        Quoted.run ⟨.unit 4 0 (some first), reversed⟩ low := by
      simp [Quoted.run, Quoted.step]
    rw [hopen, Quoted.run_append, Quoted.run_unit hhigh, Quoted.endUnit]
    simp only [hfirst, if_true, Option.bind_some, hpartner, Quoted.run_unit hlow, Quoted.endUnit,
      hsecond, ← h, Char.ofNat_toNat]

theorem SpellsText.run {t inside : Text} (h : SpellsText t inside) (reversed : Text) :
    Quoted.run ⟨.closed, reversed⟩ inside = some ⟨.closed, t.reverse ++ reversed⟩ := by
  induction h generalizing reversed with
  | nil => rfl
  | cons hchar _ ih =>
    rw [Quoted.run_append, hchar.run, Option.bind_some, ih]
    simp

namespace Reading

/-- A phase that hands its characters to a string reads what the string
reads. -/
theorem run_of_more {wrap : Quoted → Phase} {stack : List Frame}
    (hwrap : ∀ q c next, q.step c = some (.more next) →
      step ⟨wrap q, stack⟩ c = some ⟨wrap next, stack⟩)
    {q next : Quoted} {t : Text} (h : q.run t = some next) :
    run ⟨wrap q, stack⟩ t = some ⟨wrap next, stack⟩ := by
  induction t generalizing q with
  | nil =>
    cases h
    rfl
  | cons c t ih =>
    unfold Quoted.run at h
    split at h
    · rename_i middle hstep
      rw [run, hwrap q c middle hstep, Option.bind_some]
      exact ih h
    · cases h

/-- A string that is a value is read as the string alone would be. -/
theorem run_string {q next : Quoted} {t : Text} (stack : List Frame) (h : q.run t = some next) :
    run ⟨.string q, stack⟩ t = some ⟨.string next, stack⟩ :=
  run_of_more (fun q c next hstep => by simp [step, hstep]) h

/-- And so is a key. -/
theorem run_keyString {q next : Quoted} {t : Text} (stack : List Frame)
    (h : q.run t = some next) :
    run ⟨.keyString q, stack⟩ t = some ⟨.keyString next, stack⟩ :=
  run_of_more (fun q c next hstep => by simp [step, hstep]) h

/-- **A spelled text between quotes is read as that text.** -/
theorem run_quoted {t inside : Text} (h : SpellsText t inside) (stack : List Frame) :
    run ⟨.value, stack⟩ ('\x22' :: (inside ++ ['\x22'])) =
      some ⟨.complete (.string t), stack⟩ := by
  have hbody := run_string stack (h.run [])
  have hstart : step ⟨.value, stack⟩ '\x22' = some ⟨.string .start, stack⟩ := by
    simp [step, beginValue, Json.isGap]
  rw [run, hstart, Option.bind_some, run_append]
  unfold Quoted.start
  rw [hbody]
  simp [run, step, Quoted.step]

/-- Where a key is due, it is read as the key of that text. -/
theorem run_quoted_key {t inside : Text} (h : SpellsText t inside) (stack : List Frame) :
    run ⟨.key, stack⟩ ('\x22' :: (inside ++ ['\x22'])) = endKey t stack := by
  have hbody := run_keyString stack (h.run [])
  have hstart : step ⟨.key, stack⟩ '\x22' = some ⟨.keyString .start, stack⟩ := by
    simp [step, beginKey, Json.isGap]
  rw [run, hstart, Option.bind_some, run_append]
  unfold Quoted.start
  rw [hbody]
  simp [run, step, Quoted.step]

end Reading

end ChangeFeed
