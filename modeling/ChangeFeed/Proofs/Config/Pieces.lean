import ChangeFeed.Config.Delimiter
import ChangeFeed.Proofs.Result
import ChangeFeed.Proofs.Text.Digits
import ChangeFeed.Proofs.Text.Encoding
import Mathlib.Data.List.Forall2
/-!
# Pieces — what the text of a delimiter is made of

A delimiter's text is taken from left to right, a piece at a time (`Reads`), and
each piece denotes one character (`Piece.Denotes`). A mark `\x` without two
characters behind it is in no piece. What is decoded is what the pieces denote
and nothing else, with one exception: a plus in place of the first digit behind
`\x` is let through (`Piece.Signs`), because the digits are read as a number and
a number may have a sign.
-/


namespace ChangeFeed

namespace Delimiter

/-- What a letter behind a backslash stands for. -/
def escaped? : Char → Option Char
  | 'n' => some '\n'
  | 't' => some '\t'
  | 'r' => some '\r'
  | '\\' => some '\\'
  | _ => none

/-- **A piece of a delimiter's text.** -/
inductive Piece where
  | plain (c : Char)
  | escape (letter : Char)
  /-- The mark `\x` and the two characters behind it. -/
  | code (high low : Char)
  /-- A backslash that begins no escape. -/
  | lone
deriving Repr, DecidableEq

/-- A text does not go on like an escape whose backslash stands before it. -/
def OpensNone (t : Text) : Prop := ∀ c, t.head? = some c → c ≠ 'x' ∧ escaped? c = none

/-- **The pieces of a text**, from left to right. -/
inductive Reads : Text → List Piece → Prop where
  | nil : Reads [] []
  | plain {c : Char} {t : Text} {pieces : List Piece} (hc : c ≠ '\\') (h : Reads t pieces) :
      Reads (c :: t) (.plain c :: pieces)
  | escape {letter : Char} {t : Text} {pieces : List Piece} (hletter : (escaped? letter).isSome)
      (h : Reads t pieces) : Reads ('\\' :: letter :: t) (.escape letter :: pieces)
  | code {high low : Char} {t : Text} {pieces : List Piece} (h : Reads t pieces) :
      Reads ('\\' :: 'x' :: high :: low :: t) (.code high low :: pieces)
  | lone {t : Text} {pieces : List Piece} (hopens : OpensNone t) (h : Reads t pieces) :
      Reads ('\\' :: t) (.lone :: pieces)

namespace Piece

/-- **What a piece denotes.** -/
inductive Denotes : Piece → Char → Prop where
  | plain (c : Char) : Denotes (.plain c) c
  | escape {letter c : Char} (h : escaped? letter = some c) : Denotes (.escape letter) c
  /-- A character of ASCII by its code, in two hexadecimal digits. -/
  | code {high low c : Char} {i j : Nat} (hhigh : IsHexDigit high i) (hlow : IsHexDigit low j)
      (hcode : c.toNat = 16 * i + j) (hascii : c.toNat < 0x80) : Denotes (.code high low) c
  | lone : Denotes .lone '\\'

/-- **A plus before a digit** counts as that digit. -/
inductive Signs : Piece → Char → Prop where
  | intro {low c : Char} (hlow : IsHexDigit low c.toNat) : Signs (.code '+' low) c

end Piece

variable {a b c : Char} {raw t : Text} {pieces : List Piece}

/-! ## Codes -/

/-- **A code** is a number below 128 in two characters. -/
theorem hexEscape_eq_ok_iff :
    hexEscape t = .ok c ↔ t.length = 2 ∧ Text.WritesNatural 16 c.toNat t ∧ c.toNat < 128 := by
  have hread : ∀ n, Text.readNatural 16 256 t = .ok n ↔ Text.WritesNatural 16 n t ∧ n < 256 :=
    fun n => Text.readNatural_eq_ok_iff (by decide)
  constructor
  · intro h
    unfold hexEscape at h
    split at h
    · cases h
    next hsize =>
    split at h
    · cases h
    next n hn =>
    split at h
    · next hlt =>
      cases h
      have hwrites := ((hread n).1 hn).1
      have hcode : (Char.ofNat n).toNat = n := congrArg Char.toNat (dif_pos (Or.inl (by omega)))
      rw [Text.size_eq_length fun c hc => hwrites.toNat_lt hc, not_not] at hsize
      rw [hcode]
      exact ⟨hsize, hwrites, hlt⟩
    · cases h
  · rintro ⟨hlength, hwrites, hlt⟩
    have hsize : Text.size t = 2 :=
      (Text.size_eq_length fun c hc => hwrites.toNat_lt hc).trans hlength
    have hok := (hread c.toNat).2 ⟨hwrites, by omega⟩
    unfold hexEscape
    simp only [hsize, hok, hlt, ne_eq, not_true_eq_false, if_false, if_true, Char.ofNat_toNat]

/-- Two characters are a code if they are digits, or one digit behind a plus. -/
theorem hexEscape_pair_eq_ok_iff :
    hexEscape [a, b] = .ok c ↔ (Piece.code a b).Denotes c ∨ (Piece.code a b).Signs c := by
  rw [hexEscape_eq_ok_iff]
  constructor
  · rintro ⟨-, hwrites, hlt⟩
    cases hwrites with
    | plain _ h =>
      obtain ⟨i, hi, hrest⟩ := Option.bind_eq_some_iff.1 h
      obtain ⟨j, hj, hvalue⟩ := Option.bind_eq_some_iff.1 hrest
      refine Or.inl (.code (digitValue?_sixteen_eq_some_iff.1 hi)
        (digitValue?_sixteen_eq_some_iff.1 hj) ?_ hlt)
      have hsum := Option.some.inj hvalue
      omega
    | signed _ h =>
      obtain ⟨j, hj, hvalue⟩ := Option.bind_eq_some_iff.1 h
      have hsum := Option.some.inj hvalue
      refine Or.inr (.intro ?_)
      rw [← hsum, Nat.zero_mul, Nat.zero_add]
      exact digitValue?_sixteen_eq_some_iff.1 hj
  · rintro (h | h)
    · cases h with
      | code hhigh hlow hcode hascii =>
        refine ⟨rfl, .plain (List.cons_ne_nil a [b]) ?_, hascii⟩
        rw [hcode, Text.digitsValue?, digitValue?_sixteen_eq_some_iff.2 hhigh, Option.bind_some,
          Text.digitsValue?, digitValue?_sixteen_eq_some_iff.2 hlow, Option.bind_some,
          Text.digitsValue?, Nat.zero_mul, Nat.zero_add, Nat.mul_comm]
    · cases h with
      | intro hlow =>
        have hdigit := digitValue?_sixteen_eq_some_iff.2 hlow
        have hlt := lt_of_digitValue? hdigit
        refine ⟨rfl, .signed (List.cons_ne_nil b []) ?_, by omega⟩
        rw [Text.digitsValue?, hdigit, Option.bind_some, Text.digitsValue?, Nat.zero_mul,
          Nat.zero_add]

/-! ## One piece -/

theorem decodeChars_plain (hc : c ≠ '\\') :
    decodeChars (c :: t) = (decodeChars t).map (c :: ·) := by
  simp [decodeChars, hc]

theorem decodeChars_escape {letter : Char} (h : escaped? letter = some c) :
    decodeChars ('\\' :: letter :: t) = (decodeChars t).map (c :: ·) := by
  unfold escaped? at h
  split at h
  all_goals
    cases h
  all_goals rw [decodeChars]

theorem decodeChars_code :
    decodeChars ('\\' :: 'x' :: a :: b :: t) =
      hexEscape [a, b] >>= fun c => (decodeChars t).map (c :: ·) := by
  rw [decodeChars]
  cases hexEscape [a, b] <;> rfl

theorem decodeChars_lone (h : OpensNone t) :
    decodeChars ('\\' :: t) = (decodeChars t).map ('\\' :: ·) := by
  cases t with
  | nil => rfl
  | cons c t =>
    obtain ⟨hx, hnone⟩ := h c rfl
    have hletter : ∀ letter, (escaped? letter).isSome = true → c ≠ letter := by
      rintro letter hsome rfl
      rw [hnone] at hsome
      cases hsome
    have hn := hletter 'n' rfl
    have ht := hletter 't' rfl
    have hr := hletter 'r' rfl
    have hslash := hletter '\\' rfl
    rw [decodeChars]
    all_goals simp [hx, hn, ht, hr, hslash]

/-! ## All pieces -/

namespace Piece

/-- **What a piece is taken for**: what it denotes or, behind a plus, one digit. -/
def IsTakenFor (piece : Piece) (c : Char) : Prop := piece.Denotes c ∨ piece.Signs c

end Piece

/-- What the pieces are taken for is decoded. -/
theorem decodeChars_of_reads (h : Reads raw pieces) (ht : List.Forall₂ Piece.IsTakenFor pieces t) :
    decodeChars raw = .ok t := by
  induction h generalizing t with
  | nil =>
    cases ht
    rfl
  | plain hc _ ih =>
    obtain ⟨c, rest, hpiece, hrest, rfl⟩ := List.forall₂_cons_left_iff.1 ht
    rw [decodeChars_plain hc, ih hrest]
    cases hpiece with
    | inl h =>
      cases h
      rfl
    | inr h => cases h
  | escape _ _ ih =>
    obtain ⟨c, rest, hpiece, hrest, rfl⟩ := List.forall₂_cons_left_iff.1 ht
    cases hpiece with
    | inl h =>
      cases h with
      | escape hletter =>
        rw [decodeChars_escape hletter, ih hrest]
        rfl
    | inr h => cases h
  | code _ ih =>
    obtain ⟨c, rest, hpiece, hrest, rfl⟩ := List.forall₂_cons_left_iff.1 ht
    rw [decodeChars_code, hexEscape_pair_eq_ok_iff.2 hpiece, ih hrest]
    rfl
  | lone hopens _ ih =>
    obtain ⟨c, rest, hpiece, hrest, rfl⟩ := List.forall₂_cons_left_iff.1 ht
    rw [decodeChars_lone hopens, ih hrest]
    cases hpiece with
    | inl h =>
      cases h
      rfl
    | inr h => cases h

/-- What is decoded behind an escape was in pieces, and so was the whole. -/
theorem exists_reads_of_escape {letter : Char} {rest : Text} (hletter : escaped? letter = some c)
    (h : (decodeChars rest).map (c :: ·) = .ok t)
    (hrest : ∀ {s}, decodeChars rest = .ok s →
      ∃ pieces, Reads rest pieces ∧ List.Forall₂ Piece.IsTakenFor pieces s) :
    ∃ pieces, Reads ('\\' :: letter :: rest) pieces ∧
      List.Forall₂ Piece.IsTakenFor pieces t := by
  obtain ⟨s, hdecode, rfl⟩ := map_eq_ok_iff.1 h
  obtain ⟨pieces, hreads, hpieces⟩ := hrest hdecode
  exact ⟨_, .escape (Option.isSome_of_eq_some hletter) hreads,
    .cons (Or.inl (.escape hletter)) hpieces⟩

/-- A text opens no escape if none of the letters stands first. -/
theorem opensNone_of_forall_ne
    (h : ∀ letter ∈ ['n', 't', 'r', '\\', 'x'], ∀ rest, t ≠ letter :: rest) : OpensNone t := by
  intro letter hletter
  obtain ⟨rest, rfl⟩ := List.head?_eq_some_iff.1 hletter
  have hnone : letter ∉ ['n', 't', 'r', '\\', 'x'] := fun hmem => h letter hmem rest rfl
  constructor
  · rintro rfl
    exact hnone (by decide)
  · unfold escaped?
    split
    all_goals first
      | rfl
      | exact absurd (by decide) hnone

/-- **What is decoded was in pieces**, and is what they are taken for. -/
theorem exists_reads_of_decodeChars (h : decodeChars raw = .ok t) :
    ∃ pieces, Reads raw pieces ∧ List.Forall₂ Piece.IsTakenFor pieces t := by
  fun_induction decodeChars raw generalizing t with
  | case1 =>
    cases h
    exact ⟨[], .nil, .nil⟩
  | case2 rest ih => exact exists_reads_of_escape rfl h ih
  | case3 rest ih => exact exists_reads_of_escape rfl h ih
  | case4 rest ih => exact exists_reads_of_escape rfl h ih
  | case5 rest ih => exact exists_reads_of_escape rfl h ih
  | case6 => cases h
  | case7 a b rest c hcode ih =>
    obtain ⟨t, hrest, rfl⟩ := map_eq_ok_iff.1 h
    obtain ⟨pieces, hreads, hpieces⟩ := ih hrest
    exact ⟨_, .code hreads, .cons (hexEscape_pair_eq_ok_iff.1 hcode) hpieces⟩
  | case8 short hshort =>
    -- fewer than two characters are no code
    obtain ⟨c, hcode, -⟩ := map_eq_ok_iff.1 h
    obtain ⟨a, b, rfl⟩ := List.length_eq_two.1 (hexEscape_eq_ok_iff.1 hcode).1
    exact (hshort a b [] rfl).elim
  | case9 c rest hn ht hr hslash hcode ih =>
    obtain ⟨t, hrest, rfl⟩ := map_eq_ok_iff.1 h
    obtain ⟨pieces, hreads, hpieces⟩ := ih hrest
    by_cases hc : c = '\\'
    · subst hc
      have hopens : OpensNone rest := by
        refine opensNone_of_forall_ne ?_
        simp only [List.forall_mem_cons, List.not_mem_nil, false_implies, implies_true, and_true]
        exact ⟨fun r => hn r rfl, fun r => ht r rfl, fun r => hr r rfl, fun r => hslash r rfl,
          fun r => hcode r rfl⟩
      exact ⟨_, .lone hopens hreads, .cons (Or.inl .lone) hpieces⟩
    · exact ⟨_, .plain hc hreads, .cons (Or.inl (.plain c)) hpieces⟩

/-- **A text has one way into pieces.** -/
theorem Reads.unique {others : List Piece} (h : Reads raw pieces) (hothers : Reads raw others) :
    pieces = others := by
  induction h generalizing others with
  | nil =>
    cases hothers
    rfl
  | plain hc _ ih =>
    cases hothers with
    | plain _ hrest => rw [ih hrest]
    | escape _ _ => exact absurd rfl hc
    | code _ => exact absurd rfl hc
    | lone _ _ => exact absurd rfl hc
  | escape hletter _ ih =>
    cases hothers with
    | plain hc _ => exact absurd rfl hc
    | escape _ hrest => rw [ih hrest]
    | code _ => cases hletter
    | lone hopens _ =>
      rw [(hopens _ rfl).2] at hletter
      cases hletter
  | code _ ih =>
    cases hothers with
    | plain hc _ => exact absurd rfl hc
    | escape hletter _ => cases hletter
    | code hrest => rw [ih hrest]
    | lone hopens _ => exact absurd rfl (hopens 'x' rfl).1
  | lone hopens _ ih =>
    cases hothers with
    | plain hc _ => exact absurd rfl hc
    | escape hletter _ =>
      rw [(hopens _ rfl).2] at hletter
      cases hletter
    | code _ => exact absurd rfl (hopens 'x' rfl).1
    | lone _ hrest => rw [ih hrest]

/-- A delimiter is decoded if it is not empty and each of its pieces is taken
for a character. -/
theorem decode_eq_ok_iff :
    decode raw = .ok t ↔
      raw ≠ [] ∧ ∃ pieces, Reads raw pieces ∧ List.Forall₂ Piece.IsTakenFor pieces t := by
  unfold decode
  split
  · next hempty => simp [List.isEmpty_iff.1 hempty]
  · next hne =>
    rw [List.isEmpty_iff] at hne
    constructor
    · exact fun h => ⟨hne, exists_reads_of_decodeChars h⟩
    · rintro ⟨-, pieces, hreads, ht⟩
      exact decodeChars_of_reads hreads ht

/-- **A delimiter is decoded piece by piece**, each to what it denotes, and refused
if one denotes nothing. A signed piece is not refused. No delimiter is decoded
to the empty text. -/
theorem decode_takes_pieces (raw t : Text) :
    (decode raw = .ok t ↔ raw ≠ [] ∧ ∃ pieces, Reads raw pieces ∧
      List.Forall₂ (fun piece c => piece.Denotes c ∨ piece.Signs c) pieces t) ∧
      decode raw ≠ .ok [] := by
  refine ⟨decode_eq_ok_iff, fun hnothing => ?_⟩
  obtain ⟨hne, pieces, hreads, hpieces⟩ := decode_eq_ok_iff.1 hnothing
  -- no pieces are those of the empty text
  obtain rfl := List.forall₂_nil_right_iff.1 hpieces
  cases hreads
  exact hne rfl

/-- **A plus is let through** in place of a digit, and denotes nothing there. -/
theorem not_denotes_signed_code :
    let raw := "\\x+f".toList
    decode raw = .ok ['\x0f'] ∧ Reads raw [.code '+' 'f'] ∧
      ∀ pieces t, Reads raw pieces → ¬ List.Forall₂ Piece.Denotes pieces t := by
  intro raw
  have hreads : Reads raw [.code '+' 'f'] := .code .nil
  refine ⟨by decide, hreads, fun pieces t hpieces hdenotes => ?_⟩
  obtain rfl := hreads.unique hpieces
  obtain ⟨c, rest, hcode, -, -⟩ := List.forall₂_cons_left_iff.1 hdenotes
  cases hcode with
  | code hhigh _ _ _ =>
    have hplus : '+' ∉ hexDigits := by decide
    exact hplus (List.mem_of_getElem? hhigh)

end Delimiter

end ChangeFeed
