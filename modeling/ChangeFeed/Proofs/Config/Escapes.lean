import ChangeFeed.Proofs.Config.Pieces
/-!
# Escapes — every delimiter can be written, and written in parts

A character that has an escape of one letter is written by it; any other may be
written as it is or, in ASCII, by its code in letters of either case (`Style`).
Whatever is chosen for each character, the delimiter is decoded again
(`exists_reads_escape`), since a piece never takes in what stands behind it.
Two delimiters may also be written one behind the other, unless the first one
ends in a backslash that is left over (`Reads.append`): what comes behind would
be taken for its escape.
-/


namespace ChangeFeed

namespace Delimiter

/-- The letter behind a backslash that stands for a character, if there is one. -/
def letter? : Char → Option Char
  | '\n' => some 'n'
  | '\t' => some 't'
  | '\r' => some 'r'
  | '\\' => some '\\'
  | _ => none

/-- **How a character is written** that has no letter of its own. -/
inductive Style where
  | plain
  /-- By its code, if it is in ASCII, with each digit capital or small. -/
  | code (highCapital lowCapital : Bool)
deriving Repr, DecidableEq

/-- The digit for a value below sixteen. -/
def casedDigit (capital : Bool) (d : Nat) : Char :=
  if capital then (hexDigit d).toUpper else hexDigit d

/-- What a piece is written as. -/
def Piece.text : Piece → Text
  | plain c => [c]
  | escape letter => ['\\', letter]
  | code high low => ['\\', 'x', high, low]
  | lone => ['\\']

/-- The piece that a character is written by. -/
def Style.piece (style : Style) (c : Char) : Piece :=
  match letter? c with
  | some letter => .escape letter
  | none =>
    match style with
    | plain => .plain c
    | code highCapital lowCapital =>
      if c.toNat < 128 then
        .code (casedDigit highCapital (c.toNat / 16)) (casedDigit lowCapital (c.toNat % 16))
      else .plain c

/-- **A delimiter, written** with a style for each place. -/
def escape (styles : Nat → Style) (d : Text) : Text :=
  (d.mapIdx fun i c => ((styles i).piece c).text).flatten

/-- **A backslash is left over** at the end of a text. -/
def EndsLone (t : Text) : Prop := ∃ pieces, Reads t (pieces ++ [.lone])

variable {c letter : Char} {a b d t : Text} {pieces others : List Piece}

/-! ## Writing -/

theorem escaped?_of_letter? (h : letter? c = some letter) : escaped? letter = some c := by
  unfold letter? at h
  split at h
  all_goals
    cases h
  all_goals rfl

theorem isHexDigit_casedDigit (capital : Bool) {n : Nat} (h : n < 16) :
    IsHexDigit (casedDigit capital n) n := by
  have htable : ∀ capital, ∀ n < 16, hexDigits[n]? = some (casedDigit capital n).toLower := by
    decide
  exact htable capital n h

/-- **What a character is written by denotes it**, whatever stands behind. -/
theorem Style.reads_text (style : Style) (c : Char) (h : Reads t pieces) :
    Reads ((style.piece c).text ++ t) (style.piece c :: pieces) ∧ (style.piece c).Denotes c := by
  unfold Style.piece
  split
  · next letter hletter =>
    have hescaped := escaped?_of_letter? hletter
    exact ⟨.escape (Option.isSome_of_eq_some hescaped) h, .escape hescaped⟩
  · next hnone =>
    have hc : c ≠ '\\' := by
      rintro rfl
      cases hnone
    split
    · exact ⟨.plain hc h, .plain c⟩
    split
    · next highCapital lowCapital hascii =>
      have hhigh := isHexDigit_casedDigit highCapital (show c.toNat / 16 < 16 by omega)
      have hlow := isHexDigit_casedDigit lowCapital (show c.toNat % 16 < 16 by omega)
      exact ⟨.code h, .code hhigh hlow (by omega) hascii⟩
    · exact ⟨.plain hc h, .plain c⟩

theorem exists_reads_escape (styles : Nat → Style) (d : Text) :
    ∃ pieces, Reads (escape styles d) pieces ∧ List.Forall₂ Piece.Denotes pieces d := by
  induction d generalizing styles with
  | nil => exact ⟨[], .nil, .nil⟩
  | cons c d ih =>
    obtain ⟨pieces, hreads, hdenotes⟩ := ih fun i => styles (i + 1)
    obtain ⟨hfirst, hc⟩ := (styles 0).reads_text c hreads
    have hescape : escape styles (c :: d) =
        ((styles 0).piece c).text ++ escape (fun i => styles (i + 1)) d := by
      rw [escape, List.mapIdx_cons, List.flatten_cons]
      rfl
    exact ⟨_, hescape ▸ hfirst, .cons hc hdenotes⟩

/-! ## Parts -/

/-- **The pieces of two parts** are those of the whole, unless a backslash
between them is left over. -/
theorem Reads.append (ha : Reads a pieces) (hlone : pieces.getLast? ≠ some .lone)
    (hb : Reads b others) : Reads (a ++ b) (pieces ++ others) := by
  have htail : ∀ {piece : Piece} {rest : List Piece},
      (piece :: rest).getLast? ≠ some .lone → rest.getLast? ≠ some .lone := by
    intro piece rest hcons hrest
    rw [List.getLast?_cons, hrest] at hcons
    exact hcons rfl
  induction ha with
  | nil => exact hb
  | plain hc _ ih => exact .plain hc (ih (htail hlone))
  | escape hletter _ ih => exact .escape hletter (ih (htail hlone))
  | code _ ih => exact .code (ih (htail hlone))
  | @lone t _ hopens hrest ih =>
    -- it is not the last piece, so the text goes on before the other part
    have hne : t ≠ [] := by
      rintro rfl
      cases hrest
      exact hlone rfl
    have hhead : (t ++ b).head? = t.head? := List.head?_append_of_ne_nil t hne
    exact .lone (fun c hc => hopens c (hhead.symm.trans hc)) (ih (htail hlone))

theorem decode_append {x y : Text} (ha : decode a = .ok x) (hb : decode b = .ok y)
    (hlone : ¬ EndsLone a) : decode (a ++ b) = .ok (x ++ y) := by
  obtain ⟨hne, pieces, hreads, hpieces⟩ := decode_eq_ok_iff.1 ha
  obtain ⟨-, others, hothers, hrest⟩ := decode_eq_ok_iff.1 hb
  have hlast : pieces.getLast? ≠ some .lone := by
    intro hlast
    obtain ⟨front, rfl⟩ := List.getLast?_eq_some_iff.1 hlast
    exact hlone ⟨front, hreads⟩
  exact decode_eq_ok_iff.2 ⟨List.append_ne_nil_of_left_ne_nil hne b, _,
    hreads.append hlast hothers, List.rel_append hpieces hrest⟩

/-! ## Delimiters -/

/-- **Every delimiter can be written**, in whatever style at each place, and is
decoded again. What two texts are decoded to stands together when they do,
unless the first one leaves a backslash over. -/
theorem decode_escape_and_append :
    (∀ (styles : Nat → Style) (d : Text), d ≠ [] → decode (escape styles d) = .ok d) ∧
      ∀ a b x y : Text, decode a = .ok x → decode b = .ok y → ¬ EndsLone a →
        decode (a ++ b) = .ok (x ++ y) := by
  refine ⟨fun styles d hne => ?_, fun a b x y => decode_append⟩
  obtain ⟨pieces, hreads, hdenotes⟩ := exists_reads_escape styles d
  have hescape : escape styles d ≠ [] := by
    intro hnil
    rw [hnil] at hreads
    cases hreads
    cases hdenotes
    exact hne rfl
  exact decode_eq_ok_iff.2
    ⟨hescape, pieces, hreads, hdenotes.imp fun _ _ hpiece => Or.inl hpiece⟩

/-- A digit behind a code and an `n` behind a backslash are not taken in. A
backslash that is left over before the end does no harm. -/
theorem decode_escape_and_append_digit :
    let styles : Nat → Style := fun i => if i = 0 then .code false true else .plain
    let d := "/f\\n".toList
    escape styles d = "\\x2Ff\\\\n".toList ∧ decode "\\x2Ff\\\\n".toList = .ok d ∧
      decode ("\\a\\x2F".toList ++ "f".toList) = .ok ("\\a/".toList ++ "f".toList) := by
  intro styles d
  have hwritten : escape styles d = "\\x2Ff\\\\n".toList := by decide
  have hlone : ¬ EndsLone "\\a\\x2F".toList := by
    have hopens : OpensNone "a\\x2F".toList := by
      rintro c ⟨⟩
      decide
    have hreads : Reads "\\a\\x2F".toList [.lone, .plain 'a', .code '2' 'F'] :=
      .lone hopens (.plain (by decide) (.code .nil))
    rintro ⟨front, hfront⟩
    have hlast := congrArg List.getLast? (hreads.unique hfront)
    rw [List.getLast?_concat] at hlast
    cases hlast
  refine ⟨hwritten, ?_, ?_⟩
  · have hdecode := decode_escape_and_append.1 styles d (by decide)
    rwa [hwritten] at hdecode
  · exact decode_escape_and_append.2 _ _ _ _ (by decide) (by decide) hlone

end Delimiter

end ChangeFeed
