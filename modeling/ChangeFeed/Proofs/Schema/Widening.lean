import ChangeFeed.Doris.ColumnType
import ChangeFeed.Proofs.Text.Upper
import Mathlib.Algebra.Order.Ring.Int
import Mathlib.Data.ENat.Basic
/-!
# Widening — every value of a column fits its mapped type

A type name is read off its words: the first is the type, and `UNSIGNED` or
`ZEROFILL` anywhere behind it takes the sign away (`ofMySql_of_keyword`). The
Doris integers all have a sign, so an unsigned type needs a wider one, by one
bit at least, and gets it (`exists_integer`). A text has three bytes for every
character. `mapping_never_narrows` puts this together, over all spellings.
-/


namespace ChangeFeed

/-! ## Values -/

/-- The integer types of MySQL by their names, each with its number of bits. -/
def integerTypes : List (Text × Nat) := [("TINYINT".toList, 8), ("SMALLINT".toList, 16),
  ("MEDIUMINT".toList, 24), ("INT".toList, 32), ("INTEGER".toList, 32), ("BIGINT".toList, 64)]

/-- **The integers of so many bits**, with a sign or without. -/
def IsInteger (isUnsigned : Bool) (bits : Nat) (n : Int) : Prop :=
  if isUnsigned then 0 ≤ n ∧ n < 2 ^ bits else -2 ^ (bits - 1) ≤ n ∧ n < 2 ^ (bits - 1)

/-- An integer fits more bits with a sign, one more at least if it had none. -/
theorem IsInteger.widen {isUnsigned : Bool} {bits wider : Nat} {n : Int}
    (h : IsInteger isUnsigned bits n) (hwider : bits + isUnsigned.toNat ≤ wider) :
    IsInteger false wider n := by
  cases isUnsigned with
  | false =>
    have hbits : bits - 1 ≤ wider - 1 := Nat.sub_le_sub_right hwider 1
    have hpow : (2 : Int) ^ (bits - 1) ≤ 2 ^ (wider - 1) := pow_le_pow_right₀ one_le_two hbits
    obtain ⟨hlow, hhigh⟩ : -2 ^ (bits - 1) ≤ n ∧ n < 2 ^ (bits - 1) := h
    exact ⟨by omega, by omega⟩
  | true =>
    have hbits : bits ≤ wider - 1 := Nat.le_sub_one_of_lt hwider
    have hpow : (2 : Int) ^ bits ≤ 2 ^ (wider - 1) := pow_le_pow_right₀ one_le_two hbits
    obtain ⟨hlow, hhigh⟩ : 0 ≤ n ∧ n < 2 ^ bits := h
    exact ⟨by omega, by omega⟩

/-- A further word of a type's name takes the sign away, in letters of either case. -/
def Text.saysUnsigned (word : Text) : Bool :=
  word.sameLetters "UNSIGNED".toList || word.sameLetters "ZEROFILL".toList

namespace ColumnType

/-- The number of bits of an integer type, which always has a sign. -/
def integerBits? : ColumnType → Option Nat
  | tinyInt => some 8
  | smallInt => some 16
  | int => some 32
  | bigInt => some 64
  | largeInt => some 128
  | _ => none

/-- **The type holds the integer.** -/
def HoldsInteger (type : ColumnType) (n : Int) : Prop :=
  ∃ bits, type.integerBits? = some bits ∧ IsInteger false bits n

/-- **How many bytes a text of the type can have**, if it is one for texts. -/
def byteCapacity : ColumnType → ℕ∞
  | char length => length
  | varChar length => length
  | string => ⊤
  | _ => 0

/-! ## Names -/

variable {name base keyword : Text} {further : List Text} {length scale : Nat}

/-- A word that takes the sign away is seen. -/
theorem marksUnsigned_upper {word : Text} (h : word.saysUnsigned = true) :
    marksUnsigned (Text.upper word) = true := by
  rw [Text.saysUnsigned, Bool.or_eq_true] at h
  rw [marksUnsigned, Bool.or_eq_true, beq_iff_eq, beq_iff_eq]
  refine h.imp (fun h => ?_) (fun h => ?_)
  · exact Text.upper_of_sameLetters (by decide) h
  · exact Text.upper_of_sameLetters (by decide) h

/-- The words behind the first that are seen to take the sign away. -/
theorem toNat_saysUnsigned_le (further : List Text) :
    (further.any Text.saysUnsigned).toNat ≤
      ((further.map Text.upper).any marksUnsigned).toNat := by
  apply Bool.toNat_le_toNat
  intro h
  obtain ⟨word, hword, hmarked⟩ := List.any_eq_true.1 h
  exact List.any_eq_true.2 ⟨_, List.mem_map_of_mem hword, marksUnsigned_upper hmarked⟩

/-- **A type is found by the keyword** that its name begins with, in letters of
either case and whatever the spacing. -/
theorem ofMySql_of_keyword {type : ColumnType} (hname : name.words = base :: further)
    (hkeyword : keyword.all Char.isUpper = true) (hbase : base.sameLetters keyword = true)
    (htype : ofBase? keyword ((further.map Text.upper).any marksUnsigned) length scale =
      some type) : ofMySql name length scale = .ok type := by
  have hwords : (name.trim.upper).words = keyword :: further.map Text.upper := by
    rw [Text.words_upper, Text.words_trim, hname, List.map_cons,
      Text.upper_of_sameLetters hkeyword hbase]
  unfold ofMySql
  rw [hwords]
  simp only [htype]

/-! ## Integers -/

/-- **An integer type is mapped to one with a sign**, wider if it has none. -/
theorem exists_integer (length scale : Nat) (isUnsigned : Bool) :
    ∀ integer ∈ integerTypes, ∃ type bits, ofBase? integer.1 isUnsigned length scale = some type ∧
      type.integerBits? = some bits ∧ integer.2 + isUnsigned.toNat ≤ bits := by
  intro integer hinteger
  simp only [integerTypes, List.mem_cons, List.not_mem_nil, or_false] at hinteger
  rcases hinteger with rfl | rfl | rfl | rfl | rfl | rfl
  all_goals cases isUnsigned
  all_goals exact ⟨_, _, rfl, rfl, by decide⟩

theorem isUpper_of_mem_integerTypes :
    ∀ integer ∈ integerTypes, integer.1.all Char.isUpper = true := by
  decide

/-! ## Texts -/

/-- The bytes that there is room for in the type of texts of a length. -/
def roomFor (length : Nat) : ℕ∞ :=
  if 0 < length * 3 ∧ length * 3 ≤ maxVarCharLength then (length * 3 : Nat) else ⊤

theorem byteCapacity_ofVarChar (length : Nat) :
    (ofVarChar length).byteCapacity = roomFor length := by
  unfold ofVarChar roomFor
  dsimp only
  split <;> rfl

/-- A text of one length has the same room, whichever of the two types it gets. -/
theorem byteCapacity_ofChar (length : Nat) : (ofChar length).byteCapacity = roomFor length := by
  have hbound : maxCharLength ≤ maxVarCharLength := by decide
  unfold ofChar roomFor
  dsimp only
  split
  · next hzero => rw [if_neg (by omega)]; rfl
  split
  · next hchar => rw [if_pos ⟨by omega, by omega⟩]; rfl
  split
  · next hvarChar => rw [if_pos ⟨by omega, hvarChar⟩]; rfl
  · next hlong => rw [if_neg (by omega)]; rfl

/-- There is room for three bytes for every character. -/
theorem le_roomFor (length : Nat) : ((3 * length : Nat) : ℕ∞) ≤ roomFor length := by
  unfold roomFor
  split
  · rw [Nat.mul_comm]
  · exact le_top

/-- A longer text has no less room, as a type without a bound comes only behind
those with one. -/
theorem roomFor_mono {shorter : Nat} (hpos : 1 ≤ shorter) (hle : shorter ≤ length) :
    roomFor shorter ≤ roomFor length := by
  have hpos' : 0 < length * 3 := by omega
  unfold roomFor
  by_cases hfits : length * 3 ≤ maxVarCharLength
  · have hshorter : shorter * 3 ≤ maxVarCharLength := by omega
    rw [if_pos ⟨by omega, hshorter⟩, if_pos ⟨hpos', hfits⟩]
    exact Nat.cast_le.2 (Nat.mul_le_mul_right 3 hle)
  · rw [if_neg (c := 0 < length * 3 ∧ _) fun h => hfits h.2]
    exact le_top

/-- **A type for texts has the room of its length.** -/
theorem exists_text (hname : name.words = base :: further)
    (hbase : base.sameLetters "CHAR".toList = true ∨ base.sameLetters "VARCHAR".toList = true)
    (length scale : Nat) :
    ∃ type, ofMySql name length scale = .ok type ∧ type.byteCapacity = roomFor length := by
  rcases hbase with hchar | hvarChar
  · have hmapped : ofMySql name length scale = .ok (ofChar length) :=
      ofMySql_of_keyword hname (by decide) hchar rfl
    exact ⟨_, hmapped, byteCapacity_ofChar length⟩
  · have hmapped : ofMySql name length scale = .ok (ofVarChar length) :=
      ofMySql_of_keyword hname (by decide) hvarChar rfl
    exact ⟨_, hmapped, byteCapacity_ofVarChar length⟩

/-! ## Decimals and seconds -/

/-- A decimal keeps its digits, or is a text. -/
theorem ofDecimal_of_scale_le (h : scale ≤ length) :
    ofDecimal length scale = decimal length scale ∨ ofDecimal length scale = string := by
  unfold ofDecimal
  split
  · rw [Nat.min_eq_left h]
    exact Or.inl rfl
  · exact Or.inr rfl

/-- The digits of a second come as they are or as a display width. -/
theorem secondDigits_of_le {digits : Nat} (h : digits ≤ 6) :
    secondDigits digits = digits ∧ secondDigits (20 + digits) = digits := by
  unfold secondDigits maxSecondDigits
  rw [if_pos h, if_neg (by omega)]
  exact ⟨rfl, by omega⟩

/-! ## The mapping -/

/-- **The mapping never narrows.** However the name of a type is spelled, the
integers of an integer type all fit the type that it is mapped to, a type for
texts has three bytes for every character and no less for a longer text, a
decimal keeps its digits or becomes a text, and a point in time keeps the digits
of its second, given as they are or as a display width. -/
theorem mapping_never_narrows (hname : name.words = base :: further) (length scale : Nat) :
    (∀ integer ∈ integerTypes, base.sameLetters integer.1 = true →
      ∃ type, ofMySql name length scale = .ok type ∧
        ∀ n, IsInteger (further.any Text.saysUnsigned) integer.2 n → type.HoldsInteger n) ∧
    (base.sameLetters "CHAR".toList = true ∨ base.sameLetters "VARCHAR".toList = true →
      ∃ type, ofMySql name length scale = .ok type ∧
        ((3 * length : Nat) : ℕ∞) ≤ type.byteCapacity ∧
        ∀ shorter, 1 ≤ shorter → shorter ≤ length → ∃ smaller,
          ofMySql name shorter scale = .ok smaller ∧ smaller.byteCapacity ≤ type.byteCapacity) ∧
    (base.sameLetters "DECIMAL".toList = true ∨ base.sameLetters "NUMERIC".toList = true →
      scale ≤ length → ofMySql name length scale = .ok (decimal length scale) ∨
        ofMySql name length scale = .ok string) ∧
    (base.sameLetters "DATETIME".toList = true ∨ base.sameLetters "TIMESTAMP".toList = true →
      ∀ digits ≤ 6, ofMySql name digits scale = .ok (dateTime digits) ∧
        ofMySql name (20 + digits) scale = .ok (dateTime digits)) := by
  refine ⟨?_, ?_, ?_, ?_⟩
  · intro integer hinteger hbase
    obtain ⟨type, bits, htype, hbits, hwider⟩ := exists_integer length scale
      ((further.map Text.upper).any marksUnsigned) integer hinteger
    refine ⟨type, ofMySql_of_keyword hname (isUpper_of_mem_integerTypes integer hinteger) hbase
      htype, fun n hn => ⟨bits, hbits, hn.widen ?_⟩⟩
    -- a sign may be taken away that no word says so of, and this only widens the type
    have hmarked := toNat_saysUnsigned_le further
    omega
  · intro hbase
    obtain ⟨type, htype, hroom⟩ := exists_text hname hbase length scale
    refine ⟨type, htype, hroom ▸ le_roomFor length, fun shorter hpos hle => ?_⟩
    obtain ⟨smaller, hsmaller, hless⟩ := exists_text hname hbase shorter scale
    exact ⟨smaller, hsmaller, by rw [hless, hroom]; exact roomFor_mono hpos hle⟩
  · intro hbase hscale
    have hmapped : ofMySql name length scale = .ok (ofDecimal length scale) := by
      rcases hbase with hdecimal | hnumeric
      · exact ofMySql_of_keyword hname (by decide) hdecimal rfl
      · exact ofMySql_of_keyword hname (by decide) hnumeric rfl
    rw [hmapped]
    exact (ofDecimal_of_scale_le hscale).imp (congrArg _) (congrArg _)
  · intro hbase digits hdigits
    have hmapped : ∀ width, ofMySql name width scale = .ok (dateTime (secondDigits width)) := by
      intro width
      rcases hbase with hdateTime | htimestamp
      · exact ofMySql_of_keyword hname (by decide) hdateTime rfl
      · exact ofMySql_of_keyword hname (by decide) htimestamp rfl
    obtain ⟨hsame, hwidth⟩ := secondDigits_of_le hdigits
    rw [hmapped, hmapped, hsame, hwidth]
    exact ⟨rfl, rfl⟩

/-- A sign is taken away by the last of several words, and the greatest of the
integers without one still fits. -/
theorem mapping_never_narrows_zerofill :
    let name : Text := "\u3000BigInt (20)\t zeroFill".toList
    name.words = ["BigInt".toList, "(20)".toList, "zeroFill".toList] ∧
      Text.sameLetters "BigInt".toList "BIGINT".toList = true ∧
      ∃ type, ofMySql name 20 0 = .ok type ∧ type.HoldsInteger 18446744073709551615 := by
  intro name
  have hname : name.words = ["BigInt".toList, "(20)".toList, "zeroFill".toList] := by decide
  have hbase : Text.sameLetters "BigInt".toList "BIGINT".toList = true := by decide
  obtain ⟨type, htype, hholds⟩ :=
    (mapping_never_narrows hname 20 0).1 ("BIGINT".toList, 64) (by decide) hbase
  refine ⟨hname, hbase, type, htype, hholds _ ?_⟩
  have hunsigned : Text.saysUnsigned "zeroFill".toList = true := by decide
  have hmarked : ["(20)".toList, "zeroFill".toList].any Text.saysUnsigned = true := by decide
  rw [hmarked]
  exact ⟨by decide, by decide⟩

end ColumnType

end ChangeFeed
