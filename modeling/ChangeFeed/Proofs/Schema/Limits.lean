import ChangeFeed.Proofs.Schema.AddedColumn
import ChangeFeed.Proofs.Schema.Statement
import ChangeFeed.Proofs.Text.Digits
/-!
# Limits — the types that an added column can get

A type that depends on a length keeps to the limits of its kind, whatever the
description says (`isLegal_of_ofMySql`). Lengths are words of 32 bits, which
come from numbers of 64, so the same is done once more in words, where a
product or a difference that is no word is none at all: the outcome is the
same (`fitsWords`), so no step of it leaves the words.
-/


namespace ChangeFeed

/-! ## Words of 32 bits -/

namespace HalfWord

variable {a b : UInt32}

/-- The product of two words, if it is a word. -/
def times? (a b : UInt32) : Option UInt32 :=
  if a.toNat * b.toNat < halfWordBound then some (a * b) else none

/-- The difference of two words, if it is a word. -/
def minus? (a b : UInt32) : Option UInt32 := if b ≤ a then some (a - b) else none

/-- The word that a number of 64 bits is, if it is one. -/
def ofWord? (n : UInt64) : Option UInt32 :=
  if n.toNat < halfWordBound then some n.toUInt32 else none

theorem toNat_min (a b : UInt32) : (min a b).toNat = min a.toNat b.toNat := by
  have hle : a ≤ b ↔ a.toNat ≤ b.toNat := UInt32.le_iff_toNat_le
  show (if a ≤ b then a else b).toNat = _
  split
  · next h => exact (Nat.min_eq_left (hle.1 h)).symm
  · next h => exact (Nat.min_eq_right (Nat.le_of_not_le (mt hle.2 h))).symm

theorem map_toNat_times? :
    (times? a b).map UInt32.toNat =
      if a.toNat * b.toNat < halfWordBound then some (a.toNat * b.toNat) else none := by
  unfold times?
  split
  · next hfits =>
    have hexact : (a * b).toNat = a.toNat * b.toNat := by
      rw [UInt32.toNat_mul]
      exact Nat.mod_eq_of_lt hfits
    rw [Option.map_some, hexact]
  · rfl

theorem map_toNat_minus? (h : b ≤ a) :
    (minus? a b).map UInt32.toNat = some (a.toNat - b.toNat) := by
  rw [minus?, if_pos h, Option.map_some, UInt32.toNat_sub_of_le _ _ h]

theorem map_toNat_ofWord? (n : UInt64) :
    (ofWord? n).map UInt32.toNat = if n.toNat < halfWordBound then some n.toNat else none := by
  unfold ofWord?
  split
  · next hfits =>
    have hexact : n.toUInt32.toNat = n.toNat := by
      rw [UInt64.toNat_toUInt32]
      exact Nat.mod_eq_of_lt hfits
    rw [Option.map_some, hexact]
  · rfl

end HalfWord

/-! ## The numbers of a description -/

namespace Text

variable {base bound n : Nat} {t : Text}

/-- What is read below a bound is below it. -/
theorem readNatural_lt (hbound : 0 < bound) (h : readNatural base bound t = .ok n) : n < bound :=
  ((readNatural_eq_ok_iff hbound).1 h).2

end Text

/-- A natural number in a JSON value has 64 bits. -/
theorem Json.natural?_lt {value : Json} {n : Nat} (h : value.natural? = some n) :
    n < wordBound := by
  unfold natural? at h
  split at h
  · next numeral =>
    split at h
    · cases hread : Text.readNatural 10 wordBound numeral with
      | error cause =>
        rw [hread] at h
        cases h
      | ok m =>
        rw [hread] at h
        cases h
        exact Text.readNatural_lt (by decide) hread
    · cases h
  · cases h

namespace ColumnDescription

/-- The natural number under a key as a word, taken from one of 64 bits; zero
if there is none or it is too large. -/
def sizeWord (key : String) (node : Json) : UInt32 :=
  ((((node.get? key.toList).bind Json.natural?).map UInt64.ofNat).bind HalfWord.ofWord?).getD 0

/-- **A number that is taken into a word is the number itself**, and never
what is left of a larger one. -/
theorem toNat_sizeWord (key : String) (node : Json) :
    (sizeWord key node).toNat = size key node := by
  unfold sizeWord size
  cases hfound : (node.get? key.toList).bind Json.natural? with
  | none => rfl
  | some n =>
    obtain ⟨value, -, hvalue⟩ := Option.bind_eq_some_iff.1 hfound
    have hlong : (UInt64.ofNat n).toNat = n := UInt64.toNat_ofNat_of_lt' (Json.natural?_lt hvalue)
    have hword := HalfWord.map_toNat_ofWord? (UInt64.ofNat n)
    rw [hlong] at hword
    dsimp only [Option.map_some, Option.bind_some]
    split at hword
    · next hfits =>
      obtain ⟨word, hof, hnumber⟩ := Option.map_eq_some_iff.1 hword
      rw [hof, if_pos hfits]
      exact hnumber
    · next hlarge =>
      rw [Option.map_eq_none_iff.1 hword, if_neg hlarge]
      rfl

end ColumnDescription

namespace ColumnType

open HalfWord

/-! ## Types within their limits -/

/-- **The limits of a type**: of the digits of a decimal and of a second, and
of the bytes of a text, which are three to a character. -/
def IsLegal : ColumnType → Prop
  | decimal precision scale => 1 ≤ precision ∧ precision ≤ 38 ∧ scale ≤ precision
  | dateTime precision => precision ≤ 6
  | char length => 3 ≤ length ∧ length ≤ 255 ∧ 3 ∣ length
  | varChar length => 3 ≤ length ∧ length ≤ 65533 ∧ 3 ∣ length
  | _ => True

theorem isLegal_ofDecimal (precision scale : Nat) : (ofDecimal precision scale).IsLegal := by
  unfold ofDecimal maxDecimalPrecision
  split
  · next h => exact ⟨h.1, h.2, Nat.min_le_right scale precision⟩
  · trivial

theorem secondDigits_le (length : Nat) : secondDigits length ≤ 6 := by
  unfold secondDigits maxSecondDigits
  split <;> omega

theorem isLegal_ofChar (length : Nat) : (ofChar length).IsLegal := by
  have hthree : 3 ∣ length * 3 := Nat.dvd_mul_left 3 length
  unfold ofChar maxCharLength maxVarCharLength
  dsimp only
  split
  · trivial
  split
  · exact ⟨by omega, ‹_›, hthree⟩
  split
  · exact ⟨by omega, ‹_›, hthree⟩
  · trivial

theorem isLegal_ofVarChar (length : Nat) : (ofVarChar length).IsLegal := by
  unfold ofVarChar maxVarCharLength
  dsimp only
  split
  · next h => exact ⟨by omega, h.2, Nat.dvd_mul_left 3 length⟩
  · trivial

theorem isLegal_of_ofBase? {base : Text} {isUnsigned : Bool} {length scale : Nat}
    {type : ColumnType} (h : ofBase? base isUnsigned length scale = some type) : type.IsLegal := by
  unfold ofBase? at h
  split at h
  all_goals cases h
  case h_14 | h_15 => exact isLegal_ofDecimal length scale
  case h_17 | h_18 => exact secondDigits_le length
  case h_19 => exact isLegal_ofChar length
  case h_20 => exact isLegal_ofVarChar length
  -- the others depend on no length; an integer is one of two types
  any_goals trivial
  all_goals split <;> trivial

/-- **A type that is mapped keeps to its limits**, whatever its length and
scale. -/
theorem isLegal_of_ofMySql {name : Text} {length scale : Nat} {type : ColumnType}
    (h : ofMySql name length scale = .ok type) : type.IsLegal := by
  unfold ofMySql at h
  split at h
  · cases h
  split at h
  · next hbase =>
    cases h
    exact isLegal_of_ofBase? hbase
  · cases h

/-! ## The same in words -/

/-- The type for texts of one length, with its bytes counted in words. -/
def ofCharWord (length : UInt32) : ColumnType :=
  match (times? length 3).map UInt32.toNat with
  | none => string
  | some bytes =>
    if bytes = 0 then string
    else if bytes ≤ maxCharLength then char bytes
    else if bytes ≤ maxVarCharLength then varChar bytes
    else string

/-- The type for texts up to a length, with its bytes counted in words. -/
def ofVarCharWord (length : UInt32) : ColumnType :=
  match (times? length 3).map UInt32.toNat with
  | none => string
  | some bytes => if 0 < bytes ∧ bytes ≤ maxVarCharLength then varChar bytes else string

/-- The fractional digits of a second, counted in words: as they are given, or
what a display width has beyond twenty; none if that difference is no word. -/
def secondDigitsWord? (length : UInt32) : Option UInt32 :=
  (if length ≤ 6 then some length
    else if 19 < length then minus? length 20
    else some 0).map (min · 6)

variable (length : UInt32)

theorem map_toNat_times?_three :
    (times? length 3).map UInt32.toNat =
      if length.toNat * 3 < halfWordBound then some (length.toNat * 3) else none :=
  map_toNat_times?

/-- A length whose bytes are no word is beyond every limit. -/
theorem ofCharWord_eq : ofCharWord length = ofChar length.toNat := by
  have hbound : maxCharLength < halfWordBound ∧ maxVarCharLength < halfWordBound := by decide
  unfold ofCharWord ofChar
  rw [map_toNat_times?_three]
  by_cases hfits : length.toNat * 3 < halfWordBound
  · rw [if_pos hfits]
  · have hzero : length.toNat * 3 ≠ 0 := by
      intro h
      rw [h] at hfits
      exact hfits (by decide)
    have hchar : ¬ length.toNat * 3 ≤ maxCharLength := by omega
    have hvarChar : ¬ length.toNat * 3 ≤ maxVarCharLength := by omega
    simp only [if_neg hfits, if_neg hzero, if_neg hchar, if_neg hvarChar]

theorem ofVarCharWord_eq : ofVarCharWord length = ofVarChar length.toNat := by
  have hbound : maxVarCharLength < halfWordBound := by decide
  unfold ofVarCharWord ofVarChar
  rw [map_toNat_times?_three]
  by_cases hfits : length.toNat * 3 < halfWordBound
  · rw [if_pos hfits]
  · have hvarChar : ¬ (0 < length.toNat * 3 ∧ length.toNat * 3 ≤ maxVarCharLength) := by omega
    simp only [if_neg hfits, if_neg hvarChar]

/-- Twenty is taken only from a length that is no smaller. -/
theorem map_toNat_secondDigitsWord? :
    (secondDigitsWord? length).map UInt32.toNat = some (secondDigits length.toNat) := by
  have hsix : length ≤ 6 ↔ length.toNat ≤ 6 := UInt32.le_iff_toNat_le
  have htwenty : 20 ≤ length ↔ 20 ≤ length.toNat := UInt32.le_iff_toNat_le
  have hwide : 19 < length ↔ 19 < length.toNat := UInt32.lt_iff_toNat_lt
  have hmin : UInt32.toNat ∘ (min · 6) = (min · 6) ∘ UInt32.toNat :=
    funext fun digits => toNat_min digits 6
  unfold secondDigitsWord? secondDigits maxSecondDigits
  rw [Option.map_map, hmin, ← Option.map_map]
  by_cases hshort : length ≤ 6
  · have hlength : length.toNat ≤ 6 := hsix.1 hshort
    rw [if_pos hshort, if_pos hlength]
    exact congrArg some (Nat.min_eq_left hlength)
  · have hlength : ¬ length.toNat ≤ 6 := fun h => hshort (hsix.2 h)
    rw [if_neg hshort, if_neg hlength]
    split
    · next h =>
      have hmore : 20 ≤ length := htwenty.2 (hwide.1 h)
      rw [map_toNat_minus? hmore]
      rfl
    · next h =>
      have hless : ¬ 19 < length.toNat := mt hwide.2 h
      have hzero : length.toNat - 20 = 0 := by omega
      rw [hzero]
      rfl

end ColumnType

/-! ## The type of an added column -/

namespace ColumnDescription

/-- **No step behind a type leaves the words**: the numbers of the description
are words, and what is computed of its length in words, where a step that
leaves them gives nothing, is what is computed of it in numbers. -/
structure FitsWords (node : Json) : Prop where
  length : (sizeWord "length" node).toNat = size "length" node
  scale : (sizeWord "scale" node).toNat = size "scale" node
  char : ColumnType.ofCharWord (sizeWord "length" node) = ColumnType.ofChar (size "length" node)
  varChar : ColumnType.ofVarCharWord (sizeWord "length" node) =
    ColumnType.ofVarChar (size "length" node)
  secondDigits : (ColumnType.secondDigitsWord? (sizeWord "length" node)).map UInt32.toNat =
    some (ColumnType.secondDigits (size "length" node))

theorem fitsWords (node : Json) : FitsWords node := by
  have hlength := toNat_sizeWord "length" node
  have hchar := ColumnType.ofCharWord_eq (sizeWord "length" node)
  have hvarChar := ColumnType.ofVarCharWord_eq (sizeWord "length" node)
  have hdigits := ColumnType.map_toNat_secondDigitsWord? (sizeWord "length" node)
  rw [hlength] at hchar hvarChar hdigits
  exact ⟨hlength, toNat_sizeWord "scale" node, hchar, hvarChar, hdigits⟩

end ColumnDescription

namespace HistoryEntry

variable {entry : HistoryEntry} {pattern : Pattern} {change : ColumnChange}

/-- **Every added column has a legal type.** It is mapped from the last
description, whatever JSON that holds for its length and scale, keeps to the
limits of its kind, and no step on the way leaves the words that lengths are
kept in. -/
theorem type_of_addition_isLegal (hchange : entry.columnChange pattern = .ok (some change))
    (hadd : change.verb = .add) :
    ∃ node typeName type, entry.columns.getLast? = some (.ofJson node) ∧
      node.textField? "typeName" = some typeName ∧
      ColumnType.ofMySql typeName (ColumnDescription.size "length" node)
        (ColumnDescription.size "scale" node) = .ok type ∧
      change.type = some type ∧ type.IsLegal ∧ ColumnDescription.FitsWords node := by
  rcases drop_or_addition_of_columnChange hchange with ⟨column, rfl⟩ | ⟨last, own, hlast, hmade⟩
  · cases hadd
  · obtain ⟨node, rfl⟩ := exists_ofJson_of_mem_columns (List.mem_of_getLast? hlast)
    obtain ⟨typeName, type, hname, htype, rfl⟩ := ColumnDescription.addition_eq_ok_iff.1 hmade
    exact ⟨node, typeName, type, hlast, hname, htype, rfl, ColumnType.isLegal_of_ofMySql htype,
      ColumnDescription.fitsWords node⟩

/-- The longest text that is not without bounds, at 65532 bytes. -/
theorem type_of_addition_isLegal_longest :
    let node : Json := .object [("name".toList, .string "note".toList),
      ("typeName".toList, .string "varchar".toList), ("length".toList, .number "21844".toList)]
    let ddl : Text := "ALTER TABLE orders ADD COLUMN note VARCHAR(21844)".toList
    let entry : HistoryEntry := ⟨some ddl, some (.object [("type".toList, .string "ALTER".toList),
      ("table".toList, .object [("columns".toList, .array [node])])])⟩
    let change := ColumnChange.add "note".toList (.varChar 65532)
    entry.columnChange Pattern.statement = .ok (some change) ∧ change.verb = .add ∧
      (ColumnType.varChar 65532).IsLegal := by
  intro node ddl entry change
  have hstatement : IsStatement (ddl.words.drop 0) "ADD".toList "note".toList :=
    ⟨"ALTER".toList, "TABLE".toList, "orders".toList, "COLUMN".toList,
      ["note".toList, "VARCHAR(21844)".toList], by decide, by decide, by decide,
      Or.inl (by decide), by decide⟩
  have hverb : ColumnVerb.parse? "ADD".toList = some .add := by decide
  have hmade : entry.changeOf .add (columnName "note".toList) = .ok (some change) := by
    decide +kernel
  have hchange : entry.columnChange Pattern.statement = .ok (some change) :=
    (columnChange_of_first rfl rfl hstatement (fun j hj => absurd hj (Nat.not_lt_zero j))
      hverb).trans hmade
  obtain ⟨_, _, type, -, -, -, htype, hlegal, -⟩ := type_of_addition_isLegal hchange rfl
  cases htype
  exact ⟨hchange, rfl, hlegal⟩

end HistoryEntry

end ChangeFeed
