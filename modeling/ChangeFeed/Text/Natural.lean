import ChangeFeed.Text.Basic

/-!
# Natural numbers — written in digits, read below a bound

A number is written in decimal without leading zeros. It is read with an
optional leading `+` and any number of digits, and must stay below a bound.
A reader goes through the digits once: a character that is no digit and a
digit that lifts the value to the bound each end it where they stand.
-/

namespace ChangeFeed

/-- Why a text is no number. -/
inductive NumeralFault where
  | empty
  | badDigit
  | tooLarge
deriving Repr, DecidableEq

/-- What is said about a text that is no number. -/
def NumeralFault.message : NumeralFault → Text
  | .empty => "cannot parse integer from empty string".toList
  | .badDigit => "invalid digit found in string".toList
  | .tooLarge => "number too large to fit in target type".toList

/-- The value of a digit in some base up to sixteen. -/
def digitValue? (base : Nat) (c : Char) : Option Nat :=
  let value? :=
    if c.isDigit then some (c.toNat - '0'.toNat)
    else if 'a' ≤ c ∧ c ≤ 'f' then some (c.toNat - 'a'.toNat + 10)
    else if 'A' ≤ c ∧ c ≤ 'F' then some (c.toNat - 'A'.toNat + 10)
    else none
  value?.filter (· < base)

/-- The digit for a value below sixteen, with small letters. -/
def hexDigit (n : Nat) : Char :=
  if n < 10 then Char.ofNat ('0'.toNat + n) else Char.ofNat ('a'.toNat + (n - 10))

namespace Text

/-- Continues a number after the digits that gave `value`. -/
def readDigits (base bound : Nat) (value : Nat) : Text → Except NumeralFault Nat
  | [] => .ok value
  | c :: rest =>
    match digitValue? base c with
    | none => .error .badDigit
    | some d =>
      if value * base + d < bound then readDigits base bound (value * base + d) rest
      else .error .tooLarge

/-- **A number below `bound`**: an optional `+`, then digits of the base. -/
def readNatural (base bound : Nat) : Text → Except NumeralFault Nat
  | [] => .error .empty
  | ['+'] => .error .badDigit
  | '+' :: digits => readDigits base bound 0 digits
  | digits => readDigits base bound 0 digits

/-- A number in decimal. -/
def ofNatural (n : Nat) : Text := Nat.toDigits 10 n

end Text

/-- One more than the largest number of 64 bits. -/
def wordBound : Nat := 18446744073709551616

/-- One more than the largest number of 32 bits. -/
def halfWordBound : Nat := 4294967296

end ChangeFeed
