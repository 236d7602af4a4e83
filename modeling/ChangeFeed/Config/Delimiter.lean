import ChangeFeed.Text.Bytes
import ChangeFeed.Text.Natural

/-!
# Delimiters — control characters written with escapes

A delimiter is written as it is, except for `\n`, `\t`, `\r`, `\\` and
`\xHH`; any other backslash stands for itself. The two characters after
`\x` are a number in hexadecimal below 128. A delimiter is not empty.
-/

namespace ChangeFeed

/-- Why a text writes no delimiter. The escape is what stands behind `\x`. -/
inductive DelimiterFault where
  | empty
  | incomplete (escape : Text)
  | invalid (escape : Text) (cause : NumeralFault)
  | notAscii (escape : Text)
deriving Repr, DecidableEq

/-- The message for a text that writes no delimiter. -/
def DelimiterFault.message (raw : Text) : DelimiterFault → Text
  | empty => "Line delimiter must not be empty".toList
  | incomplete escape =>
    "Incomplete hex escape '\\x".toList ++ escape ++ "' in delimiter '".toList ++ raw ++ ['\'']
  | invalid escape cause =>
    "Invalid hex escape '\\x".toList ++ escape ++ "' in delimiter '".toList ++ raw ++
      "': ".toList ++ cause.message
  | notAscii escape =>
    "Hex escape '\\x".toList ++ escape ++ "' in delimiter '".toList ++ raw ++
      "' is not ASCII".toList

namespace Delimiter

/-- The character for the text behind `\x`. It must be of two bytes and below 128. -/
def hexEscape (escape : Text) : Except DelimiterFault Char :=
  if escape.size ≠ 2 then .error (.incomplete escape)
  else match Text.readNatural 16 256 escape with
    | .error cause => .error (.invalid escape cause)
    | .ok n => if n < 128 then .ok (Char.ofNat n) else .error (.notAscii escape)

/-- Reads the characters of a delimiter. -/
def decodeChars : Text → Except DelimiterFault Text
  | [] => .ok []
  | '\\' :: 'n' :: rest => (decodeChars rest).map ('\n' :: ·)
  | '\\' :: 't' :: rest => (decodeChars rest).map ('\t' :: ·)
  | '\\' :: 'r' :: rest => (decodeChars rest).map ('\r' :: ·)
  | '\\' :: '\\' :: rest => (decodeChars rest).map ('\\' :: ·)
  | '\\' :: 'x' :: rest =>
    match rest with
    | a :: b :: rest =>
      match hexEscape [a, b] with
      | .error fault => .error fault
      | .ok c => (decodeChars rest).map (c :: ·)
    | short => (hexEscape short).map ([·])
  | c :: rest => (decodeChars rest).map (c :: ·)

/-- **Reads a delimiter.** -/
def decode (raw : Text) : Except DelimiterFault Text :=
  if raw.isEmpty then .error .empty else decodeChars raw

end Delimiter

end ChangeFeed
