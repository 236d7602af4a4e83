import ChangeFeed.Text.Basic

/-!
# Bytes — texts in UTF-8, and input cut into lines

Input arrives as bytes. `Bytes.text?` reads them as UTF-8 and refuses
anything else; `Text.bytes` writes. A line ends after a line feed, which
takes a carriage return right before it along; what follows the last line
feed is a line of its own unless it is empty.
-/

namespace ChangeFeed

/-- A sequence of bytes. -/
abbrev Bytes := List UInt8

/-- The text as UTF-8. -/
def Text.bytes (t : Text) : Bytes := t.flatMap String.utf8EncodeChar

/-- The number of bytes of a text in UTF-8. -/
def Text.size (t : Text) : Nat := t.foldr (fun c size => c.utf8Size + size) 0

namespace Bytes

/-- The text that the bytes are, if they are UTF-8. -/
def text? (bytes : Bytes) : Option Text :=
  (ByteArray.mk bytes.toArray).utf8Decode?.map Array.toList

/-- A line without the carriage return before its line feed, from its bytes in reverse. -/
def endLine : Bytes → Bytes
  | 13 :: reversed => reversed.reverse
  | reversed => reversed.reverse

/-- The lines that are left, given the bytes of the current line in reverse. -/
def linesFrom (current : Bytes) : Bytes → List Bytes
  | [] => if current.isEmpty then [] else [current.reverse]
  | b :: rest =>
    if b = 10 then endLine current :: linesFrom [] rest else linesFrom (b :: current) rest

/-- **The lines of an input**, without their endings. -/
def lines (bytes : Bytes) : List Bytes := linesFrom [] bytes

end Bytes

end ChangeFeed
