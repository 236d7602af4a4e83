import ChangeFeed.Json.Basic
import ChangeFeed.Json.Quoted

/-!
# Writing JSON — compact, in order

No white space, members in order, numbers as they are. No control character
below the space is ever written, so a written value is one line.
-/

namespace ChangeFeed.Json

mutual

/-- **The compact text of a value.** -/
def write : Json → Text
  | null => "null".toList
  | bool true => "true".toList
  | bool false => "false".toList
  | number numeral => numeral
  | string text => text.quote
  | array items => '[' :: (writeItems items ++ [']'])
  | object members => '{' :: (writeMembers members ++ ['}'])

/-- The items of an array, with commas between them. -/
def writeItems : List Json → Text
  | [] => []
  | [item] => item.write
  | item :: next :: rest => item.write ++ ',' :: writeItems (next :: rest)

/-- The members of an object, with commas between them. -/
def writeMembers : List (Text × Json) → Text
  | [] => []
  | [(key, value)] => key.quote ++ ':' :: value.write
  | (key, value) :: next :: rest =>
    key.quote ++ ':' :: (value.write ++ ',' :: writeMembers (next :: rest))

end

/-- A value as plain text: a string stands for itself, `null` for nothing, the rest is written. -/
def plainText? : Json → Option Text
  | null => none
  | string text => some text
  | value => some value.write

end ChangeFeed.Json
