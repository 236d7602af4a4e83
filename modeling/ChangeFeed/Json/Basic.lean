import ChangeFeed.Text.Blank
import ChangeFeed.Text.Natural

/-!
# JSON values — numbers by their text, objects by their order

A number is kept as it is written, so no digit is ever lost, and an object
is the list of its members in the order of first appearance. `Members.put`
keeps that order: a key that is there keeps its place and takes the new
value, a new key goes last.
-/

namespace ChangeFeed

/-- **A JSON value.** Members of an object are in order, numbers are texts. -/
inductive Json where
  | null
  | bool (b : Bool)
  | number (numeral : Text)
  | string (text : Text)
  | array (items : List Json)
  | object (members : List (Text × Json))
deriving Inhabited

/-- The members of an object: keys with their values, in order. -/
abbrev Members := List (Text × Json)

namespace Members

/-- The value of a key. -/
def find? (key : Text) : Members → Option Json
  | [] => none
  | (k, v) :: rest => if k = key then some v else find? key rest

/-- Sets the value of a key: in place if the key is there, at the end if not. -/
def put (key : Text) (value : Json) : Members → Members
  | [] => [(key, value)]
  | (k, v) :: rest => if k = key then (k, value) :: rest else (k, v) :: put key value rest

/-- The keys, in order. -/
def keys (members : Members) : List Text := members.map Prod.fst

/-- After setting a key it has the new value, and every other key the old one. -/
theorem find?_put (key other : Text) (value : Json) (members : Members) :
    (members.put key value).find? other =
      if key = other then some value else members.find? other := by
  induction members with
  | nil => simp [put, find?]
  | cons kv rest ih =>
    obtain ⟨k, v⟩ := kv
    by_cases hk : k = key
    · subst hk
      by_cases ho : k = other <;> simp [put, find?, ho]
    · by_cases ho : k = other
      · subst ho
        simp [put, find?, hk, Ne.symm hk]
      · simp [put, find?, hk, ho, ih]

/-- Setting a key adds it at the end if it is new, and moves no key. -/
theorem keys_put (key : Text) (value : Json) (members : Members) :
    (members.put key value).keys =
      if key ∈ members.keys then members.keys else members.keys ++ [key] := by
  induction members with
  | nil => simp [put, keys]
  | cons kv rest ih =>
    obtain ⟨k, v⟩ := kv
    by_cases hk : k = key
    · subst hk
      simp [put, keys]
    · simp only [keys] at ih
      by_cases hm : key ∈ rest.map Prod.fst <;> simp [put, keys, hk, Ne.symm hk, ih, hm]

end Members

namespace Json

/-- The kinds of values, as messages name them. -/
def kindName : Json → Text
  | null => "null".toList
  | bool _ => "bool".toList
  | number _ => "number".toList
  | string _ => "string".toList
  | array _ => "array".toList
  | object _ => "object".toList

/-- The members of an object; any other value has none. -/
def members : Json → Members
  | object members => members
  | _ => []

/-- The value of a key, if the value is an object that has it. -/
def get? (key : Text) (value : Json) : Option Json := value.members.find? key

/-- The value, unless it is `null`. -/
def unlessNull : Json → Option Json
  | null => none
  | value => some value

/-- The value of a key, unless it is `null`. -/
def field? (key : Text) (value : Json) : Option Json := (value.get? key).bind unlessNull

/-- The number that a value is, if it is written in digits only and fits in 64 bits. -/
def natural? : Json → Option Nat
  | number numeral =>
    if numeral.all Char.isDigit then (Text.readNatural 10 wordBound numeral).toOption else none
  | _ => none

end Json

end ChangeFeed
