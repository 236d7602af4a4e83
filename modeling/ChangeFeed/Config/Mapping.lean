import ChangeFeed.Text.Blank

/-!
# Mapping entries — `source=target`

An entry of the map from captured tables to targets is written with the
first `=` between the two; white space around either does not count, and
neither may be blank.
-/

namespace ChangeFeed

/-- Why a text writes no mapping entry. -/
inductive MappingFault where
  | noEquals
  | emptyPart
deriving Repr, DecidableEq

/-- The message for a text that writes no mapping entry. -/
def MappingFault.message (raw : Text) : MappingFault → Text
  | noEquals =>
    "Invalid table mapping '".toList ++ raw ++ "'. Expected 'source=target'".toList
  | emptyPart =>
    "Invalid table mapping '".toList ++ raw ++ "'. Source and target must not be empty".toList

/-- **Reads a mapping entry.** -/
def mappingEntry (raw : Text) : Except MappingFault (Text × Text) :=
  match raw.splitFirst? '=' with
  | none => .error .noEquals
  | some (source, target) =>
    if source.isBlank || target.isBlank then .error .emptyPart
    else .ok (source.trim, target.trim)

end ChangeFeed
