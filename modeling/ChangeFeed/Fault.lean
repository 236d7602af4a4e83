import ChangeFeed.Text.Basic

/-!
# Faults — what can be wrong with an envelope, and how it is said

One type for all causes that decoding, building a record and translating a
schema change can meet. `Fault.message` is the only place with their
wording.
-/

namespace ChangeFeed

/-- Why a schema history entry cannot be used. -/
inductive HistoryFault where
  /-- The embedded text is no JSON. -/
  | unreadable
  /-- The entry is neither an object nor an embedded text. -/
  | wrongShape
  | noColumns
  | unnamedColumn
  | untypedColumn (name : Text)
deriving Repr, DecidableEq

/-- Why a column change cannot be made. -/
inductive ChangeFault where
  | emptyName
  | missingType
deriving Repr, DecidableEq

/-- **What can be wrong** with an envelope, a pattern or a target. -/
inductive Fault where
  /-- The payload is no JSON. -/
  | malformedPayload
  /-- The payload is JSON but no object. -/
  | notAnObject
  /-- A row image is JSON of the named kind and no object. -/
  | malformedRow (kind : Text)
  | malformedHistory (cause : HistoryFault)
  | invalidTarget (identifier : Text)
  | unsupportedType (name : Text)
  | invalidChange (column : Text) (cause : ChangeFault)
  | invalidPattern
  | noEndpoint
deriving Repr, DecidableEq

namespace HistoryFault

/-- What is said about an entry that cannot be used, if more than that. -/
def detail? : HistoryFault → Option Text
  | unreadable => none
  | wrongShape => some "historyRecord must be a JSON object or string".toList
  | noColumns => some "ALTER entry has no column descriptions".toList
  | unnamedColumn => some "added column has no name".toList
  | untypedColumn name => some ("column '".toList ++ name ++ "' has no typeName".toList)

end HistoryFault

/-- What is said about a column change that cannot be made. -/
def ChangeFault.message : ChangeFault → Text
  | emptyName => "column name is empty".toList
  | missingType => "ADD COLUMN requires a column type".toList

/-- **The message of a fault.** -/
def Fault.message : Fault → Text
  | malformedPayload => "Malformed change payload".toList
  | notAnObject => "Malformed field '$': change envelope must be a JSON object".toList
  | malformedRow kind => "Malformed field 'row': expected an object, got ".toList ++ kind
  | malformedHistory cause =>
    "Malformed schema history record".toList ++
      match cause.detail? with
      | none => []
      | some detail => ": ".toList ++ detail
  | invalidTarget identifier =>
    "Invalid table identifier '".toList ++ identifier ++ "', expected 'database.table'".toList
  | unsupportedType name => "Unsupported MySQL type: ".toList ++ name
  | invalidChange column cause =>
    "Invalid schema change for column '".toList ++ column ++ "': ".toList ++ cause.message
  | invalidPattern => "Invalid DDL pattern".toList
  | noEndpoint => "No Doris frontend endpoint configured".toList

end ChangeFeed
