import ChangeFeed.Fault
import ChangeFeed.Text.Blank
import ChangeFeed.Text.Upper
import ChangeFeed.Text.Natural

/-!
# Column types — from MySQL to Doris, without loss of range

`ColumnType` are the types a Doris column can get here, `ColumnType.sql`
their spelling. `ColumnType.ofMySql` maps a MySQL type with its length and
scale: unsigned integers go to the next wider type, lengths in characters to
three times as many bytes, and what does not fit a bounded type becomes
`STRING`.
-/

namespace ChangeFeed

/-- **A Doris column type.** -/
inductive ColumnType where
  | boolean
  | tinyInt
  | smallInt
  | int
  | bigInt
  | largeInt
  | float
  | double
  | decimal (precision scale : Nat)
  | date
  | dateTime (precision : Nat)
  | char (length : Nat)
  | varChar (length : Nat)
  | string
  | json
deriving Repr, DecidableEq

namespace ColumnType

/-- A type name with its parameters in parentheses. -/
def parameterised (name : String) (parameters : List Nat) : Text :=
  name.toList ++ '(' :: (Text.joined [','] (parameters.map Text.ofNatural) ++ [')'])

/-- **The spelling in a statement.** -/
def sql : ColumnType → Text
  | boolean => "BOOLEAN".toList
  | tinyInt => "TINYINT".toList
  | smallInt => "SMALLINT".toList
  | int => "INT".toList
  | bigInt => "BIGINT".toList
  | largeInt => "LARGEINT".toList
  | float => "FLOAT".toList
  | double => "DOUBLE".toList
  | decimal precision scale => parameterised "DECIMALV3" [precision, scale]
  | date => "DATEV2".toList
  | dateTime precision => parameterised "DATETIMEV2" [precision]
  | char length => parameterised "CHAR" [length]
  | varChar length => parameterised "VARCHAR" [length]
  | string => "STRING".toList
  | json => "JSONB".toList

/-- The greatest precision of a decimal. -/
def maxDecimalPrecision : Nat := 38

/-- The greatest number of bytes of a `CHAR`. -/
def maxCharLength : Nat := 255

/-- The greatest number of bytes of a `VARCHAR`. -/
def maxVarCharLength : Nat := 65533

/-- The greatest number of fractional digits of a second. -/
def maxSecondDigits : Nat := 6

/-- The fractional digits of a second: given as they are, or as a display width from 20 on. -/
def secondDigits (length : Nat) : Nat :=
  if length ≤ maxSecondDigits then length else min (length - 20) maxSecondDigits

/-- The type for a number with `precision` decimal digits. -/
def ofDecimal (precision scale : Nat) : ColumnType :=
  if 0 < precision ∧ precision ≤ maxDecimalPrecision then decimal precision (min scale precision)
  else string

/-- The type for texts of one length in characters. -/
def ofChar (length : Nat) : ColumnType :=
  let bytes := length * 3
  if bytes = 0 then string
  else if bytes ≤ maxCharLength then char bytes
  else if bytes ≤ maxVarCharLength then varChar bytes
  else string

/-- The type for texts up to a length in characters. -/
def ofVarChar (length : Nat) : ColumnType :=
  let bytes := length * 3
  if 0 < bytes ∧ bytes ≤ maxVarCharLength then varChar bytes else string

/-- The type for the first word of a MySQL type name, and whether the rest makes it unsigned. -/
def ofBase? (base : Text) (isUnsigned : Bool) (length scale : Nat) : Option ColumnType :=
  match String.ofList base with
  | "BIT" | "BOOLEAN" | "BOOL" => some boolean
  | "TINYINT" => some (if isUnsigned then smallInt else tinyInt)
  | "SMALLINT" => some (if isUnsigned then int else smallInt)
  | "MEDIUMINT" => some int
  | "INT" | "INTEGER" => some (if isUnsigned then bigInt else int)
  | "BIGINT" => some (if isUnsigned then largeInt else bigInt)
  | "YEAR" => some int
  | "FLOAT" => some float
  | "DOUBLE" | "REAL" => some double
  | "DECIMAL" | "NUMERIC" => some (ofDecimal length scale)
  | "DATE" => some date
  | "DATETIME" | "TIMESTAMP" => some (dateTime (secondDigits length))
  | "CHAR" => some (ofChar length)
  | "VARCHAR" => some (ofVarChar length)
  | "TINYTEXT" | "TEXT" | "MEDIUMTEXT" | "LONGTEXT" => some string
  | "TINYBLOB" | "BLOB" | "MEDIUMBLOB" | "LONGBLOB" => some string
  | "ENUM" | "SET" | "TIME" | "BINARY" | "VARBINARY" => some string
  | "JSON" => some json
  | _ => none

/-- A word after the first that makes an integer type unsigned. -/
def marksUnsigned (word : Text) : Bool :=
  word == "UNSIGNED".toList || word == "ZEROFILL".toList

/-- **The Doris type for a MySQL type**, by its name, length and scale. -/
def ofMySql (name : Text) (length scale : Nat) : Except Fault ColumnType :=
  match name.trim.upper.words with
  | [] => .error (.unsupportedType name)
  | base :: rest =>
    match ofBase? base (rest.any marksUnsigned) length scale with
    | some type => .ok type
    | none => .error (.unsupportedType name)

end ColumnType

end ChangeFeed
