import HeartbeatPool.Decimal.Shortest
import HeartbeatPool.Text.Quoted

/-!
# What can be wrong with a JSON text

A fault says why a text was refused and where.  The place is a line and a column: one more than
the number of line ends before it, and the number of bytes since the last of them.
-/

namespace HeartbeatPool.Json

/-- A value where another kind of value was expected. -/
inductive Found where
  | null
  | boolean (value : Bool)
  | integer (value : Int)
  /-- A number that is no 64-bit integer, by the bits of its double. -/
  | floating (bits : UInt64)
  | string (value : String)
  | sequence
  | map
  deriving DecidableEq, Repr, Inhabited

/-- The words for a value in a message. -/
def Found.describe : Found → String
  | .null => "null"
  | .boolean value => "boolean `" ++ toString value ++ "`"
  | .integer value => "integer `" ++ toString value ++ "`"
  | .floating bits => "floating point `" ++ Decimal.shortest bits ++ "`"
  | .string value => "string " ++ Text.quote value
  | .sequence => "sequence"
  | .map => "map"

/-- Why a text was refused. -/
inductive Reason where
  | endInValue
  | endInList
  | endInObject
  | endInString
  | colonExpected
  | listDelimiterExpected
  | objectDelimiterExpected
  | literalExpected
  | valueExpected
  | trailingComma
  | trailingCharacters
  | keyNotString
  | invalidNumber
  | numberOutOfRange
  | invalidEscape
  | controlCharacter
  | loneSurrogate
  | endInEscape
  /-- A value of one kind where another was expected. -/
  | wrongType (found : Found) (expected : String)
  /-- A list with too few elements. -/
  | wrongLength (length : Nat) (expected : String)
  | duplicateField (name : String)
  | missingField (name : String)
  deriving DecidableEq, Repr, Inhabited

/-- The words for a reason. -/
def Reason.describe : Reason → String
  | .endInValue => "EOF while parsing a value"
  | .endInList => "EOF while parsing a list"
  | .endInObject => "EOF while parsing an object"
  | .endInString => "EOF while parsing a string"
  | .colonExpected => "expected `:`"
  | .listDelimiterExpected => "expected `,` or `]`"
  | .objectDelimiterExpected => "expected `,` or `\x7d`"
  | .literalExpected => "expected ident"
  | .valueExpected => "expected value"
  | .trailingComma => "trailing comma"
  | .trailingCharacters => "trailing characters"
  | .keyNotString => "key must be a string"
  | .invalidNumber => "invalid number"
  | .numberOutOfRange => "number out of range"
  | .invalidEscape => "invalid escape"
  | .controlCharacter => "control character (\\u0000-\\u001F) found while parsing a string"
  | .loneSurrogate => "lone leading surrogate in hex escape"
  | .endInEscape => "unexpected end of hex escape"
  | .wrongType found expected => "invalid type: " ++ found.describe ++ ", expected " ++ expected
  | .wrongLength length expected =>
      "invalid length " ++ toString length ++ ", expected " ++ expected
  | .duplicateField name => "duplicate field `" ++ name ++ "`"
  | .missingField name => "missing field `" ++ name ++ "`"

/-- A place in a text. -/
structure Position where
  line : Nat
  column : Nat
  deriving DecidableEq, Repr, Inhabited

/-- The place reached after some bytes of a text. -/
def Position.after (text : String) (count : Nat) : Position :=
  (text.toUTF8.toList.take count).foldl
    (fun place byte => if byte = 10 then ⟨place.line + 1, 0⟩ else ⟨place.line, place.column + 1⟩)
    ⟨1, 0⟩

/-- A reason together with its place. -/
structure Fault where
  reason : Reason
  place : Position
  deriving DecidableEq, Repr, Inhabited

/-- The sentence for a fault. -/
def Fault.message (fault : Fault) : String :=
  fault.reason.describe ++ " at line " ++ toString fault.place.line ++ " column " ++
    toString fault.place.column

end HeartbeatPool.Json
