import HeartbeatPool.Json.Fault

/-!
# Places inside a text that is being read

A reader holds what is left of the text.  When it stops it reports how many bytes were left, which
together with the length of the text gives the place of the fault.
-/

namespace HeartbeatPool.Json

/-- The number of bytes of some characters. -/
def byteCount : List Char → Nat
  | [] => 0
  | c :: rest => c.utf8Size + byteCount rest

/-- A reason to stop, with the number of bytes left behind the place of the fault. -/
structure Stop where
  reason : Reason
  left : Nat
  deriving DecidableEq, Repr, Inhabited

/-- A fault right before what is left. -/
def Stop.before (reason : Reason) (left : List Char) : Stop := ⟨reason, byteCount left⟩

/-- A fault at the first byte of what is left, or at the end of the text. -/
def Stop.upon (reason : Reason) (left : List Char) : Stop := ⟨reason, byteCount left - 1⟩

/-- The fault that a stop amounts to in a text. -/
def Stop.toFault (text : String) (stop : Stop) : Fault :=
  ⟨stop.reason, Position.after text (text.utf8ByteSize - stop.left)⟩

/-- A reader of values: the value together with what is left of the text. -/
abbrev Reader (α : Type) := List Char → Except Stop (α × List Char)

/-- Whether a character may stand between two tokens. -/
def isBlank (c : Char) : Bool := c == ' ' || c == '\n' || c == '\t' || c == '\r'

/-- What follows the blanks at the front. -/
def dropBlanks (text : List Char) : List Char := text.dropWhile isBlank

/-- Reads the letters of a literal. -/
def readLetters : List Char → List Char → Except Stop (List Char)
  | [], text => .ok text
  | _ :: _, [] => .error (.before .endInValue [])
  | letter :: letters, c :: rest =>
      if c = letter then readLetters letters rest else .error (.upon .literalExpected (c :: rest))

/-- The value of a hexadecimal digit. -/
def hexDigit? (c : Char) : Option Nat :=
  if '0' ≤ c ∧ c ≤ '9' then some (c.toNat - '0'.toNat)
  else if 'a' ≤ c ∧ c ≤ 'f' then some (c.toNat - 'a'.toNat + 10)
  else if 'A' ≤ c ∧ c ≤ 'F' then some (c.toNat - 'A'.toNat + 10)
  else none

/-- The fault of an escape that should have four hexadecimal digits and has another character
after the first few.  The four bytes are taken in any case, or the text ends before. -/
def badHex (digits : Nat) (left : List Char) : Stop :=
  if byteCount left + digits < 4 then ⟨.endInString, 0⟩
  else ⟨.invalidEscape, byteCount left + digits - 4⟩

/-- The character for a letter after a backslash. -/
def escaped? (letter : Char) : Option Char :=
  if letter = '\x22' then some '\x22'
  else if letter = '\\' then some '\\'
  else if letter = '/' then some '/'
  else if letter = 'b' then some '\x08'
  else if letter = 'f' then some '\x0c'
  else if letter = 'n' then some '\n'
  else if letter = 'r' then some '\r'
  else if letter = 't' then some '\t'
  else none

end HeartbeatPool.Json
