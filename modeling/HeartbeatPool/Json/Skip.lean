import HeartbeatPool.Json.Cursor

/-!
# Passing over a value

A value that nobody asked for is checked and forgotten.  The scanner takes one character at a
time and keeps the brackets that are open on a stack, so values may be nested as deeply as the
text is long.

A text that is passed over is held to less than a text that is read: the code points of its
escapes need not make sense, and its numbers may be too large for a double.
-/

namespace HeartbeatPool.Json

/-- A bracket that is open. -/
inductive Frame where
  | list
  | object
  deriving DecidableEq, Repr, Inhabited

/-- What the scanner is in the middle of. -/
inductive Mode where
  /-- A value is due. -/
  | value
  /-- A list was opened: a value is due, or the end of the list. -/
  | firstItem
  /-- An object was opened: a key is due, or the end of the object. -/
  | firstKey
  /-- A key is due. -/
  | key
  /-- A key was passed: a colon is due. -/
  | colon
  /-- A value inside a bracket was passed: a comma is due, or the closing bracket. -/
  | afterValue
  /-- Inside a string, which is a key or a value. -/
  | string (isKey : Bool)
  /-- After a backslash. -/
  | escape (isKey : Bool)
  /-- After some hexadecimal digits of an escape. -/
  | hex (isKey : Bool) (digits : Nat)
  /-- Inside `null`, `true` or `false`; these letters are due. -/
  | literal (letters : List Char)
  /-- After a minus sign. -/
  | minus
  /-- After a leading zero. -/
  | zero
  /-- After a digit of the whole part. -/
  | whole
  /-- After a point. -/
  | point
  /-- After a digit of the fraction. -/
  | fraction
  /-- After the letter of an exponent. -/
  | exponentMark
  /-- After the sign of an exponent. -/
  | exponentSign
  /-- After a digit of an exponent. -/
  | exponent
  deriving DecidableEq, Repr, Inhabited

/-- What the scanner does at a character. -/
inductive Move where
  /-- It takes the character and goes on. -/
  | next (mode : Mode) (stack : List Frame)
  /-- The value ends with the character. -/
  | endAfter
  /-- The value ended before the character. -/
  | endBefore
  | stop (stop : Stop)
  deriving DecidableEq, Repr, Inhabited

namespace Scan

/-- After the last character of a value. -/
def complete : List Frame → Move
  | [] => .endAfter
  | stack => .next .afterValue stack

/-- At a character that follows a value inside the given brackets. -/
def afterValue (stack : List Frame) (c : Char) (rest : List Char) : Move :=
  match stack with
  | [] => .endBefore
  | .list :: outer =>
      if isBlank c then .next .afterValue stack
      else if c = ',' then .next .value stack
      else if c = ']' then complete outer
      else .stop (.upon .listDelimiterExpected (c :: rest))
  | .object :: outer =>
      if isBlank c then .next .afterValue stack
      else if c = ',' then .next .key stack
      else if c = '\x7d' then complete outer
      else .stop (.upon .objectDelimiterExpected (c :: rest))

/-- At the first character of a value. -/
def begin (mode : Mode) (stack : List Frame) (c : Char) (rest : List Char) : Move :=
  if isBlank c then .next mode stack
  else if c = 'n' then .next (.literal ['u', 'l', 'l']) stack
  else if c = 't' then .next (.literal ['r', 'u', 'e']) stack
  else if c = 'f' then .next (.literal ['a', 'l', 's', 'e']) stack
  else if c = '-' then .next .minus stack
  else if c = '0' then .next .zero stack
  else if c.isDigit then .next .whole stack
  else if c = '\x22' then .next (.string false) stack
  else if c = '[' then .next .firstItem (.list :: stack)
  else if c = '\x7b' then .next .firstKey (.object :: stack)
  else .stop (.upon .valueExpected (c :: rest))

/-- After the last character of a string. -/
def endString (isKey : Bool) (stack : List Frame) : Move :=
  if isKey then .next .colon stack else complete stack

/-- What the scanner does at a character. -/
def step (mode : Mode) (stack : List Frame) (c : Char) (rest : List Char) : Move :=
  match mode with
  | .value => begin .value stack c rest
  | .firstItem =>
      if c = ']' then complete stack.tail else begin .firstItem stack c rest
  | .firstKey =>
      if isBlank c then .next .firstKey stack
      else if c = '\x7d' then complete stack.tail
      else if c = '\x22' then .next (.string true) stack
      else .stop (.upon .keyNotString (c :: rest))
  | .key =>
      if isBlank c then .next .key stack
      else if c = '\x22' then .next (.string true) stack
      else .stop (.upon .keyNotString (c :: rest))
  | .colon =>
      if isBlank c then .next .colon stack
      else if c = ':' then .next .value stack
      else .stop (.upon .colonExpected (c :: rest))
  | .afterValue => afterValue stack c rest
  | .string isKey =>
      if c = '\x22' then endString isKey stack
      else if c = '\\' then .next (.escape isKey) stack
      else if c.toNat < 0x20 then .stop (.before .controlCharacter (c :: rest))
      else .next (.string isKey) stack
  | .escape isKey =>
      if c = 'u' then .next (.hex isKey 0) stack
      else if (escaped? c).isSome then .next (.string isKey) stack
      else .stop (.upon .invalidEscape (c :: rest))
  | .hex isKey digits =>
      if (hexDigit? c).isSome then
        .next (if digits = 3 then .string isKey else .hex isKey (digits + 1)) stack
      else .stop (badHex digits (c :: rest))
  | .literal letters =>
      match letters with
      | [] => afterValue stack c rest
      | letter :: letters =>
          if c = letter then
            if letters.isEmpty then complete stack else .next (.literal letters) stack
          else .stop (.upon .literalExpected (c :: rest))
  | .minus =>
      if c = '0' then .next .zero stack
      else if c.isDigit then .next .whole stack
      else .stop (.upon .invalidNumber (c :: rest))
  | .zero =>
      if c.isDigit then .stop (.upon .invalidNumber (c :: rest))
      else if c = '.' then .next .point stack
      else if c = 'e' ∨ c = 'E' then .next .exponentMark stack
      else afterValue stack c rest
  | .whole =>
      if c.isDigit then .next .whole stack
      else if c = '.' then .next .point stack
      else if c = 'e' ∨ c = 'E' then .next .exponentMark stack
      else afterValue stack c rest
  | .point =>
      if c.isDigit then .next .fraction stack
      else .stop (.upon .invalidNumber (c :: rest))
  | .fraction =>
      if c.isDigit then .next .fraction stack
      else if c = 'e' ∨ c = 'E' then .next .exponentMark stack
      else afterValue stack c rest
  | .exponentMark =>
      if c = '+' ∨ c = '-' then .next .exponentSign stack
      else if c.isDigit then .next .exponent stack
      else .stop (.upon .invalidNumber (c :: rest))
  | .exponentSign =>
      if c.isDigit then .next .exponent stack
      else .stop (.upon .invalidNumber (c :: rest))
  | .exponent =>
      if c.isDigit then .next .exponent stack else afterValue stack c rest

/-- Why a bracket may not be open at the end of a text. -/
def unclosed : List Frame → Except Stop (List Char)
  | [] => .ok []
  | .list :: _ => .error (.before .endInList [])
  | .object :: _ => .error (.before .endInObject [])

/-- What the scanner does at the end of the text. -/
def finish (mode : Mode) (stack : List Frame) : Except Stop (List Char) :=
  match mode with
  | .value => .error (.before .endInValue [])
  | .firstItem => .error (.before .endInList [])
  | .firstKey | .key | .colon => .error (.before .endInObject [])
  | .string _ | .escape _ | .hex _ _ => .error (.before .endInString [])
  | .literal (_ :: _) => .error (.before .endInValue [])
  -- a number that breaks off is a bad number, not a missing value
  | .minus | .point | .exponentMark | .exponentSign => .error (.before .invalidNumber [])
  | .literal [] | .afterValue | .zero | .whole | .fraction | .exponent => unclosed stack

/-- Runs the scanner over a text and returns what follows the value. -/
def run (mode : Mode) (stack : List Frame) : List Char → Except Stop (List Char)
  | [] => finish mode stack
  | c :: rest =>
      match step mode stack c rest with
      | .next mode stack => run mode stack rest
      | .endAfter => .ok rest
      | .endBefore => .ok (c :: rest)
      | .stop stop => .error stop

end Scan

/-- Passes over the value at the front of a text and returns what follows it. -/
def skipValue (text : List Char) : Except Stop (List Char) := Scan.run .value [] text

/-- Refuses a text in which something other than blanks is left. -/
def expectEnd (left : List Char) : Except Stop Unit :=
  match dropBlanks left with
  | [] => .ok ()
  | rest => .error (.upon .trailingCharacters rest)

/-- Why a text is not exactly one value, if it is not. -/
def check (text : String) : Option Fault :=
  match skipValue text.toList >>= expectEnd with
  | .ok _ => none
  | .error stop => some (stop.toFault text)

end HeartbeatPool.Json
