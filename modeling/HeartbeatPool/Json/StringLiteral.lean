import HeartbeatPool.Json.Cursor

/-!
# Reading strings

A string is read up to its closing quote, with its escapes replaced by the characters that they
stand for.  Code points beyond the first plane are written as two escapes, the halves of a
surrogate pair; a half that stands alone is refused.
-/

namespace HeartbeatPool.Json

/-- What the reader of a string is in the middle of. -/
inductive StringMode where
  | plain
  /-- After a backslash. -/
  | escape
  /-- After some hexadecimal digits, with their value; `lead` is the first half of a pair. -/
  | hex (lead : Option Nat) (digits value : Nat)
  /-- After the first half of a pair: a backslash is due. -/
  | pairEscape (lead : Nat)
  /-- After the first half of a pair and a backslash: the letter of the escape is due. -/
  | pairLetter (lead : Nat)
  deriving DecidableEq, Repr, Inhabited

/-- Whether a 16-bit unit is the first half of a pair. -/
def isLead (unit : Nat) : Bool := 0xd800 ≤ unit && unit ≤ 0xdbff

/-- Whether a 16-bit unit is the second half of a pair. -/
def isTrail (unit : Nat) : Bool := 0xdc00 ≤ unit && unit ≤ 0xdfff

/-- The code point of a pair. -/
def joinPair (lead trail : Nat) : Nat := (lead - 0xd800) * 0x400 + (trail - 0xdc00) + 0x10000

/-- Reads the rest of a string behind its opening quote.  What was read so far is given in
reverse. -/
def readString (mode : StringMode) (done : List Char) : Reader String
  | [] => .error (.before .endInString [])
  | c :: rest =>
      match mode with
      | .plain =>
          if c = '\x22' then .ok (String.ofList done.reverse, rest)
          else if c = '\\' then readString .escape done rest
          else if c.toNat < 0x20 then .error (.upon .controlCharacter (c :: rest))
          else readString .plain (c :: done) rest
      | .escape =>
          if c = 'u' then readString (.hex none 0 0) done rest
          else
            match escaped? c with
            | some letter => readString .plain (letter :: done) rest
            | none => .error (.upon .invalidEscape (c :: rest))
      | .hex lead digits value =>
          match hexDigit? c with
          | none => .error (badHex digits (c :: rest))
          | some digit =>
              let value := value * 16 + digit
              if digits < 3 then readString (.hex lead (digits + 1) value) done rest
              else
                match lead with
                | none =>
                    if isTrail value then .error (.before .loneSurrogate rest)
                    else if isLead value then readString (.pairEscape value) done rest
                    else readString .plain (Char.ofNat value :: done) rest
                | some lead =>
                    if isTrail value then
                      readString .plain (Char.ofNat (joinPair lead value) :: done) rest
                    else .error (.before .loneSurrogate rest)
      | .pairEscape lead =>
          if c = '\\' then readString (.pairLetter lead) done rest
          else .error (.upon .endInEscape (c :: rest))
      | .pairLetter lead =>
          if c = 'u' then readString (.hex (some lead) 0 0) done rest
          else .error (.upon .endInEscape (c :: rest))

/-- Reads a string behind its opening quote. -/
def stringBody : Reader String := readString .plain []

end HeartbeatPool.Json
