import HeartbeatPool.Text.Invisible

/-!
# Quoted texts

A quoted text stands between double quotes.  A quote and a backslash inside it are escaped by a
backslash, four controls have a letter or a digit, and every other character without a visible
form is written by its code point in hexadecimal.
-/

namespace HeartbeatPool.Text

/-- The digits of a number in lower-case hexadecimal. -/
def hexadecimal (n : Nat) : String := String.ofList (Nat.toDigits 16 n)

/-- One character inside a quoted text. -/
def quoteChar (c : Char) : String :=
  if c = '\x22' then "\\\""
  else if c = '\\' then "\\\\"
  else if c = '\n' then "\\n"
  else if c = '\r' then "\\r"
  else if c = '\t' then "\\t"
  else if c = '\x00' then "\\0"
  else if isInvisible c then "\\u\x7b" ++ hexadecimal c.toNat ++ "\x7d"
  else String.singleton c

/-- A text between double quotes. -/
def quote (text : String) : String :=
  "\"" ++ String.join (text.toList.map quoteChar) ++ "\""

end HeartbeatPool.Text
