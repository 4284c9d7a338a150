import HeartbeatPool.Json.Cursor

/-!
# Reading numbers

A whole number within 64 bits is kept as it is.  Any other number becomes a double: the leading
digits that fit into 64 bits are taken as a whole number, all further digits only move the
decimal point, and one multiplication or division by a power of ten gives the double, with a
second division where the power would be too large.  A number beyond the largest double is
refused.
-/

namespace HeartbeatPool.Json

/-- The largest number of 64 bits. -/
def maxWord : Nat := Nat.pow 2 64 - 1

/-- Adds digits to a number as long as it stays within 64 bits, and returns the number with the
digits that were not added. -/
def takeDigits (value : Nat) : List Char → Nat × List Char
  | [] => (value, [])
  | c :: rest =>
      let value' := value * 10 + (c.toNat - '0'.toNat)
      if maxWord < value' then (value, c :: rest) else takeDigits value' rest

/-- The digits at the front of a text, and what follows them. -/
def spanDigits (text : List Char) : List Char × List Char := text.span Char.isDigit

/-- Scales a double by a power of ten; `none` if the result is too large.  An exponent below
`-308` is worked off in pieces, and the double is zero after the third. -/
def scaleDouble : Nat → Float → Int → Option Float
  | 0, value, _ => some value
  | pieces + 1, value, exponent =>
      if exponent.natAbs ≤ 308 then
        let power := Float.ofScientific 1 false exponent.natAbs
        if 0 ≤ exponent then
          let scaled := value * power
          if scaled.isInf then none else some scaled
        else some (value / power)
      -- zero stays zero, however large the power
      else if value == 0.0 then some value
      else if 0 ≤ exponent then none
      else scaleDouble pieces (value / Float.ofScientific 1 false 308) (exponent + 308)

/-- The double `significand * 10 ^ exponent`. -/
def doubleOf (negative : Bool) (significand : Nat) (exponent : Int) (left : List Char) :
    Except Stop (Found × List Char) :=
  match scaleDouble 5 significand.toUInt64.toFloat exponent with
  | none => .error (.before .numberOutOfRange left)
  | some value => .ok (.floating (if negative then -value else value).toBits, left)

/-- The largest exponent that is told from an infinite one. -/
def maxExponent : Nat := Nat.pow 2 31 - 1

/-- The value of the digits of an exponent, or what follows the digit with which it grows too
large. -/
def takeExponent (value : Nat) : List Char → Except (List Char) Nat
  | [] => .ok value
  | c :: rest =>
      let value' := value * 10 + (c.toNat - '0'.toNat)
      if maxExponent < value' then .error rest else takeExponent value' rest

/-- Reads the exponent of a number behind its letter. -/
def readExponent (negative : Bool) (significand : Nat) (exponent : Int) (text : List Char) :
    Except Stop (Found × List Char) :=
  let (down, text) :=
    match text with
    | '+' :: rest => (false, rest)
    | '-' :: rest => (true, rest)
    | _ => (false, text)
  match text with
  | [] => .error (.before .endInValue [])
  | c :: _ =>
      if c.isDigit then
        let (digits, left) := spanDigits text
        match takeExponent 0 digits with
        | .ok value =>
            doubleOf negative significand (if down then exponent - value else exponent + value) left
        | .error unread =>
            if significand ≠ 0 ∧ down = false then
              .error (.before .numberOutOfRange (unread ++ left))
            else doubleOf negative 0 0 left
      else .error (.upon .invalidNumber text)

/-- Reads the fraction of a number behind its point. -/
def readFraction (negative : Bool) (significand : Nat) (exponent : Nat) (text : List Char) :
    Except Stop (Found × List Char) :=
  let (digits, left) := spanDigits text
  match digits, left with
  | [], [] => .error (.upon .endInValue [])
  | [], _ => .error (.upon .invalidNumber left)
  | _, _ =>
      let (significand, unread) := takeDigits significand digits
      let exponent : Int := (exponent : Int) - (digits.length - unread.length : Nat)
      match left with
      | 'e' :: rest => readExponent negative significand exponent rest
      | 'E' :: rest => readExponent negative significand exponent rest
      | _ => doubleOf negative significand exponent left

/-- Reads what follows the whole part of a number, given the part of it within 64 bits and the
number of digits beyond. -/
def readTail (negative : Bool) (significand beyond : Nat) (text : List Char) :
    Except Stop (Found × List Char) :=
  match text with
  | '.' :: rest => readFraction negative significand beyond rest
  | 'e' :: rest => readExponent negative significand beyond rest
  | 'E' :: rest => readExponent negative significand beyond rest
  | _ =>
      if beyond ≠ 0 then doubleOf negative significand beyond text
      else if negative then
        if significand = 0 ∨ Nat.pow 2 63 < significand then doubleOf true significand 0 text
        else .ok (.integer (-significand), text)
      else .ok (.integer significand, text)

/-- Reads a number behind its sign. -/
def readNumber (negative : Bool) (text : List Char) : Except Stop (Found × List Char) :=
  match text with
  | [] => .error (.before .endInValue [])
  | '0' :: rest =>
      if (rest.head?.map Char.isDigit).getD false then .error (.upon .invalidNumber rest)
      else readTail negative 0 0 rest
  | c :: _ =>
      if c.isDigit then
        let (digits, left) := spanDigits text
        let (significand, unread) := takeDigits 0 digits
        readTail negative significand unread.length left
      else .error (.upon .invalidNumber text)

end HeartbeatPool.Json
