/-!
# Lengths of time as text

A length of time is written in the largest of seconds, milliseconds and nanoseconds in which it
is at least one unit, with as many decimal places as it needs.  Lengths are whole milliseconds,
so nanoseconds only show up for the empty length.
-/

namespace HeartbeatPool.Text

/-- The decimal places of a number of thousandths, without zeros at the end. -/
def thousandths (n : Nat) : String :=
  if n = 0 then ""
  else if n % 100 = 0 then "." ++ toString (n / 100)
  else if n % 10 = 0 then "." ++ pad 2 (n / 10)
  else "." ++ pad 3 n
where
  pad (width n : Nat) : String :=
    let digits := toString n
    String.ofList (List.replicate (width - digits.length) '0') ++ digits

/-- The text of a length of time given in milliseconds. -/
def duration (milliseconds : Nat) : String :=
  if milliseconds = 0 then "0ns"
  else if milliseconds < 1000 then toString milliseconds ++ "ms"
  else toString (milliseconds / 1000) ++ thousandths (milliseconds % 1000) ++ "s"

end HeartbeatPool.Text
