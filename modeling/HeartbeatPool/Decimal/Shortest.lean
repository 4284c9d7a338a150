/-!
# The shortest decimal of a double

A double stands for an interval of reals: all those that round to it.  Its shortest decimal is
the decimal with the fewest digits in that interval and, of several, the one nearest to the
double itself.  It is found by exact arithmetic: for one digit, two digits, and so on, the two
decimals next to the double on the grid with that many digits are tried, and the first grid on
which one of them lies in the interval decides.

It is written positionally while its leading digit stands for `10 ^ -5` up to `10 ^ 15`, with at
least one digit on each side of the point, and otherwise with a signed exponent.
-/

namespace HeartbeatPool.Decimal

/-- A finite double without its sign: `mantissa * 2 ^ exponent`. -/
structure Binary where
  mantissa : Nat
  exponent : Int
  /-- The gap to the double below is half the gap to the double above. -/
  narrowBelow : Bool
  deriving DecidableEq, Repr

/-- The finite double with some bits. -/
def Binary.ofBits (bits : UInt64) : Binary :=
  let exponent : Nat := bits.toNat / Nat.pow 2 52 % Nat.pow 2 11
  let fraction : Nat := bits.toNat % Nat.pow 2 52
  if exponent = 0 then ⟨fraction, -1074, false⟩
  else
    ⟨Nat.pow 2 52 + fraction, (exponent : Int) - 1075, fraction == 0 && decide (1 < exponent)⟩

/-- The decimal `digits * 10 ^ exponent`. -/
structure Digits where
  digits : Nat
  exponent : Int
  deriving DecidableEq, Repr

/-- Compares `a * 10 ^ i` with `b * 2 ^ j`. -/
def compareScaled (a : Nat) (i : Int) (b : Nat) (j : Int) : Ordering :=
  compare (a * Nat.pow 10 i.toNat * Nat.pow 2 (-j).toNat)
    (b * Nat.pow 2 j.toNat * Nat.pow 10 (-i).toNat)

/-- Whether a decimal is one of the reals that round to a double; the two ends of the interval
belong to it exactly if the mantissa is even. -/
def Binary.readsBack (x : Binary) (d : Digits) : Bool :=
  let low := compareScaled d.digits d.exponent
    (if x.narrowBelow then 4 * x.mantissa - 1 else 4 * x.mantissa - 2) (x.exponent - 2)
  let high := compareScaled d.digits d.exponent (4 * x.mantissa + 2) (x.exponent - 2)
  let closed := x.mantissa % 2 == 0
  (low == .gt || (closed && low == .eq)) && (high == .lt || (closed && high == .eq))

/-- The largest decimal on the grid `10 ^ exponent` that is not above a double. -/
def Binary.floorOn (x : Binary) (exponent : Int) : Nat :=
  (x.mantissa * Nat.pow 2 x.exponent.toNat * Nat.pow 10 (-exponent).toNat) /
    (Nat.pow 2 (-x.exponent).toNat * Nat.pow 10 exponent.toNat)

/-- Which of two neighbours on a grid is nearer to the double between them; a tie goes to the
even one. -/
def Binary.nearer (x : Binary) (below : Nat) (exponent : Int) : Digits :=
  match compareScaled (2 * below + 1) exponent (2 * x.mantissa) x.exponent with
  | .gt => ⟨below, exponent⟩
  | .lt => ⟨below + 1, exponent⟩
  | .eq => if below % 2 = 0 then ⟨below, exponent⟩ else ⟨below + 1, exponent⟩

/-- The best decimal on a grid that rounds to a double, if there is one. -/
def Binary.onGrid? (x : Binary) (exponent : Int) : Option Digits :=
  let below := x.floorOn exponent
  match x.readsBack ⟨below, exponent⟩, x.readsBack ⟨below + 1, exponent⟩ with
  | true, true => some (x.nearer below exponent)
  | true, false => some ⟨below, exponent⟩
  | false, true => some ⟨below + 1, exponent⟩
  | false, false => none

/-- The least power of ten above a double, counted up from an exponent. -/
def Binary.scaleFrom (x : Binary) : Nat → Int → Int
  | 0, exponent => exponent
  | steps + 1, exponent =>
      if compareScaled 1 exponent x.mantissa x.exponent == .gt then exponent
      else x.scaleFrom steps (exponent + 1)

/-- The least exponent with `x < 10 ^ exponent`.  The binary logarithm gives a first guess that
is too small by a few at most. -/
def Binary.scale (x : Binary) : Int :=
  let guess := ((x.mantissa.log2 : Int) + x.exponent) * 30102 / 100000 - 1
  x.scaleFrom 700 guess

/-- Moves zeros at the end of the digits into the exponent; at most as many as given. -/
def Digits.strip : Nat → Digits → Digits
  | 0, d => d
  | steps + 1, d =>
      if d.digits ≠ 0 ∧ d.digits % 10 = 0 then strip steps ⟨d.digits / 10, d.exponent + 1⟩ else d

/-- The shortest decimal of a positive finite double.  Seventeen digits always suffice; the last
case is the exact value. -/
def Binary.shortest (x : Binary) : Digits :=
  let scale := x.scale
  match (List.range 17).findSome? fun (n : Nat) => x.onGrid? (scale - 1 - n) with
  | some d => d.strip 20
  | none =>
      (Digits.mk (x.mantissa * Nat.pow 2 x.exponent.toNat * Nat.pow 5 (-x.exponent).toNat)
        (min x.exponent 0)).strip 800

/-- The text of a positive decimal. -/
def Digits.text (d : Digits) : String :=
  let digits := toString d.digits
  let count := digits.length
  let leading : Int := d.exponent + count - 1
  if 0 ≤ d.exponent ∧ leading ≤ 15 then digits ++ zeros d.exponent.toNat ++ ".0"
  else if 0 ≤ leading ∧ leading ≤ 15 then
    let whole := leading.toNat + 1
    (digits.take whole).toString ++ "." ++ (digits.drop whole).toString
  else if -5 ≤ leading ∧ leading < 0 then "0." ++ zeros (-leading - 1).toNat ++ digits
  else
    let sign := if leading < 0 then "-" else "+"
    let point := if count = 1 then "" else "."
    (digits.take 1).toString ++ point ++ (digits.drop 1).toString ++ "e" ++ sign ++
      toString leading.natAbs
where
  zeros (n : Nat) : String := String.ofList (List.replicate n '0')

/-- The text of a finite double, given by its bits. -/
def shortest (bits : UInt64) : String :=
  let x := Binary.ofBits bits
  let sign := if Nat.pow 2 63 ≤ bits.toNat then "-" else ""
  if x.mantissa = 0 then sign ++ "0.0" else sign ++ x.shortest.text

end HeartbeatPool.Decimal
