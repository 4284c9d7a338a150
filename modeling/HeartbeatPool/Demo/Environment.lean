import HeartbeatPool.Demo.Greeter
import HeartbeatPool.Table

/-!
# Settings from the environment

The programs around the pools take their settings from environment variables.  A text that is not
a number in range counts as not set.
-/

namespace HeartbeatPool.Demo

/-- The value of a run of decimal digits. -/
def digitsValue (digits : List Char) : Nat :=
  digits.foldl (fun value c => value * 10 + (c.toNat - '0'.toNat)) 0

/-- The number that a text stands for, up to a largest one: at least one decimal digit, with a plus
sign in front or not. -/
def parseNat? (largest : Nat) (text : String) : Option Nat :=
  let digits :=
    match text.toList with
    | '+' :: rest => rest
    | all => all
  if digits.isEmpty || !digits.all Char.isDigit || largest < digitsValue digits then none
  else some (digitsValue digits)

/-- The largest number of some bits. -/
def largestOf (bits : Nat) : Nat := Nat.pow 2 bits - 1

/-- Environment variables. -/
abbrev Environment := Table String String

/-- The number that a variable is set to. -/
def Environment.nat? (environment : Environment) (name : String) (bits : Nat) : Option Nat :=
  Table.get? environment name >>= parseNat? (largestOf bits)

/-- The greeter of a server, with the port it listens on. -/
def serverOf (environment : Environment) : Nat × Greeter :=
  let port := (environment.nat? "GRPC_PORT" 16).getD 50051
  (port,
    { name := (Table.get? environment "SERVER_NAME").getD ("greeter-" ++ toString port)
      failEvery := (environment.nat? "FAIL_EVERY" 64).filter (0 < ·) })

/-- What a server logs before it serves. -/
def serverLines (environment : Environment) : List Line :=
  let (port, greeter) := serverOf environment
  [⟨true, .info, greeter.name ++ " listening on 0.0.0.0:" ++ toString port⟩]

end HeartbeatPool.Demo
