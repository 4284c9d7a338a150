import HeartbeatPool.Event

/-!
# The greeter

A small service to try pools on.  It greets whoever calls, names itself in every reply, and may be
told to reject every `n`-th call, so that heartbeats fail now and then (`rejects_iff`).
-/

namespace HeartbeatPool.Demo

/-- A line of the log of a program around the pools. -/
structure Line where
  /-- Who writes the line: a greeter, or the program that calls it. -/
  fromPeer : Bool
  level : Level
  message : String
  deriving DecidableEq, Repr, Inhabited

/-- The text of a line. -/
def Line.text (line : Line) : String :=
  (if line.fromPeer then "peer " else "") ++ "log " ++ line.level.name ++ " " ++ line.message

/-- A greeter. -/
structure Greeter where
  name : String
  /-- Every call whose number is a multiple of this is rejected. -/
  failEvery : Option Nat := none
  /-- The calls so far. -/
  calls : Nat := 0
  deriving DecidableEq, Repr, Inhabited

/-- What a greeter replies. -/
structure Greeting where
  message : String
  servedBy : String
  deriving DecidableEq, Repr, Inhabited

/-- The failure of a call. -/
inductive Status where
  | unavailable (message : String)
  deriving DecidableEq, Repr, Inhabited

/-- What a failure says. -/
def Status.message : Status → String
  | .unavailable message => message

/-- The sentence for a failure. -/
def Status.describe : Status → String
  | .unavailable message =>
      "code: 'The service is currently unavailable', message: " ++ Text.quote message

/-- The failure of a rejected call. -/
def outage : Status := .unavailable "simulated outage"

namespace Greeter

/-- Whether a greeter rejects the call with some number. -/
def rejects (greeter : Greeter) (call : Nat) : Bool :=
  match greeter.failEvery with
  | none => false
  | some n => call % n == 0

/-- One call by somebody with a name. -/
def greet (greeter : Greeter) (name : String) : Greeter × List Line × Except Status Greeting :=
  let call := greeter.calls + 1
  let after := { greeter with calls := call }
  if greeter.rejects call then
    (after, [⟨true, .warn, "Rejecting call " ++ toString call ++ " from: " ++ name⟩],
      .error outage)
  else
    (after, [⟨true, .info, "Call " ++ toString call ++ " from: " ++ name⟩],
      .ok ⟨"Hello, " ++ name ++ "!", greeter.name⟩)

/-- Calls by some people, one after the other. -/
def greetAll (greeter : Greeter) : List String → List (List Line × Except Status Greeting)
  | [] => []
  | name :: rest =>
      let (greeter, lines, result) := greeter.greet name
      (lines, result) :: greeter.greetAll rest

theorem calls_greet (greeter : Greeter) (name : String) :
    (greeter.greet name).1.calls = greeter.calls + 1 := by
  simp only [greet]
  split <;> rfl

theorem failEvery_greet (greeter : Greeter) (name : String) :
    (greeter.greet name).1.failEvery = greeter.failEvery := by
  simp only [greet]
  split <;> rfl

/-- A greeter that rejects every `n`-th call rejects a call exactly if `n` divides its number. -/
theorem rejects_iff (greeter : Greeter) (call : Nat) :
    greeter.rejects call = true ↔ ∃ n, greeter.failEvery = some n ∧ n ∣ call := by
  cases h : greeter.failEvery with
  | none => simp [rejects, h]
  | some n => simp [rejects, h, Nat.dvd_iff_mod_eq_zero]

end Greeter

end HeartbeatPool.Demo
