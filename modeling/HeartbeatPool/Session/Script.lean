import HeartbeatPool.World.Basic

/-!
# The outside world of a session

How a dial or a heartbeat comes out is decided by a script when it is asked for: success or
failure after some time, or nothing ever.  A wait is such an outcome on the way, together with
the time limit that was put on it.
-/

namespace HeartbeatPool

/-- How a dial or a heartbeat comes out. -/
inductive Outcome where
  | settles (delay : Nat) (verdict : Verdict)
  | hangs
  deriving DecidableEq, Repr, Inhabited

/-- Success at once. -/
def Outcome.immediate : Outcome := .settles 0 .success

/-! ## Waits -/

/-- A dial or a heartbeat in flight. -/
structure Wait where
  /-- When it settles, and how; `none` if it never does. -/
  answer : Option (Nat × Verdict)
  /-- When its time is up. -/
  deadline : Option Nat
  deriving DecidableEq, Repr, Inhabited

namespace Wait

/-- The wait for an outcome that was asked for at some time. -/
def start (now : Nat) (limit : Option Nat) (outcome : Outcome) : Wait where
  answer :=
    match outcome with
    | .settles delay verdict => some (now + delay, verdict)
    | .hangs => none
  deadline := limit.map (now + ·)

/-- The failure of a wait whose time is up. -/
def overdue (wait : Wait) (now : Nat) : Option Verdict :=
  match wait.deadline with
  | some deadline => if deadline ≤ now then some (.failure deadlineText) else none
  | none => none

/-- What a wait has come to by some time.  The answer is looked at before the deadline, so an
answer that comes exactly at the deadline still counts. -/
def poll (wait : Wait) (now : Nat) : Option Verdict :=
  match wait.answer with
  | some (instant, verdict) => if instant ≤ now then some verdict else wait.overdue now
  | none => wait.overdue now

/-- The times at which there may be something new. -/
def timers (wait : Wait) : List Nat :=
  (wait.answer.map (·.1)).toList ++ wait.deadline.toList

end Wait

/-! ## Scripts -/

/-- What is scripted for one address: some outcomes in order, and one for all later times. -/
structure Lane where
  queue : List Outcome := []
  usual : Option Outcome := none
  deriving DecidableEq, Repr, Inhabited

namespace Lane

/-- The next outcome; without any script it is success at once. -/
def take (lane : Lane) : Outcome × Lane :=
  match lane.queue with
  | outcome :: rest => (outcome, { lane with queue := rest })
  | [] => (lane.usual.getD .immediate, lane)

/-- Changes the parts that are given. -/
def change (lane : Lane) (queue : Option (List Outcome)) (usual : Option Outcome) : Lane :=
  { queue := queue.getD lane.queue, usual := usual <|> lane.usual }

end Lane

/-- What is scripted for dials and heartbeats. -/
structure Script where
  /-- Outcomes for the next dials, whatever their address. -/
  ahead : List Outcome := []
  dials : Table String Lane := ∅
  probes : Table String Lane := ∅
  deriving Repr, Inhabited

namespace Script

/-- The outcome of the next dial to an address. -/
def takeDial (script : Script) (address : String) : Outcome × Script :=
  match script.ahead with
  | outcome :: rest => (outcome, { script with ahead := rest })
  | [] =>
      let (outcome, lane) := ((script.dials.get? address).getD {}).take
      (outcome, { script with dials := script.dials.insert address lane })

/-- The outcome of the next heartbeat of a connection to an address. -/
def takeProbe (script : Script) (address : String) : Outcome × Script :=
  let (outcome, lane) := ((script.probes.get? address).getD {}).take
  (outcome, { script with probes := script.probes.insert address lane })

/-- Changes the script of the dials to an address. -/
def changeDials (script : Script) (address : String) (queue : Option (List Outcome))
    (usual : Option Outcome) : Script :=
  let lane := ((script.dials.get? address).getD {}).change queue usual
  { script with dials := script.dials.insert address lane }

/-- Changes the script of the heartbeats of connections to an address. -/
def changeProbes (script : Script) (address : String) (queue : Option (List Outcome))
    (usual : Option Outcome) : Script :=
  let lane := ((script.probes.get? address).getD {}).change queue usual
  { script with probes := script.probes.insert address lane }

end Script

end HeartbeatPool
