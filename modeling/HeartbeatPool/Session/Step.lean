import HeartbeatPool.Config.Basic
import HeartbeatPool.Session.Script

/-!
# The steps of a session

A session is a list of steps on pools, registries and connections on loan, all of which have
names.  A step may be a group of tasks, lists of steps that run side by side.
-/

namespace HeartbeatPool

/-- A pool that a step speaks of: by its own name, or as the pool of a service. -/
inductive Target where
  | pool (key : String)
  | service (registry service : String)
  deriving DecidableEq, Repr, Inhabited

/-- Something that has an outline. -/
inductive Subject where
  | loan (name : String)
  | pool (key : String)
  | registry (name : String)
  deriving DecidableEq, Repr, Inhabited

/-- Where the services of a new registry come from. -/
inductive ServiceSource where
  | listed (services : List (String × List Endpoint))
  | configuration (text : String)
  deriving DecidableEq, Repr, Inhabited

/-- One step of a session. -/
inductive Step where
  | setDial (address : String) (queue : Option (List Outcome)) (usual : Option Outcome)
  | setProbe (address : String) (queue : Option (List Outcome)) (usual : Option Outcome)
  | setQueue (queue : List Outcome)
  | create (key name : String) (endpoints : List Endpoint) (settings : Settings)
  | build (registry : String) (source : ServiceSource) (heartbeats : List String)
      (settings : Settings)
  /-- Acquires a connection under a name; the call is given up after the time limit, if any. -/
  | acquire (target : Target) (name : String) (limit : Option Nat)
  | release (target : Target) (name : String)
  | drop (name : String)
  | dropPool (key : String)
  /-- Changes what a connection on loan carries. -/
  | tag (name : String) (tag : Option String) (sick : Option Bool)
  | swap (first second : String)
  | look (name : String)
  | observe (target : Target)
  | services (registry : String)
  | outline (subject : Subject) (pretty : Bool)
  | sleep (duration : Nat)
  | parallel (tasks : List (List Step))

/-- What a step speaks of and does not exist. -/
inductive Missing where
  | loan
  | pool
  | registry
  deriving DecidableEq, Repr, Inhabited

/-- What is shown of a connection on loan. -/
structure LoanView where
  conn : Conn
  index : Nat
  sick : Bool
  tag : String
  deriving DecidableEq, Repr, Inhabited

/-- What is shown of a pool. -/
structure PoolView where
  name : String
  capacity : Nat
  idle : Nat
  live : Nat
  endpoints : List Endpoint
  settings : Settings
  deriving DecidableEq, Repr, Inhabited

/-- The result of a step. -/
inductive Reply where
  | ok
  | failed (error : Error)
  | missing (what : Missing)
  | loan (view : LoanView)
  /-- A call was given up at its own time limit. -/
  | cancelled
  /-- A call, or the creation of a pool, was given up because it would not end. -/
  | stalled
  | pool (view : Option PoolView)
  | services (names : List String)
  | text (text : String)
  /-- The results of all tasks, each with the time at which it came. -/
  | group (tasks : List (List (Reply × Nat)))

instance : Inhabited Reply := ⟨.ok⟩

/-- How long a call without a time limit of its own, or the creation of a pool, may take before it
is given up. -/
def stallLimit : Nat := 1000000000

/-- The longest time for which a caller can put something off: thirty years of 365 days, in
milliseconds. -/
def longestDelay : Nat := 30 * 365 * 86400 * 1000

/-- The instant to which a caller puts something off. -/
def later (now delay : Nat) : Nat := now + min delay longestDelay

mutual

/-- A bound on the time that a step takes. -/
def Step.longest : Step → Nat
  | .sleep duration => duration
  | .create .. | .build .. => stallLimit
  | .acquire _ _ limit => limit.getD stallLimit
  | .parallel tasks => longestTasks tasks
  | _ => 0

/-- A bound on the time that some tasks take side by side. -/
def longestTasks : List (List Step) → Nat
  | [] => 0
  | task :: rest => longestTask task + longestTasks rest

/-- A bound on the time that a task takes. -/
def longestTask : List Step → Nat
  | [] => 0
  | step :: rest => step.longest + longestTask rest

end

end HeartbeatPool
