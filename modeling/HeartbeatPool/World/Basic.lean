import HeartbeatPool.Pool.Basic
import HeartbeatPool.Table

/-!
# The state shared by all callers

The world holds every pool that was ever created, together with everything that is under way:
pools being created, calls that wait for a heartbeat or a dial, and connections on loan.  Each of
these is known by a key that the caller chooses.  Pools are known by their position, which names
one instance for ever: a pool that is created anew under an old name has a new position.
-/

namespace HeartbeatPool

/-- The position of a pool among all pools ever created. -/
abbrev PoolId := Nat

/-- The pools of some services. -/
abbrev Registry := Table String PoolId

/-- The name of a creation, of a call, or of the loan that a call ends in. -/
abbrev Key := Nat

/-- What a dial or a heartbeat comes to. -/
inductive Verdict where
  | success
  | failure (cause : String)
  deriving DecidableEq, Repr, Inhabited

/-- What an acquiring call waits for. -/
inductive Phase where
  /-- The heartbeat of a connection that was taken from the idle queue. -/
  | probing (entry : Entry)
  /-- The dial that replaces a connection; the entry is what it will deliver. -/
  | redialing (entry : Entry)
  deriving DecidableEq, Repr, Inhabited

/-- A call that is to acquire a connection. -/
structure Call where
  pool : PoolId
  /-- How many more idle connections the call may try after this one. -/
  attemptsLeft : Nat
  phase : Phase
  deriving DecidableEq, Repr, Inhabited

/-- How many more answers from outside a call can wait for, the one it waits for included. -/
def Call.waitsLeft (call : Call) : Nat :=
  match call.phase with
  | .probing _ => 2 * call.attemptsLeft + 2
  | .redialing _ => 2 * call.attemptsLeft + 1

/-- A connection in the hands of a caller. -/
structure Loan where
  /-- The pool that lent the connection. -/
  pool : PoolId
  entry : Entry
  deriving DecidableEq, Repr, Inhabited

/-- The state shared by all callers. -/
structure World where
  /-- The addresses of all dials made so far, the latest first. -/
  dialed : List String := []
  pools : List Pool := []
  /-- The pools that somebody still holds.  A pool that nobody holds takes no new calls; its idle
  connections are closed as soon as no call is under way on it. -/
  held : List PoolId := []
  creations : Table Key Creation := ∅
  calls : Table Key Call := ∅
  loans : Table Key Loan := ∅
  deriving Repr, Inhabited

namespace World

/-- Replaces the state of a pool. -/
def setPool (world : World) (id : PoolId) (pool : Pool) : World :=
  { world with pools := world.pools.set id pool }

/-- Dials an endpoint: the connection that the dial may deliver is numbered by the dials made to
its address before. -/
def dial (world : World) (endpoint : Endpoint) : World × Conn :=
  ({ world with dialed := endpoint.address :: world.dialed },
    ⟨endpoint.address, world.dialed.count endpoint.address⟩)

/-- What a call on a pool that is under way no longer has come to: a loan, or the error of a pool
that had no connection for it. -/
def callResult (world : World) (key : Key) (id : PoolId) : Except Error Loan :=
  match world.loans.get? key with
  | some loan => .ok loan
  | none => .error (.poolExhausted (world.pools.getD id default).name)

/-- Whether some call is under way on a pool. -/
def isBusy (world : World) (id : PoolId) : Bool :=
  world.calls.values.any fun call => call.pool == id

end World

end HeartbeatPool
