import HeartbeatPool.Session.Step
import HeartbeatPool.World.Step

/-!
# The state of a session

A session knows the time, the script of the outside world, and who holds what under which name.
Everything that happens to pools and connections happens by actions of the shared world.
-/

namespace HeartbeatPool

/-- What a connection carries besides its name. -/
structure Mark where
  tag : String := ""
  /-- A sick connection fails its heartbeat at once. -/
  sick : Bool := false
  deriving DecidableEq, Repr, Inhabited

/-- The state of a session. -/
structure Session where
  now : Nat := 0
  world : World := {}
  script : Script := {}
  marks : Table Conn Mark := ∅
  pools : Table String PoolId := ∅
  registries : Table String Registry := ∅
  loans : Table String Key := ∅
  /-- The first key that was not given to a call or a creation. -/
  nextKey : Key := 0
  /-- What was seen since the log was last taken. -/
  seen : List Event := []
  deriving Inhabited

namespace Session

/-- Lets one action of the world happen. -/
def act (session : Session) (action : World.Action) : Session :=
  let (world, events) := session.world.step action
  { session with world := world, seen := session.seen ++ events }

/-- Writes a line to the log. -/
def log (session : Session) (notice : Notice) : Session :=
  { session with seen := session.seen ++ [.log notice] }

/-- A pool by its position. -/
def poolAt (session : Session) (id : PoolId) : Pool := session.world.pools.getD id default

/-- What a connection carries. -/
def mark (session : Session) (conn : Conn) : Mark := (session.marks.get? conn).getD {}

/-- A key that was never given out, and the state in which it is. -/
def freshKey (session : Session) : Key × Session :=
  (session.nextKey, { session with nextKey := session.nextKey + 1 })

/-! ## Names -/

/-- The pool that a target means; `none` if a registry has no pool for the service. -/
def resolve (session : Session) : Target → Except Missing (Option PoolId)
  | .pool key =>
      match session.pools.get? key with
      | none => .error .pool
      | some id => .ok (some id)
  | .service registry service =>
      match session.registries.get? registry with
      | none => .error .registry
      | some pools => .ok (pools.get? service)

/-- The service that a target asks for. -/
def serviceOf : Target → String
  | .pool key => key
  | .service _ service => service

/-- Keeps a pool under a name; the pool that had the name is let go afterwards. -/
def keepPool (session : Session) (key : String) (id : PoolId) : Session :=
  let old := session.pools.get? key
  let session := { session with pools := session.pools.insert key id }
  match old with
  | none => session
  | some old => session.act (.letGo old)

/-- Keeps a registry under a name; the pools of the registry that had the name are let go
afterwards. -/
def keepRegistry (session : Session) (name : String) (registry : Registry) : Session :=
  let old := session.registries.get? name
  let session := { session with registries := session.registries.insert name registry }
  match old with
  | none => session
  | some old => old.values.foldl (fun session id => session.act (.letGo id)) session

/-- Keeps a loan under a name; the loan that had the name is dropped afterwards. -/
def keepLoan (session : Session) (name : String) (key : Key) : Session :=
  let old := session.loans.get? name
  let session := { session with loans := session.loans.insert name key }
  match old with
  | none => session
  | some old => session.act (.drop old)

/-- Takes a loan out of its name. -/
def takeLoan (session : Session) (name : String) : Option (Key × Session) :=
  (session.loans.get? name).map fun key =>
    (key, { session with loans := session.loans.erase name })

/-- The loan under a name. -/
def loanAt (session : Session) (name : String) : Option Loan :=
  session.loans.get? name >>= fun key => session.world.loans.get? key

/-! ## Views -/

/-- What is shown of a loan. -/
def viewLoan (session : Session) (loan : Loan) : LoanView :=
  let mark := session.mark loan.entry.conn
  { conn := loan.entry.conn, index := loan.entry.index, sick := mark.sick, tag := mark.tag }

/-- What is shown of a pool. -/
def viewPool (session : Session) (id : PoolId) : PoolView :=
  let pool := session.poolAt id
  { name := pool.name
    capacity := pool.capacity
    idle := pool.idleConnections
    live := pool.live
    endpoints := pool.endpoints
    settings := pool.settings }

/-- The outline of a loan. -/
def loanShape (loan : Loan) : Text.Shape :=
  .record "PooledConnection"
    [("connection", .plain loan.entry.conn.name), ("endpoint", .number loan.entry.index)] true

/-- The outline of a registry. -/
def registryShape (session : Session) (registry : Registry) : Text.Shape :=
  .record "ServiceRegistry"
    [("pools", .map (registry.toList.map fun (service, id) =>
      (service, (session.poolAt id).shape)))] false

/-- All pools that have a name, with the numbers of their idle and of their live connections.  The
pools of registries come last, in the order of the registries' names: of two pools whose names
read alike the later counts. -/
def census (session : Session) : Table String (Nat × Nat) :=
  let count (id : PoolId) : Nat × Nat :=
    let pool := session.poolAt id
    (pool.idleConnections, pool.live)
  let registries := session.registries.toList.mergeSort fun a b => decide (a.1 ≤ b.1)
  .ofList
    ((session.pools.toList.map fun (key, id) => (key, count id)) ++
      registries.flatMap fun (name, registry) =>
        registry.toList.map fun (service, id) => (name ++ "/" ++ service, count id))

end Session

end HeartbeatPool
