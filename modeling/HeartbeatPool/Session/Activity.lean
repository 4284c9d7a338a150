import HeartbeatPool.Config.Basic
import HeartbeatPool.Session.State

/-!
# What takes time

Calls that acquire a connection and the creation of pools wait for dials and heartbeats.  Each of
them is run as far as it gets at one instant, and then waits for the next timer.  Everything they
do to pools and connections is an action of the world; what is kept here is only what they wait
for.
-/

namespace HeartbeatPool

/-- How far something has come: to its end, or to a wait. -/
inductive Progress (α β : Type) where
  | done (result : α)
  | waiting (rest : β)

namespace Session

/-! ## Creating a pool -/

/-- A pool being created: for each slot the wait for its dial, unless it has settled. -/
structure Creating where
  key : Key
  waits : List (Option Wait)
  deriving DecidableEq, Repr, Inhabited

/-- Looks whether the dial of a slot has settled. -/
def pollSlot (session : Session) (key : Key) (slot : Nat) (wait : Wait) :
    Session × Option Wait :=
  match wait.poll session.now with
  | none => (session, some wait)
  | some verdict => (session.act (.settleSlot key slot verdict), none)

/-- Looks at the slots from a given one on, in order. -/
def pollSlots (session : Session) (key : Key) (slot : Nat) :
    List (Option Wait) → Session × List (Option Wait)
  | [] => (session, [])
  | none :: rest =>
      let (session, rest) := session.pollSlots key (slot + 1) rest
      (session, none :: rest)
  | some wait :: rest =>
      let (session, wait) := session.pollSlot key slot wait
      let (session, rest) := session.pollSlots key (slot + 1) rest
      (session, wait :: rest)

/-- Dials some slots from a given one on, in order, and looks at each right after its dial. -/
def openSlots (session : Session) (key : Key) (pool : Pool) (slot : Nat) :
    Nat → Session × List (Option Wait)
  | 0 => (session, [])
  | count + 1 =>
      -- the outcome is taken at the moment of the dial
      let session := session.act (.dialSlot key)
      let (outcome, script) :=
        session.script.takeDial (pool.address (slot / pool.settings.perEndpoint))
      let session := { session with script := script }
      let wait := Wait.start session.now pool.settings.dialTimeout outcome
      let (session, wait) := session.pollSlot key slot wait
      let (session, rest) := session.openSlots key pool (slot + 1) count
      (session, wait :: rest)

/-- How far a creation has come: once all its dials have settled it ends, with a pool or an
error. -/
def concludeCreation (session : Session) (creating : Creating) :
    Session × Progress (Except Error PoolId) Creating :=
  if creating.waits.any Option.isSome then (session, .waiting creating)
  else
    match session.world.creations.get? creating.key with
    | none => (session, .waiting creating)
    | some creation =>
        let id := session.world.pools.length
        (session.act (.finish creating.key), .done (creation.outcome.map fun _ => id))

/-- Starts to create a pool: all slots are dialed at once. -/
def beginCreation (session : Session) (label name : String) (endpoints : List Endpoint)
    (settings : Settings) : Session × Progress (Except Error PoolId) Creating :=
  match checkParameters endpoints settings with
  | .error reason => (session, .done (.error (.invalidConfig (reason.describe name))))
  | .ok capacity =>
      let (key, session) := session.freshKey
      let session := session.act (.create key label name endpoints settings)
      let pool : Pool :=
        { name := name, label := label, endpoints := endpoints, settings := settings }
      let (session, waits) := session.openSlots key pool 0 capacity
      session.concludeCreation ⟨key, waits⟩

/-- Goes on with a creation. -/
def pollCreation (session : Session) (creating : Creating) :
    Session × Progress (Except Error PoolId) Creating :=
  let (session, waits) := session.pollSlots creating.key 0 creating.waits
  session.concludeCreation ⟨creating.key, waits⟩

/-- The times at which there may be something new about a creation. -/
def Creating.timers (creating : Creating) : List Nat :=
  creating.waits.flatMap fun wait => (wait.map Wait.timers).getD []

/-! ## Building a registry -/

/-- The pool of one service of a registry being built. -/
inductive Member where
  | creating (service : String) (creating : Creating)
  | ready (service : String) (pool : PoolId)
  deriving DecidableEq, Repr, Inhabited

/-- The times at which there may be something new about a member. -/
def Member.timers : Member → List Nat
  | .creating _ state => state.timers
  | .ready _ _ => []

/-- The member that a creation has come to. -/
def memberOf (service : String) :
    Progress (Except Error PoolId) Creating → Except Error Member
  | .done (.error error) => .error error
  | .done (.ok id) => .ok (.ready service id)
  | .waiting creating => .ok (.creating service creating)

/-- Goes on with one member. -/
def pollMember (session : Session) : Member → Session × Except Error Member
  | .ready service id => (session, .ok (.ready service id))
  | .creating service state =>
      let (session, progress) := session.pollCreation state
      (session, memberOf service progress)

/-- Gives up what was built for a member. -/
def discard (session : Session) : Member → Session
  | .creating _ state => session.act (.abandon state.key)
  | .ready _ id => session.act (.letGo id)

/-- Starts to create the pools of some services, in order, after those of the members given.  With
the first pool that cannot be created everything else is given up.

This is how up to thirty services are joined.  Of more than that, the error of one is not looked at
before all services ahead of it have their pools. -/
def beginMembers (settings : Settings) (session : Session) (before : List Member) :
    List (String × List Endpoint) → Session × Except Error (List Member)
  | [] => (session, .ok before)
  | (service, endpoints) :: rest =>
      let (session, progress) := session.beginCreation service service endpoints settings
      match memberOf service progress with
      | .error error => (before.foldl discard session, .error error)
      | .ok member => beginMembers settings session (before ++ [member]) rest

/-- Goes on with some members, in order, after those given.  As at the start, what one of them fails
with ends all of them at once, which is so for up to thirty services. -/
def pollMembers (session : Session) (before : List Member) :
    List Member → Session × Except Error (List Member)
  | [] => (session, .ok before)
  | member :: rest =>
      let (session, result) := session.pollMember member
      match result with
      | .error error => ((before ++ rest).foldl discard session, .error error)
      | .ok member => session.pollMembers (before ++ [member]) rest

/-- The registry of some members, if all of them are ready. -/
def registryOf? (members : List Member) : Option Registry :=
  (members.mapM fun member =>
    match member with
    | Member.ready service id => some (service, id)
    | Member.creating _ _ => none).map Table.ofList

/-- How far the building of a registry has come. -/
def concludeBuild (session : Session) (result : Except Error (List Member)) :
    Session × Progress (Except Error Registry) (List Member) :=
  match result with
  | .error error => (session, .done (.error error))
  | .ok members =>
      match registryOf? members with
      | none => (session, .waiting members)
      | some registry =>
          (session.log (.registryCreated members.length), .done (.ok registry))

/-- Starts to build a registry.  Nothing is dialed unless every service has a heartbeat. -/
def beginBuild (session : Session) (services : List (String × List Endpoint))
    (heartbeats : List String) (settings : Settings) :
    Session × Progress (Except Error Registry) (List Member) :=
  match services.find? fun (service, _) => !heartbeats.contains service with
  | some (service, _) => (session, .done (.error (.missingHeartbeat service)))
  | none =>
      let (session, result) := beginMembers settings session [] services
      session.concludeBuild result

/-- Starts to build a registry from a configuration, whose services are gone through in some
order. -/
def fromConfig (session : Session) (order : ServiceOrder) (config : ClientConfig)
    (heartbeats : List String) (settings : Settings) :
    Session × Progress (Except Error Registry) (List Member) :=
  session.beginBuild (config.services order) heartbeats settings

/-- Goes on with the building of a registry. -/
def pollBuild (session : Session) (members : List Member) :
    Session × Progress (Except Error Registry) (List Member) :=
  let (session, result) := session.pollMembers [] members
  session.concludeBuild result

/-! ## Acquiring a connection -/

/-- The wait that a call is in: the outcome is asked for when the wait begins. -/
def callWait (session : Session) (call : Call) : Session × Wait :=
  let settings := (session.poolAt call.pool).settings
  match call.phase with
  | .probing entry =>
      if (session.mark entry.conn).sick then
        (session, Wait.start session.now settings.heartbeatTimeout (.settles 0 (.failure "sick")))
      else
        let (outcome, script) := session.script.takeProbe entry.conn.address
        ({ session with script := script },
          Wait.start session.now settings.heartbeatTimeout outcome)
  | .redialing entry =>
      let (outcome, script) := session.script.takeDial entry.conn.address
      ({ session with script := script }, Wait.start session.now settings.dialTimeout outcome)

/-- Runs a call until it must wait, or to its end.  The number bounds the answers that it takes
in, and the number of answers it can still wait for is always enough. -/
def advance (session : Session) (key : Key) (wait : Wait) : Nat → Session × Option Wait
  | 0 => (session, some wait)
  | bound + 1 =>
      match wait.poll session.now with
      | none => (session, some wait)
      | some verdict =>
          let session := session.act (.settle key verdict)
          match session.world.calls.get? key with
          | none => (session, none)
          | some call =>
              let (session, wait) := session.callWait call
              session.advance key wait bound

/-- A call under way, with the name for its loan. -/
structure Acquiring where
  key : Key
  pool : PoolId
  name : String
  wait : Wait
  /-- When the call is given up. -/
  deadline : Nat
  /-- Whether the deadline comes from a time limit of the call's own. -/
  isLimited : Bool
  deriving DecidableEq, Repr, Inhabited

/-- The times at which there may be something new about a call. -/
def Acquiring.timers (acquiring : Acquiring) : List Nat :=
  acquiring.wait.timers ++ [acquiring.deadline]

/-- The end of a call: its connection is kept under its name, if it got one. -/
def endAcquire (session : Session) (key : Key) (id : PoolId) (name : String) :
    Session × Reply :=
  match session.world.callResult key id with
  | .ok loan => (session.keepLoan name key, .loan (session.viewLoan loan))
  | .error error => (session, .failed error)

/-- Goes on with a call.  A call that still waits is given up when its time is up. -/
def pollAcquire (session : Session) (acquiring : Acquiring) :
    Session × Progress Reply Acquiring :=
  let key := acquiring.key
  let bound := ((session.world.calls.get? key).map Call.waitsLeft).getD 0
  let (session, wait) := session.advance key acquiring.wait bound
  match wait with
  | none =>
      let (session, reply) := session.endAcquire key acquiring.pool acquiring.name
      (session, .done reply)
  | some wait =>
      if acquiring.deadline ≤ session.now then
        (session.act (.cancel key), .done (if acquiring.isLimited then .cancelled else .stalled))
      else (session, .waiting { acquiring with wait := wait })

/-- Starts to acquire a connection from a pool.  A call without a time limit of its own is given up
as well if it does not end. -/
def beginAcquire (session : Session) (id : PoolId) (name : String) (limit : Option Nat) :
    Session × Progress Reply Acquiring :=
  let (key, session) := session.freshKey
  let session := session.act (.acquire key id)
  match session.world.calls.get? key with
  | none =>
      let (session, reply) := session.endAcquire key id name
      (session, .done reply)
  | some call =>
      let (session, wait) := session.callWait call
      session.pollAcquire
        { key := key
          pool := id
          name := name
          wait := wait
          deadline := later session.now (limit.getD stallLimit)
          isLimited := limit.isSome }

end Session

end HeartbeatPool
