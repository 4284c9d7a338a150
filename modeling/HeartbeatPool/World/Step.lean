import HeartbeatPool.World.Basic

/-!
# How the world moves

One action is one uninterrupted move: something a caller does, the answer of a dial or of a
heartbeat, or a call that is given up while it waits.  Between two actions anything else may
happen, so a list of actions is one interleaving of all calls, and a run over all lists of
actions is a run over all interleavings.

An action that makes no sense in a state, such as the answer of a call that is not under way,
changes nothing and shows nothing.

## How a connection is acquired

A call takes the connection that has been idle longest and probes it.  If the heartbeat succeeds
the connection is lent.  Otherwise it is closed and its endpoint is dialed again; if the dial
succeeds the new connection is lent, and if not, the call tries the next idle connection.  A call
makes as many attempts as there were idle connections at its start, and one if there were none.
-/

namespace HeartbeatPool.World

/-- A state together with what was seen on the way to it. -/
abbrev Change := World × List Event

/-- Goes on from a change. -/
def Change.andThen (change : Change) (next : World → Change) : Change :=
  let after := next change.1
  (after.1, change.2 ++ after.2)

/-- Closes the idle connections of a pool that nobody holds and no call uses. -/
def reap (world : World) (id : PoolId) : Change :=
  if world.held.contains id || world.isBusy id then (world, [])
  else
    match world.pools[id]? with
    | none => (world, [])
    | some pool =>
        let (pool, events) := pool.closeIdle
        (world.setPool id pool, events)

/-! ## Creating pools -/

/-- Starts to create a pool, if its parameters are admissible. -/
def create (world : World) (key : Key) (label name : String) (endpoints : List Endpoint)
    (settings : Settings) : Change :=
  if world.creations.contains key then (world, [])
  else
    match checkParameters endpoints settings with
    | .error _ => (world, [])
    | .ok _ =>
        let pool : Pool :=
          { name := name, label := label, endpoints := endpoints, settings := settings }
        ({ world with creations := world.creations.insert key { pool := pool } }, [])

/-- Dials the next slot of a creation. -/
def dialSlot (world : World) (key : Key) : Change :=
  match world.creations.get? key with
  | none => (world, [])
  | some creation =>
      if creation.slots.length < creation.pool.capacity then
        let (world, conn) := world.dial creation.nextEndpoint
        ({ world with creations := world.creations.insert key (creation.push conn) },
          [.dial creation.nextEndpoint])
      else (world, [])

/-- Takes in the answer to the dial of a slot. -/
def settleSlot (world : World) (key : Key) (slot : Nat) (verdict : Verdict) : Change :=
  match world.creations.get? key with
  | none => (world, [])
  | some creation =>
      match creation.slots[slot]?, verdict with
      | some (.dialing conn), .success =>
          let creations := world.creations.insert key (creation.establish slot conn)
          ({ world with creations := creations },
            [.log (.established (creation.pool.address (creation.endpointOf slot)))])
      | some (.dialing _), .failure cause =>
          let creations := world.creations.insert key (creation.fail slot cause)
          ({ world with creations := creations }, [])
      | _, _ => (world, [])

/-- Ends a creation all of whose dials have come to an end. -/
def finish (world : World) (key : Key) : Change :=
  match world.creations.get? key with
  | none => (world, [])
  | some creation =>
      if creation.isSettled then
        let world := { world with creations := world.creations.erase key }
        match creation.outcome with
        | .error _ => (world, creation.report)
        | .ok pool =>
            ({ world with
                pools := world.pools ++ [pool]
                held := world.held ++ [world.pools.length] },
              creation.report)
      else (world, [])

/-- Gives up a creation: what it has established is closed, first what still waits for its
turn. -/
def abandon (world : World) (key : Key) : Change :=
  match world.creations.get? key with
  | none => (world, [])
  | some creation =>
      ({ world with creations := world.creations.erase key },
        creation.closing.map .close)

/-! ## Acquiring connections -/

/-- Goes on with a call that may still try some idle connections: it takes the first one, or
ends. -/
def attempt (world : World) (key : Key) (id : PoolId) (pool : Pool) : Nat → Change
  | 0 => exhausted
  | attemptsLeft + 1 =>
      match pool.takeIdle? with
      | none => exhausted
      | some (entry, taken) =>
          let world := world.setPool id taken
          let call : Call := ⟨id, attemptsLeft, .probing entry⟩
          ({ world with calls := world.calls.insert key call }, [.probe pool.label entry.conn])
where
  /-- The end of a call that found no connection. -/
  exhausted : Change :=
    Change.andThen (world, [.log (.exhausted pool.name)]) fun world => world.reap id

/-- Closes a connection whose heartbeat has failed; its pool counts one less. -/
def dismiss (world : World) (id : PoolId) (pool : Pool) (entry : Entry) (cause : String) :
    Change :=
  (world.setPool id pool.untrack,
    [.log (.heartbeatFailed (pool.address entry.index) cause), .close entry.conn])

/-- Dials the endpoint at a position of a pool's table for a call that goes on. -/
def redial (world : World) (key : Key) (call : Call) (pool : Pool) (index : Nat) : Change :=
  let endpoint := pool.endpoint index
  let (world, conn) := world.dial endpoint
  let call := { call with phase := .redialing ⟨conn, index⟩ }
  ({ world with calls := world.calls.insert key call }, [.dial endpoint])

/-- Ends a call with a connection. -/
def lend (world : World) (key : Key) (id : PoolId) (entry : Entry) : Change :=
  reap
    { world with
      calls := world.calls.erase key
      loans := world.loans.insert key ⟨id, entry⟩ } id

/-- Starts a call on a pool. -/
def acquire (world : World) (key : Key) (id : PoolId) : Change :=
  if world.calls.contains key || world.loans.contains key || !world.held.contains id then
    (world, [])
  else
    match world.pools[id]? with
    | none => (world, [])
    | some pool => world.attempt key id pool (max pool.idleConnections 1)

/-- Takes in the answer that a call waits for. -/
def settle (world : World) (key : Key) (verdict : Verdict) : Change :=
  match world.calls.get? key with
  | none => (world, [])
  | some call =>
      match world.pools[call.pool]? with
      | none => (world, [])
      | some pool =>
          match call.phase, verdict with
          | .probing entry, .success => world.lend key call.pool entry
          | .probing entry, .failure cause =>
              -- the old connection is closed and no longer counted before its endpoint is dialed
              Change.andThen (world.dismiss call.pool pool entry cause) fun world =>
                world.redial key call pool entry.index
          | .redialing entry, .success =>
              let address := pool.address entry.index
              let world := world.setPool call.pool pool.track
              Change.andThen (world, [.log (.established address), .log (.reestablished address)])
                fun world => world.lend key call.pool entry
          | .redialing entry, .failure cause =>
              let address := pool.address entry.index
              let world := { world with calls := world.calls.erase key }
              Change.andThen (world, [.log (.redialFailed address cause pool.name)])
                fun world => world.attempt key call.pool pool call.attemptsLeft

/-- Gives up a call while it waits.  A connection whose heartbeat is in flight goes back to the
idle queue; a dial in flight leaves nothing behind. -/
def cancel (world : World) (key : Key) : Change :=
  match world.calls.get? key with
  | none => (world, [])
  | some call =>
      match world.pools[call.pool]? with
      | none => (world, [])
      | some pool =>
          let world := { world with calls := world.calls.erase key }
          match call.phase with
          | .redialing _ =>
              -- the old connection is closed already, and the new one is not counted yet
              world.reap call.pool
          | .probing entry =>
              let (parked, events) := pool.park entry
              Change.andThen
                (world.setPool call.pool parked,
                  .log (.acquireCancelled pool.name (pool.address entry.index)) :: events)
                fun world => world.reap call.pool

/-! ## Giving connections back -/

/-- Closes a connection on loan; the pool that lent it counts one less. -/
def drop (world : World) (key : Key) : Change :=
  match world.loans.get? key with
  | none => (world, [])
  | some loan =>
      let world := { world with loans := world.loans.erase key }
      match world.pools[loan.pool]? with
      | none => (world, [.close loan.entry.conn])
      | some pool =>
          (world.setPool loan.pool pool.untrack, [.close loan.entry.conn])

/-- The result of handing a connection on loan to a pool: an error, unless the pool has lent it. -/
def releaseError? (world : World) (key : Key) (id : PoolId) : Option Error :=
  if (world.loans.get? key).any fun loan => loan.pool == id then none
  else some (.releaseMismatch (world.pools.getD id default).name)

/-- Hands a connection on loan to a pool.  Its own pool takes it back; any other refuses it, and
it is closed. -/
def release (world : World) (key : Key) (id : PoolId) : Change :=
  if !world.held.contains id then (world, [])
  else
    match world.loans.get? key, world.pools[id]? with
    | some loan, some pool =>
        if loan.pool = id then
          -- the connection was counted while it was on loan, and still is
          let (parked, events) := pool.park loan.entry
          let world := world.setPool id parked
          ({ world with loans := world.loans.erase key }, events)
        else
          Change.andThen (world, [.log (.foreignRelease pool.name)]) fun world => world.drop key
    | _, _ => (world, [])

/-- Takes note that a service without a pool was asked for. -/
def reportUnknown (world : World) (service : String) : Change :=
  (world, [.log (.unknownService service)])

/-- Hands a connection on loan to a service without a pool: it is closed. -/
def refuse (world : World) (key : Key) (service : String) : Change :=
  match world.loans.get? key with
  | none => (world, [])
  | some _ => Change.andThen (world.reportUnknown service) fun world => world.drop key

/-- Exchanges the connections inside two loans; each loan keeps its pool and its position. -/
def swap (world : World) (first second : Key) : Change :=
  match world.loans.get? first, world.loans.get? second with
  | some a, some b =>
      if first = second then (world, [])
      else
        let a' := { a with entry := { a.entry with conn := b.entry.conn } }
        let b' := { b with entry := { b.entry with conn := a.entry.conn } }
        ({ world with loans := (world.loans.insert first a').insert second b' }, [])
  | _, _ => (world, [])

/-- The holder of a pool lets go of it. -/
def letGo (world : World) (id : PoolId) : Change :=
  reap { world with held := world.held.erase id } id

/-! ## Actions -/

/-- One uninterrupted move. -/
inductive Action where
  | create (key : Key) (label name : String) (endpoints : List Endpoint) (settings : Settings)
  | dialSlot (key : Key)
  | settleSlot (key : Key) (slot : Nat) (verdict : Verdict)
  | finish (key : Key)
  | abandon (key : Key)
  | acquire (key : Key) (pool : PoolId)
  | settle (key : Key) (verdict : Verdict)
  | cancel (key : Key)
  | release (key : Key) (pool : PoolId)
  | refuse (key : Key) (service : String)
  | reportUnknown (service : String)
  | drop (key : Key)
  | swap (first second : Key)
  | letGo (pool : PoolId)

/-- What one action does. -/
def step (world : World) : Action → Change
  | .create key label name endpoints settings => world.create key label name endpoints settings
  | .dialSlot key => world.dialSlot key
  | .settleSlot key slot verdict => world.settleSlot key slot verdict
  | .finish key => world.finish key
  | .abandon key => world.abandon key
  | .acquire key pool => world.acquire key pool
  | .settle key verdict => world.settle key verdict
  | .cancel key => world.cancel key
  | .release key pool => world.release key pool
  | .refuse key service => world.refuse key service
  | .reportUnknown service => world.reportUnknown service
  | .drop key => world.drop key
  | .swap first second => world.swap first second
  | .letGo pool => world.letGo pool

/-- What a list of actions does, one after the other. -/
def run (world : World) : List Action → Change
  | [] => (world, [])
  | action :: rest => Change.andThen (world.step action) fun world => world.run rest

/-- What a list of actions does falls apart at any point of the list. -/
theorem run_append (world : World) (first second : List Action) :
    world.run (first ++ second) =
      Change.andThen (world.run first) fun world => world.run second := by
  induction first generalizing world with
  | nil => simp [run, Change.andThen]
  | cons action rest ih => simp [run, Change.andThen, ih, List.append_assoc]

end HeartbeatPool.World
