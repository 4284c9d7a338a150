import HeartbeatPool.Event
import HeartbeatPool.Pool.Capacity
import HeartbeatPool.Pool.Turns
import HeartbeatPool.Settings
import HeartbeatPool.Text.Blank

/-!
# A pool of connections

A pool holds its idle connections in a queue that is bounded by its capacity, and counts the
connections that are alive: those in the queue, those being probed and those on loan.  What the
calls on a pool do with the queue and the counter is in `HeartbeatPool.World`.

The queue gives out a place for each connection that is put into it and takes the place back when
the connection is taken out; how many connections are idle is read off the places that are left.
The counter is a machine word that is raised and lowered without looking, so it would wrap around
if a connection were ever given up twice.
-/

namespace HeartbeatPool

/-- A pool of connections to the endpoints of one service. -/
structure Pool where
  name : String
  /-- The label under which the pool's heartbeat is known. -/
  label : String
  /-- The table of endpoints; entries refer to it by position. -/
  endpoints : List Endpoint
  settings : Settings
  /-- The idle connections; the one that has been idle longest comes first. -/
  idle : List Entry := []
  /-- How many places of the idle queue are free. -/
  free : Nat := settings.perEndpoint * endpoints.length
  /-- The counter of the connections that are alive. -/
  counter : UInt64 := 0
  deriving DecidableEq, Repr, Inhabited

namespace Pool

/-- The most connections the idle queue can hold. -/
def capacity (pool : Pool) : Nat := pool.settings.perEndpoint * pool.endpoints.length

/-- The endpoint at a position of the table. -/
def endpoint (pool : Pool) (index : Nat) : Endpoint := pool.endpoints.getD index default

/-- The address of the endpoint at a position of the table. -/
def address (pool : Pool) (index : Nat) : String := (pool.endpoint index).address

/-- How many connections wait in the idle queue: all places but those that are free. -/
def idleConnections (pool : Pool) : Nat := pool.capacity - pool.free

/-- How many connections are alive. -/
def live (pool : Pool) : Nat := pool.counter.toNat

/-- Counts one connection more. -/
def track (pool : Pool) : Pool := { pool with counter := pool.counter + 1 }

/-- Counts one connection less. -/
def untrack (pool : Pool) : Pool := { pool with counter := pool.counter - 1 }

/-- Takes the connection that has been idle longest out of the queue. -/
def takeIdle? (pool : Pool) : Option (Entry × Pool) :=
  match pool.idle with
  | [] => none
  | entry :: rest => some (entry, { pool with idle := rest, free := pool.free + 1 })

/-- Puts a connection at the back of the idle queue.  If the queue is full, the connection is
closed instead. -/
def park (pool : Pool) (entry : Entry) : Pool × List Event :=
  if 0 < pool.free then
    ({ pool with idle := pool.idle ++ [entry], free := pool.free - 1 }, [])
  else
    (pool.untrack,
      [.log (.queueFull pool.name (pool.address entry.index)), .close entry.conn])

/-- Closes all idle connections, in the order of the queue. -/
def closeIdle (pool : Pool) : Pool × List Event :=
  ({ pool with
      idle := []
      free := pool.free + pool.idle.length
      counter := pool.counter - UInt64.ofNat pool.idle.length },
    pool.idle.map fun entry => .close entry.conn)

/-- The outline of a pool. -/
def shape (pool : Pool) : Text.Shape :=
  .record "ConnectionPool"
    [("name", .text pool.name), ("endpoints", .list (pool.endpoints.map Endpoint.shape)),
      ("capacity", .number pool.capacity), ("live", .number pool.live)] true

end Pool

/-! ## Which pools can be created -/

/-- Why a pool cannot have the parameters given. -/
inductive Inadmissible where
  | noEndpoints
  | noConnections
  | blankAddress
  | tooLarge
  deriving DecidableEq, Repr, Inhabited

/-- The words for a reason. -/
def Inadmissible.describe (name : String) : Inadmissible → String
  | .noEndpoints => "no endpoints configured for `" ++ name ++ "`"
  | .noConnections => "connections per endpoint must be positive for `" ++ name ++ "`"
  | .blankAddress => "blank endpoint address configured for `" ++ name ++ "`"
  | .tooLarge => "pool capacity overflows for `" ++ name ++ "`"

/-- The capacity that a pool with some endpoints and settings would have, or the first reason why
there is no such pool. -/
def checkParameters (endpoints : List Endpoint) (settings : Settings) :
    Except Inadmissible Nat :=
  if endpoints.isEmpty then .error .noEndpoints
  else if settings.perEndpoint = 0 then .error .noConnections
  else if endpoints.any fun endpoint => Text.isBlank endpoint.address then .error .blankAddress
  else
    match capacityIn? settings.perEndpoint endpoints.length with
    | none => .error .tooLarge
    | some capacity => .ok capacity.toNat

/-- The last check in numbers. -/
theorem checkParameters_eq (endpoints : List Endpoint) (settings : Settings) :
    checkParameters endpoints settings =
      if endpoints.isEmpty then .error .noEndpoints
      else if settings.perEndpoint = 0 then .error .noConnections
      else if endpoints.any fun endpoint => Text.isBlank endpoint.address then .error .blankAddress
      else if maxCapacity < settings.perEndpoint * endpoints.length then .error .tooLarge
      else .ok (settings.perEndpoint * endpoints.length) := by
  unfold checkParameters
  split
  · rfl
  next hsome =>
  split
  · rfl
  next hper =>
  split
  · rfl
  have hlength : 0 < endpoints.length :=
    List.length_pos_iff.mpr fun hempty => hsome (List.isEmpty_iff.mpr hempty)
  rw [capacityIn?_eq (Nat.pos_of_ne_zero hper) hlength]
  by_cases hlarge : maxCapacity < settings.perEndpoint * endpoints.length
  · rw [if_pos hlarge, if_pos hlarge]
  · have hword : settings.perEndpoint * endpoints.length < UInt64.size :=
      Nat.lt_of_le_of_lt (Nat.le_of_not_lt hlarge) maxCapacity_lt
    rw [if_neg hlarge, if_neg hlarge]
    exact congrArg Except.ok (UInt64.toNat_ofNat_of_lt' hword)

/-! ## The creation of a pool -/

/-- One of the connections that a new pool dials. -/
inductive Slot where
  /-- The dial has been made; this connection is what it will deliver. -/
  | dialing (conn : Conn)
  | established (conn : Conn)
  | failed (cause : String)
  deriving DecidableEq, Repr, Inhabited

/-- Whether the dial of a slot has come to an end. -/
def Slot.isSettled : Slot → Bool
  | .dialing _ => false
  | _ => true

/-- A pool on its way: the slots that were dialed so far, in order.  The first slots belong to
the first endpoint, as many as there are connections for each endpoint, and so on. -/
structure Creation where
  /-- The pool to be: it counts what was established, and its queue is empty. -/
  pool : Pool
  slots : List Slot := []
  /-- The slots that have settled: their results are handed on in the order of the slots. -/
  turns : Turns := {}
  deriving DecidableEq, Repr, Inhabited

namespace Creation

/-- The position of the endpoint that a slot belongs to. -/
def endpointOf (creation : Creation) (slot : Nat) : Nat :=
  slot / creation.pool.settings.perEndpoint

/-- The endpoint that the next slot is dialed for. -/
def nextEndpoint (creation : Creation) : Endpoint :=
  creation.pool.endpoint (creation.endpointOf creation.slots.length)

/-- Takes note of the dial of the next slot. -/
def push (creation : Creation) (conn : Conn) : Creation :=
  { creation with slots := creation.slots ++ [.dialing conn] }

/-- Takes note that the dial of a slot has succeeded.  From then on its connection counts, although
the pool is not there yet. -/
def establish (creation : Creation) (slot : Nat) (conn : Conn) : Creation :=
  { pool := creation.pool.track
    slots := creation.slots.set slot (.established conn)
    turns := creation.turns.settle slot }

/-- Takes note that the dial of a slot has failed. -/
def fail (creation : Creation) (slot : Nat) (cause : String) : Creation :=
  { creation with
    slots := creation.slots.set slot (.failed cause)
    turns := creation.turns.settle slot }

/-- Whether all slots were dialed and all dials have come to an end. -/
def isSettled (creation : Creation) : Bool :=
  creation.slots.length == creation.pool.capacity && creation.slots.all Slot.isSettled

/-- The connection that a slot has established, if any. -/
def entryOf? (creation : Creation) : Slot × Nat → Option Entry
  | (.established conn, slot) => some ⟨conn, creation.endpointOf slot⟩
  | (.dialing _, _) | (.failed _, _) => none

/-- The connections that were established, in the order of the slots. -/
def entries (creation : Creation) : List Entry := creation.slots.zipIdx.filterMap creation.entryOf?

/-- The connections that were established, in the order in which they are closed if the creation
is given up: first those that wait for their turn, then those that were handed on. -/
def closing (creation : Creation) : List Conn :=
  let ranked := creation.slots.zipIdx.filterMap fun
    | (.established conn, slot) => some (creation.turns.rank slot, conn)
    | _ => none
  (ranked.mergeSort fun a b => decide (a.1 ≤ b.1)).map Prod.snd

/-- A creation that is given up closes what it has established. -/
theorem closing_perm (creation : Creation) :
    creation.closing.Perm (creation.entries.map Entry.conn) := by
  refine ((List.mergeSort_perm _ _).map Prod.snd).trans (.of_eq ?_)
  simp only [entries, List.map_filterMap]
  congr 1
  funext pair
  rcases pair with ⟨_ | _ | _, _⟩ <;> rfl

/-- The warning about a slot, if it failed. -/
def warning? (creation : Creation) : Slot × Nat → Option Event
  | (.failed cause, slot) =>
      some (.log (.slotSkipped (creation.pool.address (creation.endpointOf slot)) cause
        creation.pool.name))
  | (.dialing _, _) | (.established _, _) => none

/-- The warnings about the slots that failed, in the order of the slots. -/
def warnings (creation : Creation) : List Event :=
  creation.slots.zipIdx.filterMap creation.warning?

/-- Takes in the result of a slot: a connection is put into the idle queue of the pool, a failure is
reported. -/
def takeIn (creation : Creation) (pool : Pool) (slot : Nat) : Slot → Pool × List Event
  | .dialing _ => (pool, [])
  | .established conn => pool.park ⟨conn, creation.endpointOf slot⟩
  | .failed cause =>
      (pool, [.log (.slotSkipped (pool.address (creation.endpointOf slot)) cause pool.name)])

/-- Takes in the results of slots from a given one on, in order. -/
def takeInAll (creation : Creation) (pool : Pool) (slot : Nat) : List Slot → Pool × List Event
  | [] => (pool, [])
  | result :: rest =>
      let (pool, events) := creation.takeIn pool slot result
      let (pool, more) := creation.takeInAll pool (slot + 1) rest
      (pool, events ++ more)

/-- The pool of a settled creation, with all results taken in, and what is seen of that. -/
def stock (creation : Creation) : Pool × List Event :=
  creation.takeInAll creation.pool 0 creation.slots

/-- What a settled creation comes to: a pool with all established connections in its idle queue,
or an error if there are none. -/
def outcome (creation : Creation) : Except Error Pool :=
  let pool := creation.stock.1
  if pool.live = 0 then .error (.fatal pool.name) else .ok pool

/-- What is seen once a creation has settled. -/
def report (creation : Creation) : List Event :=
  let (pool, events) := creation.stock
  events ++
    if pool.live = 0 then [.log (.creationFailed pool.name)]
    else [.log (.created pool.name pool.live pool.capacity)]

end Creation

end HeartbeatPool
