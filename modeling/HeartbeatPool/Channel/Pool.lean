import HeartbeatPool.Channel.Factory
import HeartbeatPool.World.Prompt

/-!
# A pool of channels

A pool whose connections are channels is used by a single caller, who hands channels back in the
order in which they were acquired.  The heartbeats are answered from a list; when it is used up
they succeed.
-/

namespace HeartbeatPool

/-- What the caller of a pool of channels does. -/
inductive ChannelStep where
  | acquire
  /-- Hands back the channel that was acquired first. -/
  | release
  /-- Drops the channel that was acquired first. -/
  | drop
  deriving DecidableEq, Repr, Inhabited

/-- What a step comes to. -/
inductive ChannelReply where
  | lent (index : Nat)
  | ok
  | failed (error : Error)
  | noLoan
  deriving DecidableEq, Repr, Inhabited

namespace ChannelPool

/-- The outside world: answers to the next heartbeats, and what was seen. -/
structure Outside where
  probes : List Bool
  seen : List Event := []
  deriving Repr, Inhabited

/-- A failed heartbeat is answered by this text. -/
def downText : String := "down"

/-- How the outside world answers. -/
def prompt (factory : ChannelFactory) : Prompt Outside where
  note outside events := { outside with seen := outside.seen ++ events.filter Event.isLog }
  dial outside endpoint :=
    let (events, verdict) := factory.dial Network.none endpoint
    ({ outside with seen := outside.seen ++ events }, verdict)
  probe outside _ :=
    match outside.probes with
    | [] => (outside, .success)
    | healthy :: rest =>
        ({ outside with probes := rest }, if healthy then .success else .failure downText)

/-- The state of the caller: the pool, the channels held, and the next key. -/
structure State where
  outside : Outside
  world : World
  pool : PoolId
  held : List Key := []
  nextKey : Key := 1
  deriving Inhabited

/-- One step of the caller. -/
def step (factory : ChannelFactory) (state : State) : ChannelStep → State × ChannelReply
  | .acquire =>
      let key := state.nextKey
      let (outside, world) := (prompt factory).acquire (state.outside, state.world) key state.pool
      let state := { state with outside := outside, world := world, nextKey := key + 1 }
      match world.callResult key state.pool with
      | .ok loan => ({ state with held := state.held ++ [key] }, .lent loan.entry.index)
      | .error error => (state, .failed error)
  | .release =>
      match state.held with
      | [] => (state, .noLoan)
      | key :: rest =>
          let (outside, world) :=
            (prompt factory).act (state.outside, state.world) (.release key state.pool)
          ({ state with outside := outside, world := world, held := rest }, .ok)
  | .drop =>
      match state.held with
      | [] => (state, .ok)
      | key :: rest =>
          let (outside, world) := (prompt factory).act (state.outside, state.world) (.drop key)
          ({ state with outside := outside, world := world, held := rest }, .ok)

/-- What is seen of a step: its result, the log, and the numbers of idle and of live
connections. -/
structure Record where
  reply : ChannelReply
  events : List Event
  idle : Nat
  live : Nat
  deriving Inhabited

/-- The pool of a caller. -/
def State.current (state : State) : Pool := state.world.pools.getD state.pool default

/-- Carries out steps, one after the other. -/
def run (factory : ChannelFactory) (state : State) : List ChannelStep → List Record
  | [] => []
  | first :: rest =>
      let state := { state with outside := { state.outside with seen := [] } }
      let (state, reply) := step factory state first
      { reply := reply
        events := state.outside.seen
        idle := state.current.idleConnections
        live := state.current.live } :: run factory state rest

/-- Creates a pool of channels: what was logged, and the state of its caller or the error. -/
def create (factory : ChannelFactory) (name : String) (endpoints : List Endpoint)
    (settings : Settings) (probes : List Bool) : List Event × Except Error State :=
  let ((outside, world), result) :=
    (prompt factory).create ({ probes := probes }, {}) 0 name endpoints settings
  (outside.seen, result.map fun id => { outside := outside, world := world, pool := id })

end ChannelPool

end HeartbeatPool
