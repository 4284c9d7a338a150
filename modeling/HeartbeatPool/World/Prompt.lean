import HeartbeatPool.Config.Basic
import HeartbeatPool.World.Step

/-!
# An outside world that answers at once

Where every dial and every heartbeat is answered as soon as it is asked for, creating a pool,
building a registry and acquiring a connection are single moves.  They are made up of the same
actions as ever; what is added here is who answers.
-/

namespace HeartbeatPool

/-- An outside world with a state of its own. -/
structure Prompt (σ : Type) where
  /-- Takes note of what was seen. -/
  note : σ → List Event → σ
  dial : σ → Endpoint → σ × Verdict
  probe : σ → Conn → σ × Verdict

namespace Prompt

variable {σ : Type}

/-- Lets one action of the world happen. -/
def act (prompt : Prompt σ) (state : σ × World) (action : World.Action) : σ × World :=
  let (world, events) := state.2.step action
  (prompt.note state.1 events, world)

/-- Answers what a call waits for. -/
def answer (prompt : Prompt σ) (state : σ × World) (key : Key) (call : Call) : σ × World :=
  let (outside, verdict) :=
    match call.phase with
    | .probing entry => prompt.probe state.1 entry.conn
    | .redialing entry =>
        prompt.dial state.1 ((state.2.pools.getD call.pool default).endpoint entry.index)
  prompt.act (outside, state.2) (.settle key verdict)

/-- Answers a call until it ends.  The number bounds the answers, and the number of answers that a
call can still wait for is always enough. -/
def serve (prompt : Prompt σ) (state : σ × World) (key : Key) : Nat → σ × World
  | 0 => state
  | bound + 1 =>
      match state.2.calls.get? key with
      | none => state
      | some call => prompt.serve (prompt.answer state key call) key bound

/-- Acquires a connection from a pool. -/
def acquire (prompt : Prompt σ) (state : σ × World) (key : Key) (id : PoolId) : σ × World :=
  let state := prompt.act state (.acquire key id)
  let bound := ((state.2.calls.get? key).map Call.waitsLeft).getD 0
  prompt.serve state key bound

/-- Dials some slots of a new pool, in order from a given one on. -/
def openSlots (prompt : Prompt σ) (key : Key) (pool : Pool) (state : σ × World) (slot : Nat) :
    Nat → σ × World
  | 0 => state
  | count + 1 =>
      let state := prompt.act state (.dialSlot key)
      let (outside, verdict) :=
        prompt.dial state.1 (pool.endpoint (slot / pool.settings.perEndpoint))
      let state := prompt.act (outside, state.2) (.settleSlot key slot verdict)
      prompt.openSlots key pool state (slot + 1) count

/-- Creates a pool. -/
def create (prompt : Prompt σ) (state : σ × World) (key : Key) (name : String)
    (endpoints : List Endpoint) (settings : Settings) : (σ × World) × Except Error PoolId :=
  match checkParameters endpoints settings with
  | .error reason => (state, .error (.invalidConfig (reason.describe name)))
  | .ok capacity =>
      let pool : Pool :=
        { name := name, label := name, endpoints := endpoints, settings := settings }
      let state := prompt.act state (.create key name name endpoints settings)
      let state := prompt.openSlots key pool state 0 capacity
      let id := state.2.pools.length
      match state.2.creations.get? key with
      | none => (state, .error (.fatal name))
      | some creation =>
          (prompt.act state (.finish key), creation.outcome.map fun _ => id)

/-- Creates the pools of some services, in order, after those that were made.  With the first pool
that cannot be created the others are given up. -/
def createAll (prompt : Prompt σ) (settings : Settings) (state : σ × World)
    (made : List (String × PoolId)) :
    List (String × List Endpoint) → (σ × World) × Except Error (List (String × PoolId))
  | [] => (state, .ok made)
  | (service, endpoints) :: rest =>
      match prompt.create state made.length service endpoints settings with
      | (state, .error error) =>
          (made.foldl (fun state pair => prompt.act state (.letGo pair.2)) state, .error error)
      | (state, .ok id) => prompt.createAll settings state (made ++ [(service, id)]) rest

/-- Builds a registry.  Nothing is dialed unless every service has a heartbeat. -/
def build (prompt : Prompt σ) (state : σ × World) (services : List (String × List Endpoint))
    (heartbeats : List String) (settings : Settings) : (σ × World) × Except Error Registry :=
  match services.find? fun (service, _) => !heartbeats.contains service with
  | some (service, _) => (state, .error (.missingHeartbeat service))
  | none =>
      match prompt.createAll settings state [] services with
      | (state, .error error) => (state, .error error)
      | ((outside, world), .ok pools) =>
          ((prompt.note outside [.log (.registryCreated pools.length)], world),
            .ok (Table.ofList pools))

/-- Builds a registry from a configuration, whose services are gone through in some order. -/
def fromConfig (prompt : Prompt σ) (state : σ × World) (order : ServiceOrder)
    (config : ClientConfig) (heartbeats : List String) (settings : Settings) :
    (σ × World) × Except Error Registry :=
  prompt.build state (config.services order) heartbeats settings

end Prompt

end HeartbeatPool
