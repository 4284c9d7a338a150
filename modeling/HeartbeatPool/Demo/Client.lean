import HeartbeatPool.Channel.Factory
import HeartbeatPool.Config.Files
import HeartbeatPool.Demo.Environment
import HeartbeatPool.Demo.Worker
import HeartbeatPool.World.Prompt

/-!
# The client of the greeter

The client reads a configuration, builds a registry in which the greeter service is the only one
with a heartbeat, lets its workers send their requests, and reports what came of them.  Heartbeats
are calls of the greeter as well.

Here the workers move in the order of their numbers, each to its end.  What they do under any other
order is a run of `Crew.step` too.
-/

namespace HeartbeatPool.Demo

/-- A greeter that can be dialed. -/
structure Peer where
  address : String
  greeter : Greeter
  /-- How many more dials are accepted; without a number, all of them. -/
  accept : Option Nat := none
  deriving DecidableEq, Repr, Inhabited

/-- The peers, and the lines that were written so far. -/
structure Outside where
  peers : List Peer
  lines : List Line := []
  deriving Repr, Inhabited

namespace Outside

/-- Adds lines. -/
def write (outside : Outside) (lines : List Line) : Outside :=
  { outside with lines := outside.lines ++ lines }

/-- Replaces the peer at an address. -/
def change (outside : Outside) (address : String) (f : Peer → Peer) : Outside :=
  { outside with
    peers := outside.peers.map fun peer => if peer.address = address then f peer else peer }

/-- The peer at an address. -/
def peerAt (outside : Outside) (address : String) : Option Peer :=
  outside.peers.find? fun peer => peer.address == address

/-- The network as the client finds it. -/
def network (outside : Outside) : Network where
  accepts address := (outside.peerAt address).any fun peer => peer.accept != some 0

/-- The factory of the client's channels. -/
def factory : ChannelFactory := { connectTimeout := some 5000, requestTimeout := some 10000 }

/-- The client dials an endpoint. -/
def dial (outside : Outside) (endpoint : Endpoint) : Outside × Verdict :=
  let (events, verdict) := factory.dial outside.network endpoint
  let outside := outside.write (events.filterMap lineOf?)
  match verdict with
  | .failure _ => (outside, verdict)
  | .success =>
      (outside.change endpoint.address fun peer =>
        { peer with accept := peer.accept.map (· - 1) }, verdict)

/-- The client calls the greeter at an address. -/
def call (outside : Outside) (address name : String) : Outside × Except Status Greeting :=
  match outside.peerAt address with
  | none => (outside, .error outage)
  | some peer =>
      let (greeter, lines, result) := peer.greeter.greet name
      ((outside.change address fun peer => { peer with greeter := greeter }).write lines, result)

/-- The name under which heartbeats call. -/
def heartbeatName : String := "heartbeat"

/-- The client probes a connection. -/
def probe (outside : Outside) (conn : Conn) : Outside × Verdict :=
  let (outside, result) := outside.call conn.address heartbeatName
  match result with
  | .ok _ => (outside, .success)
  | .error status => (outside, .failure status.describe)

/-- How the outside world answers while the pool is created. -/
def prompt : Prompt Outside where
  note outside events := outside.write (events.filterMap lineOf?)
  dial := dial
  probe := probe

/-- The answer to what a worker asks. -/
def answer (outside : Outside) (crew : Crew) (worker : Worker) : Outside × Answer :=
  match worker.phase with
  | .acquiring =>
      match crew.world.calls.get? worker.number with
      | none => (outside, .silence)
      | some call =>
          let (outside, verdict) :=
            match call.phase with
            | .probing entry => outside.probe entry.conn
            | .redialing entry =>
                outside.dial ((crew.world.pools.getD call.pool default).endpoint entry.index)
          (outside, .verdict verdict)
  | .requesting =>
      match crew.world.loans.get? worker.number with
      | none => (outside, .silence)
      | some loan =>
          let (outside, result) := outside.call loan.entry.conn.address worker.requestName
          (outside, .reply result)
  | _ => (outside, .silence)

/-- Lets a worker move until it has finished.  The number bounds its steps. -/
def runWorker (outside : Outside) (crew : Crew) (index : Nat) : Nat → Outside × Crew
  | 0 => (outside, crew)
  | bound + 1 =>
      match crew.workers[index]? with
      | none => (outside, crew)
      | some worker =>
          if worker.phase = .finished then (outside, crew)
          else
            let (outside, answer) := outside.answer crew worker
            let (crew, lines) := crew.step index answer
            (outside.write lines).runWorker crew index bound

/-- More steps than any worker needs: for each request two answers for every connection that can
be idle, and a few moves of its own. -/
def stepBound (crew : Crew) : Nat :=
  let capacity := (crew.pool.map fun id => (crew.world.pools.getD id default).capacity).getD 0
  (crew.requests + 1) * (2 * capacity + 5)

/-- Lets all workers move, one after the other. -/
def runWorkers (outside : Outside) (crew : Crew) : Outside × Crew :=
  (List.range crew.workers.length).foldl
    (fun (outside, crew) index => outside.runWorker crew index (stepBound crew)) (outside, crew)

end Outside

/-- A line written by the client. -/
def clientLine (message : String) : Line := ⟨false, .info, message⟩

/-- The lines about the servers.  They are gathered in a hash table, which goes through them in an
order that nobody should rely on; here they come in the order of their texts. -/
def serverSummary (crew : Crew) : List Line :=
  (crew.totals.toList.map fun (server, count) =>
    clientLine (server ++ ": " ++ toString count ++ " requests")).mergeSort
      fun a b => decide (a.text ≤ b.text)

/-- What the client reports at its end. -/
def summary (crew : Crew) : List Line :=
  let pool := crew.pool.map fun id => crew.world.pools.getD id default
  clientLine "\n=== Pooled Requests Summary ===" :: serverSummary crew ++
    (pool.map fun pool =>
      clientLine ("Pool `" ++ pool.name ++ "`: " ++ toString pool.live ++ " live, " ++
        toString pool.idleConnections ++ " idle, capacity " ++ toString pool.capacity)).toList

/-- The settings of the client. -/
structure ClientSettings where
  path : String
  perEndpoint : Nat
  workers : Nat
  requests : Nat
  deriving DecidableEq, Repr, Inhabited

/-- The settings that an environment asks for. -/
def ClientSettings.ofEnvironment (environment : Environment) : ClientSettings where
  path := (Table.get? environment "CLIENT_CONFIG").getD "demos/client.json"
  perEndpoint := (environment.nat? "CONNECTIONS_PER_ENDPOINT" 64).getD 2
  workers := (environment.nat? "WORKERS" 64).getD 4
  requests := (environment.nat? "REQUEST_COUNT" 32).getD 10

/-- The settings of the pools. -/
def ClientSettings.pools (settings : ClientSettings) : Settings where
  perEndpoint := settings.perEndpoint
  dialTimeout := some 5000
  heartbeatTimeout := some 2000

/-- Builds the registry.  No other service than that of the workers has a heartbeat. -/
def buildRegistry (outside : Outside) (order : ServiceOrder) (settings : ClientSettings)
    (config : ClientConfig) : (Outside × World) × Except Error Registry :=
  Outside.prompt.fromConfig (outside, {}) order config [serviceName] settings.pools

/-- The workers at the start. -/
def startCrew (settings : ClientSettings) (world : World) (registry : Registry) : Crew where
  world := world
  registry := registry
  requests := settings.requests
  workers := (List.range settings.workers).map fun i => { number := i + 1 }

/-- Runs the client: the lines of the log, and the error with which it ends, if any.  How the file
at a path is read is up to the machine. -/
def runClient (order : ServiceOrder) (environment : Environment)
    (read : String → Except ReadFault String) (peers : List Peer) : List Line × Option Error :=
  let settings := ClientSettings.ofEnvironment environment
  let outside : Outside := { peers := peers }
  let (events, loaded) := ClientConfig.ofFile settings.path (read settings.path)
  let outside := outside.write (events.filterMap lineOf?)
  match loaded with
  | .error error => (outside.lines, some error)
  | .ok config =>
      let ((outside, world), result) := buildRegistry outside order settings config
      match result with
      | .error error => (outside.lines, some error)
      | .ok registry =>
          let outside := outside.write
            [clientLine ("Sending " ++ toString settings.requests ++ " requests from each of " ++
              toString settings.workers ++ " workers...\n")]
          let (outside, crew) := outside.runWorkers (startCrew settings world registry)
          (outside.lines ++ summary crew, none)

/-- A greeter for each address of a configuration, named by its address. -/
def Peer.forEach (config : ClientConfig) : List Peer :=
  (config.entries.map fun entry => entry.address).eraseDups.map fun address =>
    { address := address, greeter := { name := address } }

/-- Whether a line is shown: details are not. -/
def isShown (line : Line) : Bool := line.level != .debug

/-- The lines that a run of the client is known by.  The order in which several workers move is
not settled, so their lines are sorted and those of the greeters left out. -/
def shownLines (environment : Environment) (lines : List Line) : List String :=
  let lines := lines.filter isShown
  match Table.get? environment "WORKERS" with
  | some "0" | some "1" => lines.map Line.text
  | _ =>
      ((lines.filter fun line => !line.fromPeer).map Line.text).mergeSort
        fun a b => decide (a ≤ b)

end HeartbeatPool.Demo
