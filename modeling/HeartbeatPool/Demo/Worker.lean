import HeartbeatPool.Demo.Greeter
import HeartbeatPool.World.Step

/-!
# Workers that share a pool

Some workers send requests to the greeter over one pool of channels.  For each request a worker
acquires a channel, sends the request, and hands the channel back, whether the request succeeded
or not; if the pool is exhausted it skips the request after a pause.

A worker moves one step at a time, and between two of its steps any other worker may move, so a
list of workers with the answers that they get is one interleaving of all of them.
-/

namespace HeartbeatPool.Demo

/-- The service that the workers call. -/
def serviceName : String := "greeter"

/-- What a worker is in the middle of. -/
inductive WorkerPhase where
  /-- Between two requests. -/
  | ready
  /-- Waiting for a heartbeat or a dial. -/
  | acquiring
  /-- Waiting for the reply to a request. -/
  | requesting
  /-- Pausing, because the pool was exhausted. -/
  | resting
  | finished
  deriving DecidableEq, Repr, Inhabited

/-- A worker. -/
structure Worker where
  /-- The number of the worker, counted from one.  It is also the key of its calls and loans. -/
  number : Nat
  /-- The requests that were sent or skipped. -/
  rounds : Nat := 0
  phase : WorkerPhase := .ready
  /-- The replies from each server. -/
  served : Table String Nat := ∅
  deriving Repr, Inhabited

/-- The workers and what they share. -/
structure Crew where
  world : World
  registry : Registry
  /-- How many requests each worker is to send. -/
  requests : Nat
  workers : List Worker
  deriving Repr, Inhabited

/-- What the outside world says to a worker that moves. -/
inductive Answer where
  /-- Nothing was asked. -/
  | silence
  /-- The answer of a dial or of a heartbeat. -/
  | verdict (verdict : Verdict)
  /-- The answer to a request. -/
  | reply (result : Except Status Greeting)

/-- The line of the log that an event amounts to. -/
def lineOf? : Event → Option Line
  | .log notice => some ⟨false, notice.level, notice.message⟩
  | _ => none

namespace Worker

/-- A line written by a worker. -/
def line (worker : Worker) (level : Level) (message : String) : Line :=
  ⟨false, level, "Worker " ++ toString worker.number ++ ": " ++ message⟩

/-- The name under which a worker sends its next request. -/
def requestName (worker : Worker) : String :=
  "worker-" ++ toString worker.number ++ "-request-" ++ toString (worker.rounds + 1)

/-- A worker after one more request was sent or skipped. -/
def nextRound (worker : Worker) : Worker :=
  { worker with rounds := worker.rounds + 1, phase := .ready }

/-- Counts one more reply from a server. -/
def count (worker : Worker) (server : String) : Worker :=
  { worker with served := worker.served.insert server ((worker.served.get? server).getD 0 + 1) }

end Worker

namespace Crew

/-- The pool of the service, if it is configured. -/
def pool (crew : Crew) : Option PoolId := crew.registry.get? serviceName

/-- Replaces a worker. -/
def setWorker (crew : Crew) (index : Nat) (worker : Worker) : Crew :=
  { crew with workers := crew.workers.set index worker }

/-- Lets one action of the world happen. -/
def act (crew : Crew) (action : World.Action) : Crew × List Line :=
  let (world, events) := crew.world.step action
  ({ crew with world := world }, events.filterMap lineOf?)

/-- A worker takes in what it has got for its demand: with a channel it sends its request, without
one it pauses if the pool was exhausted, and stops at any other error. -/
def takeResult (crew : Crew) (index : Nat) (worker : Worker) :
    Except Error Loan → Crew × List Line
  | .ok _ => (crew.setWorker index { worker with phase := .requesting }, [])
  | .error (.poolExhausted _) =>
      (crew.setWorker index { worker with phase := .resting },
        [worker.line .warn "pool exhausted, backing off"])
  | .error error =>
      (crew.setWorker index { worker with phase := .finished },
        [worker.line .error error.message])

/-- What the call of a worker on a pool has come to, unless it still waits. -/
def result? (crew : Crew) (worker : Worker) (id : PoolId) : Option (Except Error Loan) :=
  if crew.world.calls.contains worker.number then none
  else some (crew.world.callResult worker.number id)

/-- Where a worker is after its call on a pool has moved. -/
def afterCall (crew : Crew) (index : Nat) (worker : Worker) (id : PoolId) : Crew × List Line :=
  match crew.result? worker id with
  | none => (crew.setWorker index { worker with phase := .acquiring }, [])
  | some result => crew.takeResult index worker result

/-- A worker hands its channel back to the pool of the service. -/
def release (crew : Crew) (worker : Worker) : Crew × List Line :=
  match crew.pool with
  | none =>
      let (crew, lines) := crew.act (.refuse worker.number serviceName)
      (crew, lines ++ [worker.line .error (Error.unknownService serviceName).message])
  | some id =>
      let refused := ((crew.world.releaseError? worker.number id).map fun error =>
        worker.line .error error.message).toList
      let (crew, lines) := crew.act (.release worker.number id)
      (crew, lines ++ refused)

/-- A worker takes in the answer to its request and hands its channel back. -/
def endRequest (crew : Crew) (index : Nat) (worker : Worker)
    (result : Except Status Greeting) : Crew × List Line :=
  let (worker', line) :=
    match result with
    | .ok greeting =>
        (worker.count greeting.servedBy,
          worker.line .info (greeting.message ++ " (served by: " ++ greeting.servedBy ++ ")"))
    | .error status =>
        (worker, worker.line .error
          ("request " ++ toString (worker.rounds + 1) ++ " failed: " ++ status.describe))
  let (crew, lines) := crew.release worker
  (crew.setWorker index worker'.nextRound, line :: lines)

/-- One step of a worker.  An answer to something that was not asked changes nothing. -/
def step (crew : Crew) (index : Nat) (answer : Answer) : Crew × List Line :=
  match crew.workers[index]? with
  | none => (crew, [])
  | some worker =>
      match worker.phase, answer with
      | .ready, .silence =>
          if crew.requests ≤ worker.rounds then
            (crew.setWorker index { worker with phase := .finished }, [])
          else
            match crew.pool with
            | none =>
                let (crew, lines) := crew.act (.reportUnknown serviceName)
                let (crew, more) :=
                  crew.takeResult index worker (.error (.unknownService serviceName))
                (crew, lines ++ more)
            | some id =>
                let (crew, lines) := crew.act (.acquire worker.number id)
                let (crew, more) := crew.afterCall index worker id
                (crew, lines ++ more)
      | .acquiring, .verdict verdict =>
          match crew.pool with
          | none => (crew, [])
          | some id =>
              let (crew, lines) := crew.act (.settle worker.number verdict)
              let (crew, more) := crew.afterCall index worker id
              (crew, lines ++ more)
      | .requesting, .reply result => crew.endRequest index worker result
      | .resting, .silence => (crew.setWorker index worker.nextRound, [])
      | _, _ => (crew, [])

/-- Some workers move, one after the other. -/
def run (crew : Crew) : List (Nat × Answer) → Crew × List Line
  | [] => (crew, [])
  | (index, answer) :: rest =>
      let (crew, lines) := crew.step index answer
      let (crew, more) := crew.run rest
      (crew, lines ++ more)

/-- Adds the counts of one table to those of another. -/
def addCounts (totals : Table String Nat) (served : Table String Nat) : Table String Nat :=
  served.toList.foldl
    (fun totals (server, count) => totals.insert server ((totals.get? server).getD 0 + count))
    totals

/-- The replies from each server to all workers. -/
def totals (crew : Crew) : Table String Nat :=
  crew.workers.foldl (fun totals worker => addCounts totals worker.served) ∅

end Crew

end HeartbeatPool.Demo
