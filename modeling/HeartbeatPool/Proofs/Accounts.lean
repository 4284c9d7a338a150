import HeartbeatPool.Proofs.Counter
import HeartbeatPool.Proofs.Finishing
import HeartbeatPool.Proofs.Numbers
import HeartbeatPool.Proofs.Starts

/-!
# What the client reports

The client takes its settings from the environment (`Obeys`), reads its configuration, builds its
registry, and starts its workers (`Starts`).  Whatever the greeters reply, and however the workers
are interleaved, all that they do is accounted for when they have finished (`Accounted`), and this
is what the client prints: a line for each server that has replied, with the number of its replies,
and a line for the pool, whose connections are all idle again (`Shows`).

The order of the lines about the servers is left open, as the order of a hash table is.

Main statement: `accounts_of_run`.
-/

namespace HeartbeatPool.Demo

open World (CallMoves)

/-! ## Accounts -/

/-- The settings of a client are those of the environment, or their defaults. -/
structure ClientSettings.Obeys (environment : Environment) (settings : ClientSettings) : Prop where
  path : settings.path = (environment.get? "CLIENT_CONFIG").getD "demos/client.json"
  workers : environment.Sets "WORKERS" 64 4 settings.workers
  requests : environment.Sets "REQUEST_COUNT" 32 10 settings.requests
  perEndpoint : environment.Sets "CONNECTIONS_PER_ENDPOINT" 64 2 settings.perEndpoint

/-- The line that opens a report. -/
def titleLine : Line := ⟨false, .info, "\n=== Pooled Requests Summary ==="⟩

/-- The line before the workers start. -/
def sendingLine (settings : ClientSettings) : Line :=
  ⟨false, .info, "Sending " ++ toString settings.requests ++ " requests from each of " ++
    toString settings.workers ++ " workers...\n"⟩

/-- A report shows the servers that have replied, each once and with the number of its replies, and
a pool whose live connections are all idle. -/
structure Shows (settings : ClientSettings) (pool : Pool) (endings : List (Nat × Ending))
    (counts : List (String × Nat)) (live : Nat) (lines : List Line) : Prop where
  distinct : (counts.map Prod.fst).Nodup
  replies : ∀ server count, (server, count) ∈ counts ↔
    0 < count ∧ count = endings.countP fun ending => ending.2 = .reply server
  sum : (counts.map Prod.snd).sum + endings.countP (fun ending => ending.2.isFailure) +
    endings.countP (fun ending => ending.2 = .exhausted) = settings.workers * settings.requests
  /-- The counts fit into words of 32 bits. -/
  small : ∀ pair ∈ counts, pair.2 < 2 ^ 32
  live_le : live ≤ pool.capacity
  lines_eq : lines = titleLine ::
    (counts.map fun pair => ⟨false, .info, pair.1 ++ ": " ++ toString pair.2 ++ " requests"⟩) ++
      [⟨false, .info, "Pool `" ++ pool.name ++ "`: " ++ toString live ++ " live, " ++
        toString live ++ " idle, capacity " ++ toString pool.capacity⟩]

/-- All that the workers have done is accounted for when they have finished. -/
structure Accounted (settings : ClientSettings) (id : PoolId) (pool : Pool)
    (endings : List (Nat × Ending)) (reached : Crew) : Prop where
  /-- Each worker has ended each of its rounds once. -/
  rounds : ∀ index < settings.workers,
    endings.countP (fun ending => ending.1 = index) = settings.requests
  totals : ∀ server, (reached.totals.get? server).getD 0 =
    endings.countP fun ending => ending.2 = .reply server
  returned : ∀ key, reached.world.calls.get? key = none ∧ reached.world.loans.get? key = none
  report : ∃ counts pool', reached.world.pools[id]? = some pool' ∧
    pool'.idleConnections = pool'.live ∧
    Shows settings pool endings counts pool'.live (summary reached)

/-- What is true of the workers and of their pool after some moves. -/
structure Served (settings : ClientSettings) (id : PoolId) (pool : Pool) (crew : Crew)
    (moves : List (Nat × Answer)) (reached : Crew) : Prop where
  /-- A worker that asks for a connection gets one, or is told that the pool is exhausted; no other
  error comes to it. -/
  acquires : ∀ (index : Nat) (worker : Worker) (answer : Answer) (action : World.Action),
    reached.workers[index]? = some worker → reached.actionOf? index answer = some action →
    action.call? = some worker.number →
    CallMoves worker.number id pool (reached.world.step action).1 (reached.world.step action).2 ∧
      ∀ error, (reached.withWorld (reached.world.step action).1).result? worker id =
        some (.error error) → error = .poolExhausted pool.name
  /-- Every release succeeds, and the pool keeps the connection. -/
  releases : ∀ worker ∈ reached.workers, worker.phase = .requesting →
    reached.world.releaseError? worker.number id = none ∧
      (reached.world.step (.release worker.number id)).2 = []
  rounds : ∀ (index : Nat) (worker : Worker), reached.workers[index]? = some worker →
    Crew.ended worker = (crew.endings moves).countP (fun ending => ending.1 = index) ∧
      Crew.InRounds settings.requests worker
  /-- A worker that is answered often enough has finished. -/
  answered : ∀ index < settings.workers, crew.awaited index moves ≤ Outside.stepBound crew
  accounts : (∀ worker ∈ reached.workers, worker.phase = .finished) →
    Accounted settings id pool (crew.endings moves) reached

/-- What is true of the workers after some moves if there is no pool for them. -/
structure Idle (reached : Crew) : Prop where
  totals : reached.totals = ∅
  report : summary reached = [titleLine]
  /-- Each worker stops at its first move, with an error if it was to send any requests. -/
  stops : ∀ (index : Nat) (worker : Worker), reached.workers[index]? = some worker →
    worker.rounds = 0 ∧ (worker.phase = .finished ∨ worker.phase = .ready ∧
      ∃ lines, reached.step index .silence =
          (reached.setWorker index { worker with phase := .finished }, lines) ∧
        (0 < reached.requests →
          worker.line .error (Error.unknownService serviceName).message ∈ lines))

/-- What a client comes to: its configuration or its registry is refused, or its workers move until
all of them have finished, and then it reports. -/
inductive Comes (settings : ClientSettings) (order : ServiceOrder)
    (read : String → Except ReadFault String) (peers : List Peer) :
    List Line × Option Error → Prop where
  | unread {events : List Event} {error : Error}
      (hread : ClientConfig.ofFile settings.path (read settings.path) = (events, .error error)) :
      Comes settings order read peers (events.filterMap lineOf?, some error)
  | unbuilt {events : List Event} {config : ClientConfig} {built : Outside × World}
      {error : Error}
      (hread : ClientConfig.ofFile settings.path (read settings.path) = (events, .ok config))
      (hbuilt : buildRegistry ⟨peers, events.filterMap lineOf?⟩ order settings config =
        (built, .error error)) :
      Comes settings order read peers (built.1.lines, some error)
  | reports {events : List Event} {config : ClientConfig} {built : Outside × World}
      {registry : Registry} {moves : List (Nat × Answer)} {crew : Crew} {written : List Line}
      (hread : ClientConfig.ofFile settings.path (read settings.path) = (events, .ok config))
      (hbuilt : buildRegistry ⟨peers, events.filterMap lineOf?⟩ order settings config =
        (built, .ok registry))
      (hcrew : crew = startCrew settings built.2 registry)
      (hfinished : ∀ worker ∈ (crew.run moves).1.workers, worker.phase = .finished)
      -- what the workers write is in the log, in its order
      (hwritten : (crew.run moves).2.Sublist written) :
      Comes settings order read peers
        (built.1.lines ++ sendingLine settings :: written ++ summary (crew.run moves).1, none)

/-! ## Workers with a pool -/

section

variable {crew : Crew} {settings : ClientSettings} {config : ClientConfig} {id : PoolId}
  {pool : Pool}

/-- The lines about the servers are those of the totals, in some order. -/
theorem exists_serverSummary (crew : Crew) : ∃ counts : List (String × Nat),
    counts.Perm crew.totals.toList ∧
    serverSummary crew =
      counts.map fun pair => ⟨false, .info, pair.1 ++ ": " ++ toString pair.2 ++ " requests"⟩ := by
  let line (pair : String × Nat) : Line :=
    ⟨false, .info, pair.1 ++ ": " ++ toString pair.2 ++ " requests"⟩
  let before (pair other : String × Nat) : Bool := decide ((line pair).text ≤ (line other).text)
  refine ⟨crew.totals.toList.mergeSort before, List.mergeSort_perm .., ?_⟩
  exact (List.map_mergeSort (f := line) (r := before) fun _ _ _ _ => rfl).symm

/-- When all workers have finished, all connections of the pool are idle. -/
theorem Crew.Manned.settled (h : crew.Manned id pool)
    (hfinished : ∀ worker ∈ crew.workers, worker.phase = .finished) :
    (∀ key, crew.world.calls.get? key = none ∧ crew.world.loans.get? key = none) ∧
      ∃ pool', crew.world.pools[id]? = some pool' ∧ pool'.identity = pool.identity ∧
        pool'.live = pool'.idleConnections ∧ pool'.live ≤ pool.capacity := by
  have hnothing (key : Key) :
      crew.world.calls.get? key = none ∧ crew.world.loans.get? key = none := by
    by_cases hkey : ∃ worker ∈ crew.workers, worker.number = key
    · obtain ⟨worker, hmem, rfl⟩ := hkey
      have hholds := h.holds worker hmem
      unfold Holds at hholds
      rwa [hfinished worker hmem] at hholds
    · exact h.strangers key fun worker hmem heq => hkey ⟨worker, hmem, heq⟩
  obtain ⟨pool', hpool', hsame⟩ := h.ground.same
  have horderly := h.ground.orderly.pool hpool'
  have hlive := horderly.live_eq hpool'
  have hidle := horderly.sized.idleConnections_eq
  -- nobody holds anything of the pool, so all that is live is idle
  have hprobing : crew.world.probing id = 0 := World.probing_eq_zero fun key call hcall => by
    cases (hnothing key).1.symm.trans hcall
  have hlent : crew.world.lent id = 0 := World.lent_eq_zero fun key loan hloan => by
    cases (hnothing key).2.symm.trans hloan
  refine ⟨hnothing, pool', hpool', hsame, by omega, ?_⟩
  rw [← Pool.capacity_eq hsame]
  exact horderly.live_le hpool'

namespace Built

variable (hbuilt : Built config settings crew) (hmanned : crew.Manned id pool)
include hbuilt hmanned

/-- The rounds of a worker are those that have ended. -/
theorem ended_run (moves : List (Nat × Answer)) {index : Nat} {worker : Worker}
    (hworker : (crew.run moves).1.workers[index]? = some worker) :
    Crew.ended worker = (crew.endings moves).countP fun ending => ending.1 = index := by
  have hlt := (List.getElem?_eq_some_iff.mp hworker).1
  rw [hmanned.length_run] at hlt
  have hstart := List.getElem?_eq_getElem hlt
  obtain ⟨worker', hworker', hended⟩ := hmanned.at_run Crew.tallies_ended hstart moves
  cases hworker.symm.trans hworker'
  have hzero : Crew.ended crew.workers[index] = 0 := by
    rw [hbuilt.worker_eq hstart]
    rfl
  rw [hended, hzero, Nat.zero_add, countP_eq_sum]
  simp

/-- What all workers have counted of some endings. -/
theorem total_run {f : Worker → Nat} {p : Ending → Bool}
    (ht : Crew.Tallies f fun ending => if p ending then 1 else 0)
    (hzero : ∀ number, f { number } = 0) (moves : List (Nat × Answer)) :
    ((crew.run moves).1.workers.map f).sum =
      (crew.endings moves).countP fun ending => p ending.2 := by
  have hstart : (crew.workers.map f).sum = 0 := by
    refine List.sum_eq_zero (List.forall_mem_map.mpr fun worker hmem => ?_)
    rw [hbuilt.eq_of_mem hmem]
    exact hzero _
  rw [hmanned.total_run ht, hstart, Nat.zero_add, countP_eq_sum]

theorem ended_of_finished (moves : List (Nat × Answer)) {worker : Worker}
    (hmem : worker ∈ (crew.run moves).1.workers) (hphase : worker.phase = .finished) :
    Crew.ended worker = settings.requests := by
  have hin := (hmanned.run moves).inRounds worker hmem
  rw [Crew.InRounds, hphase, hmanned.requests_run, hbuilt.requests_eq] at hin
  rw [Crew.ended, hphase, hin]
  rfl

theorem get?_totals_run (moves : List (Nat × Answer)) (server : String) :
    ((crew.run moves).1.totals.get? server).getD 0 =
      (crew.endings moves).countP fun ending => ending.2 = .reply server := by
  rw [Crew.get?_totals]
  exact hbuilt.total_run hmanned (Crew.tallies_replies server) (fun _ => rfl) moves

/-- When all workers have finished, every round of every worker has ended. -/
theorem length_endings (moves : List (Nat × Answer))
    (hfinished : ∀ worker ∈ (crew.run moves).1.workers, worker.phase = .finished) :
    (crew.endings moves).length = settings.workers * settings.requests := by
  have hended : ((crew.run moves).1.workers.map Crew.ended).sum = (crew.endings moves).length := by
    have htotal := @total_run crew settings config id pool hbuilt hmanned Crew.ended
      (fun _ => true) Crew.tallies_ended (fun _ => rfl) moves
    rw [htotal]
    simp
  have hrounds : ∀ worker ∈ (crew.run moves).1.workers, Crew.ended worker = settings.requests :=
    fun worker hmem => hbuilt.ended_of_finished hmanned moves hmem (hfinished worker hmem)
  rw [← hended, List.map_congr_left hrounds, ← hbuilt.length_workers, ← hmanned.length_run moves]
  simp

/-- What the report shows when all workers have finished. -/
theorem shows (hfit : settings.workers * settings.requests < 2 ^ 32)
    (moves : List (Nat × Answer))
    (hfinished : ∀ worker ∈ (crew.run moves).1.workers, worker.phase = .finished)
    {pool' : Pool} (hpool' : (crew.run moves).1.world.pools[id]? = some pool')
    (hsame : pool'.identity = pool.identity) (hlive : pool'.live = pool'.idleConnections)
    (hle : pool'.live ≤ pool.capacity) :
    ∃ counts, Shows settings pool (crew.endings moves) counts pool'.live
      (summary (crew.run moves).1) := by
  have hlength := hbuilt.length_endings hmanned moves hfinished
  have hstart : ∀ worker ∈ crew.workers, worker.served.Positive := fun worker hmem => by
    rw [hbuilt.eq_of_mem hmem]
    nofun
  -- no count is zero, so a server is in the totals exactly if it has replied
  have hpositive := Crew.positive_totals (hmanned.positive_run hstart moves)
  obtain ⟨counts, hperm, hlines⟩ := exists_serverSummary (crew.run moves).1
  have hreplies (server : String) (count : Nat) : (server, count) ∈ counts ↔
      0 < count ∧ count = (crew.endings moves).countP fun ending => ending.2 = .reply server := by
    rw [hperm.mem_iff, hpositive.mem_toList_iff, hbuilt.get?_totals_run hmanned]
  refine ⟨counts, ?_, hreplies, ?_, ?_, hle, ?_⟩
  · exact (hperm.map Prod.fst).nodup_iff.mpr (crew.run moves).1.totals.nodup
  · have hsum : (counts.map Prod.snd).sum =
        (crew.endings moves).countP fun ending => ending.2.isReply :=
      ((hperm.map Prod.snd).sum_nat.trans (Crew.total_totals _)).trans
        (hbuilt.total_run hmanned Crew.tallies_allReplies (fun _ => rfl) moves)
    rw [hsum, Ending.countP_add, hlength]
  · -- no count exceeds the number of endings, which fits into a word of 32 bits
    rintro ⟨server, count⟩ hmem
    have hcount := ((hreplies server count).mp hmem).2
    have hle := (crew.endings moves).countP_le_length
      (p := fun ending => decide (ending.2 = .reply server))
    dsimp only
    omega
  · -- the line about the pool
    have hat : (crew.run moves).1.world.pools.getD id default = pool' := by
      rw [List.getD_eq_getElem?_getD, hpool', Option.getD_some]
    rw [summary, hlines, (hmanned.run moves).configured, Option.map_some, Option.map_some, hat,
      Pool.name_eq hsame, Pool.capacity_eq hsame, ← hlive]
    rfl

/-- All that the workers have done is accounted for when they have finished. -/
theorem accounted (hfit : settings.workers * settings.requests < 2 ^ 32)
    (moves : List (Nat × Answer))
    (hfinished : ∀ worker ∈ (crew.run moves).1.workers, worker.phase = .finished) :
    Accounted settings id pool (crew.endings moves) (crew.run moves).1 := by
  obtain ⟨hnothing, pool', hpool', hsame, hlive, hle⟩ := (hmanned.run moves).settled hfinished
  obtain ⟨counts, hshows⟩ :=
    hbuilt.shows hmanned hfit moves hfinished hpool' hsame hlive hle
  refine ⟨fun index hindex => ?_, hbuilt.get?_totals_run hmanned moves, hnothing, counts, pool',
    hpool', hlive.symm, hshows⟩
  have hlt : index < (crew.run moves).1.workers.length := by
    rwa [hmanned.length_run, hbuilt.length_workers]
  have hmem := List.getElem_mem hlt
  rw [← hbuilt.ended_run hmanned moves (List.getElem?_eq_getElem hlt)]
  exact hbuilt.ended_of_finished hmanned moves hmem (hfinished _ hmem)

/-- After any moves the workers and their pool are as they should be. -/
theorem served (hfit : settings.workers * settings.requests < 2 ^ 32)
    (moves : List (Nat × Answer)) :
    Served settings id pool crew moves (crew.run moves).1 where
  acquires index worker answer action hworker haction hcall := by
    have hreached := hmanned.run moves
    have hasks := Crew.asks_of_actionOf? hreached.configured hworker haction hcall
    exact ⟨hreached.callMoves (List.mem_of_getElem? hworker) hasks,
      fun error hresult => hreached.error_eq hasks hresult⟩
  releases worker hmem hphase := by
    obtain ⟨herror, hevents, -⟩ := (hmanned.run moves).release hmem hphase
    exact ⟨herror, hevents⟩
  rounds index worker hworker := by
    refine ⟨hbuilt.ended_run hmanned moves hworker, ?_⟩
    have hin := (hmanned.run moves).inRounds worker (List.mem_of_getElem? hworker)
    rwa [hmanned.requests_run, hbuilt.requests_eq] at hin
  answered index hindex := by
    rw [← hbuilt.length_workers] at hindex
    have hworker := List.getElem?_eq_getElem hindex
    obtain ⟨worker', -, hle⟩ := hmanned.awaited_add_le hworker moves
    have hready := hbuilt.ready (List.getElem_mem hindex)
    exact Nat.le_trans (Nat.le_trans (Nat.le_add_right ..) hle)
      (Outside.movesLeft_le_stepBound hmanned hready)
  accounts := hbuilt.accounted hmanned hfit moves

end Built

end

/-! ## Workers without a pool -/

namespace Built

variable {crew : Crew} {settings : ClientSettings} {config : ClientConfig}
  (hbuilt : Built config settings crew)
include hbuilt

theorem unserved (hnone : crew.pool = none) : crew.Unserved :=
  ⟨hnone, fun worker hmem => by
    rw [hbuilt.eq_of_mem hmem]
    exact ⟨rfl, rfl, .inl rfl⟩⟩

theorem idle (hnone : crew.pool = none) (moves : List (Nat × Answer)) :
    Idle (crew.run moves).1 := by
  have hreached := (hbuilt.unserved hnone).run moves
  refine ⟨hreached.totals_eq, ?_, fun index worker hworker => ?_⟩
  · -- there are no totals to print
    have hservers : serverSummary (crew.run moves).1 = [] := by
      unfold serverSummary
      rw [hreached.totals_eq]
      exact List.mergeSort_nil
    rw [summary, hservers, hreached.pool]
    rfl
  · obtain ⟨hrounds, -, hphase⟩ := hreached.workers worker (List.mem_of_getElem? hworker)
    exact ⟨hrounds, hphase.symm.imp_right fun hready =>
      ⟨hready, hreached.step_ready hworker hready⟩⟩

/-- With a pool or without, the workers get to their ends. -/
theorem completes : crew.Completes := by
  cases hpool : crew.pool with
  | none => exact (hbuilt.unserved hpool).completes
  | some id =>
      obtain ⟨pool, -, hmanned⟩ := hbuilt.manned hpool
      exact hmanned.completes

end Built

/-! ## The client -/

theorem ClientSettings.obeys_ofEnvironment (environment : Environment) :
    (ofEnvironment environment).Obeys environment where
  path := rfl
  workers := environment.sets_nat? "WORKERS" 64 4
  requests := environment.sets_nat? "REQUEST_COUNT" 32 10
  perEndpoint := environment.sets_nat? "CONNECTIONS_PER_ENDPOINT" 64 2

theorem comes_runClient (order : ServiceOrder) (environment : Environment)
    (read : String → Except ReadFault String) (peers : List Peer) :
    Comes (ClientSettings.ofEnvironment environment) order read peers
      (runClient order environment read peers) := by
  unfold runClient
  generalize ClientSettings.ofEnvironment environment = settings
  obtain ⟨events, loaded, hread⟩ : ∃ events loaded,
      ClientConfig.ofFile settings.path (read settings.path) = (events, loaded) := ⟨_, _, rfl⟩
  dsimp only
  rw [hread]
  cases loaded with
  | error error => exact .unread hread
  | ok config =>
      obtain ⟨built, result, hbuilt⟩ : ∃ built result,
          buildRegistry ⟨peers, events.filterMap lineOf?⟩ order settings config =
            (built, result) := ⟨_, _, rfl⟩
      dsimp only
      rw [show buildRegistry (Outside.write { peers } (events.filterMap lineOf?)) order settings
        config = (built, result) from hbuilt]
      cases result with
      | error error => exact .unbuilt hread hbuilt
      | ok registry =>
          -- the crew of the client is one that starts
          have hstart := (Starts.prompt hbuilt).built
          obtain ⟨moves, hrun, ⟨written, hlines, hsub⟩, hfinished⟩ :=
            (built.1.write [sendingLine settings]).runWorkers_finishes hstart.completes
              fun worker => hstart.ready
          have hcomes := Comes.reports hread hbuilt rfl hfinished hsub
          -- what the workers write follows the line about what is sent
          have hlog : ((built.1.write [sendingLine settings]).runWorkers
              (startCrew settings built.2 registry)).1.lines =
                built.1.lines ++ sendingLine settings :: written :=
            hlines.trans (List.append_assoc ..)
          rw [← hrun, ← hlog] at hcomes
          exact hcomes

/-- The client returns every loan and counts every request, whatever its environment and its
configuration, however its dials are answered when it builds its registry, whatever the peers
reply, and in whatever order the workers move.

If the service is configured, a worker that asks for a connection gets one or is told that the
pool is exhausted, every release succeeds, and each worker ends all its rounds, each of them with a
reply, with a failed request or with an exhausted pool.  When all have finished, the totals that
are printed are the numbers of replies of the servers, and all live connections are idle.  They do
finish when each is answered often enough; so they do if one after the other moves.

If the service is not configured, nobody sends a request: each worker stops at its first move, with
an error if it was to send any, and no totals are printed.

The client itself reports so, unless its configuration or its registry is refused. -/
theorem accounts_of_run (environment : Environment)
    (hfit : (ClientSettings.ofEnvironment environment).workers *
      (ClientSettings.ofEnvironment environment).requests < 2 ^ 32) :
    let settings := ClientSettings.ofEnvironment environment
    settings.Obeys environment ∧
    (∀ (config : ClientConfig) (crew : Crew), Starts settings config crew →
      (∀ moves : List (Nat × Answer),
        (config.endpointsByService.get? serviceName ≠ none → ∃ id pool, crew.pool = some id ∧
          crew.world.pools[id]? = some pool ∧
          Served settings id pool crew moves (crew.run moves).1) ∧
        (config.endpointsByService.get? serviceName = none → Idle (crew.run moves).1)) ∧
      ∀ outside : Outside, ∃ moves, (outside.runWorkers crew).2 = (crew.run moves).1 ∧
        ∀ worker ∈ (crew.run moves).1.workers, worker.phase = .finished) ∧
    ∀ (order : ServiceOrder) (read : String → Except ReadFault String) (peers : List Peer),
      Comes settings order read peers (runClient order environment read peers) := by
  intro settings
  refine ⟨ClientSettings.obeys_ofEnvironment environment, fun config crew hstarts => ?_,
    fun order => comes_runClient order environment⟩
  have hbuilt := hstarts.built
  refine ⟨fun moves => ⟨fun hconfigured => ?_, fun hunconfigured => ?_⟩, fun outside => ?_⟩
  · obtain ⟨id, hid⟩ := Option.ne_none_iff_exists'.mp (mt hbuilt.unconfigured.mp hconfigured)
    obtain ⟨pool, hpool, hmanned⟩ := hbuilt.manned hid
    exact ⟨id, pool, hid, hpool, hbuilt.served hmanned hfit moves⟩
  · exact hbuilt.idle (hbuilt.unconfigured.mpr hunconfigured) moves
  · obtain ⟨moves, hrun, -, hfinished⟩ :=
      outside.runWorkers_finishes hbuilt.completes fun worker => hbuilt.ready
    exact ⟨moves, hrun, hfinished⟩

/-- A greeter with one connection for two workers with one request each. -/
def soleGreeter : Outside := { peers := [{ address := "a:1", greeter := { name := "one" } }] }

def soleConfig : ClientConfig := { entries := [{ service := serviceName, address := "a:1" }] }

def twoWorkers : Environment :=
  .ofList [("CONNECTIONS_PER_ENDPOINT", "1"), ("WORKERS", "2"), ("REQUEST_COUNT", "1")]

def soleCrew : Crew :=
  let settings := ClientSettings.ofEnvironment twoWorkers
  let built := buildRegistry soleGreeter .ofFile settings soleConfig
  startCrew settings built.1.2 (match built.2 with | .ok registry => registry | .error _ => ∅)

/-- The second worker asks while the first has the connection. -/
def overlapping : List (Nat × Answer) :=
  [(0, .silence), (0, .verdict .success), (1, .silence), (0, .reply (.ok ⟨"Hello!", "one"⟩)),
    (1, .silence), (1, .silence), (0, .silence)]

/-- Of two rounds one ends with a reply and one with an exhausted pool. -/
theorem accounts_of_overlapping :
    (soleCrew.endings overlapping).map Prod.fst = [1, 0] ∧
      summary (soleCrew.run overlapping).1 = [titleLine, ⟨false, .info, "one: 1 requests"⟩,
        ⟨false, .info, "Pool `greeter`: 1 live, 1 idle, capacity 1"⟩] ∧
      ∃ pool : Pool, Accounted (.ofEnvironment twoWorkers) 0 pool (soleCrew.endings overlapping)
        (soleCrew.run overlapping).1 := by
  have hready : (match (buildRegistry soleGreeter .ofFile (.ofEnvironment twoWorkers)
      soleConfig).2 with | .ok _ => true | .error _ => false) = true := by decide +kernel
  have hstarts : Starts (.ofEnvironment twoWorkers) soleConfig soleCrew := by
    unfold soleCrew
    dsimp only
    split at hready
    · next registry hregistry =>
        exact .prompt (Prod.ext rfl hregistry)
    · cases hready
  obtain ⟨-, hcrew, -⟩ := accounts_of_run twoWorkers (by decide +kernel)
  obtain ⟨id, pool, hid, -, hserved⟩ :=
    ((hcrew soleConfig soleCrew hstarts).1 overlapping).1 (by decide +kernel)
  obtain rfl : 0 = id := Option.some.inj ((by decide +kernel : soleCrew.pool = some 0) ▸ hid)
  exact ⟨by decide +kernel, by decide +kernel, pool, hserved.accounts (by decide +kernel)⟩

end HeartbeatPool.Demo
