import HeartbeatPool.Demo.Worker
import HeartbeatPool.Proofs.Attempts

/-!
# Workers that share a pool

Between two of its moves a worker has a call under way, or a loan, or nothing, and its phase says
which (`Holds`).  Whatever the others do in the meantime, they leave that alone: calls and loans are
known by the numbers of the workers.

`Turn` tells all that a move of a worker can come to, and `Manned` is what is true of a crew however
its workers are interleaved.

Main statement: `Manned.turn`.
-/

namespace HeartbeatPool

/-- Whether an event says that a pool is exhausted. -/
def Event.isExhausted : Event → Bool
  | .log (.exhausted _) => true
  | _ => false

namespace World

variable {w w' : World} {action : Action} {account : Account} {key : Key} {id : PoolId}
  {pool : Pool} {own : List Event}

/-! ## What becomes of a call -/

/-- What a move has made of a call on a pool: it goes on waiting, it was lent a connection, or it
was told that the pool is exhausted. -/
inductive CallMoves (key : Key) (id : PoolId) (pool : Pool) (w' : World) (events : List Event) :
    Prop where
  | waits (call : Call) (hcall : w'.calls.get? key = some call) (hpool : call.pool = id)
      (hquiet : events.any Event.isExhausted = false)
  | lent (loan : Loan) (hcall : w'.calls.get? key = none) (hloan : w'.loans.get? key = some loan)
      (hpool : loan.pool = id) (hquiet : events.any Event.isExhausted = false)
  | exhausted (hcall : w'.calls.get? key = none) (hloan : w'.loans.get? key = none)
      (hseen : .log (.exhausted pool.name) ∈ events)

theorem any_isExhausted {events : List Event} {name : String}
    (hseen : .log (.exhausted name) ∈ events) : events.any Event.isExhausted = true :=
  List.any_eq_true.mpr ⟨_, hseen, rfl⟩

/-- A call on a pool that somebody holds waits for the first heartbeat, or is told at once that the
pool is exhausted. -/
theorem callMoves_of_acquire (h : w.Grounded id pool own) (hcall : w.calls.get? key = none)
    (hloan : w.loans.get? key = none) :
    CallMoves key id pool (w.step (.acquire key id)).1 (w.step (.acquire key id)).2 := by
  obtain ⟨pool', hpool', hsame⟩ := h.same
  cases hidle : pool'.idle with
  | nil =>
      rw [acquire_of_nil hcall hloan h.held hpool' hidle, Pool.name_eq hsame]
      exact .exhausted hcall hloan List.mem_cons_self
  | cons entry rest =>
      rw [acquire_of_cons hcall hloan h.held hpool' hidle]
      exact .waits _ (Table.get?_insert_self ..) rfl rfl

/-- An answer to a call leads to another wait, to a loan, or to the end. -/
theorem callMoves_of_settle (h : w.Grounded id pool own) {call : Call}
    (hcall : w.calls.get? key = some call) (hid : call.pool = id) (verdict : Verdict) :
    CallMoves key id pool (w.step (.settle key verdict)).1 (w.step (.settle key verdict)).2 := by
  subst hid
  obtain ⟨pool', hpool', hsame⟩ := h.same
  have hloan := h.orderly.linked.not_lent hcall
  cases hphase : call.phase with
  | probing entry =>
      cases verdict with
      | success =>
          rw [settle_of_sound hcall hpool' h.held hphase]
          exact .lent _ (Table.get?_erase_self ..) (Table.get?_insert_self ..) rfl rfl
      | failure cause =>
          rw [settle_of_sick hcall hpool' hphase]
          exact .waits _ (Table.get?_insert_self ..) rfl rfl
  | redialing entry =>
      cases verdict with
      | success =>
          rw [settle_of_dialed hcall hpool' h.held hphase]
          exact .lent _ (Table.get?_erase_self ..) (Table.get?_insert_self ..) rfl rfl
      | failure cause =>
          by_cases hlast : call.attemptsLeft = 0 ∨ pool'.idle = []
          · rw [settle_of_refused_last hcall hpool' h.held hphase hlast, Pool.name_eq hsame]
            exact .exhausted (Table.get?_erase_self ..) hloan (by simp)
          · obtain ⟨hleft, hidle⟩ := not_or.mp hlast
            obtain ⟨attemptsLeft, hleft⟩ := Nat.exists_eq_succ_of_ne_zero hleft
            obtain ⟨next, rest, hidle⟩ := List.exists_cons_of_ne_nil hidle
            rw [settle_of_refused_cons hcall hpool' hphase hleft hidle]
            exact .waits _ (Table.get?_insert_self ..) rfl rfl

/-- A call starts with no more waits than there are heartbeats and dials of all connections. -/
theorem waitsLeft_of_acquire (h : w.Grounded id pool own) (hcall : w.calls.get? key = none)
    (hloan : w.loans.get? key = none) {call : Call}
    (hcall' : (w.step (.acquire key id)).1.calls.get? key = some call) :
    call.waitsLeft ≤ 2 * pool.capacity + 2 := by
  obtain ⟨pool', hpool', hsame⟩ := h.same
  have hmost : pool'.idleConnections ≤ pool.capacity := Pool.capacity_eq hsame ▸ Nat.sub_le ..
  cases hidle : pool'.idle with
  | nil =>
      rw [acquire_of_nil hcall hloan h.held hpool' hidle, hcall] at hcall'
      cases hcall'
  | cons entry rest =>
      rw [acquire_of_cons hcall hloan h.held hpool' hidle, withProbe, Table.get?_insert_self,
        Option.some.injEq] at hcall'
      subst hcall'
      change 2 * (max pool'.idleConnections 1 - 1) + 2 ≤ _
      omega

/-- The only error of a call on a pool that somebody holds is that the pool is exhausted. -/
theorem Grounded.error_eq (h : w.Grounded id pool own) {error : Error}
    (hresult : w.callResult key id = .error error) : error = .poolExhausted pool.name := by
  obtain ⟨pool', hpool', hsame⟩ := h.same
  unfold callResult at hresult
  split at hresult
  · cases hresult
  · cases hresult
    rw [List.getD_eq_getElem?_getD, hpool', Option.getD_some, Pool.name_eq hsame]

end World

namespace Demo

open World (CallMoves)

/-! ## Moves -/

/-- Whether a worker waits for such an answer. -/
def Worker.awaits (worker : Worker) (answer : Answer) : Bool :=
  match worker.phase, answer with
  | .ready, .silence | .acquiring, .verdict _ | .requesting, .reply _ | .resting, .silence => true
  | _, _ => false

/-- How a round of a worker may end. -/
inductive Ending where
  | reply (server : String)
  | failure (status : Status)
  | exhausted
  deriving DecidableEq

/-- How a round ends with the answer to a request. -/
def Ending.ofResult : Except Status Greeting → Ending
  | .ok greeting => .reply greeting.servedBy
  | .error status => .failure status

namespace Crew

/-- The action that a move amounts to, if any. -/
def actionOf? (crew : Crew) (index : Nat) (answer : Answer) : Option World.Action :=
  match crew.workers[index]? with
  | none => none
  | some worker =>
      match worker.phase, answer with
      | .ready, .silence =>
          if crew.requests ≤ worker.rounds then none
          else some ((crew.pool.map (.acquire worker.number)).getD (.reportUnknown serviceName))
      | .acquiring, .verdict verdict => crew.pool.map fun _ => .settle worker.number verdict
      | .requesting, .reply _ => crew.pool.map (.release worker.number)
      | _, _ => none

/-- What is seen of a move. -/
def shown (crew : Crew) (index : Nat) (answer : Answer) : List Event :=
  ((crew.actionOf? index answer).elim (crew.world, []) crew.world.step).2

/-- How a move ends a round, if it does: with the answer to a request, or with a pool that turns out
to be exhausted. -/
def ending? (crew : Crew) (index : Nat) (answer : Answer) : Option Ending :=
  match crew.workers[index]?.map Worker.phase, answer with
  | some .requesting, .reply result => some (.ofResult result)
  | _, _ => if (crew.shown index answer).any Event.isExhausted then some .exhausted else none

/-- How the rounds end in a run, each with the position of its worker. -/
def endings (crew : Crew) : List (Nat × Answer) → List (Nat × Ending)
  | [] => []
  | (index, answer) :: rest =>
      ((crew.ending? index answer).toList.map fun ending => (index, ending)) ++
        (crew.step index answer).1.endings rest

/-! ## What a worker has in its hands -/

/-- A worker has under its number what its phase says: a call on the pool, a loan of the pool, or
nothing. -/
def Holds (w : World) (id : PoolId) (worker : Worker) : Prop :=
  match worker.phase with
  | .acquiring => ∃ call, w.calls.get? worker.number = some call ∧ call.pool = id
  | .requesting => ∃ loan, w.loans.get? worker.number = some loan ∧ loan.pool = id
  | _ => w.calls.get? worker.number = none ∧ w.loans.get? worker.number = none

/-- A worker that is in the middle of a round has not done all of them, and one that has finished
has. -/
def InRounds (requests : Nat) (worker : Worker) : Prop :=
  match worker.phase with
  | .ready => worker.rounds ≤ requests
  | .finished => worker.rounds = requests
  | _ => worker.rounds < requests

/-- What is true of a crew with a pool at any time. -/
structure Manned (id : PoolId) (pool : Pool) (crew : Crew) : Prop where
  ground : crew.world.Grounded id pool []
  configured : crew.pool = some id
  numbers : ∀ (index : Nat) (worker : Worker), crew.workers[index]? = some worker →
    worker.number = index + 1
  holds : ∀ worker ∈ crew.workers, Holds crew.world id worker
  inRounds : ∀ worker ∈ crew.workers, InRounds crew.requests worker
  /-- Nobody else has a call or a loan. -/
  strangers : ∀ key, (∀ worker ∈ crew.workers, worker.number ≠ key) →
    crew.world.calls.get? key = none ∧ crew.world.loans.get? key = none

/-- A worker asks for a connection, or takes in an answer to that. -/
inductive Asks (id : PoolId) (crew : Crew) (worker : Worker) : Answer → World.Action → Prop where
  | acquire (hphase : worker.phase = .ready) (hrounds : worker.rounds < crew.requests) :
      Asks id crew worker .silence (.acquire worker.number id)
  | settle (hphase : worker.phase = .acquiring) (verdict : Verdict) :
      Asks id crew worker (.verdict verdict) (.settle worker.number verdict)

/-- All that a move of a worker can come to: the change of the world, the worker afterwards, and how
its round has ended, if it has. -/
inductive Turn (id : PoolId) (pool : Pool) (crew : Crew) (worker : Worker) :
    Answer → World.Change → Worker → Option Ending → Prop where
  | unasked {answer} (hanswer : worker.awaits answer = false) :
      Turn id pool crew worker answer (crew.world, []) worker none
  | stop (hphase : worker.phase = .ready) (hrounds : worker.rounds = crew.requests) :
      Turn id pool crew worker .silence (crew.world, []) { worker with phase := .finished } none
  | waits {answer action} (hasks : Asks id crew worker answer action) (call : Call)
      (hcall : (crew.world.step action).1.calls.get? worker.number = some call)
      (hpool : call.pool = id) :
      Turn id pool crew worker answer (crew.world.step action)
        { worker with phase := .acquiring } none
  | lent {answer action} (hasks : Asks id crew worker answer action) (loan : Loan)
      (hloan : (crew.world.step action).1.loans.get? worker.number = some loan)
      (hpool : loan.pool = id) :
      Turn id pool crew worker answer (crew.world.step action)
        { worker with phase := .requesting } none
  | exhausted {answer action} (hasks : Asks id crew worker answer action)
      (hcall : (crew.world.step action).1.calls.get? worker.number = none)
      (hloan : (crew.world.step action).1.loans.get? worker.number = none)
      (hseen : .log (.exhausted pool.name) ∈ (crew.world.step action).2) :
      Turn id pool crew worker answer (crew.world.step action)
        { worker with phase := .resting } (some .exhausted)
  | replied (hphase : worker.phase = .requesting) (greeting : Greeting)
      (hcall : (crew.world.step (.release worker.number id)).1.calls.get? worker.number = none)
      (hloan : (crew.world.step (.release worker.number id)).1.loans.get? worker.number = none) :
      Turn id pool crew worker (.reply (.ok greeting))
        (crew.world.step (.release worker.number id))
        (worker.count greeting.servedBy).nextRound (some (.reply greeting.servedBy))
  | failed (hphase : worker.phase = .requesting) (status : Status)
      (hcall : (crew.world.step (.release worker.number id)).1.calls.get? worker.number = none)
      (hloan : (crew.world.step (.release worker.number id)).1.loans.get? worker.number = none) :
      Turn id pool crew worker (.reply (.error status))
        (crew.world.step (.release worker.number id)) worker.nextRound (some (.failure status))
  | rested (hphase : worker.phase = .resting) :
      Turn id pool crew worker .silence (crew.world, []) worker.nextRound none

variable {crew : Crew} {index : Nat} {worker worker' : Worker} {answer : Answer} {id : PoolId}
  {pool : Pool} {action : World.Action} {change : World.Change} {ending : Option Ending}

/-- The crew after the world has changed. -/
def withWorld (crew : Crew) (w : World) : Crew := { crew with world := w }

theorem setWorker_self (hworker : crew.workers[index]? = some worker) :
    crew.setWorker index worker = crew := by
  obtain ⟨hlt, rfl⟩ := List.getElem?_eq_some_iff.mp hworker
  rw [setWorker, List.set_getElem_self]

/-- A move of a worker is one of its turns, and changes nothing but the world and the worker. -/
def Moves (id : PoolId) (pool : Pool) (crew : Crew) (index : Nat) (worker : Worker)
    (answer : Answer) : Prop :=
  ∃ change worker',
    change = (crew.actionOf? index answer).elim (crew.world, []) crew.world.step ∧
    Turn id pool crew worker answer change worker' (crew.ending? index answer) ∧
    (crew.step index answer).1 = (crew.withWorld change.1).setWorker index worker'

theorem step_of_none (hworker : crew.workers[index]? = none) (answer : Answer) :
    crew.step index answer = (crew, []) ∧ crew.actionOf? index answer = none ∧
      crew.ending? index answer = none := by
  have haction : crew.actionOf? index answer = none := by simp [actionOf?, hworker]
  refine ⟨by simp [Crew.step, hworker], haction, ?_⟩
  simp [ending?, hworker, shown, haction]

/-- An answer to something that was not asked changes nothing. -/
theorem step_of_unasked (hworker : crew.workers[index]? = some worker)
    (hanswer : worker.awaits answer = false) :
    crew.step index answer = (crew, []) ∧ crew.actionOf? index answer = none ∧
      crew.ending? index answer = none := by
  unfold Worker.awaits at hanswer
  unfold ending? shown step actionOf?
  cases hphase : worker.phase <;> cases answer <;> simp_all

theorem step_of_asks (hconfigured : crew.pool = some id)
    (hworker : crew.workers[index]? = some worker) (hasks : Asks id crew worker answer action) :
    crew.actionOf? index answer = some action ∧
      (crew.step index answer).1 =
        ((crew.withWorld (crew.world.step action).1).afterCall index worker id).1 ∧
      crew.ending? index answer =
        if (crew.world.step action).2.any Event.isExhausted then some .exhausted else none := by
  cases hasks with
  | acquire hphase hrounds =>
      have hgoes : ¬ crew.requests ≤ worker.rounds := Nat.not_le.mpr hrounds
      have haction : crew.actionOf? index .silence = some (.acquire worker.number id) := by
        simp [actionOf?, hworker, hphase, hgoes, hconfigured]
      refine ⟨haction, ?_, ?_⟩
      · simp only [step, hworker, hphase, hgoes, hconfigured, if_false]
        rfl
      · simp [ending?, shown, hworker, hphase, haction]
  | settle hphase verdict =>
      have haction : crew.actionOf? index (.verdict verdict) =
          some (.settle worker.number verdict) := by
        simp [actionOf?, hworker, hphase, hconfigured]
      refine ⟨haction, ?_, ?_⟩
      · simp only [step, hworker, hphase, hconfigured]
        rfl
      · simp [ending?, shown, hworker, hphase, haction]

/-- An action on the call of a worker is what the worker asks. -/
theorem asks_of_actionOf? (hconfigured : crew.pool = some id)
    (hworker : crew.workers[index]? = some worker)
    (haction : crew.actionOf? index answer = some action)
    (hcall : action.call? = some worker.number) : Asks id crew worker answer action := by
  unfold actionOf? at haction
  rw [hworker] at haction
  dsimp only at haction
  split at haction
  · next hphase =>
      split at haction
      · cases haction
      · next hrounds =>
          rw [hconfigured] at haction
          cases haction
          exact .acquire hphase (Nat.lt_of_not_le hrounds)
  · next verdict hphase =>
      rw [hconfigured] at haction
      cases haction
      exact .settle hphase verdict
  · -- a release is no action on a call
    rw [hconfigured] at haction
    cases haction
    cases hcall
  · cases haction

/-- A worker whose call has moved is where the call has led it. -/
theorem turn_of_asks (hasks : Asks id crew worker answer action)
    (hmoves : CallMoves worker.number id pool (crew.world.step action).1
      (crew.world.step action).2) :
    ∃ worker', Turn id pool crew worker answer (crew.world.step action) worker'
        (if (crew.world.step action).2.any Event.isExhausted then some .exhausted else none) ∧
      ((crew.withWorld (crew.world.step action).1).afterCall index worker id).1 =
        (crew.withWorld (crew.world.step action).1).setWorker index worker' := by
  unfold afterCall result? World.callResult Table.contains
  rw [show (crew.withWorld (crew.world.step action).1).world = (crew.world.step action).1 from rfl]
  cases hmoves with
  | waits call hcall hpool hquiet =>
      refine ⟨_, ?_, by rw [hcall]; rfl⟩
      rw [hquiet]
      exact .waits hasks call hcall hpool
  | lent loan hcall hloan hpool hquiet =>
      refine ⟨_, ?_, by rw [hcall, hloan]; rfl⟩
      rw [hquiet]
      exact .lent hasks loan hloan hpool
  | exhausted hcall hloan hseen =>
      refine ⟨_, ?_, by rw [hcall, hloan]; rfl⟩
      rw [World.any_isExhausted hseen]
      exact .exhausted hasks hcall hloan hseen

namespace Manned

variable (h : Manned id pool crew)
include h

/-- What a worker with a call asks is answered as calls are. -/
theorem callMoves (hmem : worker ∈ crew.workers) (hasks : Asks id crew worker answer action) :
    CallMoves worker.number id pool (crew.world.step action).1 (crew.world.step action).2 := by
  have hholds := h.holds worker hmem
  unfold Holds at hholds
  cases hasks with
  | acquire hphase =>
      rw [hphase] at hholds
      exact World.callMoves_of_acquire h.ground hholds.1 hholds.2
  | settle hphase verdict =>
      rw [hphase] at hholds
      obtain ⟨call, hcall, hpool⟩ := hholds
      exact World.callMoves_of_settle h.ground hcall hpool verdict

omit h in
theorem keeps_of_asks (hasks : Asks id crew worker answer action) : action ≠ .letGo id := by
  cases hasks <;> nofun

/-- No other error comes to a worker than that the pool is exhausted. -/
theorem error_eq (hasks : Asks id crew worker answer action) {error : Error}
    (hresult : (crew.withWorld (crew.world.step action).1).result? worker id =
      some (.error error)) : error = .poolExhausted pool.name := by
  unfold result? at hresult
  split at hresult
  · cases hresult
  · exact (h.ground.step (keeps_of_asks hasks)).error_eq (Option.some.inj hresult)

/-- A pool takes back what a worker has from it: the release succeeds, the connection is not closed,
and the worker has nothing left. -/
theorem release (hmem : worker ∈ crew.workers) (hphase : worker.phase = .requesting) :
    crew.world.releaseError? worker.number id = none ∧
      (crew.world.step (.release worker.number id)).2 = [] ∧
      (crew.world.step (.release worker.number id)).1.calls.get? worker.number = none ∧
      (crew.world.step (.release worker.number id)).1.loans.get? worker.number = none := by
  have hholds := h.holds worker hmem
  unfold Holds at hholds
  rw [hphase] at hholds
  obtain ⟨loan, hloan, rfl⟩ := hholds
  obtain ⟨pool', hpool', -⟩ := h.ground.same
  rw [World.step_release h.ground.orderly hloan h.ground.held hpool']
  refine ⟨by simp [World.releaseError?, hloan], rfl, ?_, Table.get?_erase_self ..⟩
  exact h.ground.orderly.linked.not_called hloan

section

variable (hworker : crew.workers[index]? = some worker)
include hworker

theorem moves_of_asks (hasks : Asks id crew worker answer action) :
    Moves id pool crew index worker answer := by
  obtain ⟨haction, hstep, hending⟩ := step_of_asks h.configured hworker hasks
  obtain ⟨worker', hturn, hafter⟩ := @turn_of_asks crew index worker answer id pool action hasks
    (h.callMoves (List.mem_of_getElem? hworker) hasks)
  exact ⟨_, worker', by rw [haction]; rfl, hending ▸ hturn, hstep.trans hafter⟩

theorem moves_of_ready (hphase : worker.phase = .ready) :
    Moves id pool crew index worker .silence := by
  by_cases hrounds : crew.requests ≤ worker.rounds
  · have hin := h.inRounds worker (List.mem_of_getElem? hworker)
    rw [InRounds, hphase] at hin
    have haction : crew.actionOf? index .silence = none := by
      simp [actionOf?, hworker, hphase, hrounds]
    have hending : crew.ending? index .silence = none := by
      simp [ending?, shown, hworker, hphase, haction]
    refine ⟨(crew.world, []), { worker with phase := .finished }, by rw [haction]; rfl, ?_, ?_⟩
    · rw [hending]
      exact .stop hphase (Nat.le_antisymm hin hrounds)
    · simp only [step, hworker, hphase, hrounds, if_true]
      rfl
  · exact h.moves_of_asks hworker (.acquire hphase (Nat.lt_of_not_le hrounds))

theorem moves_of_requesting (hphase : worker.phase = .requesting)
    (result : Except Status Greeting) : Moves id pool crew index worker (.reply result) := by
  obtain ⟨-, -, hcall, hloan⟩ := h.release (List.mem_of_getElem? hworker) hphase
  have haction : crew.actionOf? index (.reply result) = some (.release worker.number id) := by
    simp [actionOf?, hworker, hphase, h.configured]
  have hending : crew.ending? index (.reply result) = some (.ofResult result) := by
    simp [ending?, hworker, hphase]
  unfold Moves
  rw [haction, hending]
  cases result with
  | ok greeting =>
      refine ⟨_, _, rfl, .replied hphase greeting hcall hloan, ?_⟩
      simp only [step, hworker, hphase, endRequest, Crew.release, h.configured]
      rfl
  | error status =>
      refine ⟨_, _, rfl, .failed hphase status hcall hloan, ?_⟩
      simp only [step, hworker, hphase, endRequest, Crew.release, h.configured]
      rfl

omit h in
theorem moves_of_resting (hphase : worker.phase = .resting) :
    Moves id pool crew index worker .silence := by
  have haction : crew.actionOf? index .silence = none := by simp [actionOf?, hworker, hphase]
  have hending : crew.ending? index .silence = none := by
    simp [ending?, shown, hworker, hphase, haction]
  refine ⟨(crew.world, []), worker.nextRound, by rw [haction]; rfl, ?_, ?_⟩
  · rw [hending]
    exact .rested hphase
  · simp only [step, hworker, hphase]
    rfl

omit h in
theorem moves_of_unasked (hanswer : worker.awaits answer = false) :
    Moves id pool crew index worker answer := by
  obtain ⟨hstep, haction, hending⟩ := step_of_unasked hworker hanswer
  refine ⟨(crew.world, []), worker, by rw [haction]; rfl, ?_, ?_⟩
  · rw [hending]
    exact .unasked hanswer
  · rw [hstep]
    exact (setWorker_self hworker).symm

/-- Whatever a worker is told, its move is one of its turns. -/
theorem turn (answer : Answer) : Moves id pool crew index worker answer := by
  cases hawaits : worker.awaits answer with
  | false => exact moves_of_unasked hworker hawaits
  | true =>
      unfold Worker.awaits at hawaits
      split at hawaits
      · next hphase => exact h.moves_of_ready hworker hphase
      · next verdict hphase => exact h.moves_of_asks hworker (.settle hphase verdict)
      · next result hphase => exact h.moves_of_requesting hworker hphase result
      · next hphase => exact moves_of_resting hworker hphase
      · cases hawaits

end

end Manned

/-! ## Every interleaving -/

namespace Turn

variable (h : Turn id pool crew worker answer change worker' ending)
include h

theorem number_eq : worker'.number = worker.number := by
  cases h <;> rfl

/-- A move is no action, or an action under the number of the worker. -/
theorem change_cases : change = (crew.world, []) ∨ ∃ action, change = crew.world.step action ∧
    (∀ key, action.call? = some key → key = worker.number) ∧
    (∀ key ∈ action.loanKeys, key = worker.number) ∧ ∀ other, action ≠ .letGo other := by
  cases h with
  | unasked | stop | rested => exact .inl rfl
  | waits hasks | lent hasks | exhausted hasks =>
      cases hasks <;>
        exact .inr ⟨_, rfl, by simp [World.Action.call?], by simp [World.Action.loanKeys],
          by simp⟩
  | replied | failed =>
      exact .inr ⟨_, rfl, by simp [World.Action.call?], by simp [World.Action.loanKeys],
          by simp⟩

/-- A move leaves the calls and the loans of all others alone. -/
theorem others (hlinked : crew.world.Linked) {key : Key} (hkey : key ≠ worker.number) :
    change.1.calls.get? key = crew.world.calls.get? key ∧
      change.1.loans.get? key = crew.world.loans.get? key := by
  rcases h.change_cases with rfl | ⟨action, rfl, hcall, hloan, -⟩
  · exact ⟨rfl, rfl⟩
  · exact ⟨World.step_calls_of_ne hlinked fun heq => hkey (hcall key heq),
      World.step_loans_of_not_mem hlinked fun hmem => hkey (hloan key hmem)⟩

theorem ground (hground : crew.world.Grounded id pool []) : change.1.Grounded id pool [] := by
  rcases h.change_cases with rfl | ⟨action, rfl, -, -, hkeeps⟩
  · exact hground
  · exact (hground.step (hkeeps id)).mono (by simp)

/-- A worker has what its phase says also after its move. -/
theorem holds (hholds : Holds crew.world id worker) : Holds change.1 id worker' := by
  unfold Holds at hholds
  cases h with
  | unasked => exact hholds
  | stop hphase | rested hphase =>
      rw [hphase] at hholds
      exact hholds
  | waits _ call hcall hpool => exact ⟨call, hcall, hpool⟩
  | lent _ loan hloan hpool => exact ⟨loan, hloan, hpool⟩
  | exhausted _ hcall hloan | replied _ _ hcall hloan | failed _ _ hcall hloan =>
      exact ⟨hcall, hloan⟩

theorem inRounds (hin : InRounds crew.requests worker) : InRounds crew.requests worker' := by
  unfold InRounds at hin
  cases h with
  | unasked => exact hin
  | stop hphase hrounds => exact hrounds
  | waits hasks | lent hasks | exhausted hasks =>
      cases hasks with
      | acquire _ hrounds => exact hrounds
      | settle hphase =>
          rw [hphase] at hin
          exact hin
  | replied hphase | failed hphase | rested hphase =>
      rw [hphase] at hin
      exact hin

end Turn

namespace Manned

variable (h : Manned id pool crew)
include h

theorem set (hworker : crew.workers[index]? = some worker) {w' : World}
    (hground : w'.Grounded id pool []) (hnumber : worker'.number = worker.number)
    (hholds : Holds w' id worker') (hin : InRounds crew.requests worker')
    (hothers : ∀ key, key ≠ worker.number →
      w'.calls.get? key = crew.world.calls.get? key ∧
        w'.loans.get? key = crew.world.loans.get? key) :
    Manned id pool ((crew.withWorld w').setWorker index worker') := by
  have hindex := (List.getElem?_eq_some_iff.mp hworker).1
  -- a worker is the one that has moved, or stands where it stood
  have hplace {other : Nat} {there : Worker}
      (hthere : (crew.workers.set index worker')[other]? = some there) :
      other = index ∧ there = worker' ∨ other ≠ index ∧ crew.workers[other]? = some there := by
    by_cases heq : index = other
    · subst heq
      rw [List.getElem?_set_self hindex, Option.some.injEq] at hthere
      exact .inl ⟨rfl, hthere.symm⟩
    · rw [List.getElem?_set_ne heq] at hthere
      exact .inr ⟨fun e => heq e.symm, hthere⟩
  constructor
  · exact hground
  · exact h.configured
  · intro other there hthere
    rcases hplace hthere with ⟨rfl, rfl⟩ | ⟨-, hthere⟩
    · exact hnumber.trans (h.numbers other worker hworker)
    · exact h.numbers other there hthere
  · intro there hmem
    obtain ⟨other, hthere⟩ := List.mem_iff_getElem?.mp hmem
    rcases hplace hthere with ⟨rfl, rfl⟩ | ⟨hne, hthere⟩
    · exact hholds
    · have hkey : there.number ≠ worker.number := by
        rw [h.numbers other there hthere, h.numbers index worker hworker]
        omega
      have hsame := h.holds there (List.mem_of_getElem? hthere)
      obtain ⟨hcalls, hloans⟩ := hothers _ hkey
      change Holds w' id there
      unfold Holds at hsame ⊢
      rwa [hcalls, hloans]
  · intro there hmem
    rcases List.mem_or_eq_of_mem_set hmem with hmem | rfl
    · exact h.inRounds there hmem
    · exact hin
  · intro key hkey
    -- a stranger has no worker's number, so not that of the mover either
    have hne : key ≠ worker.number := by
      rw [← hnumber]
      exact (hkey worker' (List.mem_set hindex worker')).symm
    obtain ⟨hcalls, hloans⟩ := hothers key hne
    refine hcalls ▸ hloans ▸ h.strangers key fun there hmem => ?_
    obtain ⟨other, hthere⟩ := List.mem_iff_getElem?.mp hmem
    by_cases heq : index = other
    · subst heq
      cases hworker.symm.trans hthere
      exact hne.symm
    · refine hkey there (List.mem_of_getElem? (i := other) ?_)
      exact (List.getElem?_set_ne heq).trans hthere

theorem step (index : Nat) (answer : Answer) : Manned id pool (crew.step index answer).1 := by
  cases hworker : crew.workers[index]? with
  | none =>
      rw [(step_of_none hworker answer).1]
      exact h
  | some worker =>
      obtain ⟨change, worker', -, hturn, hstep⟩ := h.turn hworker answer
      have hmem := List.mem_of_getElem? hworker
      rw [hstep]
      exact h.set hworker (hturn.ground h.ground) hturn.number_eq (hturn.holds (h.holds _ hmem))
        (hturn.inRounds (h.inRounds _ hmem)) fun key => hturn.others h.ground.orderly.linked

/-- A move leaves the other workers as they are. -/
theorem workers_step_of_ne {mover other : Nat} (hne : mover ≠ other) (answer : Answer) :
    (crew.step mover answer).1.workers[other]? = crew.workers[other]? := by
  cases hworker : crew.workers[mover]? with
  | none => rw [(step_of_none hworker answer).1]
  | some worker =>
      obtain ⟨change, worker', -, -, hstep⟩ := h.turn hworker answer
      rw [hstep]
      exact List.getElem?_set_ne hne

theorem run (moves : List (Nat × Answer)) : Manned id pool (crew.run moves).1 := by
  induction moves generalizing crew with
  | nil => exact h
  | cons move rest ih => exact ih (h.step move.1 move.2)

end Manned

end Crew

end Demo

end HeartbeatPool
