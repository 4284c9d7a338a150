import HeartbeatPool.Demo.Client
import HeartbeatPool.Proofs.Rounds

/-!
# One worker after the other

The client lets its workers move in the order of their numbers, each to its end, and this is one of
the orders in which they can move (`Outside.runWorkers_finishes`).  All that it takes is that a
worker that has not started yet gets to its end when it moves alone, whatever was done before
(`Crew.Completes`).  With a pool that is so because each answer leaves the worker fewer moves, and
the client allows it as many as it can have (`Manned.completes`).  Without a pool a worker stops at
its first move (`Unserved.completes`).

What is written meanwhile comes after what was there, and the lines of the workers are among it in
their order (`Outside.Adds`).
-/

namespace HeartbeatPool.Demo

/-! ## Lines -/

namespace Outside

variable {outside outside' outside'' : Outside} {lines lines' : List Line}

/-- Some lines are written, perhaps with others in between, and no line is lost. -/
def Adds (outside outside' : Outside) (lines : List Line) : Prop :=
  ∃ added, outside'.lines = outside.lines ++ added ∧ lines.Sublist added

theorem Adds.of_lines_eq (h : outside'.lines = outside.lines) : Adds outside outside' [] :=
  ⟨[], by rw [h, List.append_nil], .slnil⟩

theorem Adds.trans (h : Adds outside outside' lines) (h' : Adds outside' outside'' lines') :
    Adds outside outside'' (lines ++ lines') := by
  obtain ⟨added, hadded, hsub⟩ := h
  obtain ⟨added', hadded', hsub'⟩ := h'
  exact ⟨added ++ added', by rw [hadded', hadded, List.append_assoc], hsub.append hsub'⟩

theorem adds_write (outside : Outside) (lines : List Line) :
    Adds outside (outside.write lines) lines :=
  ⟨lines, rfl, .refl lines⟩

/-- What others write is no line of the workers. -/
theorem adds_call (outside : Outside) (address name : String) :
    Adds outside (outside.call address name).1 [] := by
  unfold call
  split
  · exact .of_lines_eq rfl
  · exact ⟨_, rfl, List.nil_sublist _⟩

theorem adds_dial (outside : Outside) (endpoint : Endpoint) :
    Adds outside (outside.dial endpoint).1 [] := by
  unfold dial
  dsimp only
  split
  · exact ⟨_, rfl, List.nil_sublist _⟩
  · exact ⟨_, rfl, List.nil_sublist _⟩

theorem adds_probe (outside : Outside) (conn : Conn) :
    Adds outside (outside.probe conn).1 [] := by
  have hcall := outside.adds_call conn.address heartbeatName
  unfold probe
  dsimp only
  split <;> exact hcall

theorem adds_answer (outside : Outside) (crew : Crew) (worker : Worker) :
    Adds outside (outside.answer crew worker).1 [] := by
  unfold answer
  split
  · split
    · exact .of_lines_eq rfl
    · next call _ =>
        dsimp only
        cases call.phase with
        | probing entry => exact outside.adds_probe entry.conn
        | redialing entry => exact outside.adds_dial _
  · split
    · exact .of_lines_eq rfl
    · exact outside.adds_call ..
  · exact .of_lines_eq rfl

end Outside

/-! ## To the end -/

section

variable {crew : Crew} {index : Nat} {worker : Worker} {id : PoolId} {pool : Pool}

theorem Crew.run_append (crew : Crew) (first second : List (Nat × Answer)) :
    crew.run (first ++ second) = (((crew.run first).1.run second).1,
      (crew.run first).2 ++ ((crew.run first).1.run second).2) := by
  induction first generalizing crew with
  | nil => rfl
  | cons move rest ih =>
      obtain ⟨index, answer⟩ := move
      simp only [List.cons_append, Crew.run, ih, List.append_assoc]

/-- A worker that moves alone gets to its end, and the others stay where they are. -/
def Outside.Finishes (outside : Outside) (crew : Crew) (index bound : Nat) : Prop :=
  ∃ moves, (outside.runWorker crew index bound).2 = (crew.run moves).1 ∧
    outside.Adds (outside.runWorker crew index bound).1 (crew.run moves).2 ∧
    (crew.run moves).1.workers[index]?.map Worker.phase = some .finished ∧
    ∀ other, index ≠ other → (crew.run moves).1.workers[other]? = crew.workers[other]?

/-- Whatever was done before, a worker that has not started yet gets to its end when it moves
alone. -/
def Crew.Completes (crew : Crew) : Prop :=
  ∀ (moves : List (Nat × Answer)) (outside : Outside) (index : Nat) (worker : Worker),
    (crew.run moves).1.workers[index]? = some worker → worker.phase = .ready →
    outside.Finishes (crew.run moves).1 index (Outside.stepBound (crew.run moves).1)

/-- A worker that has finished does not move any more. -/
theorem Outside.runWorker_of_finished (outside : Outside)
    (hworker : crew.workers[index]? = some worker) (hphase : worker.phase = .finished)
    (bound : Nat) :
    outside.runWorker crew index bound = (outside, crew) := by
  cases bound <;> simp [runWorker, hworker, hphase]

theorem Outside.finishes_of_finished (outside : Outside)
    (hworker : crew.workers[index]? = some worker) (hphase : worker.phase = .finished)
    (bound : Nat) : outside.Finishes crew index bound := by
  refine ⟨[], ?_, ?_, by simp [Crew.run, hworker, hphase], fun _ _ => rfl⟩
  · rw [outside.runWorker_of_finished hworker hphase]
    rfl
  · rw [outside.runWorker_of_finished hworker hphase]
    exact .of_lines_eq rfl

/-- A worker that has not finished yet gets an answer, and goes on. -/
theorem Outside.Finishes.step {outside asked : Outside} {answer : Answer} {bound : Nat}
    (hworker : crew.workers[index]? = some worker) (hphase : worker.phase ≠ .finished)
    (hanswer : outside.answer crew worker = (asked, answer))
    (hothers : ∀ other, index ≠ other →
      (crew.step index answer).1.workers[other]? = crew.workers[other]?)
    (hrest : (asked.write (crew.step index answer).2).Finishes (crew.step index answer).1 index
      bound) : outside.Finishes crew index (bound + 1) := by
  obtain ⟨moves, hrun, hadds, hfinished, hkept⟩ := hrest
  have hfirst : outside.runWorker crew index (bound + 1) =
      (asked.write (crew.step index answer).2).runWorker (crew.step index answer).1 index
        bound := by
    simp only [runWorker, hworker, if_neg hphase, hanswer]
  refine ⟨(index, answer) :: moves, ?_, ?_, hfinished, fun other hne => ?_⟩
  · rw [hfirst]
    exact hrun
  · have hasked : Adds outside asked [] := by
      have hadds := outside.adds_answer crew worker
      rwa [hanswer] at hadds
    rw [hfirst]
    exact (hasked.trans (asked.adds_write _)).trans hadds
  · exact (hkept other hne).trans (hothers other hne)

/-! ### With a pool -/

theorem Crew.finished_of_movesLeft {requests : Nat} {w : World}
    (hnone : movesLeft pool requests w worker = 0) : worker.phase = .finished := by
  unfold movesLeft at hnone
  split at hnone
  · next hphase => exact hphase
  all_goals omega

/-- A worker that has not finished gets the answer that it waits for. -/
theorem Outside.answer_awaited (outside : Outside) (hholds : Crew.Holds crew.world id worker)
    (hphase : worker.phase ≠ .finished) :
    worker.awaits (outside.answer crew worker).2 = true := by
  unfold Crew.Holds at hholds
  unfold Worker.awaits Outside.answer
  cases h : worker.phase with
  | ready | resting => rfl
  | finished => exact absurd h hphase
  | acquiring =>
      rw [h] at hholds
      obtain ⟨call, hcall, -⟩ := hholds
      simp only [hcall]
  | requesting =>
      rw [h] at hholds
      obtain ⟨loan, hloan, -⟩ := hholds
      simp only [hloan]

/-- A worker that may be answered as often as it can be gets to its end. -/
theorem Outside.finishes_of_manned (outside : Outside) (h : crew.Manned id pool)
    (hworker : crew.workers[index]? = some worker) {bound : Nat}
    (hbound : Crew.movesLeft pool crew.requests crew.world worker ≤ bound) :
    outside.Finishes crew index bound := by
  induction bound generalizing outside crew worker with
  | zero =>
      have hfinished := Crew.finished_of_movesLeft (Nat.le_zero.mp hbound)
      exact outside.finishes_of_finished hworker hfinished 0
  | succ bound ih =>
      by_cases hphase : worker.phase = .finished
      · exact outside.finishes_of_finished hworker hphase _
      · obtain ⟨asked, answer, hanswer⟩ : ∃ asked answer,
            outside.answer crew worker = (asked, answer) := ⟨_, _, rfl⟩
        have hawaits := outside.answer_awaited (h.holds _ (List.mem_of_getElem? hworker)) hphase
        rw [hanswer] at hawaits
        obtain ⟨next, hnext, hleft⟩ := h.movesLeft_step hworker index answer
        rw [if_pos ⟨rfl, hawaits⟩] at hleft
        have hrest : (asked.write (crew.step index answer).2).Finishes (crew.step index answer).1
            index bound :=
          ih _ (h.step index answer) hnext (by rw [h.requests_step]; omega)
        exact .step hworker hphase hanswer (fun other hne => h.workers_step_of_ne hne answer) hrest

/-- The number of steps that the client allows a worker is enough. -/
theorem Outside.movesLeft_le_stepBound (h : crew.Manned id pool) (hready : worker.phase = .ready) :
    Crew.movesLeft pool crew.requests crew.world worker ≤ stepBound crew := by
  obtain ⟨pool', hpool', hsame⟩ := h.ground.same
  have hbound : stepBound crew = (crew.requests + 1) * (2 * pool.capacity + 5) := by
    simp [stepBound, h.configured, hpool', Pool.capacity_eq hsame]
  rw [hbound, Crew.movesLeft, hready, Crew.perRound]
  calc (crew.requests - worker.rounds) * (2 * pool.capacity + 4) + 1
      ≤ crew.requests * (2 * pool.capacity + 5) + 1 :=
        Nat.add_le_add_right (Nat.mul_le_mul (Nat.sub_le ..) (by omega)) 1
    _ ≤ (crew.requests + 1) * (2 * pool.capacity + 5) := by
        rw [Nat.add_one_mul crew.requests]
        exact Nat.add_le_add_left (by omega) _

theorem Crew.Manned.completes (h : crew.Manned id pool) : crew.Completes :=
  fun moves outside _ _ hworker hready =>
    outside.finishes_of_manned (h.run moves) hworker
      (Outside.movesLeft_le_stepBound (h.run moves) hready)

end

/-! ### Without a pool -/

namespace Crew

/-- A crew without a pool: nobody has done anything. -/
structure Unserved (crew : Crew) : Prop where
  pool : crew.pool = none
  workers : ∀ worker ∈ crew.workers, worker.rounds = 0 ∧ worker.served = ∅ ∧
    (worker.phase = .ready ∨ worker.phase = .finished)

namespace Unserved

variable {crew : Crew} {index : Nat} {worker : Worker} (h : Unserved crew)
include h

/-- A worker stops at its first move, with an error if it was to send requests. -/
theorem step_ready (hworker : crew.workers[index]? = some worker) (hphase : worker.phase = .ready) :
    ∃ lines, crew.step index .silence =
        (crew.setWorker index { worker with phase := .finished }, lines) ∧
      (0 < crew.requests →
        worker.line .error (Error.unknownService serviceName).message ∈ lines) := by
  have hrounds := (h.workers worker (List.mem_of_getElem? hworker)).1
  by_cases hnone : crew.requests ≤ worker.rounds
  · refine ⟨[], ?_, fun hsome => absurd hnone (by omega)⟩
    simp only [step, hworker, hphase, if_pos hnone]
  · refine ⟨[Event.log (.unknownService serviceName)].filterMap lineOf? ++
      [worker.line .error (Error.unknownService serviceName).message], ?_, fun _ =>
        List.mem_append_right _ List.mem_cons_self⟩
    simp only [step, hworker, hphase, if_neg hnone, h.pool]
    rfl

theorem step (index : Nat) (answer : Answer) : Unserved (crew.step index answer).1 := by
  cases hworker : crew.workers[index]? with
  | none =>
      rw [(step_of_none hworker answer).1]
      exact h
  | some worker =>
      have hmem := List.mem_of_getElem? hworker
      obtain ⟨hrounds, hserved, hphase⟩ := h.workers worker hmem
      cases hawaits : worker.awaits answer with
      | false =>
          rw [(step_of_unasked hworker hawaits).1]
          exact h
      | true =>
          obtain ⟨hready, rfl⟩ : worker.phase = .ready ∧ answer = .silence := by
            rcases hphase with hphase | hphase <;> cases answer <;> simp_all [Worker.awaits]
          obtain ⟨lines, hstep, -⟩ := h.step_ready hworker hready
          rw [hstep]
          refine ⟨h.pool, fun other hother => ?_⟩
          rcases List.mem_or_eq_of_mem_set hother with hother | rfl
          · exact h.workers other hother
          · exact ⟨hrounds, hserved, .inr rfl⟩

theorem run (moves : List (Nat × Answer)) : Unserved (crew.run moves).1 := by
  induction moves generalizing crew with
  | nil => exact h
  | cons move rest ih => exact ih (h.step move.1 move.2)

theorem totals_eq : crew.totals = ∅ := by
  have hfold (workers : List Worker) (hserved : ∀ worker ∈ workers, worker.served = ∅) :
      workers.foldl (fun totals worker => addCounts totals worker.served) ∅ = ∅ := by
    induction workers with
    | nil => rfl
    | cons worker rest ih =>
        rw [List.foldl_cons, hserved worker List.mem_cons_self]
        exact ih fun other hother => hserved other (List.mem_cons_of_mem _ hother)
  exact hfold crew.workers fun worker hmem => (h.workers worker hmem).2.1

theorem completes : crew.Completes := by
  intro moves outside index worker hworker hready
  have hreached := h.run moves
  have hphase : worker.phase ≠ .finished := by
    rw [hready]
    nofun
  obtain ⟨bound, hbound⟩ : ∃ bound, Outside.stepBound (crew.run moves).1 = bound + 1 := by
    refine Nat.exists_eq_add_one_of_ne_zero ?_
    simp [Outside.stepBound]
  obtain ⟨lines, hstep, -⟩ := hreached.step_ready hworker hready
  have hanswer : outside.answer (crew.run moves).1 worker = (outside, .silence) := by
    simp only [Outside.answer, hready]
  rw [hbound]
  refine .step hworker hphase hanswer (fun other hne => ?_) ?_
  · rw [hstep]
    exact List.getElem?_set_ne hne
  · have hindex := (List.getElem?_eq_some_iff.mp hworker).1
    rw [hstep]
    exact Outside.finishes_of_finished _ (List.getElem?_set_self hindex) rfl bound

end Unserved

end Crew

/-! ## All workers -/

section

variable {crew : Crew}

/-- The first workers have finished after some moves, and the others have not moved. -/
structure FinishedUpTo (outside : Outside) (crew : Crew) (count : Nat)
    (moves : List (Nat × Answer)) (reached : Outside × Crew) : Prop where
  run : reached.2 = (crew.run moves).1
  adds : outside.Adds reached.1 (crew.run moves).2
  done : ∀ index < count, ∀ worker : Worker, reached.2.workers[index]? = some worker →
    worker.phase = .finished
  later : ∀ index, count ≤ index → reached.2.workers[index]? = crew.workers[index]?

namespace FinishedUpTo

variable {outside : Outside} {count : Nat} {moves : List (Nat × Answer)}
  {reached : Outside × Crew}

theorem all (h : FinishedUpTo outside crew crew.workers.length moves reached) :
    ∀ worker ∈ reached.2.workers, worker.phase = .finished := by
  intro worker hmem
  obtain ⟨index, hworker⟩ := List.mem_iff_getElem?.mp hmem
  rcases Nat.lt_or_ge index crew.workers.length with hlt | hge
  · exact h.done index hlt worker hworker
  · rw [h.later index hge, List.getElem?_eq_none hge] at hworker
    cases hworker

/-- The next worker gets to its end. -/
theorem next (h : FinishedUpTo outside crew count moves reached) (hcompletes : crew.Completes)
    (hready : ∀ worker ∈ crew.workers, worker.phase = .ready) :
    ∃ moves', FinishedUpTo outside crew (count + 1) moves'
      (reached.1.runWorker reached.2 count (Outside.stepBound reached.2)) := by
  obtain ⟨written, reached⟩ := reached
  obtain ⟨hrun, hadds, hdone, hlater⟩ := h
  dsimp only at hrun hadds hdone hlater ⊢
  subst hrun
  have hthere := hlater count (Nat.le_refl _)
  cases hworker : crew.workers[count]? with
  | none =>
      -- there is no such worker, so nothing moves
      rw [hworker] at hthere
      have hstays (bound : Nat) : written.runWorker (crew.run moves).1 count bound =
          (written, (crew.run moves).1) := by
        cases bound <;> simp [Outside.runWorker, hthere]
      rw [hstays]
      refine ⟨moves, rfl, hadds, fun index hindex worker hget => ?_, fun index hindex =>
        hlater index (by omega)⟩
      rcases Nat.lt_succ_iff_lt_or_eq.mp hindex with hlt | rfl
      · exact hdone index hlt worker hget
      · cases hthere.symm.trans hget
  | some worker =>
      -- the worker stands where it stood at the start, and so it can get to its end
      rw [hworker] at hthere
      obtain ⟨more, hmore, hmoreLines, hfinished, hothers⟩ := hcompletes moves written count worker
        hthere (hready worker (List.mem_of_getElem? hworker))
      refine ⟨moves ++ more, ?_, ?_, fun index hindex worker hget => ?_, fun index hindex => ?_⟩
      · rw [hmore, Crew.run_append]
      · rw [Crew.run_append]
        exact hadds.trans hmoreLines
      · rw [hmore] at hget
        rcases Nat.lt_succ_iff_lt_or_eq.mp hindex with hlt | rfl
        · rw [hothers index (by omega)] at hget
          exact hdone index hlt worker hget
        · rw [hget] at hfinished
          simpa using hfinished
      · rw [hmore, hothers index (by omega), hlater index (by omega)]

end FinishedUpTo

/-- Each worker in turn gets to its end, and its lines are written. -/
theorem Outside.runWorkers_finishes (outside : Outside) (h : crew.Completes)
    (hready : ∀ worker ∈ crew.workers, worker.phase = .ready) :
    ∃ moves, (outside.runWorkers crew).2 = (crew.run moves).1 ∧
      outside.Adds (outside.runWorkers crew).1 (crew.run moves).2 ∧
      ∀ worker ∈ (crew.run moves).1.workers, worker.phase = .finished := by
  have hfold (count : Nat) : ∃ moves, FinishedUpTo outside crew count moves
      ((List.range count).foldl
        (fun (state : Outside × Crew) index =>
          state.1.runWorker state.2 index (stepBound state.2)) (outside, crew)) := by
    induction count with
    | zero => exact ⟨[], rfl, .of_lines_eq rfl, nofun, fun _ _ => rfl⟩
    | succ count ih =>
        obtain ⟨moves, hupTo⟩ := ih
        rw [List.range_succ, List.foldl_append, List.foldl_cons, List.foldl_nil]
        exact hupTo.next h hready
  obtain ⟨moves, hupTo⟩ := hfold crew.workers.length
  exact ⟨moves, hupTo.run, hupTo.adds, hupTo.run ▸ hupTo.all⟩

end

end HeartbeatPool.Demo
