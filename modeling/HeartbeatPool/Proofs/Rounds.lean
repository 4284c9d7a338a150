import HeartbeatPool.Proofs.Crew
import HeartbeatPool.Proofs.Grouping

/-!
# What the workers count

A number that each move raises by what it ends can be read off the endings of a run, for each worker
and for all of them (`Tallies`).  The rounds, the replies from each server and the replies from all
servers are such numbers, and merging the tables of the workers adds them up (`get?_totals`,
`total_totals`).

Nothing is counted zero times (`positive_totals`), so the totals name just the servers that have
replied.

A worker that is answered gets nearer to its end with each move (`Turn.movesLeft_lt`).

Main statement: `Manned.awaited_add_le`.
-/

namespace HeartbeatPool

theorem sum_map_set {α : Type} (f : α → Nat) {list : List α} {i : Nat} {a : α}
    (h : list[i]? = some a) (b : α) :
    ((list.set i b).map f).sum + f a = (list.map f).sum + f b := by
  have hset := sum_zipIdx_set (fun pair => f pair.1) h b 0
  have hmap (pairs : List (α × Nat)) :
      (pairs.map fun pair => f pair.1) = (pairs.map Prod.fst).map f := (List.map_map ..).symm
  rwa [hmap, hmap, List.zipIdx_map_fst, List.zipIdx_map_fst] at hset

/-- A count that grows adds what it grows by. -/
theorem Table.total_insert_add {κ : Type} [DecidableEq κ] (table : Table κ Nat) (key : κ)
    (count : Nat) :
    (table.insert key ((table.get? key).getD 0 + count)).total (fun _ count => count) =
      table.total (fun _ count => count) + count := by
  cases hget : table.get? key with
  | none =>
      rw [total_insert_new _ hget]
      simp
  | some old =>
      have htotal := total_insert_old (fun _ count => count) hget (old + count)
      rw [Option.getD_some]
      omega

theorem Table.getD_get?_insert_add {κ : Type} [DecidableEq κ] (table : Table κ Nat)
    (key other : κ) (count : Nat) :
    ((table.insert key ((table.get? key).getD 0 + count)).get? other).getD 0 =
      (table.get? other).getD 0 + if key = other then count else 0 := by
  rw [get?_insert]
  split
  · next heq => rw [heq, Option.getD_some]
  · rfl

/-- Nothing is counted zero times. -/
def Table.Positive {κ : Type} [DecidableEq κ] (table : Table κ Nat) : Prop :=
  ∀ key count, table.get? key = some count → 0 < count

namespace Table.Positive

variable {κ : Type} [DecidableEq κ] {table : Table κ Nat} (h : table.Positive)
include h

theorem insert_add (key : κ) {count : Nat} (hcount : 0 < count) :
    (table.insert key ((table.get? key).getD 0 + count)).Positive := by
  intro other value hget
  rw [Table.get?_insert] at hget
  split at hget
  · cases hget
    exact Nat.add_pos_right _ hcount
  · exact h other value hget

/-- The keys of a table are those that are counted at all. -/
theorem mem_toList_iff (key : κ) (count : Nat) :
    (key, count) ∈ table.toList ↔ 0 < count ∧ count = (table.get? key).getD 0 := by
  rw [← Table.get?_eq_some_iff]
  constructor
  · intro hget
    exact ⟨h key count hget, by rw [hget, Option.getD_some]⟩
  · rintro ⟨hpos, hcount⟩
    cases hget : table.get? key with
    | none =>
        rw [hget, Option.getD_none] at hcount
        omega
    | some value => rw [hcount, hget, Option.getD_some]

end Table.Positive

namespace Demo

/-- Whether a round has ended with a reply. -/
def Ending.isReply : Ending → Bool
  | .reply _ => true
  | _ => false

/-- Whether a round has ended with a failed request. -/
def Ending.isFailure : Ending → Bool
  | .failure _ => true
  | _ => false

/-- A round ends in exactly one of three ways. -/
theorem Ending.countP_add (endings : List (Nat × Ending)) :
    endings.countP (fun ending => ending.2.isReply) +
        endings.countP (fun ending => ending.2.isFailure) +
        endings.countP (fun ending => ending.2 = .exhausted) = endings.length := by
  induction endings with
  | nil => rfl
  | cons ending rest ih =>
      have hone : (if ending.2.isReply then 1 else 0) + (if ending.2.isFailure then 1 else 0) +
          (if decide (ending.2 = .exhausted) then 1 else 0) = 1 := by
        cases ending.2 <;> rfl
      rw [List.countP_cons, List.countP_cons, List.countP_cons, List.length_cons]
      omega

namespace Crew

variable {crew : Crew} {index : Nat} {worker worker' : Worker} {answer : Answer} {id : PoolId}
  {pool : Pool} {change : World.Change} {ending : Option Ending}

/-! ## Merged tables -/

theorem foldl_addCounts (pairs : List (String × Nat)) (hnodup : (pairs.map Prod.fst).Nodup)
    (totals : Table String Nat) (server : String) :
    ((pairs.foldl (fun totals pair =>
        totals.insert pair.1 ((totals.get? pair.1).getD 0 + pair.2)) totals).get? server).getD 0 =
      (totals.get? server).getD 0 + (Table.find pairs server).getD 0 := by
  induction pairs generalizing totals with
  | nil => rfl
  | cons pair rest ih =>
      rw [List.map_cons, List.nodup_cons] at hnodup
      rw [List.foldl_cons, ih hnodup.2, Table.getD_get?_insert_add, Table.find]
      split
      · next heq =>
          have hnone := (Table.find_eq_none_iff rest server).mpr (heq ▸ hnodup.1)
          rw [hnone]
          rfl
      · rfl

/-- Merging adds the counts of each server. -/
theorem get?_addCounts (totals served : Table String Nat) (server : String) :
    ((addCounts totals served).get? server).getD 0 =
      (totals.get? server).getD 0 + (served.get? server).getD 0 :=
  foldl_addCounts served.toList served.nodup totals server

/-- Merging adds the counts of all servers. -/
theorem total_addCounts (totals served : Table String Nat) :
    (addCounts totals served).total (fun _ count => count) =
      totals.total (fun _ count => count) + served.total (fun _ count => count) := by
  unfold addCounts Table.total
  generalize served.toList = pairs
  induction pairs generalizing totals with
  | nil => rfl
  | cons pair rest ih =>
      rw [List.foldl_cons, ih, List.map_cons, List.sum_cons, ← Nat.add_assoc]
      exact congrArg (· + _) (Table.total_insert_add totals pair.1 pair.2)

/-- The total of a server is the sum of what the workers have counted for it. -/
theorem get?_totals (crew : Crew) (server : String) :
    (crew.totals.get? server).getD 0 =
      (crew.workers.map fun worker => (worker.served.get? server).getD 0).sum := by
  have hfold (workers : List Worker) (totals : Table String Nat) :
      ((workers.foldl (fun totals worker => addCounts totals worker.served) totals).get?
          server).getD 0 =
        (totals.get? server).getD 0 +
          (workers.map fun worker => (worker.served.get? server).getD 0).sum := by
    induction workers generalizing totals with
    | nil => rfl
    | cons worker rest ih =>
        rw [List.foldl_cons, ih, get?_addCounts, List.map_cons, List.sum_cons, Nat.add_assoc]
  exact (hfold crew.workers ∅).trans (Nat.zero_add _)

/-- All totals together are the sum of what the workers have counted. -/
theorem total_totals (crew : Crew) :
    crew.totals.total (fun _ count => count) =
      (crew.workers.map fun worker => worker.served.total fun _ count => count).sum := by
  have hfold (workers : List Worker) (totals : Table String Nat) :
      (workers.foldl (fun totals worker => addCounts totals worker.served) totals).total
          (fun _ count => count) =
        totals.total (fun _ count => count) +
          (workers.map fun worker => worker.served.total fun _ count => count).sum := by
    induction workers generalizing totals with
    | nil => rfl
    | cons worker rest ih =>
        rw [List.foldl_cons, ih, total_addCounts, List.map_cons, List.sum_cons, Nat.add_assoc]
  exact (hfold crew.workers ∅).trans (Nat.zero_add _)

theorem positive_addCounts {totals served : Table String Nat} (h : totals.Positive)
    (h' : served.Positive) : (addCounts totals served).Positive := by
  have hcounts : ∀ pair ∈ served.toList, 0 < pair.2 := fun pair hpair =>
    h' pair.1 pair.2 ((Table.get?_eq_some_iff ..).mpr hpair)
  unfold addCounts
  generalize served.toList = pairs at hcounts
  induction pairs generalizing totals with
  | nil => exact h
  | cons pair rest ih =>
      obtain ⟨hfirst, hrest⟩ := List.forall_mem_cons.mp hcounts
      exact ih (h.insert_add pair.1 hfirst) hrest

/-- Only servers that some worker has counted are among the totals. -/
theorem positive_totals (h : ∀ worker ∈ crew.workers, worker.served.Positive) :
    crew.totals.Positive := by
  have hfold (workers : List Worker) (totals : Table String Nat) (htotals : totals.Positive)
      (hworkers : ∀ worker ∈ workers, worker.served.Positive) :
      (workers.foldl (fun totals worker => addCounts totals worker.served) totals).Positive := by
    induction workers generalizing totals with
    | nil => exact htotals
    | cons worker rest ih =>
        obtain ⟨hfirst, hrest⟩ := List.forall_mem_cons.mp hworkers
        exact ih _ (positive_addCounts htotals hfirst) hrest
  exact hfold crew.workers ∅ nofun h

/-! ## Numbers that the moves raise -/

/-- A number of a worker that each move raises by what it ends. -/
def Tallies (f : Worker → Nat) (g : Ending → Nat) : Prop :=
  ∀ {id pool crew worker answer change worker' ending},
    Turn id pool crew worker answer change worker' ending →
      f worker' = f worker + (ending.toList.map g).sum

/-- The rounds of a worker that have ended.  One that ends with an exhausted pool has ended before
the pause. -/
def ended (worker : Worker) : Nat :=
  worker.rounds + if worker.phase = .resting then 1 else 0

theorem tallies_ended : Tallies ended fun _ => 1 := by
  intro id pool crew worker answer change worker' ending h
  unfold ended
  cases h with
  | unasked => rfl
  | stop hphase | replied hphase | failed hphase | rested hphase =>
      simp [hphase, Worker.nextRound, Worker.count]
  | waits hasks | lent hasks | exhausted hasks =>
      cases hasks with
      | acquire hphase | settle hphase => simp [hphase]

theorem tallies_replies (server : String) :
    Tallies (fun worker => (worker.served.get? server).getD 0)
      fun ending => if decide (ending = .reply server) then 1 else 0 := by
  intro id pool crew worker answer change worker' ending h
  cases h with
  | unasked | stop | waits | lent | exhausted | failed | rested => rfl
  | replied _ greeting =>
      simp only [Worker.nextRound, Worker.count, Table.getD_get?_insert_add]
      simp [Ending.reply.injEq]

theorem tallies_allReplies :
    Tallies (fun worker => worker.served.total fun _ count => count)
      fun ending => if ending.isReply then 1 else 0 := by
  intro id pool crew worker answer change worker' ending h
  cases h with
  | unasked | stop | waits | lent | exhausted | failed | rested => rfl
  | replied _ greeting =>
      simp only [Worker.nextRound, Worker.count, Table.total_insert_add]
      rfl

namespace Manned

variable (h : Manned id pool crew)
include h

theorem at_step {f : Worker → Nat} {g : Ending → Nat} (ht : Tallies f g)
    (hworker : crew.workers[index]? = some worker) (mover : Nat) (answer : Answer) :
    ∃ worker', (crew.step mover answer).1.workers[index]? = some worker' ∧
      f worker' = f worker +
        if mover = index then ((crew.ending? mover answer).toList.map g).sum else 0 := by
  by_cases hmover : mover = index
  · subst hmover
    obtain ⟨change, worker', -, hturn, hstep⟩ := h.turn hworker answer
    have hindex := (List.getElem?_eq_some_iff.mp hworker).1
    refine ⟨worker', ?_, by rw [if_pos rfl, ht hturn]⟩
    rw [hstep]
    exact List.getElem?_set_self hindex
  · refine ⟨worker, ?_, by rw [if_neg hmover, Nat.add_zero]⟩
    rw [h.workers_step_of_ne hmover, hworker]

/-- What one worker counts in a run is read off the endings of its own rounds. -/
theorem at_run {f : Worker → Nat} {g : Ending → Nat} (ht : Tallies f g)
    (hworker : crew.workers[index]? = some worker) (moves : List (Nat × Answer)) :
    ∃ worker', (crew.run moves).1.workers[index]? = some worker' ∧
      f worker' = f worker + ((crew.endings moves).map fun ending =>
        if ending.1 = index then g ending.2 else 0).sum := by
  induction moves generalizing crew worker with
  | nil => exact ⟨worker, hworker, rfl⟩
  | cons move rest ih =>
      obtain ⟨mover, answer⟩ := move
      obtain ⟨worker₁, hworker₁, hfirst⟩ := h.at_step ht hworker mover answer
      obtain ⟨worker', hworker', hrest⟩ := ih (h.step mover answer) hworker₁
      refine ⟨worker', hworker', ?_⟩
      rw [hrest, hfirst, endings, List.map_append, List.sum_append_nat, List.map_map,
        Nat.add_assoc]
      congr 2
      cases crew.ending? mover answer <;> simp

theorem total_step {f : Worker → Nat} {g : Ending → Nat} (ht : Tallies f g) (mover : Nat)
    (answer : Answer) : ((crew.step mover answer).1.workers.map f).sum =
      (crew.workers.map f).sum + ((crew.ending? mover answer).toList.map g).sum := by
  cases hthere : crew.workers[mover]? with
  | none =>
      obtain ⟨hstep, -, hending⟩ := step_of_none hthere answer
      rw [hstep, hending]
      rfl
  | some worker =>
      obtain ⟨change, worker', -, hturn, hstep⟩ := h.turn hthere answer
      have hset := sum_map_set f hthere worker'
      rw [ht hturn] at hset
      rw [hstep]
      change ((crew.workers.set mover worker').map f).sum = _
      omega

/-- What all workers count in a run is read off all endings. -/
theorem total_run {f : Worker → Nat} {g : Ending → Nat} (ht : Tallies f g)
    (moves : List (Nat × Answer)) : ((crew.run moves).1.workers.map f).sum =
      (crew.workers.map f).sum + ((crew.endings moves).map fun ending => g ending.2).sum := by
  induction moves generalizing crew with
  | nil => rfl
  | cons move rest ih =>
      obtain ⟨mover, answer⟩ := move
      rw [Crew.run, endings, List.map_append, List.sum_append_nat, List.map_map, ← Nat.add_assoc]
      refine Eq.trans ?_ (congrArg (· + _) (h.total_step ht mover answer))
      exact ih (h.step mover answer)

/-- No worker comes or goes. -/
theorem length_run (moves : List (Nat × Answer)) :
    (crew.run moves).1.workers.length = crew.workers.length := by
  have hone : Tallies (fun _ => 1) fun _ => 0 := by
    intro id pool crew worker answer change worker' ending _
    simp
  simpa using h.total_run hone moves

end Manned

/-- A worker that counts a reply counts it once. -/
theorem Turn.positive (h : Turn id pool crew worker answer change worker' ending)
    (hpos : worker.served.Positive) : worker'.served.Positive := by
  cases h with
  | unasked | stop | waits | lent | exhausted | failed | rested => exact hpos
  | replied _ greeting => exact hpos.insert_add greeting.servedBy Nat.one_pos

theorem Manned.positive_step (h : Manned id pool crew)
    (hpos : ∀ worker ∈ crew.workers, worker.served.Positive) (mover : Nat) (answer : Answer) :
    ∀ worker ∈ (crew.step mover answer).1.workers, worker.served.Positive := by
  cases hthere : crew.workers[mover]? with
  | none => rwa [(step_of_none hthere answer).1]
  | some worker =>
      obtain ⟨change, worker', -, hturn, hstep⟩ := h.turn hthere answer
      rw [hstep]
      intro other hother
      rcases List.mem_or_eq_of_mem_set hother with hother | rfl
      · exact hpos other hother
      · exact hturn.positive (hpos worker (List.mem_of_getElem? hthere))

theorem Manned.positive_run (h : Manned id pool crew)
    (hpos : ∀ worker ∈ crew.workers, worker.served.Positive) (moves : List (Nat × Answer)) :
    ∀ worker ∈ (crew.run moves).1.workers, worker.served.Positive := by
  induction moves generalizing crew with
  | nil => exact hpos
  | cons move rest ih => exact ih (h.step move.1 move.2) (h.positive_step hpos move.1 move.2)

/-! ## Moves that are left -/

/-- The most moves of one round: the demand, two answers for each connection that can be idle, and
the reply. -/
def perRound (pool : Pool) : Nat := 2 * pool.capacity + 4

/-- How many more times a worker can be answered. -/
def movesLeft (pool : Pool) (requests : Nat) (w : World) (worker : Worker) : Nat :=
  match worker.phase with
  | .finished => 0
  | .ready => (requests - worker.rounds) * perRound pool + 1
  | .acquiring =>
      (requests - worker.rounds - 1) * perRound pool + 2 +
        ((w.calls.get? worker.number).map Call.waitsLeft).getD 0
  | .requesting | .resting => (requests - worker.rounds - 1) * perRound pool + 2

/-- A worker that asks for a connection has more moves left than one round after it. -/
theorem Asks.le_movesLeft {action : World.Action} (hasks : Asks id crew worker answer action)
    (hground : crew.world.Grounded id pool []) (hholds : Holds crew.world id worker) :
    (crew.requests - worker.rounds - 1) * perRound pool + 2 <
        movesLeft pool crew.requests crew.world worker ∧
      ∀ call, (crew.world.step action).1.calls.get? worker.number = some call →
        (crew.requests - worker.rounds - 1) * perRound pool + 2 + call.waitsLeft <
          movesLeft pool crew.requests crew.world worker := by
  unfold Holds at hholds
  cases hasks with
  | acquire hphase hrounds =>
      rw [hphase] at hholds
      obtain ⟨roundsLeft, hleft⟩ : ∃ roundsLeft, crew.requests - worker.rounds = roundsLeft + 1 :=
        Nat.exists_eq_succ_of_ne_zero (by omega)
      -- the round that is begun is one of those that are left
      have hmoves : movesLeft pool crew.requests crew.world worker =
          roundsLeft * perRound pool + perRound pool + 1 := by
        rw [movesLeft, hphase, hleft, Nat.add_one_mul]
      rw [hmoves, hleft, Nat.add_sub_cancel]
      unfold perRound
      refine ⟨by omega, fun call hcall => ?_⟩
      have hwaits := World.waitsLeft_of_acquire hground hholds.1 hholds.2 hcall
      omega
  | settle hphase verdict =>
      rw [hphase] at hholds
      obtain ⟨call, hcall, -⟩ := hholds
      have hmoves : movesLeft pool crew.requests crew.world worker =
          (crew.requests - worker.rounds - 1) * perRound pool + 2 + call.waitsLeft := by
        rw [movesLeft, hphase, hcall]
        rfl
      rw [hmoves]
      -- an answer takes a call at least one wait further
      have hpos := call.waitsLeft_pos
      refine ⟨by omega, fun call' hcall' => ?_⟩
      obtain ⟨old, hold, hlt⟩ := World.waitsLeft_lt hground.orderly.linked hcall'
      cases hcall.symm.trans hold
      omega

/-- A worker that is answered has fewer moves left. -/
theorem Turn.movesLeft_lt (h : Turn id pool crew worker answer change worker' ending)
    (hground : crew.world.Grounded id pool []) (hholds : Holds crew.world id worker)
    (hawaits : worker.awaits answer = true) :
    movesLeft pool crew.requests change.1 worker' <
      movesLeft pool crew.requests crew.world worker := by
  cases h with
  | unasked hanswer =>
      rw [hanswer] at hawaits
      cases hawaits
  | stop hphase => simp [movesLeft, hphase]
  | waits hasks call hcall =>
      have hlt := (hasks.le_movesLeft hground hholds).2 call hcall
      simpa [movesLeft, hcall] using hlt
  | lent hasks | exhausted hasks => exact (hasks.le_movesLeft hground hholds).1
  | replied hphase | failed hphase | rested hphase =>
      simp [movesLeft, hphase, Worker.nextRound, Worker.count, Nat.sub_sub]

/-- How often a worker is answered in a run. -/
def awaited (index : Nat) (crew : Crew) : List (Nat × Answer) → Nat
  | [] => 0
  | (mover, answer) :: rest =>
      (if mover = index ∧ crew.workers[index]?.any (·.awaits answer) then 1 else 0) +
        (crew.step mover answer).1.awaited index rest

theorem movesLeft_congr {w w' : World}
    (hcalls : w'.calls.get? worker.number = w.calls.get? worker.number) (requests : Nat) :
    movesLeft pool requests w' worker = movesLeft pool requests w worker := by
  unfold movesLeft
  rw [hcalls]

namespace Manned

variable (h : Manned id pool crew)
include h

theorem requests_step (index : Nat) (answer : Answer) :
    (crew.step index answer).1.requests = crew.requests := by
  cases hworker : crew.workers[index]? with
  | none => rw [(step_of_none hworker answer).1]
  | some worker =>
      obtain ⟨change, worker', -, -, hstep⟩ := h.turn hworker answer
      rw [hstep]
      rfl

theorem requests_run (moves : List (Nat × Answer)) :
    (crew.run moves).1.requests = crew.requests := by
  induction moves generalizing crew with
  | nil => rfl
  | cons move rest ih => exact (ih (h.step move.1 move.2)).trans (h.requests_step move.1 move.2)

theorem movesLeft_step (hworker : crew.workers[index]? = some worker) (mover : Nat)
    (answer : Answer) :
    ∃ worker', (crew.step mover answer).1.workers[index]? = some worker' ∧
      movesLeft pool crew.requests (crew.step mover answer).1.world worker' +
          (if mover = index ∧ worker.awaits answer then 1 else 0) ≤
        movesLeft pool crew.requests crew.world worker := by
  by_cases hmover : mover = index
  · subst hmover
    cases hawaits : worker.awaits answer with
    | false =>
        -- an answer that the worker does not wait for changes nothing
        refine ⟨worker, ?_, ?_⟩
        · rw [(step_of_unasked hworker hawaits).1, hworker]
        · rw [(step_of_unasked hworker hawaits).1]
          simp
    | true =>
        obtain ⟨change, worker', -, hturn, hstep⟩ := h.turn hworker answer
        have hlt := hturn.movesLeft_lt h.ground (h.holds _ (List.mem_of_getElem? hworker)) hawaits
        have hindex := (List.getElem?_eq_some_iff.mp hworker).1
        refine ⟨worker', ?_, ?_⟩
        · rw [hstep]
          exact List.getElem?_set_self hindex
        · rw [hstep, if_pos ⟨rfl, rfl⟩]
          exact hlt
  · simp only [hmover, false_and, if_false, Nat.add_zero]
    cases hthere : crew.workers[mover]? with
    | none =>
        rw [(step_of_none hthere answer).1]
        exact ⟨worker, hworker, Nat.le_refl _⟩
    | some other =>
        obtain ⟨change, other', -, hturn, hstep⟩ := h.turn hthere answer
        -- another worker has another number, so it leaves the call as it is
        have hkey : worker.number ≠ other.number := by
          rw [h.numbers _ _ hworker, h.numbers _ _ hthere]
          omega
        have hsame := (hturn.others h.ground.orderly.linked hkey).1
        rw [hstep]
        refine ⟨worker, (List.getElem?_set_ne hmover).trans hworker, Nat.le_of_eq ?_⟩
        exact movesLeft_congr hsame _

/-- In every run a worker is answered no more often than it has moves left. -/
theorem awaited_add_le (hworker : crew.workers[index]? = some worker)
    (moves : List (Nat × Answer)) :
    ∃ worker', (crew.run moves).1.workers[index]? = some worker' ∧
      crew.awaited index moves + movesLeft pool crew.requests (crew.run moves).1.world worker' ≤
        movesLeft pool crew.requests crew.world worker := by
  induction moves generalizing crew worker with
  | nil => exact ⟨worker, hworker, Nat.le_of_eq (Nat.zero_add _)⟩
  | cons move rest ih =>
      obtain ⟨mover, answer⟩ := move
      obtain ⟨worker₁, hworker₁, hfirst⟩ := h.movesLeft_step hworker mover answer
      obtain ⟨worker', hworker', hrest⟩ := ih (h.step mover answer) hworker₁
      rw [h.requests_step] at hrest
      refine ⟨worker', hworker', ?_⟩
      rw [awaited, hworker, Option.any_some]
      change _ + _ + movesLeft _ _ (((crew.step mover answer).1.run rest).1).world _ ≤ _
      omega

end Manned

end Crew

end Demo

end HeartbeatPool
