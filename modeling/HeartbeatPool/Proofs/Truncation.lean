import HeartbeatPool.Proofs.Unlimited
import HeartbeatPool.Session.Run

/-!
# Limits as outcomes

A time limit can be put on a wait, or it can be worked into what is waited for: an outcome that
hangs or comes too late becomes a failure just at the limit.  The wait for the one is the wait for
the other without its deadline (`Wait.start_truncated`), and as long as none of its timers was
missed, both have come to the same (`Wait.poll_unlimited`).

`Session.truncated` does so with all that a session still has scripted, and takes the limits away
from its pools.  What a session shows of itself stays the same but for the limits.
-/

namespace HeartbeatPool

/-! ## Outcomes and waits -/

/-- The outcome cut off at a limit: what has not settled by then fails just then. -/
def Outcome.truncated (limit : Option Nat) (outcome : Outcome) : Outcome :=
  match limit, outcome with
  | none, outcome => outcome
  | some limit, .settles delay verdict =>
      if delay ≤ limit then .settles delay verdict else .settles limit (.failure deadlineText)
  | some limit, .hangs => .settles limit (.failure deadlineText)

/-- What settles at once is in time for every limit. -/
@[simp] theorem Outcome.truncated_settles_zero (limit : Option Nat) (verdict : Verdict) :
    (Outcome.settles 0 verdict).truncated limit = .settles 0 verdict := by
  cases limit <;> simp [truncated]

namespace Wait

/-- The wait without its deadline: if that comes before the answer, it is the answer. -/
def unlimited (wait : Wait) : Wait where
  answer :=
    match wait.deadline, wait.answer with
    | none, answer => answer
    | some deadline, none => some (deadline, .failure deadlineText)
    | some deadline, some (instant, verdict) =>
        if instant ≤ deadline then some (instant, verdict)
        else some (deadline, .failure deadlineText)
  deadline := none

theorem start_truncated (now : Nat) (limit : Option Nat) (outcome : Outcome) :
    start now none (outcome.truncated limit) = (start now limit outcome).unlimited := by
  rcases limit with _ | limit <;> rcases outcome with ⟨delay, verdict⟩ | _
  · rfl
  · rfl
  · by_cases hle : delay ≤ limit
    · simp [start, unlimited, Outcome.truncated, hle]
    · simp [start, unlimited, Outcome.truncated, hle]
  · rfl

/-- A wait has come to nothing yet just as long as all its timers are ahead. -/
theorem poll_eq_none_iff {wait : Wait} {now : Nat} :
    wait.poll now = none ↔ ∀ timer ∈ wait.timers, now < timer := by
  rcases wait with ⟨_ | ⟨instant, verdict⟩, _ | deadline⟩
  · simp [poll, overdue, timers]
  · simp [poll, overdue, timers]
  · simp [poll, overdue, timers]
  · by_cases hinstant : instant ≤ now
    · simp [poll, timers, hinstant, Nat.not_lt.mpr hinstant]
    · by_cases hdeadline : deadline ≤ now
      · simp [poll, overdue, timers, hinstant, hdeadline]
      · simp [poll, overdue, timers, hinstant, hdeadline]
        omega

/-- As long as no timer was missed, the deadline may be taken for an answer. -/
theorem poll_unlimited {wait : Wait} {now : Nat} (h : ∀ timer ∈ wait.timers, now ≤ timer) :
    wait.unlimited.poll now = wait.poll now := by
  rcases wait with ⟨_ | ⟨instant, verdict⟩, _ | deadline⟩
  · rfl
  · rfl
  · rfl
  · have hdeadline : now ≤ deadline := h _ (by simp [timers])
    by_cases hle : instant ≤ deadline
    · have hboth : ¬ instant ≤ now → ¬ deadline ≤ now := by omega
      simp only [poll, unlimited, overdue, hle, if_true]
      split
      · rfl
      · next hinstant => rw [if_neg (hboth hinstant)]
    · have hinstant : ¬ instant ≤ now := by omega
      simp [poll, unlimited, overdue, hle, hinstant]

end Wait

/-! ## Scripts -/

/-- All outcomes cut off at a limit. -/
def Lane.truncated (limit : Option Nat) (lane : Lane) : Lane where
  queue := lane.queue.map (Outcome.truncated limit)
  usual := lane.usual.map (Outcome.truncated limit)

/-- All outcomes cut off at the limits, those of dials at the one and those of heartbeats at the
other. -/
def Script.truncated (limits : Limits) (script : Script) : Script where
  ahead := script.ahead.map (Outcome.truncated limits.dial)
  dials := script.dials.mapValues (Lane.truncated limits.dial)
  probes := script.probes.mapValues (Lane.truncated limits.heartbeat)

theorem Lane.take_truncated (limit : Option Nat) (lane : Lane) :
    (lane.truncated limit).take =
      (lane.take.1.truncated limit, lane.take.2.truncated limit) := by
  obtain ⟨_ | ⟨outcome, rest⟩, usual⟩ := lane
  · cases usual with
    | none => exact congrArg (·, _) (Outcome.truncated_settles_zero limit .success).symm
    | some outcome => rfl
  · rfl

/-- The lane of an address; without any script it is the empty one, which has nothing to cut. -/
theorem Lane.getD_truncated (limit : Option Nat) (lanes : Table String Lane) (address : String) :
    ((lanes.mapValues (Lane.truncated limit)).get? address).getD {} =
      ((lanes.get? address).getD {}).truncated limit := by
  rw [Table.get?_mapValues]
  cases lanes.get? address <;> rfl

theorem Lane.change_truncated (limit : Option Nat) (lane : Lane)
    (queue : Option (List Outcome)) (usual : Option Outcome) :
    (lane.change queue usual).truncated limit =
      (lane.truncated limit).change (queue.map (List.map (Outcome.truncated limit)))
        (usual.map (Outcome.truncated limit)) := by
  unfold change truncated
  cases queue <;> cases usual <;> rfl

namespace Script

variable (limits : Limits) (script : Script) (address : String)

theorem takeDial_truncated :
    (script.truncated limits).takeDial address =
      ((script.takeDial address).1.truncated limits.dial,
        (script.takeDial address).2.truncated limits) := by
  obtain ⟨_ | ⟨outcome, rest⟩, dials, probes⟩ := script
  · simp only [takeDial, truncated, List.map_nil, Lane.getD_truncated, Lane.take_truncated,
      Table.insert_mapValues]
  · rfl

theorem takeProbe_truncated :
    (script.truncated limits).takeProbe address =
      ((script.takeProbe address).1.truncated limits.heartbeat,
        (script.takeProbe address).2.truncated limits) := by
  simp only [takeProbe, truncated, Lane.getD_truncated, Lane.take_truncated,
    Table.insert_mapValues]

theorem changeDials_truncated (queue : Option (List Outcome)) (usual : Option Outcome) :
    (script.changeDials address queue usual).truncated limits =
      (script.truncated limits).changeDials address
        (queue.map (List.map (Outcome.truncated limits.dial)))
        (usual.map (Outcome.truncated limits.dial)) := by
  simp only [changeDials, truncated, Lane.getD_truncated, Table.insert_mapValues,
    Lane.change_truncated]

theorem changeProbes_truncated (queue : Option (List Outcome)) (usual : Option Outcome) :
    (script.changeProbes address queue usual).truncated limits =
      (script.truncated limits).changeProbes address
        (queue.map (List.map (Outcome.truncated limits.heartbeat)))
        (usual.map (Outcome.truncated limits.heartbeat)) := by
  simp only [changeProbes, truncated, Lane.getD_truncated, Table.insert_mapValues,
    Lane.change_truncated]

end Script

/-! ## Sessions -/

/-- The view of a pool without its limits. -/
def PoolView.unlimited (view : PoolView) : PoolView :=
  { view with settings := view.settings.unlimited }

mutual

/-- The result of a step without the limits that pools report. -/
def Reply.unlimited : Reply → Reply
  | .pool view => .pool (view.map PoolView.unlimited)
  | .group tasks => .group (unlimitedGroup tasks)
  | reply => reply

/-- The results of tasks without the limits that pools report. -/
def unlimitedGroup : List (List (Reply × Nat)) → List (List (Reply × Nat))
  | [] => []
  | results :: rest => unlimitedResults results :: unlimitedGroup rest

/-- The results of a task without the limits that pools report. -/
def unlimitedResults : List (Reply × Nat) → List (Reply × Nat)
  | [] => []
  | (reply, time) :: rest => (reply.unlimited, time) :: unlimitedResults rest

end

namespace Session

/-- The session without limits, with all that is still scripted cut off at them. -/
def truncated (limits : Limits) (session : Session) : Session :=
  { session with
    world := session.world.unlimited
    script := session.script.truncated limits }

variable (limits : Limits) (session : Session)

@[simp] theorem now_truncated : (session.truncated limits).now = session.now := rfl
@[simp] theorem world_truncated : (session.truncated limits).world = session.world.unlimited := rfl
@[simp] theorem script_truncated :
    (session.truncated limits).script = session.script.truncated limits := rfl
@[simp] theorem pools_truncated : (session.truncated limits).pools = session.pools := rfl
@[simp] theorem registries_truncated :
    (session.truncated limits).registries = session.registries := rfl
@[simp] theorem loans_truncated : (session.truncated limits).loans = session.loans := rfl
@[simp] theorem mark_truncated : (session.truncated limits).mark = session.mark := rfl
@[simp] theorem resolve_truncated : (session.truncated limits).resolve = session.resolve := rfl
@[simp] theorem loanAt_truncated : (session.truncated limits).loanAt = session.loanAt := rfl
@[simp] theorem viewLoan_truncated : (session.truncated limits).viewLoan = session.viewLoan := rfl

/-- An action that gives no limits leads to the same. -/
theorem act_truncated (action : World.Action) (h : action.unlimited = action) :
    (session.truncated limits).act action = (session.act action).truncated limits := by
  have hstep := session.world.step_unlimited action
  rw [h] at hstep
  simp only [act, world_truncated, hstep]
  rfl

/-- A creation without limits is the creation with limits, which are forgotten. -/
theorem act_create_truncated (key : Key) (label name : String) (endpoints : List Endpoint)
    (settings : Settings) :
    (session.truncated limits).act (.create key label name endpoints settings.unlimited) =
      (session.act (.create key label name endpoints settings)).truncated limits := by
  have hstep := session.world.step_unlimited (.create key label name endpoints settings)
  simp only [World.Action.unlimited] at hstep
  simp only [act, world_truncated, hstep]
  rfl

@[simp] theorem poolAt_truncated (id : PoolId) :
    (session.truncated limits).poolAt id = (session.poolAt id).unlimited := by
  simp only [poolAt, List.getD_eq_getElem?_getD, world_truncated, World.getElem?_pools_unlimited]
  cases session.world.pools[id]? <;> rfl

@[simp] theorem viewPool_truncated (id : PoolId) :
    (session.truncated limits).viewPool id = (session.viewPool id).unlimited := by
  unfold viewPool
  rw [poolAt_truncated]
  rfl

theorem shape_unlimited (pool : Pool) : pool.unlimited.shape = pool.shape := rfl

theorem outlineOf_truncated (subject : Subject) :
    (session.truncated limits).outlineOf subject = session.outlineOf subject := by
  unfold outlineOf registryShape
  cases subject with
  | loan name => rfl
  | pool key => simp only [pools_truncated, poolAt_truncated, shape_unlimited]
  | registry name => simp only [registries_truncated, poolAt_truncated, shape_unlimited]

theorem census_truncated : (session.truncated limits).census = session.census := by
  simp only [census, poolAt_truncated, Pool.idleConnections_unlimited, Pool.live_unlimited,
    pools_truncated, registries_truncated]

/-! ### Names -/

theorem keepPool_truncated (key : String) (id : PoolId) :
    (session.truncated limits).keepPool key id = (session.keepPool key id).truncated limits := by
  unfold keepPool
  rw [pools_truncated]
  cases session.pools.get? key with
  | none => rfl
  | some old =>
      apply act_truncated limits { session with pools := session.pools.insert key id }
      rfl

theorem keepLoan_truncated (name : String) (key : Key) :
    (session.truncated limits).keepLoan name key =
      (session.keepLoan name key).truncated limits := by
  unfold keepLoan
  rw [loans_truncated]
  cases session.loans.get? name with
  | none => rfl
  | some old =>
      apply act_truncated limits { session with loans := session.loans.insert name key }
      rfl

theorem foldl_letGo_truncated (ids : List PoolId) :
    ids.foldl (fun session id => session.act (.letGo id)) (session.truncated limits) =
      (ids.foldl (fun session id => session.act (.letGo id)) session).truncated limits := by
  induction ids generalizing session with
  | nil => rfl
  | cons id rest ih =>
      rw [List.foldl_cons, List.foldl_cons, act_truncated, ih]
      rfl

theorem keepRegistry_truncated (name : String) (registry : Registry) :
    (session.truncated limits).keepRegistry name registry =
      (session.keepRegistry name registry).truncated limits := by
  unfold keepRegistry
  rw [registries_truncated]
  cases session.registries.get? name with
  | none => rfl
  | some old =>
      apply foldl_letGo_truncated limits
        { session with registries := session.registries.insert name registry }

/-! ### Loans -/

theorem takeLoan_truncated (name : String) :
    (session.truncated limits).takeLoan name =
      (session.takeLoan name).map fun taken => (taken.1, taken.2.truncated limits) := by
  unfold takeLoan
  rw [loans_truncated]
  cases session.loans.get? name <;> rfl

theorem releaseError?_unlimited (w : World) (key : Key) (id : PoolId) :
    w.unlimited.releaseError? key id = w.releaseError? key id := by
  simp only [World.releaseError?, World.name_getD_pools_unlimited, World.loans_unlimited]

theorem releaseLoan_truncated (target : Target) (name : String) :
    (session.truncated limits).releaseLoan target name =
      ((session.releaseLoan target name).1.truncated limits,
        (session.releaseLoan target name).2) := by
  unfold releaseLoan
  rw [resolve_truncated, takeLoan_truncated]
  cases session.resolve target with
  | error what => rfl
  | ok destination =>
      cases session.takeLoan name with
      | none => rfl
      | some taken =>
          cases destination with
          | none => exact congrArg (·, _) (act_truncated limits taken.2 _ rfl)
          | some id =>
              simp only [Option.map_some, world_truncated, releaseError?_unlimited]
              exact congrArg (·, _) (act_truncated limits taken.2 _ rfl)

/-- Drops the loan under a name, if there is one. -/
def dropNamed (session : Session) (name : String) : Session :=
  match session.takeLoan name with
  | none => session
  | some (key, session) => session.act (.drop key)

theorem dropNamed_truncated (name : String) :
    (session.truncated limits).dropNamed name = (session.dropNamed name).truncated limits := by
  unfold dropNamed
  rw [takeLoan_truncated]
  cases session.takeLoan name with
  | none => rfl
  | some taken => exact act_truncated limits taken.2 _ rfl

theorem swapLoans_eq (first second : String) :
    session.swapLoans first second =
      match session.loans.get? first, session.loans.get? second with
      | some a, some b =>
          if first = second then (session.dropNamed first, .missing .loan)
          else (session.act (.swap a b), .ok)
      | _, _ => ((session.dropNamed first).dropNamed second, .missing .loan) := rfl

theorem swapLoans_truncated (first second : String) :
    (session.truncated limits).swapLoans first second =
      ((session.swapLoans first second).1.truncated limits,
        (session.swapLoans first second).2) := by
  simp only [swapLoans_eq, loans_truncated, dropNamed_truncated]
  split
  · split
    · rfl
    · exact congrArg (·, _) (act_truncated limits session _ rfl)
  · rfl

theorem tagLoan_truncated (name : String) (tag : Option String) (sick : Option Bool) :
    (session.truncated limits).tagLoan name tag sick =
      ((session.tagLoan name tag sick).1.truncated limits,
        (session.tagLoan name tag sick).2) := by
  unfold tagLoan
  rw [loanAt_truncated, mark_truncated]
  cases session.loanAt name <;> rfl

end Session

end HeartbeatPool
