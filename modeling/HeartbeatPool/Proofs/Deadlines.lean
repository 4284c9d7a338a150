import HeartbeatPool.Proofs.LockstepTasks

/-!
# Deadlines are truncation

A session whose pools have time limits does what the session without any does in which every dial
and every heartbeat comes out by the limit: what hangs or comes too late fails just then.

A wait with a deadline has a timer more than the one without it, which comes no earlier than the
answer.  So both sessions jump to the same instants (`Covers`), and there they go on in lockstep.

Main result: `Session.run_truncated`.
-/

namespace HeartbeatPool

open Session

/-! ## Timers -/

/-- Some of the times are enough to know the first. -/
structure Covers (fewer timers : List Nat) : Prop where
  subset : fewer ⊆ timers
  first : ∀ timer ∈ timers, ∃ earlier ∈ fewer, earlier ≤ timer

namespace Covers

variable {fewer timers fewer' timers' : List Nat}

theorem refl (timers : List Nat) : Covers timers timers :=
  ⟨List.Subset.refl _, fun timer htimer => ⟨timer, htimer, Nat.le_refl _⟩⟩

theorem append (h : Covers fewer timers) (h' : Covers fewer' timers') :
    Covers (fewer ++ fewer') (timers ++ timers') where
  subset := by
    intro timer htimer
    rcases List.mem_append.mp htimer with hmem | hmem
    · exact List.mem_append_left _ (h.subset hmem)
    · exact List.mem_append_right _ (h'.subset hmem)
  first := by
    intro timer htimer
    rcases List.mem_append.mp htimer with hmem | hmem
    · obtain ⟨earlier, hearlier, hle⟩ := h.first timer hmem
      exact ⟨earlier, List.mem_append_left _ hearlier, hle⟩
    · obtain ⟨earlier, hearlier, hle⟩ := h'.first timer hmem
      exact ⟨earlier, List.mem_append_right _ hearlier, hle⟩

theorem min?_eq (h : Covers fewer timers) : fewer.min? = timers.min? := by
  cases hmin : timers.min? with
  | none =>
      rw [List.min?_eq_none_iff] at hmin ⊢
      subst hmin
      exact List.subset_nil.mp h.subset
  | some first =>
      obtain ⟨hmem, hleast⟩ := List.min?_eq_some_iff.mp hmin
      obtain ⟨earlier, hearlier, hle⟩ := h.first first hmem
      have heq : earlier = first := Nat.le_antisymm hle (hleast earlier (h.subset hearlier))
      refine List.min?_eq_some_iff.mpr ⟨heq ▸ hearlier, ?_⟩
      exact fun timer htimer => hleast timer (h.subset htimer)

/-- As long as nothing was missed, the next timer is the same. -/
theorem nextTimer_eq (h : Covers fewer timers) {s : Session} (hahead : Ahead timers s) :
    nextTimer s.now fewer = nextTimer s.now timers := by
  have hall : timers.filter (s.now < ·) = timers :=
    List.filter_eq_self.mpr fun timer htimer => decide_eq_true (hahead timer htimer)
  have hfewer : fewer.filter (s.now < ·) = fewer :=
    List.filter_eq_self.mpr fun timer htimer =>
      decide_eq_true (hahead timer (h.subset htimer))
  unfold nextTimer
  rw [hall, hfewer, h.min?_eq]

end Covers

/-- Of answer and deadline the wait without a deadline keeps the first. -/
theorem Wait.covers (wait : Wait) : Covers wait.unlimited.timers wait.timers := by
  rcases wait with ⟨_ | ⟨instant, verdict⟩, _ | deadline⟩
  · exact .refl _
  · exact .refl _
  · exact .refl _
  · by_cases hle : instant ≤ deadline
    · constructor <;> simp [timers, unlimited, hle]
    · constructor <;> simp [timers, unlimited, hle]
      omega

namespace Session

theorem covers_slotTimers (waits : List (Option Wait)) :
    Covers (slotTimers (unlimitedWaits waits)) (slotTimers waits) := by
  induction waits with
  | nil => exact .refl _
  | cons wait rest ih =>
      rw [unlimitedWaits, List.map_cons, slotTimers_cons, slotTimers_cons]
      refine Covers.append ?_ ih
      cases wait with
      | none => exact .refl _
      | some wait => exact wait.covers

theorem covers_memberTimers (members : List Member) :
    Covers (memberTimers (members.map Member.unlimited)) (memberTimers members) := by
  induction members with
  | nil => exact .refl _
  | cons member rest ih =>
      simp only [memberTimers, List.map_cons, List.flatMap_cons] at ih ⊢
      refine Covers.append ?_ ih
      cases member with
      | creating service creating => exact covers_slotTimers creating.waits
      | ready service pool => exact .refl _

mutual

theorem covers_timersOf (limits : Limits) (activity : Activity) :
    Covers (timersOf (activity.truncated limits)) (timersOf activity) := by
  match activity with
  | .asleep wake => exact .refl _
  | .acquiring acquiring => exact acquiring.wait.covers.append (.refl _)
  | .creating pool creating stall => exact (covers_slotTimers creating.waits).append (.refl _)
  | .building registry members stall => exact (covers_memberTimers members).append (.refl _)
  | .group tasks => exact covers_timersOfAll limits tasks

theorem covers_timersOfTask (limits : Limits) (task : Task) :
    Covers (timersOfTask (task.truncated limits)) (timersOfTask task) := by
  match task with
  | .finished results => exact .refl _
  | .waiting results activity rest => exact covers_timersOf limits activity

theorem covers_timersOfAll (limits : Limits) (tasks : List Task) :
    Covers (timersOfAll (truncatedTasks limits tasks)) (timersOfAll tasks) := by
  match tasks with
  | [] => exact .refl _
  | task :: rest =>
      exact (covers_timersOfTask limits task).append (covers_timersOfAll limits rest)

end

/-! ## Steps as a whole -/

variable {limits : Limits} {s : Session} {task : Task} {step : Step}

/-- A task that has run as far as it gets, in a session whose pools all have the same limits. -/
structure Poised (limits : Limits) (s : Session) (task : Task) : Prop where
  limited : s.world.Limited limits
  hasLimits : task.HasLimits limits
  ahead : Ahead (timersOfTask task) s
  underWay : UnderWay task.keys s

theorem TaskAgrees.poised {own : List Key} {here there : Session × Task}
    (h : TaskAgrees limits own s here there) : Poised limits here.1 here.2 :=
  ⟨h.continues.limited, h.sound.1, h.sound.2.ahead, h.sound.2.underWay⟩

/-- The clock jumps to the first timer, so none is missed. -/
theorem due_of_nextTimer {timers : List Nat} {instant : Nat}
    (hnext : nextTimer s.now timers = some instant) (hahead : Ahead timers s) :
    Due timers { s with now := instant } := by
  intro timer htimer
  refine (List.min?_eq_some_iff.mp hnext).2 timer ?_
  exact List.mem_filter.mpr ⟨htimer, decide_eq_true (hahead timer htimer)⟩

theorem drive_truncated (h : Poised limits s task) (jumps : Nat) :
    (s.truncated limits).drive (task.truncated limits) jumps =
        ((s.drive task jumps).1.truncated limits, (s.drive task jumps).2.truncated limits) ∧
      (s.drive task jumps).1.world.Limited limits := by
  -- every jump ends at the first timer, and from there the task again runs as far as it gets
  induction jumps generalizing s task with
  | zero => exact ⟨rfl, h.limited⟩
  | succ jumps ih =>
      have hnext := (covers_timersOfTask limits task).nextTimer_eq h.ahead
      unfold drive
      rw [now_truncated, hnext]
      cases hinstant : nextTimer s.now (timersOfTask task) with
      | none => exact ⟨rfl, h.limited⟩
      | some instant =>
          let jumped : Session := { s with now := instant }
          have hdue : Due (timersOfTask task) jumped := due_of_nextTimer hinstant h.ahead
          have hkeys : UnderWay task.keys jumped :=
            ⟨h.underWay.nodup, h.underWay.old, h.underWay.call⟩
          have hpolled := pollTask_agrees (s := jumped) h.limited task h.hasLimits hdue hkeys
          obtain ⟨heq, hlimited⟩ := ih (TaskAgrees.poised hpolled)
          refine ⟨?_, hlimited⟩
          exact (congrArg (fun polled => polled.1.drive polled.2 jumps) hpolled.eq).trans heq

mutual

theorem longest_truncated (limits : Limits) (step : Step) :
    (step.truncated limits).longest = step.longest := by
  match step with
  | .parallel tasks => exact longestTasks_truncated limits tasks
  | .setDial .. | .setProbe .. | .setQueue .. | .create .. | .build .. | .acquire .. => rfl
  | .release .. | .drop .. | .dropPool .. | .tag .. | .swap .. | .look .. | .observe .. => rfl
  | .services .. | .outline .. | .sleep .. => rfl

theorem longestTasks_truncated (limits : Limits) (tasks : List (List Step)) :
    longestTasks (truncatedGroup limits tasks) = longestTasks tasks := by
  match tasks with
  | [] => rfl
  | steps :: rest =>
      simp only [truncatedGroup, longestTasks, longestTask_truncated limits steps,
        longestTasks_truncated limits rest]

theorem longestTask_truncated (limits : Limits) (steps : List Step) :
    longestTask (truncatedSteps limits steps) = longestTask steps := by
  match steps with
  | [] => rfl
  | step :: rest =>
      simp only [truncatedSteps, longestTask, longest_truncated limits step,
        longestTask_truncated limits rest]

end

theorem replyOf_truncated (limits : Limits) (task : Task) :
    replyOf (task.truncated limits) = (replyOf task).unlimited := by
  match task with
  | .finished [] => rfl
  | .finished ((reply, time) :: rest) => rfl
  | .waiting results activity rest => rfl

theorem arrange_truncated (limits : Limits) (step : Step) (reply : Reply) (events : List Event) :
    arrange (step.truncated limits) reply.unlimited events = arrange step reply events := by
  cases step <;> cases reply <;> rfl

/-- What a step came to, without the limits that pools report. -/
def Record.unlimited (record : Record) : Record :=
  { record with reply := record.reply.unlimited }

/-- The session within a step, after some jumps of the clock. -/
def during (session : Session) (step : Step) (jumps : Nat) : Session × Task :=
  let begun := { session with seen := [] }.proceed [] [step]
  begun.1.drive begun.2 jumps

/-- What a step came to, once the session and its only task have run. -/
def recordOf (step : Step) (ran : Session × Task) : Record where
  reply := replyOf ran.2
  events := arrange step (replyOf ran.2) ran.1.seen
  time := ran.1.now
  census := ran.1.census

theorem perform_eq (session : Session) (step : Step) :
    session.perform step =
      ((session.during step step.longest).1, recordOf step (session.during step step.longest)) :=
  rfl

theorem during_truncated (h : s.world.Limited limits) (hstep : step.HasLimits limits)
    (jumps : Nat) :
    (s.truncated limits).during (step.truncated limits) jumps =
        ((s.during step jumps).1.truncated limits, (s.during step jumps).2.truncated limits) ∧
      (s.during step jumps).1.world.Limited limits := by
  have hbegun := proceed_agrees (s := { s with seen := [] }) h [] [step] ⟨hstep, trivial⟩
  obtain ⟨heq, hlimited⟩ := drive_truncated (TaskAgrees.poised hbegun) jumps
  refine ⟨?_, hlimited⟩
  exact (congrArg (fun begun => begun.1.drive begun.2 jumps) hbegun.eq).trans heq

theorem perform_truncated (h : s.world.Limited limits) (hstep : step.HasLimits limits) :
    (s.truncated limits).perform (step.truncated limits) =
        ((s.perform step).1.truncated limits, (s.perform step).2.unlimited) ∧
      (s.perform step).1.world.Limited limits := by
  obtain ⟨heq, hlimited⟩ := during_truncated h hstep step.longest
  rw [perform_eq, perform_eq, longest_truncated, heq]
  refine ⟨?_, hlimited⟩
  simp only [recordOf, Record.unlimited, replyOf_truncated, arrange_truncated, census_truncated]
  rfl

/-! ## Whole sessions -/

/-- The session after some steps. -/
def after (session : Session) (steps : List Step) : Session :=
  steps.foldl (fun session step => (session.perform step).1) session

theorem after_truncated (h : s.world.Limited limits) {steps : List Step}
    (hsteps : ∀ step ∈ steps, step.HasLimits limits) :
    (s.truncated limits).after (steps.map (Step.truncated limits)) =
        (s.after steps).truncated limits ∧
      (s.after steps).world.Limited limits := by
  induction steps generalizing s with
  | nil => exact ⟨rfl, h⟩
  | cons step rest ih =>
      obtain ⟨hstep, hrest⟩ := List.forall_mem_cons.mp hsteps
      obtain ⟨heq, hlimited⟩ := perform_truncated h hstep
      obtain ⟨heq', hlimited'⟩ := ih hlimited hrest
      refine ⟨?_, hlimited'⟩
      exact (congrArg (fun performed => after performed.1 _) heq).trans heq'

theorem records_truncated (h : s.world.Limited limits) {steps : List Step}
    (hsteps : ∀ step ∈ steps, step.HasLimits limits) :
    (s.truncated limits).run (steps.map (Step.truncated limits)) =
      (s.run steps).map Record.unlimited := by
  induction steps generalizing s with
  | nil => rfl
  | cons step rest ih =>
      obtain ⟨hstep, hrest⟩ := List.forall_mem_cons.mp hsteps
      obtain ⟨heq, hlimited⟩ := perform_truncated h hstep
      simp only [run, List.map_cons, heq, ih hlimited hrest]

/-- The idle queue and the live count of every pool. -/
def stocks (session : Session) : List (List Entry × Nat) :=
  session.world.pools.map fun pool => (pool.idle, pool.live)

theorem stocks_truncated (limits : Limits) (session : Session) :
    (session.truncated limits).stocks = session.stocks := by
  unfold stocks
  rw [world_truncated, World.unlimited, List.map_map]
  rfl

/-- If all pools of a session have the same limits, it comes to the same as the session without
limits in which all dials and heartbeats are cut off there: every step has the same result, but for
the limits that a pool reports, with the same events, at the same time and with the same census.
Even within a step, after any number of jumps of the clock, it is the same time, the same was seen,
and all pools have the same idle queues and live counts. -/
theorem run_truncated (limits : Limits) (steps : List Step)
    (hsteps : ∀ step ∈ steps, step.HasLimits limits) :
    run {} (steps.map (Step.truncated limits)) = (run {} steps).map Record.unlimited ∧
      ∀ done step rest, steps = done ++ step :: rest → ∀ jumps,
        let here := ((after {} done).during step jumps).1
        let there := ((after {} (done.map (Step.truncated limits))).during
          (step.truncated limits) jumps).1
        there.now = here.now ∧ there.seen = here.seen ∧ there.stocks = here.stocks := by
  have hinitial : ({} : Session).world.Limited limits := World.Limited.initial
  refine ⟨records_truncated hinitial hsteps, ?_⟩
  rintro done step rest rfl jumps
  obtain ⟨hdone, hothers⟩ := List.forall_mem_append.mp hsteps
  obtain ⟨hafter, hlimited⟩ := after_truncated hinitial hdone
  obtain ⟨hduring, -⟩ := during_truncated hlimited (hothers step List.mem_cons_self) jumps
  have hthere : ((after {} (done.map (Step.truncated limits))).during
      (step.truncated limits) jumps).1 =
      (((after {} done).during step jumps).1).truncated limits := by
    rw [← hafter] at hduring
    exact congrArg Prod.fst hduring
  simp only [hthere]
  exact ⟨rfl, rfl, stocks_truncated limits _⟩

/-- Creates a pool of three connections, of which one is dialed just in time, one too late and one
never, and acquires the first, whose heartbeat hangs and which is dialed anew. -/
def lateAndHanging : List Step :=
  [.setQueue [.settles 5 .success, .settles 9 .success, .hangs],
    .create "echo" "echo" [{ address := "a:1" }, { address := "b:1" }, { address := "c:1" }]
      { dialTimeout := some 5, heartbeatTimeout := some 3 },
    .setProbe "a:1" (some [.hangs]) none,
    .setDial "a:1" (some [.settles 2 .success]) none,
    .acquire (.pool "echo") "call" none]

/-- The same without limits, where everything comes out in time. -/
def cutOff : List Step :=
  [.setQueue [.settles 5 .success, .settles 5 (.failure deadlineText),
      .settles 5 (.failure deadlineText)],
    .create "echo" "echo" [{ address := "a:1" }, { address := "b:1" }, { address := "c:1" }] {},
    .setProbe "a:1" (some [.settles 3 (.failure deadlineText)]) none,
    .setDial "a:1" (some [.settles 2 .success]) none,
    .acquire (.pool "echo") "call" none]

theorem run_lateAndHanging :
    run {} cutOff = (run {} lateAndHanging).map Record.unlimited ∧
      (run {} cutOff).map Record.time = [0, 5, 5, 5, 10] := by
  have hlimits : ∀ step ∈ lateAndHanging, step.HasLimits ⟨some 5, some 3⟩ := by
    simp [lateAndHanging, Step.HasLimits, Settings.limits]
  have hcut : lateAndHanging.map (Step.truncated ⟨some 5, some 3⟩) = cutOff := rfl
  obtain ⟨hrun, -⟩ := run_truncated ⟨some 5, some 3⟩ lateAndHanging hlimits
  rw [hcut] at hrun
  refine ⟨hrun, ?_⟩
  decide +kernel

end Session

end HeartbeatPool
