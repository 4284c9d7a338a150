import HeartbeatPool.Proofs.Attempts
import HeartbeatPool.Proofs.LockstepCalls

/-!
# When a call is over at the latest

With a limit on heartbeats and one on dials a call has a budget of time: for each attempt that is
left, both limits, and for the attempt under way what is left of it.  Each answer comes within its
limit and leaves a budget that is smaller by as much, provided that time does not pass over the
timers of the call (`Punctual`).  So the call is over when the budget of its start is spent,
whatever never comes.

Main statement: `attempts_of_call`, which puts this together with the bound on the attempts.
-/

namespace HeartbeatPool

/-- The limit on what a call waits for, of two limits on heartbeats and dials. -/
def Call.span (heartbeat dial : Nat) (call : Call) : Nat :=
  match call.phase with
  | .probing _ => heartbeat
  | .redialing _ => dial

/-- The time that a call may take from the moment at which it began to wait. -/
def Call.budget (heartbeat dial : Nat) (call : Call) : Nat :=
  match call.phase with
  | .probing _ => call.attemptsLeft * (heartbeat + dial) + (heartbeat + dial)
  | .redialing _ => call.attemptsLeft * (heartbeat + dial) + dial

theorem Call.span_le_budget (heartbeat dial : Nat) (call : Call) :
    call.span heartbeat dial ≤ call.budget heartbeat dial := by
  unfold span budget
  split <;> omega

theorem Call.budget_le (heartbeat dial : Nat) (call : Call) :
    call.budget heartbeat dial ≤ (call.attemptsLeft + 1) * (heartbeat + dial) := by
  rw [Nat.add_one_mul]
  unfold budget
  split <;> omega

theorem Call.waitsLeft_le (call : Call) : call.waitsLeft ≤ 2 * (call.attemptsLeft + 1) := by
  unfold waitsLeft
  split <;> omega

namespace World

variable {w w' : World} {account : Account} {key : Key} {call next : Call} {verdict : Verdict}

/-- An answer that does not end a call leaves it what it has not waited of its budget. -/
theorem Effect.budget (h : Effect w (.settle key verdict) w' account)
    (hcall : w.calls.get? key = some call) (hnext : w'.calls.get? key = some next)
    (heartbeat dial : Nat) :
    next.pool = call.pool ∧
      call.span heartbeat dial + next.budget heartbeat dial ≤ call.budget heartbeat dial := by
  cases h with
  | @dismiss _ old pool entry cause hold _ hphase =>
      cases hcall.symm.trans hold
      rw [Table.get?_insert_self, Option.some.injEq] at hnext
      subst hnext
      refine ⟨rfl, ?_⟩
      simp only [Call.span, Call.budget, hphase]
      omega
  | @retry _ old pool entry cause attemptsLeft next taken hold _ hphase hleft =>
      cases hcall.symm.trans hold
      rw [withProbe, Table.get?_insert_self, Option.some.injEq] at hnext
      subst hnext
      refine ⟨rfl, ?_⟩
      simp only [Call.span, Call.budget, hphase, hleft, Nat.succ_mul]
      omega
  | pass | replace | giveUp =>
      simp only [withLoan, setPool] at hnext
      rw [Table.get?_erase_self] at hnext
      cases hnext

theorem budget_of_settle (hw : w.Linked) (hcall : w.calls.get? key = some call)
    (hnext : (w.step (.settle key verdict)).1.calls.get? key = some next) (heartbeat dial : Nat) :
    next.pool = call.pool ∧
      call.span heartbeat dial + next.budget heartbeat dial ≤ call.budget heartbeat dial := by
  rcases step_cases hw (.settle key verdict) with
    ⟨-, hnone⟩ | ⟨w', account, heff, ⟨hstep, -⟩ | ⟨left, old, -, -, -, hstep⟩⟩
  · obtain ⟨w', account, heff⟩ := exists_effect_of_settle hw hcall verdict
    exact absurd heff (hnone w' account)
  · rw [hstep] at hnext
    exact heff.budget hcall hnext heartbeat dial
  · rw [hstep] at hnext
    exact heff.budget hcall hnext heartbeat dial

end World

namespace Desk

variable {registry : Registry} {desk desk' : Desk} {key : Key} {request : Request} {id : PoolId}
  {pool : Pool} {heartbeat dial finish : Nat}

/-- The timers of a call under way. -/
def timersOf (desk : Desk) (key : Key) : List Nat :=
  if desk.session.world.calls.contains key then ((desk.waits.get? key).map Wait.timers).getD []
  else []

/-- A run in which time never passes over a timer of a call. -/
def Punctual (registry : Registry) (key : Key) (desk : Desk) : List Request → Prop
  | [] => True
  | request :: rest =>
      (∀ timer ∈ desk.timersOf key,
        request.duration = 0 ∨ desk.session.now + request.duration ≤ timer) ∧
        (desk.serve registry request).1.Punctual registry key rest

instance decidablePunctual (registry : Registry) (key : Key) :
    ∀ (desk : Desk) (requests : List Request), Decidable (desk.Punctual registry key requests)
  | _, [] => inferInstanceAs (Decidable True)
  | desk, request :: rest =>
      have := decidablePunctual registry key (desk.serve registry request).1 rest
      inferInstanceAs (Decidable (_ ∧ _))

/-- A wait for a call that began early enough. -/
structure Waits (heartbeat dial finish : Nat) (call : Call) (wait : Wait) (now : Nat) : Prop where
  started : ∃ begun outcome, wait = Wait.start begun (some (call.span heartbeat dial)) outcome ∧
    begun + call.budget heartbeat dial ≤ finish
  due : ∀ timer ∈ wait.timers, now ≤ timer

/-- A call that is under way has not spent its budget. -/
structure Paced (key : Key) (id : PoolId) (pool : Pool) (heartbeat dial finish : Nat)
    (desk : Desk) : Prop where
  ground : desk.session.world.Grounded id pool []
  now : desk.session.now ≤ finish
  waits : ∀ call, desk.session.world.calls.get? key = some call →
    call.pool = id ∧ ∃ wait, desk.waits.get? key = some wait ∧
      Waits heartbeat dial finish call wait desk.session.now

/-- The last timer of a wait is its deadline. -/
theorem Waits.exists_deadline {call : Call} {wait : Wait} {now : Nat}
    (h : Waits heartbeat dial finish call wait now) :
    ∃ deadline ∈ wait.timers, wait.deadline = some deadline ∧
      deadline + call.budget heartbeat dial ≤ finish + call.span heartbeat dial := by
  obtain ⟨begun, outcome, rfl, hbudget⟩ := h.started
  refine ⟨begun + call.span heartbeat dial, ?_, rfl, by omega⟩
  simp [Wait.timers, Wait.start]

theorem Waits.le_finish {call : Call} {wait : Wait} {now : Nat}
    (h : Waits heartbeat dial finish call wait now) :
    ∃ deadline ∈ wait.timers, wait.deadline = some deadline ∧ deadline ≤ finish := by
  obtain ⟨deadline, hmem, hdeadline, hle⟩ := h.exists_deadline
  have hspan := call.span_le_budget heartbeat dial
  exact ⟨deadline, hmem, hdeadline, by omega⟩

namespace Paced

variable (h : Paced key id pool heartbeat dial finish desk)
include h

theorem of_same (hground : desk'.session.world.Grounded id pool [])
    (hnow : desk'.session.now = desk.session.now)
    (hcalls : desk'.session.world.calls.get? key = desk.session.world.calls.get? key)
    (hwaits : desk'.waits.get? key = desk.waits.get? key) :
    Paced key id pool heartbeat dial finish desk' where
  ground := hground
  now := hnow ▸ h.now
  waits call hcall := by
    rw [hwaits, hnow]
    exact h.waits call (hcalls ▸ hcall)

theorem of_ended (hground : desk'.session.world.Grounded id pool [])
    (hnow : desk'.session.now = desk.session.now)
    (hcalls : desk'.session.world.calls.get? key = none) :
    Paced key id pool heartbeat dial finish desk' where
  ground := hground
  now := hnow ▸ h.now
  waits call hcall := by cases hcalls.symm.trans hcall

end Paced

theorem paced_resume (hheartbeat : pool.settings.heartbeatTimeout = some heartbeat)
    (hdial : pool.settings.dialTimeout = some dial)
    (hground : desk.session.world.Grounded id pool []) (hnow : desk.session.now ≤ finish)
    (hcalls : ∀ call, desk.session.world.calls.get? key = some call →
      call.pool = id ∧ desk.session.now + call.budget heartbeat dial ≤ finish) (other : PoolId) :
    Paced key id pool heartbeat dial finish (desk.resume key other).1 := by
  obtain ⟨hworld, -, htime⟩ := desk.resume_frame key other
  refine ⟨hworld ▸ hground, htime ▸ hnow, fun call hcall => ?_⟩
  rw [hworld] at hcall
  obtain ⟨hpool, hbudget⟩ := hcalls call hcall
  have hwait := congrArg Prod.snd (desk.session.callWait_eq call)
  obtain ⟨pool', hpool', hsame⟩ := hground.same
  have hat : desk.session.poolAt call.pool = pool' := by
    rw [Session.poolAt, List.getD_eq_getElem?_getD, hpool, hpool', Option.getD_some]
  have hsettings : pool'.settings = pool.settings := congrArg (·.2.2.2) hsame
  have hlimit : pool'.limit call.phase = some (call.span heartbeat dial) := by
    unfold Pool.limit Call.span
    rw [hsettings, hheartbeat, hdial]
    cases call.phase <;> rfl
  rw [hat, hlimit] at hwait
  refine ⟨hpool, _, ?_, ⟨desk.session.now, _, hwait, hbudget⟩, ?_⟩
  · rw [resume_of_call hcall]
    exact Table.get?_insert_self ..
  · rw [htime, hwait]
    exact fun timer => Wait.le_of_mem_timers

section

variable (hheartbeat : pool.settings.heartbeatTimeout = some heartbeat)
  (hdial : pool.settings.dialTimeout = some dial)
include hheartbeat hdial

theorem Paced.poll (h : Paced key id pool heartbeat dial finish desk) {call : Call}
    (hcall : desk.session.world.calls.get? key = some call) :
    Paced key id pool heartbeat dial finish (desk.serve registry (.poll key)).1 := by
  rw [serve_poll_of_call hcall]
  cases hanswer : desk.answer? key with
  | none => exact h
  | some answer =>
      have hground := @World.Grounded.step _ _ _ _ (.settle key answer.2) h.ground nofun
      have hacted : (desk.act (.settle key answer.2)).session.world.Grounded id pool [] :=
        hground.mono (by simp)
      refine paced_resume hheartbeat hdial hacted h.now (fun next hnext => ?_) _
      obtain ⟨hid, wait, hwait, hwaits⟩ := h.waits call hcall
      obtain ⟨hpool, hbudget⟩ :=
        World.budget_of_settle h.ground.orderly.linked hcall hnext heartbeat dial
      obtain ⟨deadline, hmem, -, hle⟩ := hwaits.exists_deadline
      have hnow := hwaits.due deadline hmem
      refine ⟨hpool.trans hid, ?_⟩
      change desk.session.now + _ ≤ finish
      omega

/-- Whatever is asked for, a call under way stays within its budget, as long as no timer of it is
passed over. -/
theorem Paced.serve (h : Paced key id pool heartbeat dial finish desk)
    (hcalls : desk.session.world.calls.contains key = true)
    (hpasses : ∀ timer ∈ desk.timersOf key,
      request.duration = 0 ∨ desk.session.now + request.duration ≤ timer) :
    Paced key id pool heartbeat dial finish (desk.serve registry request).1 := by
  obtain ⟨call, hcall⟩ := Option.isSome_iff_exists.mp hcalls
  have hground := @grounded_serve registry _ _ _ _ h.ground request
  have hdoes := desk.does_serve registry request
  by_cases hown : request.call? = some key
  · cases request with
    | acquire other service =>
        cases hown
        -- there is a call already, so nothing is started
        rw [(@serve_acquire_of_call registry _ _ _ hcall service).1]
        exact h
    | poll other =>
        cases hown
        exact h.poll hheartbeat hdial hcall
    | cancel other =>
        cases hown
        refine h.of_ended hground hdoes.now ?_
        obtain ⟨pool', hpool', -⟩ := h.ground.same
        obtain ⟨hpool, -⟩ := h.waits call hcall
        obtain ⟨w', events, hstep, hcalls', -⟩ := World.cancel_of_held hcall (hpool ▸ hpool')
          (hpool ▸ h.ground.held) h.ground.orderly
        rw [hdoes.world, actionOf?, hcall]
        simp only [Option.map_some, Option.elim_some, hstep, hcalls']
        exact Table.get?_erase_self ..
    | pass | release | drop => cases hown
  · have hsame := @serve_calls_of_ne registry _ _ _ h.ground.orderly.linked hown
    have hwaits := @serve_waits_of_ne registry desk _ _ hown
    cases request with
    | pass duration =>
        obtain ⟨hpool, wait, hwait, hbegun⟩ := h.waits call hcall
        -- no timer of the wait is passed by
        have hdue (timer : Nat) (hmem : timer ∈ wait.timers) :
            desk.session.now + duration ≤ timer := by
          have hle := hbegun.due timer hmem
          have hpassed := hpasses timer (by simpa [timersOf, hcalls, hwait] using hmem)
          rw [Request.duration] at hpassed
          omega
        obtain ⟨deadline, hmem, -, hle⟩ := hbegun.le_finish
        refine ⟨hground, Nat.le_trans (hdue deadline hmem) hle, fun call' hcall' => ?_⟩
        cases hcall.symm.trans hcall'
        exact ⟨hpool, wait, hwait, hbegun.started, hdue⟩
    | acquire | poll | cancel | release | drop =>
        exact h.of_same hground hdoes.now hsame hwaits

theorem Paced.after (h : Paced key id pool heartbeat dial finish desk) (requests : List Request)
    (hcalls : ∀ count < requests.length,
      (desk.after registry (requests.take count)).session.world.calls.contains key = true)
    (hpunctual : desk.Punctual registry key requests) :
    Paced key id pool heartbeat dial finish (desk.after registry requests) := by
  induction requests generalizing desk with
  | nil => exact h
  | cons request rest ih =>
      have hnext := @Paced.serve registry _ _ request _ _ _ _ _ hheartbeat hdial h
        (hcalls 0 (Nat.zero_lt_succ _)) hpunctual.1
      refine ih hnext (fun count hcount => ?_) hpunctual.2
      exact hcalls (count + 1) (Nat.succ_lt_succ hcount)

/-- A call that has spent its budget is over as soon as it has taken in the answers that have
come. -/
theorem Paced.exists_over (h : Paced key id pool heartbeat dial finish desk)
    (hlate : finish ≤ desk.session.now) (bound : Nat)
    (hbound : ∀ call, desk.session.world.calls.get? key = some call → call.waitsLeft ≤ bound) :
    ∃ count ≤ bound, (desk.after registry
      (List.replicate count (.poll key))).session.world.calls.get? key = none := by
  induction bound generalizing desk with
  | zero =>
      refine ⟨0, Nat.le_refl 0, ?_⟩
      cases hcall : desk.session.world.calls.get? key with
      | none => exact hcall
      | some call => exact absurd (hbound call hcall) (by have := call.waitsLeft_pos; omega)
  | succ bound ih =>
      cases hcall : desk.session.world.calls.get? key with
      | none => exact ⟨0, Nat.zero_le _, hcall⟩
      | some call =>
          -- the time is up, so the wait has come to its deadline at least
          obtain ⟨-, wait, hwait, hbegun⟩ := h.waits call hcall
          obtain ⟨deadline, hmem, -, hle⟩ := hbegun.le_finish
          have hpoll : wait.poll desk.session.now ≠ none := by
            intro hnone
            have hahead : Session.Ahead wait.timers desk.session := Wait.poll_eq_none_iff.mp hnone
            have hlt := hahead deadline hmem
            omega
          obtain ⟨verdict, hverdict⟩ := Option.ne_none_iff_exists'.mp hpoll
          have hanswer : desk.answer? key = some (call.phase, verdict) := by
            simp only [answer?, hcall, hwait, hverdict, Option.map_some]
          have hserve := @serve_poll_of_call registry _ _ _ hcall
          rw [hanswer] at hserve
          obtain ⟨hworld, -, hnow⟩ :=
            (desk.act (.settle key verdict)).resume_frame key call.pool
          have hnext := @Paced.poll registry _ _ _ _ _ _ _ hheartbeat hdial h _ hcall
          have hlate' : finish ≤ (desk.serve registry (.poll key)).1.session.now := by
            rw [hserve]
            exact hnow ▸ hlate
          -- the look takes in an answer, and fewer waits are left
          obtain ⟨count, hcount, hover⟩ := ih hnext hlate' fun next hcall' => by
            rw [hserve, hworld] at hcall'
            obtain ⟨old, hold, hlt⟩ := World.waitsLeft_lt h.ground.orderly.linked hcall'
            have hle := hbound old hold
            omega
          exact ⟨count + 1, by omega, hover⟩

end

/-! ## Every call -/

/-- A call starts with a budget for all its attempts. -/
theorem paced_of_acquire {service : String} (hground : desk.session.world.Grounded id pool [])
    (hpool : desk.session.world.pools[id]? = some pool)
    (hservice : registry.get? service = some id) (hfree : desk.isTaken key = false)
    (hheartbeat : pool.settings.heartbeatTimeout = some heartbeat)
    (hdial : pool.settings.dialTimeout = some dial) :
    Paced key id pool heartbeat dial
      (desk.session.now + max 1 pool.idle.length * (heartbeat + dial))
      (desk.serve registry (.acquire key service)).1 := by
  have hgoes := goes_of_acquire hground hpool hservice hfree
  rw [serve_acquire_of_free hservice hfree] at hgoes ⊢
  obtain ⟨hworld, -, -⟩ := (desk.act (.acquire key id)).resume_frame key id
  have hacted : (desk.act (.acquire key id)).session.world.Grounded id pool [] :=
    (@World.Grounded.step _ _ _ _ (.acquire key id) hground nofun).mono (by simp)
  refine paced_resume hheartbeat hdial hacted (Nat.le_add_right ..) (fun call hcall => ?_) id
  rw [← hworld] at hcall
  cases hgoes with
  | ended hnone => cases hnone.symm.trans hcall
  | on failed other h =>
      cases h.called.symm.trans hcall
      have hattempts := h.attempts
      have hbudget := call.budget_le heartbeat dial
      have hmost := Nat.mul_le_mul_right (heartbeat + dial)
        (show call.attemptsLeft + 1 ≤ max 1 pool.idle.length by omega)
      exact ⟨h.onPool, Nat.add_le_add_left (Nat.le_trans hbudget hmost) _⟩

/-- A call that found some connections idle, however many others ask for connections, give them back
and give up in the meantime, makes at most as many attempts as there were, and one if there were
none: it probes at most as many connections, none of them twice, and dials at most as often.

It ends exhausted exactly if it has found the queue empty once or if all those attempts have failed,
heartbeat and dial.  Then it has nothing in its hands, and what it has probed is nowhere.  It never
ends with another error.

If both heartbeats and dials have a limit, and no timer of the call is passed over, then the call
has ended when both limits have passed once for each attempt, whatever never comes: as long as it is
under way it is not later than that, and at that time it ends as soon as it has taken in the answers
that have come. -/
theorem attempts_of_call {past : List World.Action}
    (hreached : desk.session.world = (World.run {} past).1) {service : String}
    (hservice : registry.get? service = some id) (hheld : id ∈ desk.session.world.held)
    (hpool : desk.session.world.pools[id]? = some pool) (hfree : desk.isTaken key = false)
    (requests : List Request)
    (hcalls : ∀ count < requests.length,
      (desk.after registry
        (.acquire key service :: requests.take count)).session.world.calls.contains key = true) :
    let most := max 1 pool.idle.length
    let course := desk.course registry key (.acquire key service :: requests)
    let reached := desk.after registry (.acquire key service :: requests)
    course.probed.length ≤ most ∧ course.dialed.length ≤ course.probed.length ∧
      course.probed.Nodup ∧
      (∀ error, .failed error ∈ course.replies → error = .poolExhausted pool.name) ∧
      (.failed (.poolExhausted pool.name) ∈ course.replies ↔
        [] ∈ course.looks ∨ course.FailedTimes most) ∧
      (.failed (.poolExhausted pool.name) ∈ course.replies →
        (∀ holding ∈ reached.session.world.holdings, holding.place.caller? ≠ some key) ∧
          ∀ conn ∈ course.probed, reached.session.world.whereabouts conn = []) ∧
      ∀ heartbeat dial, pool.settings.heartbeatTimeout = some heartbeat →
        pool.settings.dialTimeout = some dial →
        desk.Punctual registry key (.acquire key service :: requests) →
        let finish := desk.session.now + most * (heartbeat + dial)
        reached.session.now ≤ finish ∧
          (finish ≤ reached.session.now → ∃ count ≤ 2 * most,
            (reached.after registry
              (List.replicate count (.poll key))).session.world.calls.get? key = none) := by
  intro most course reached
  have hground := World.grounded_of_run hreached hheld hpool
  have hgoes := (goes_of_acquire hground hpool hservice hfree).after requests hcalls
  have hbounded := hgoes.bounded
  -- the first request is the call itself
  have hcourse : course = desk.stage registry (.acquire key service) ++
      (desk.serve registry (.acquire key service)).1.course registry key requests :=
    if_pos rfl
  rw [← hcourse] at hbounded
  refine ⟨hbounded.probed, hbounded.dialed, hbounded.nodup, hbounded.failures, hbounded.exhausted,
    hbounded.emptyHanded, ?_⟩
  intro heartbeat dial hheartbeat hdial hpunctual finish
  have hpaced := (paced_of_acquire hground hpool hservice hfree hheartbeat hdial).after hheartbeat
    hdial requests hcalls hpunctual.2
  refine ⟨hpaced.now, fun hlate => ?_⟩
  refine hpaced.exists_over hheartbeat hdial hlate (2 * most) fun call hcall => ?_
  -- the answers that are left are at most two for each attempt
  cases hgoes with
  | ended hnone => cases hnone.symm.trans hcall
  | on failed other h =>
      cases h.called.symm.trans hcall
      have hattempts := h.attempts
      have hwaits := call.waitsLeft_le
      omega

/-- A pool of two connections, one of them on loan, to an endpoint that has ceased to answer. -/
def silentDesk : Desk :=
  { session :=
      { world := (World.run {}
          [.create 0 "echo" "echo" [{ address := "a:1" }]
              { perEndpoint := 2, heartbeatTimeout := some 5, dialTimeout := some 3 },
            .dialSlot 0, .dialSlot 0, .settleSlot 0 0 .success, .settleSlot 0 1 .success,
            .finish 0, .acquire 1 0, .settle 1 .success]).1
        script :=
          { dials := .ofList [("a:1", { usual := some .hangs })]
            probes := .ofList [("a:1", { usual := some .hangs })] } } }

/-- While a call waits, the loan is given back; the call does not try it. -/
def givenBack : List Request := [.pass 5, .poll 2, .release 1 "echo", .pass 3, .poll 2]

/-- The call has found one idle connection and ends exhausted after one attempt, at the time of both
limits, although the queue is not empty. -/
theorem attempts_of_givenBack :
    let course := silentDesk.course (.ofList [("echo", 0)]) 2 (.acquire 2 "echo" :: givenBack)
    let reached := silentDesk.after (.ofList [("echo", 0)]) (.acquire 2 "echo" :: givenBack)
    course.probed.length ≤ 1 ∧ course.looks = [[⟨⟨"a:1", 1⟩, 0⟩]] ∧ course.FailedTimes 1 ∧
      (∀ conn ∈ course.probed, reached.session.world.whereabouts conn = []) ∧
      reached.session.now ≤ 1 * (5 + 3) ∧ (reached.session.poolAt 0).idle = [⟨⟨"a:1", 0⟩, 0⟩] := by
  obtain ⟨hprobed, -, -, -, hexhausted, hempty, htime⟩ :=
    @attempts_of_call (.ofList [("echo", 0)]) silentDesk 2 0 _ _ rfl "echo" rfl (by decide) rfl rfl
      givenBack (by decide +kernel)
  have hreplies : Reply.failed (.poolExhausted "echo") ∈
      (silentDesk.course (.ofList [("echo", 0)]) 2 (.acquire 2 "echo" :: givenBack)).replies :=
    List.mem_cons_self
  have hlooks : (silentDesk.course (.ofList [("echo", 0)]) 2
      (.acquire 2 "echo" :: givenBack)).looks = [[⟨⟨"a:1", 1⟩, 0⟩]] := by decide +kernel
  refine ⟨hprobed, hlooks, (hexhausted.mp hreplies).resolve_left (by rw [hlooks]; decide),
    (hempty hreplies).2, ?_, by decide +kernel⟩
  exact (htime 5 3 rfl rfl (by decide +kernel)).1

end Desk

end HeartbeatPool
