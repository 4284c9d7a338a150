import HeartbeatPool.Proofs.Course
import HeartbeatPool.Proofs.Custody
import Mathlib.Data.List.Nodup

/-!
# How many attempts a call makes

A call may make as many attempts as there were idle connections at its start.  Others drain and
refill the queue all the time, so that number, and not the queue, is what bounds the call: `Trying`
says that the attempts that have failed, the one under way and those left are always as many.

A connection that has failed its heartbeat is closed, and a closed connection is in no queue again;
so no call probes a connection twice.
-/

namespace HeartbeatPool

/-- The caller who has what is in a place: the call or the loan under a key. -/
def Place.caller? : Place → Option Key
  | .checkout key _ | .redialing key _ | .loan key _ => some key
  | .dialing _ | .result _ | .idle _ => none

/-- An attempt that has failed: the heartbeat of a connection failed, and so did the dial that was
to replace it. -/
structure FailedAttempt where
  entry : Entry
  cause : String
  fresh : Entry
  redialCause : String

/-- The answers that make up a failed attempt. -/
def FailedAttempt.answers (attempt : FailedAttempt) : List (Phase × Verdict) :=
  [(.probing attempt.entry, .failure attempt.cause),
    (.redialing attempt.fresh, .failure attempt.redialCause)]

/-- All answers of a call are those of some failed attempts. -/
def Course.FailedTimes (course : Course) (count : Nat) : Prop :=
  ∃ attempts : List FailedAttempt, attempts.length = count ∧
    course.answers = attempts.flatMap FailedAttempt.answers

theorem FailedAttempt.length_answers (attempts : List FailedAttempt) :
    (attempts.flatMap answers).length = 2 * attempts.length := by
  induction attempts with
  | nil => rfl
  | cons attempt rest ih =>
      rw [List.flatMap_cons, List.length_append, ih, answers, List.length_cons]
      simp
      omega

theorem Course.FailedTimes.length {course : Course} {count : Nat} (h : course.FailedTimes count) :
    course.answers.length = 2 * count := by
  obtain ⟨attempts, rfl, hanswers⟩ := h
  rw [hanswers, FailedAttempt.length_answers]

theorem Course.FailedTimes.ne_success {course : Course} {count : Nat}
    (h : course.FailedTimes count) {answer : Phase × Verdict} (hanswer : answer ∈ course.answers) :
    answer.2 ≠ .success := by
  obtain ⟨attempts, -, hanswers⟩ := h
  rw [hanswers] at hanswer
  obtain ⟨attempt, -, hmem⟩ := List.mem_flatMap.mp hanswer
  rw [FailedAttempt.answers, List.mem_cons, List.mem_singleton] at hmem
  rcases hmem with rfl | rfl <;> exact nofun

namespace World

variable {w : World} {key : Key} {id : PoolId} {pool : Pool} {own : List Event}
  {action : Action}

/-- Without a call and a loan a caller has nothing. -/
theorem caller?_ne_of_none (hcall : w.calls.get? key = none) (hloan : w.loans.get? key = none)
    {holding : Holding} (hmem : holding ∈ w.holdings) : holding.place.caller? ≠ some key := by
  rw [holdings, List.mem_append, List.mem_append, List.mem_append] at hmem
  rcases hmem with ((hmem | hmem) | hmem) | hmem
  · obtain ⟨pair, -, hmem⟩ := List.mem_flatMap.mp hmem
    obtain ⟨slot, -, heq⟩ := List.mem_filterMap.mp hmem
    rcases slot with ⟨_ | _ | _, _⟩ <;> cases heq <;> simp [Place.caller?]
  · obtain ⟨pair, -, hmem⟩ := List.mem_flatMap.mp hmem
    obtain ⟨entry, -, rfl⟩ := List.mem_map.mp hmem
    simp [Place.caller?]
  · obtain ⟨⟨other, call⟩, hother, rfl⟩ := List.mem_map.mp hmem
    have hget := (w.calls.get?_eq_some_iff other call).mpr hother
    have hne : other ≠ key := by
      rintro rfl
      cases hcall.symm.trans hget
    cases hphase : call.phase <;> simp [Call.holding, hphase, Place.caller?, hne]
  · obtain ⟨⟨other, loan⟩, hother, rfl⟩ := List.mem_map.mp hmem
    have hget := (w.loans.get?_eq_some_iff other loan).mpr hother
    have hne : other ≠ key := by
      rintro rfl
      cases hloan.symm.trans hget
    simp [Loan.holding, Place.caller?, hne]

/-- A pool is held, and the log knows what a call has closed. -/
structure Grounded (w : World) (id : PoolId) (pool : Pool) (own : List Event) : Prop where
  orderly : w.Orderly
  held : id ∈ w.held
  same : ∃ pool', w.pools[id]? = some pool' ∧ pool'.identity = pool.identity
  ledger : ∃ events conns, Ledger w events conns ∧ ∀ conn, .close conn ∈ own → .close conn ∈ events

theorem grounded_of_run {past : List Action} (hreached : w = (World.run {} past).1)
    (hheld : id ∈ w.held) (hpool : w.pools[id]? = some pool) : Grounded w id pool [] where
  orderly := hreached ▸ Orderly.initial.run past
  held := hheld
  same := ⟨pool, hpool, rfl⟩
  ledger := ⟨_, _, hreached ▸ ledger_of_run past, by simp⟩

namespace Grounded

theorem step (h : Grounded w id pool own) (hkeeps : action ≠ .letGo id) :
    Grounded (w.step action).1 id pool (own ++ (w.step action).2) where
  orderly := h.orderly.step action
  held := mem_held_step h.orderly.linked h.held hkeeps
  same := by
    obtain ⟨pool', hpool', hsame⟩ := h.same
    obtain ⟨pool'', hpool'', hsame'⟩ := step_identity h.orderly.linked hpool' action
    exact ⟨pool'', hpool'', hsame'.trans hsame⟩
  ledger := by
    obtain ⟨events, conns, hledger, hown⟩ := h.ledger
    refine ⟨_, _, hledger.step h.orderly action, fun conn hconn => ?_⟩
    rcases List.mem_append.mp hconn with hconn | hconn
    · exact List.mem_append_left _ (hown conn hconn)
    · exact List.mem_append_right _ hconn

theorem mono (h : Grounded w id pool own) {fewer : List Event} (hfewer : ∀ event ∈ fewer,
    event ∈ own) : Grounded w id pool fewer where
  orderly := h.orderly
  held := h.held
  same := h.same
  ledger := by
    obtain ⟨events, conns, hledger, hown⟩ := h.ledger
    exact ⟨events, conns, hledger, fun conn hconn => hown conn (hfewer _ hconn)⟩

/-- What the call has closed is nowhere. -/
theorem nowhere (h : Grounded w id pool own) {conn : Conn} (hconn : .close conn ∈ own) :
    w.whereabouts conn = [] := by
  obtain ⟨events, conns, hledger, hown⟩ := h.ledger
  exact (hledger.closed (hown conn hconn)).1

/-- What no dial was made for is nowhere. -/
theorem nowhere_of_serial (h : Grounded w id pool own) {conn : Conn}
    (hserial : w.dialed.count conn.address ≤ conn.serial) : w.whereabouts conn = [] := by
  obtain ⟨events, conns, hledger, -⟩ := h.ledger
  have hlength := hledger.length_whereabouts_add conn
  have hissued := hledger.issued conn
  have hnone : issued w.dialed conn = 0 := if_neg (Nat.not_lt.mpr hserial)
  exact List.eq_nil_of_length_eq_zero (by omega)

/-- What is idle was not closed. -/
theorem not_closed_of_idle (h : Grounded w id pool own) {pool' : Pool}
    (hpool' : w.pools[id]? = some pool') {entry : Entry} (hentry : entry ∈ pool'.idle) :
    .close entry.conn ∉ own := by
  intro hclosed
  have hplace : Place.idle id ∈ w.whereabouts entry.conn :=
    mem_whereabouts_iff.mpr ⟨entry.index, holding_mem_of_idle hpool' hentry, rfl⟩
  rw [h.nowhere hclosed] at hplace
  cases hplace

end Grounded

end World

namespace Desk

variable {registry : Registry} {desk : Desk} {key : Key} {request : Request} {id : PoolId}
  {pool : Pool} {most : Nat} {failed : List FailedAttempt} {call : Call} {course : Course}

/-- Where a call stands after some attempts have failed: it goes on with another one. -/
inductive Stands (failed : List FailedAttempt) (course : Course) : Phase → Prop where
  | probing {entry} (hanswers : course.answers = failed.flatMap FailedAttempt.answers)
      (hprobed : course.probed = failed.map (·.entry.conn) ++ [entry.conn])
      (hdialed : course.dialed.length = failed.length)
      (hclosed : ∀ attempt ∈ failed, .close attempt.entry.conn ∈ course.events) :
      Stands failed course (.probing entry)
  | redialing {entry cause fresh}
      (hanswers : course.answers =
        failed.flatMap FailedAttempt.answers ++ [(.probing entry, .failure cause)])
      (hprobed : course.probed = failed.map (·.entry.conn) ++ [entry.conn])
      (hdialed : course.dialed.length = failed.length + 1)
      (hclosed : ∀ conn ∈ course.probed, .close conn ∈ course.events) :
      Stands failed course (.redialing fresh)

/-- A call that may make a number of attempts is under way. -/
structure Trying (key : Key) (id : PoolId) (pool : Pool) (most : Nat)
    (failed : List FailedAttempt) (call : Call) (course : Course) (desk : Desk) : Prop where
  ground : desk.session.world.Grounded id pool course.events
  called : desk.session.world.calls.get? key = some call
  onPool : call.pool = id
  attempts : failed.length + call.attemptsLeft + 1 = most
  stands : Stands failed course call.phase
  nodup : course.probed.Nodup
  looks : [] ∉ course.looks
  replies : course.replies = []

/-- What is true of a call however far it has come. -/
structure Bounded (key : Key) (pool : Pool) (most : Nat) (course : Course) (desk : Desk) :
    Prop where
  probed : course.probed.length ≤ most
  dialed : course.dialed.length ≤ course.probed.length
  nodup : course.probed.Nodup
  failures : ∀ error, .failed error ∈ course.replies → error = .poolExhausted pool.name
  exhausted : .failed (.poolExhausted pool.name) ∈ course.replies ↔
    [] ∈ course.looks ∨ course.FailedTimes most
  emptyHanded : .failed (.poolExhausted pool.name) ∈ course.replies →
    (∀ holding ∈ desk.session.world.holdings, holding.place.caller? ≠ some key) ∧
      ∀ conn ∈ course.probed, desk.session.world.whereabouts conn = []

namespace Trying

variable (h : Trying key id pool most failed call course desk)
include h

theorem length_probed : course.probed.length = failed.length + 1 := by
  have hstands := h.stands
  cases hphase : call.phase <;> rw [hphase] at hstands <;> cases hstands <;> simp_all

theorem dialed_le : course.dialed.length ≤ course.probed.length := by
  have hlength := h.length_probed
  have hstands := h.stands
  cases hphase : call.phase <;> rw [hphase] at hstands <;> cases hstands <;> omega

/-- A call under way has an answer left to take in. -/
theorem length_answers_lt : course.answers.length < 2 * most := by
  have hattempts := h.attempts
  have hlength := FailedAttempt.length_answers failed
  have hstands := h.stands
  cases hphase : call.phase <;> rw [hphase] at hstands <;> cases hstands <;> simp_all <;> omega

/-- A call that ends without an error has not failed in all its attempts. -/
theorem bounded_of_ended {stage : Course} {desk' : Desk} (hprobed : stage.probed = [])
    (hdialed : stage.dialed = []) (hlooks : stage.looks = [])
    (hreplies : ∀ error, .failed error ∉ stage.replies)
    (hfailed : ¬(course ++ stage).FailedTimes most) :
    Bounded key pool most (course ++ stage) desk' := by
  have hnone (error : Error) : .failed error ∉ (course ++ stage).replies := by
    rw [Course.replies_append, h.replies]
    exact hreplies error
  have hattempts := h.attempts
  refine ⟨?_, ?_, ?_, fun error hmem => absurd hmem (hnone error), ?_,
    fun hmem => absurd hmem (hnone _)⟩
  · rw [Course.probed_append, hprobed, List.append_nil, h.length_probed]
    omega
  · rw [Course.probed_append, Course.dialed_append, hprobed, hdialed, List.append_nil,
      List.append_nil]
    exact h.dialed_le
  · rw [Course.probed_append, hprobed, List.append_nil]
    exact h.nodup
  · refine iff_of_false (hnone _) ?_
    rw [Course.looks_append, hlooks, List.append_nil]
    exact not_or.mpr ⟨h.looks, hfailed⟩

theorem not_failedTimes {count : Nat} (hcount : most ≤ count) : ¬course.FailedTimes count := by
  intro hfailed
  have hlength := hfailed.length
  have hlt := h.length_answers_lt
  omega

theorem bounded : Bounded key pool most course desk := by
  have hended := @bounded_of_ended _ _ _ _ _ _ _ _ h {} desk rfl rfl rfl (fun _ => nofun)
  rw [Course.append_empty] at hended
  exact hended (h.not_failedTimes (Nat.le_refl _))

end Trying

/-- A call is still under way, or it has ended. -/
inductive Goes (key : Key) (id : PoolId) (pool : Pool) (most : Nat) (course : Course)
    (desk : Desk) : Prop where
  | on (failed : List FailedAttempt) (call : Call)
      (h : Trying key id pool most failed call course desk)
  | ended (hcall : desk.session.world.calls.get? key = none)
      (h : Bounded key pool most course desk)

/-! ## The end of a call -/

theorem resume_of_lent (hcall : desk.session.world.calls.get? key = none) {loan : Loan}
    (hloan : desk.session.world.loans.get? key = some loan) (id : PoolId) :
    desk.resume key id = (desk, some (.loan (desk.session.viewLoan loan))) := by
  simp only [resume, hcall, hloan]

/-- A call that has ended without a loan names its pool. -/
theorem resume_of_exhausted {own : List Event} (hcall : desk.session.world.calls.get? key = none)
    (hloan : desk.session.world.loans.get? key = none)
    (hground : desk.session.world.Grounded id pool own) :
    desk.resume key id = (desk, some (.failed (.poolExhausted pool.name))) := by
  obtain ⟨pool', hpool', hsame⟩ := hground.same
  have hname : (desk.session.poolAt id).name = pool.name := by
    rw [Session.poolAt, List.getD_eq_getElem?_getD, hpool', Option.getD_some]
    exact congrArg Prod.fst hsame
  simp only [resume, hcall, hloan, hname]

namespace Trying

variable (h : Trying key id pool most failed call course desk)
include h

theorem exists_pool : ∃ pool', desk.session.world.pools[call.pool]? = some pool' ∧
    pool'.identity = pool.identity ∧ call.pool ∈ desk.session.world.held := by
  obtain ⟨pool', hpool', hsame⟩ := h.ground.same
  exact ⟨pool', by rw [h.onPool, hpool'], hsame, h.onPool ▸ h.ground.held⟩

/-- A call that is answered with a success ends with a loan. -/
theorem serve_success {phase : Phase} (hanswer : desk.answer? key = some (phase, .success))
    {w : World} {events : List Event} {loan : Loan}
    (hstep : desk.session.world.step (.settle key .success) = (w.withLoan key loan, events))
    (hprobed : probesIn events = []) (hdialed : dialsIn events = []) :
    Goes key id pool most (course ++ desk.stage registry (.poll key))
      (desk.serve registry (.poll key)).1 := by
  obtain ⟨hserve, hstage⟩ := @serve_poll_of_some registry _ _ _ h.called _ hanswer
  have hworld := congrArg Prod.fst hstep
  have hcalls : (desk.act (.settle key .success)).session.world.calls.get? key = none :=
    (congrArg (·.calls.get? key) hworld).trans (Table.get?_erase_self ..)
  have hloan : (desk.act (.settle key .success)).session.world.loans.get? key = some loan :=
    (congrArg (·.loans.get? key) hworld).trans (Table.get?_insert_self ..)
  have hresume : (desk.act (.settle key .success)).resume key call.pool = _ :=
    resume_of_lent hcalls hloan _
  have hlook : desk.look? registry (.poll key) = none := by
    simp [look?, h.called, hanswer]
  rw [hresume] at hserve hstage
  rw [hserve, hstage, hlook, hstep]
  refine .ended hcalls (h.bounded_of_ended hprobed hdialed rfl (fun _ => by simp) fun hfailed => ?_)
  exact @Course.FailedTimes.ne_success _ _ hfailed (phase, .success) (by simp) rfl

/-- A call goes on waiting for what an answer has led to. -/
theorem serve_next {answer : Phase × Verdict} (hanswer : desk.answer? key = some answer)
    {w' : World} {events : List Event} {next : Call}
    (hstep : desk.session.world.step (.settle key answer.2) = (w', events))
    (hcalls : w'.calls.get? key = some next) :
    (desk.serve registry (.poll key)).1.session.world = w' ∧
      desk.stage registry (.poll key) =
        { events := events
          answers := [answer]
          looks := (desk.look? registry (.poll key)).toList } ∧
      w'.Grounded id pool (course.events ++ events) := by
  obtain ⟨hserve, hstage⟩ := @serve_poll_of_some registry _ _ _ h.called _ hanswer
  have hact : (desk.act (.settle key answer.2)).session.world = w' := congrArg Prod.fst hstep
  have hresume : (desk.act (.settle key answer.2)).resume key call.pool = _ :=
    resume_of_call (hact ▸ hcalls)
  have hworld := (Session.callWait_frame (desk.act (.settle key answer.2)).session next).1
  have hground := @World.Grounded.step _ _ _ _ (.settle key answer.2) h.ground nofun
  rw [hstep] at hground
  rw [hresume, hstep] at hstage
  rw [hserve, hresume]
  exact ⟨hworld.trans hact, hstage, hground⟩

/-- A call whose heartbeat has failed goes on with a dial. -/
theorem serve_sick {entry : Entry} (hphase : call.phase = .probing entry) {cause : String}
    (hanswer : desk.answer? key = some (.probing entry, .failure cause)) :
    Goes key id pool most (course ++ desk.stage registry (.poll key))
      (desk.serve registry (.poll key)).1 := by
  obtain ⟨pool', hpool', -, -⟩ := h.exists_pool
  let fresh : Entry := ⟨desk.session.world.nextConn (pool'.endpoint entry.index), entry.index⟩
  have hcalls := Table.get?_insert_self desk.session.world.calls key
    { call with phase := .redialing fresh }
  obtain ⟨hworld, hstage, hground⟩ := @serve_next registry _ _ _ _ _ _ _ _ h _ hanswer _ _ _
    (World.settle_of_sick h.called hpool' hphase cause) hcalls
  have hlook : desk.look? registry (.poll key) = none := by simp [look?, h.called, hanswer]
  rw [hlook] at hstage
  rw [hstage]
  have hstands := h.stands
  rw [hphase] at hstands
  cases hstands with
  | probing hanswers hprobed hdialed hclosed =>
      refine .on failed { call with phase := .redialing fresh }
        { ground := hworld ▸ hground
          called := hworld ▸ hcalls
          onPool := h.onPool
          attempts := h.attempts
          stands := .redialing (congrArg (· ++ _) hanswers) ?_ ?_ ?_
          nodup := ?_
          looks := by simpa using h.looks
          replies := by simpa using h.replies }
      · simpa [Course.probed, probesIn_append] using hprobed
      · simpa [Course.dialed, dialsIn_append] using hdialed
      · -- all connections that were probed are closed by now, the last one in this look
        intro conn hconn
        have hmem : conn ∈ failed.map (·.entry.conn) ++ [entry.conn] := by
          rw [← hprobed]
          simpa [Course.probed, probesIn_append] using hconn
        rcases List.mem_append.mp hmem with hmem | hmem
        · obtain ⟨attempt, hattempt, rfl⟩ := List.mem_map.mp hmem
          exact List.mem_append_left _ (hclosed attempt hattempt)
        · cases List.mem_singleton.mp hmem
          exact List.mem_append_right _ (by simp)
      · simpa [Course.probed, probesIn_append] using h.nodup

/-- A call whose dial has failed goes on with the connection that has now been idle longest. -/
theorem serve_refused_cons {fresh : Entry} (hphase : call.phase = .redialing fresh)
    {cause : String} (hanswer : desk.answer? key = some (.redialing fresh, .failure cause))
    {pool' : Pool} (hpool' : desk.session.world.pools[call.pool]? = some pool')
    {attemptsLeft : Nat} (hleft : call.attemptsLeft = attemptsLeft + 1) {next : Entry}
    {rest : List Entry} (hidle : pool'.idle = next :: rest) :
    Goes key id pool most (course ++ desk.stage registry (.poll key))
      (desk.serve registry (.poll key)).1 := by
  have hcalls := Table.get?_insert_self (desk.session.world.calls.erase key) key
    ⟨call.pool, attemptsLeft, .probing next⟩
  obtain ⟨hworld, hstage, hground⟩ := @serve_next registry _ _ _ _ _ _ _ _ h _ hanswer _ _ _
    (World.settle_of_refused_cons h.called hpool' hphase hleft hidle cause) hcalls
  have hat : desk.session.poolAt call.pool = pool' := by
    rw [Session.poolAt, List.getD_eq_getElem?_getD, hpool', Option.getD_some]
  have hlook : desk.look? registry (.poll key) = some (next :: rest) := by
    simp [look?, h.called, hanswer, hleft, hat, hidle]
  -- what is idle was not closed, and all that the call has probed was
  have hnew := h.ground.not_closed_of_idle (h.onPool ▸ hpool')
    (hidle ▸ List.mem_cons_self : next ∈ pool'.idle)
  rw [hlook] at hstage
  rw [hstage]
  have hattempts := h.attempts
  have hstands := h.stands
  rw [hphase] at hstands
  cases hstands with
  | @redialing old oldCause _ hanswers hprobed hdialed hclosed =>
      refine .on (failed ++ [⟨old, oldCause, fresh, cause⟩])
        ⟨call.pool, attemptsLeft, .probing next⟩
        { ground := hworld ▸ hground
          called := hworld ▸ hcalls
          onPool := h.onPool
          attempts := by
            dsimp only
            rw [List.length_append, List.length_singleton]
            omega
          stands := .probing ?_ ?_ ?_ ?_
          nodup := ?_
          looks := by simpa using h.looks
          replies := by simpa using h.replies }
      · rw [Course.answers_append, hanswers]
        simp [FailedAttempt.answers]
      · rw [Course.probed_append, hprobed]
        simp [Course.probed]
      · simpa [Course.dialed, dialsIn_append] using hdialed
      · intro attempt hattempt
        refine List.mem_append_left _ (hclosed _ ?_)
        rw [hprobed]
        rcases List.mem_append.mp hattempt with hattempt | hattempt
        · exact List.mem_append_left _ (List.mem_map_of_mem hattempt)
        · cases List.mem_singleton.mp hattempt
          exact List.mem_append_right _ (List.mem_singleton_self _)
      · rw [Course.probed_append]
        refine List.nodup_append.mpr ⟨h.nodup, List.nodup_singleton next.conn, ?_⟩
        rintro conn hconn other hother rfl
        cases List.mem_singleton.mp hother
        exact hnew (hclosed _ hconn)

/-- A call whose dial has failed, and which has no attempts left or finds nothing, is over. -/
theorem serve_refused_last {fresh : Entry} (hphase : call.phase = .redialing fresh)
    {cause : String} (hanswer : desk.answer? key = some (.redialing fresh, .failure cause))
    {pool' : Pool} (hpool' : desk.session.world.pools[call.pool]? = some pool')
    (hlast : call.attemptsLeft = 0 ∨ pool'.idle = []) :
    Goes key id pool most (course ++ desk.stage registry (.poll key))
      (desk.serve registry (.poll key)).1 := by
  obtain ⟨-, -, -, hheld⟩ := h.exists_pool
  -- either the attempts are used up or the queue is empty
  have hstep := World.settle_of_refused_last h.called hpool' hheld hphase hlast cause
  obtain ⟨hserve, hstage⟩ := @serve_poll_of_some registry _ _ _ h.called _ hanswer
  have hworld := congrArg Prod.fst hstep
  have hcalls : (desk.act (.settle key (.failure cause))).session.world.calls.get? key = none :=
    (congrArg (·.calls.get? key) hworld).trans (Table.get?_erase_self ..)
  have hloans : (desk.act (.settle key (.failure cause))).session.world.loans.get? key = none :=
    (congrArg (·.loans.get? key) hworld).trans (h.ground.orderly.linked.not_lent h.called)
  have hground := @World.Grounded.step _ _ _ _ (.settle key (.failure cause)) h.ground nofun
  have hresume : (desk.act (.settle key (.failure cause))).resume key call.pool = _ :=
    resume_of_exhausted hcalls hloans (h.onPool ▸ hground)
  rw [hresume] at hserve hstage
  rw [hstep] at hstage
  rw [hserve, hstage]
  have hat : desk.session.poolAt call.pool = pool' := by
    rw [Session.poolAt, List.getD_eq_getElem?_getD, hpool', Option.getD_some]
  have hattempts := h.attempts
  have hstands := h.stands
  rw [hphase] at hstands
  cases hstands with
  | @redialing old oldCause _ hanswers hprobed hdialed hclosed =>
      refine .ended hcalls
        { probed := ?_
          dialed := ?_
          nodup := by simpa [Course.probed, probesIn_append] using h.nodup
          failures := by simp [h.replies]
          exhausted := iff_of_true (by simp) ?_
          emptyHanded := fun _ => ⟨fun holding => World.caller?_ne_of_none hcalls hloans, ?_⟩ }
      · have hlength := h.length_probed
        simp only [Course.probed, Course.events_append, probesIn_append, List.length_append,
          probesIn_log, probesIn_nil, List.length_nil] at hlength ⊢
        omega
      · simpa [Course.probed, Course.dialed, probesIn_append, dialsIn_append] using h.dialed_le
      · -- the attempts are used up, and all of them have failed, or somebody has emptied the queue
        rcases Nat.eq_zero_or_pos call.attemptsLeft with hzero | hpos
        · refine Or.inr ⟨failed ++ [⟨old, oldCause, fresh, cause⟩], ?_, ?_⟩
          · rw [List.length_append, List.length_singleton]
            omega
          · rw [Course.answers_append, hanswers]
            simp [FailedAttempt.answers]
        · have hidle : pool'.idle = [] := hlast.resolve_left (by omega)
          left
          simp [look?, h.called, hanswer, hat, hidle, Nat.ne_of_gt hpos]
      · intro conn hconn
        refine hground.nowhere (List.mem_append_left _ (hclosed conn ?_))
        simpa [Course.probed, probesIn_append] using hconn

/-- An answer leads on, or it ends the call. -/
theorem serve_poll : Goes key id pool most (course ++ desk.stage registry (.poll key))
    (desk.serve registry (.poll key)).1 := by
  obtain ⟨pool', hpool', -, hheld⟩ := h.exists_pool
  cases hanswer : desk.answer? key with
  | none =>
      obtain ⟨hserve, hstage⟩ := @serve_poll_of_none registry _ _ _ h.called hanswer
      rw [hserve, hstage, Course.append_empty]
      exact .on _ _ h
  | some answer =>
      obtain ⟨phase, verdict⟩ := answer
      obtain rfl : phase = call.phase := phase_of_answer? h.called hanswer
      cases hphase : call.phase with
      | probing entry =>
          rw [hphase] at hanswer
          cases verdict with
          | success =>
              exact h.serve_success hanswer (World.settle_of_sound h.called hpool' hheld hphase)
                rfl rfl
          | failure cause => exact h.serve_sick hphase hanswer
      | redialing fresh =>
          rw [hphase] at hanswer
          cases verdict with
          | success =>
              exact h.serve_success hanswer (World.settle_of_dialed h.called hpool' hheld hphase)
                rfl rfl
          | failure cause =>
              by_cases hlast : call.attemptsLeft = 0 ∨ pool'.idle = []
              · exact h.serve_refused_last hphase hanswer hpool' hlast
              · rw [not_or] at hlast
                obtain ⟨attemptsLeft, hleft⟩ := Nat.exists_eq_succ_of_ne_zero hlast.1
                obtain ⟨next, rest, hidle⟩ := List.exists_cons_of_ne_nil hlast.2
                exact h.serve_refused_cons hphase hanswer hpool' hleft hidle

/-- A call that is given up is over. -/
theorem serve_cancel : Goes key id pool most (course ++ desk.stage registry (.cancel key))
    (desk.serve registry (.cancel key)).1 := by
  obtain ⟨pool', hpool', -, hheld⟩ := h.exists_pool
  obtain ⟨w', events, hstep, hcalls, -, hprobed, hdialed⟩ :=
    World.cancel_of_held h.called hpool' hheld h.ground.orderly
  have hserve : desk.serve registry (.cancel key) =
      (desk.act (.cancel key), some .cancelled) := by
    simp only [serve, cancel, h.called]
  have hstage : desk.stage registry (.cancel key) =
      { events := events, replies := [.cancelled] } := by
    rw [stage, shown_eq, actionOf?, h.called, hserve]
    simp only [Option.map_some, Option.elim_some, hstep]
    rfl
  have hgone : (desk.act (.cancel key)).session.world.calls.get? key = none := by
    change (desk.session.world.step (.cancel key)).1.calls.get? key = none
    rw [hstep, hcalls]
    exact Table.get?_erase_self ..
  rw [hserve, hstage]
  refine .ended hgone (h.bounded_of_ended hprobed hdialed rfl (fun _ => by simp) fun hfailed => ?_)
  refine h.not_failedTimes (Nat.le_refl most) ?_
  obtain ⟨attempts, hlength, hanswers⟩ := hfailed
  exact ⟨attempts, hlength, by simpa using hanswers⟩

end Trying

/-! ## All requests -/

/-- Requests lose nothing that a call stands on. -/
theorem grounded_serve {own : List Event} (h : desk.session.world.Grounded id pool own)
    (request : Request) :
    (desk.serve registry request).1.session.world.Grounded id pool own := by
  rw [(desk.does_serve registry request).world]
  cases haction : desk.actionOf? registry request with
  | none => exact h
  | some action =>
      refine World.Grounded.mono (h.step ((call?_of_actionOf? haction).2 id)) fun event hevent => ?_
      exact List.mem_append_left _ hevent

/-- What others ask for leaves a call as it is. -/
theorem Trying.serve_other (h : Trying key id pool most failed call course desk)
    (hother : request.call? ≠ some key) :
    Trying key id pool most failed call course (desk.serve registry request).1 :=
  { h with
    ground := grounded_serve h.ground request
    called := (serve_calls_of_ne h.ground.orderly.linked hother).trans h.called }

/-- Whatever is asked for, a call goes on or is over. -/
theorem Trying.serve (h : Trying key id pool most failed call course desk) (request : Request) :
    Goes key id pool most
      (if request.call? = some key then course ++ desk.stage registry request else course)
      (desk.serve registry request).1 := by
  split
  · next hown =>
      cases request with
      | acquire other service =>
          cases hown
          obtain ⟨hserve, hstage⟩ := @serve_acquire_of_call registry _ _ _ h.called service
          rw [hserve, hstage, Course.append_empty]
          exact .on _ _ h
      | poll other =>
          cases hown
          exact h.serve_poll
      | cancel other =>
          cases hown
          exact h.serve_cancel
      | pass | release | drop => cases hown
  · next hother => exact .on _ _ (h.serve_other hother)

/-- The bound on the attempts of a call is set at its start. -/
theorem goes_of_acquire {own : List Event} {service : String}
    (hground : desk.session.world.Grounded id pool own)
    (hpool : desk.session.world.pools[id]? = some pool)
    (hservice : registry.get? service = some id) (hfree : desk.isTaken key = false) :
    Goes key id pool (max 1 pool.idle.length) (desk.stage registry (.acquire key service))
      (desk.serve registry (.acquire key service)).1 := by
  -- the key is free, so it has neither a call nor a loan
  obtain ⟨hcall, hloan⟩ : desk.session.world.calls.get? key = none ∧
      desk.session.world.loans.get? key = none := by
    simpa [isTaken, Table.contains] using hfree
  have hserve := serve_acquire_of_free hservice hfree
  have hat : desk.session.poolAt id = pool := by
    rw [Session.poolAt, List.getD_eq_getElem?_getD, hpool, Option.getD_some]
  have hstage : desk.stage registry (.acquire key service) =
      { events := (desk.session.world.step (.acquire key id)).2
        looks := [pool.idle]
        replies := ((desk.act (.acquire key id)).resume key id).2.toList } := by
    rw [stage, shown_eq, hserve]
    simp [actionOf?, look?, hfree, hservice, hat, answersTo]
  have hnext := @World.Grounded.step _ _ _ _ (.acquire key id) hground (by simp)
  cases hidle : pool.idle with
  | nil =>
      have hstep := World.acquire_of_nil hcall hloan hground.held hpool hidle
      have hworld : (desk.act (.acquire key id)).session.world = desk.session.world :=
        congrArg Prod.fst hstep
      have hcall' := hworld ▸ hcall
      have hloan' := hworld ▸ hloan
      have hresume : (desk.act (.acquire key id)).resume key id = _ :=
        resume_of_exhausted hcall' hloan' hnext
      rw [hserve, hstage, hresume, hstep, hidle]
      refine .ended hcall'
        { probed := Nat.zero_le _
          dialed := Nat.le_refl _
          nodup := List.nodup_nil
          failures := by simp
          exhausted := iff_of_true (by simp) (Or.inl (by simp))
          emptyHanded := fun _ => ⟨fun holding => World.caller?_ne_of_none hcall' hloan',
            fun conn hconn => absurd hconn List.not_mem_nil⟩ }
  | cons entry rest =>
      -- the first connection is probed, and the others are left to try
      have hstep := World.acquire_of_cons hcall hloan hground.held hpool hidle
      have hsized := (hground.orderly.pool hpool).sized.idleConnections_eq
      have hcalls : (desk.act (.acquire key id)).session.world.calls.get? key = _ :=
        (congrArg (·.1.calls.get? key) hstep).trans (Table.get?_insert_self ..)
      have hresume : (desk.act (.acquire key id)).resume key id = _ := resume_of_call hcalls
      have hworld := (Session.callWait_frame (desk.act (.acquire key id)).session
        ⟨id, max pool.idleConnections 1 - 1, .probing entry⟩).1
      rw [hserve, hstage, hresume, hstep, hidle]
      refine .on [] ⟨id, max pool.idleConnections 1 - 1, .probing entry⟩
        { ground := ?_
          called := hworld ▸ hcalls
          onPool := rfl
          attempts := ?_
          stands := .probing rfl rfl rfl (by simp)
          nodup := List.nodup_singleton entry.conn
          looks := by simp
          replies := rfl }
      · rw [hworld]
        refine hnext.mono fun event hevent => List.mem_append_right _ ?_
        rw [hstep]
        exact hevent
      · rw [hidle] at hsized
        dsimp only [List.length_nil]
        omega

/-- A call that goes on to the end of a run has the course of the run. -/
theorem Goes.after (h : Goes key id pool most course desk) (requests : List Request)
    (hcalls : ∀ count < requests.length,
      (desk.after registry (requests.take count)).session.world.calls.contains key = true) :
    Goes key id pool most (course ++ desk.course registry key requests)
      (desk.after registry requests) := by
  induction requests generalizing desk course with
  | nil =>
      rw [Desk.course, Course.append_empty]
      exact h
  | cons request rest ih =>
      cases h with
      | ended hcall =>
          have hcontains := hcalls 0 (Nat.zero_lt_succ _)
          simp [Desk.after, Table.contains, hcall] at hcontains
      | on failed call h =>
          have hnext := ih (@Trying.serve registry _ _ _ _ _ _ _ _ h request)
            fun count hcount => hcalls (count + 1) (Nat.succ_lt_succ hcount)
          rw [Desk.course]
          split at hnext
          · next hown => rwa [if_pos hown, ← Course.append_assoc]
          · next hother => rwa [if_neg hother]

theorem Goes.bounded (h : Goes key id pool most course desk) :
    Bounded key pool most course desk := by
  cases h with
  | on failed call h => exact h.bounded
  | ended _ h => exact h

end Desk

end HeartbeatPool
