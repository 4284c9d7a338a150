import HeartbeatPool.Proofs.Counter
import HeartbeatPool.Proofs.Deadlines
import HeartbeatPool.Proofs.InTime
import HeartbeatPool.Proofs.Trials

/-!
# A call that nothing interferes with

A call in a run in which nothing else happens, but for time that passes, comes to what the trials
say that are in store for the idle connections of its pool.

`Asking` is a state in which the call waits, with all that is known then; `Alone` says how far the
trials have come, and `Alone.serve` takes it through one request.

Main statement: `call_alone`.
-/

namespace HeartbeatPool

/-- Counting one connection more of a pool that is not larger than pools may be. -/
theorem Pool.live_track {pool : Pool} (hlive : pool.live ≤ pool.capacity)
    (hbounded : pool.capacity ≤ maxCapacity) : pool.track.live = pool.live + 1 := by
  have hsmall : maxCapacity + 1 < 2 ^ 64 := by decide
  unfold live track at *
  rw [UInt64.toNat_add]
  exact Nat.mod_eq_of_lt (by change pool.counter.toNat + 1 < 2 ^ 64; omega)

/-- A request by which nothing happens but to one call: time passes, or the call looks for its
answer. -/
def Request.WaitsFor (key : Key) : Request → Prop
  | .pass _ => True
  | .poll other => other = key
  | _ => False

namespace Desk

variable {registry : Registry} {start desk : Desk} {key : Key} {request : Request} {id : PoolId}
  {pool : Pool} {own : List Event} {closed : Nat} {rest : List Entry} {phase : Phase} {begun : Nat}
  {answer : Nat × Verdict}

/-! ## A call that waits -/

/-- A call waits for an answer since some time, and all that was seen since the start is its
own. -/
structure Asking (start : Desk) (key : Key) (id : PoolId) (pool : Pool) (own : List Event)
    (closed : Nat) (rest : List Entry) (phase : Phase) (begun : Nat) (answer : Nat × Verdict)
    (desk : Desk) : Prop where
  ground : desk.session.world.Grounded id pool own
  seen : desk.session.seen = start.session.seen ++ own
  marks : desk.session.marks = start.session.marks
  dialed : ∀ address, start.session.world.dialed.count address ≤
    desk.session.world.dialed.count address
  called : desk.session.world.calls.get? key = some ⟨id, rest.length, phase⟩
  stock : ∃ pool', desk.session.world.pools[id]? = some pool' ∧ pool'.identity = pool.identity ∧
    pool'.idle = rest ∧ pool'.live + closed = pool.live
  wait : ∃ wait, desk.waits.get? key = some wait ∧
    wait.unlimited = ⟨some (begun + answer.1, answer.2), none⟩ ∧
    ∀ timer ∈ wait.timers, desk.session.now ≤ timer

/-- The answer comes when it is due, and not before. -/
theorem Asking.answer?_eq
    (h : Asking start key id pool own closed rest phase begun answer desk) :
    desk.session.now ≤ begun + answer.1 ∧
      desk.answer? key =
        if desk.session.now = begun + answer.1 then some (phase, answer.2) else none := by
  obtain ⟨wait, hwait, hunlimited, hdue⟩ := h.wait
  have hmem : begun + answer.1 ∈ wait.timers :=
    (Wait.covers wait).subset (by simp [hunlimited, Wait.timers])
  have hle := hdue _ hmem
  refine ⟨hle, ?_⟩
  rw [answer?, h.called, hwait]
  dsimp only
  rw [← Wait.poll_unlimited hdue, hunlimited]
  simp only [Wait.poll, Wait.overdue]
  split
  · rw [if_pos (by omega)]
    rfl
  · rw [if_neg (by omega)]
    rfl

/-- Time passes up to the next timer. -/
theorem Asking.pass (h : Asking start key id pool own closed rest phase begun answer desk)
    {duration : Nat} (hpasses : ∀ timer ∈ desk.timersOf key,
      duration = 0 ∨ desk.session.now + duration ≤ timer) :
    Asking start key id pool own closed rest phase begun answer
      (desk.serve registry (.pass duration)).1 where
  ground := grounded_serve h.ground _
  seen := h.seen
  marks := h.marks
  dialed := h.dialed
  called := h.called
  stock := h.stock
  wait := by
    obtain ⟨wait, hwait, hunlimited, hdue⟩ := h.wait
    refine ⟨wait, hwait, hunlimited, fun timer htimer => ?_⟩
    have hle := hdue timer htimer
    have hpassed := hpasses timer
      (by simpa [timersOf, Table.contains, h.called, hwait] using htimer)
    change desk.session.now + duration ≤ timer
    omega

/-- A call that has just asked for something waits for it from then on. -/
theorem asking_of_resume (hground : desk.session.world.Grounded id pool own)
    (hseen : desk.session.seen = start.session.seen ++ own)
    (hmarks : desk.session.marks = start.session.marks)
    (hdialed : ∀ address, start.session.world.dialed.count address ≤
      desk.session.world.dialed.count address)
    (hcalled : desk.session.world.calls.get? key = some ⟨id, rest.length, phase⟩)
    (hstock : ∃ pool', desk.session.world.pools[id]? = some pool' ∧
      pool'.identity = pool.identity ∧ pool'.idle = rest ∧ pool'.live + closed = pool.live)
    (hask : (desk.session.ask phase).1.truncated (pool.limit phase) =
      .settles answer.1 answer.2) :
    Asking start key id pool own closed rest phase desk.session.now answer
        (desk.resume key id).1 ∧
      (desk.resume key id).1.session.script = (desk.session.ask phase).2 ∧
      (desk.resume key id).2 = none := by
  have hresume := @resume_of_call id desk key _ hcalled
  rw [Session.callWait_eq] at hresume
  rw [hresume]
  refine ⟨⟨hground, hseen, hmarks, hdialed, hcalled, hstock, _, Table.get?_insert_self .., ?_,
    fun timer => Wait.le_of_mem_timers⟩, rfl, rfl⟩
  obtain ⟨pool', hpool', hsame, -⟩ := hstock
  have hlimit : (desk.session.poolAt id).limit phase = pool.limit phase := by
    rw [Session.poolAt, List.getD_eq_getElem?_getD, hpool', Option.getD_some]
    exact Pool.limit_eq hsame phase
  rw [← Wait.start_truncated, hlimit, hask]
  rfl

/-! ## How far the trials have come -/

/-- A call is over, and has come to what some trials say. -/
structure EndsAsForetold (start : Desk) (key : Key) (id : PoolId) (pool : Pool)
    (trials : List Trial) (replies : List Reply) (desk : Desk) : Prop where
  called : desk.session.world.calls.get? key = none
  /-- The attempts up to the first success are seen, and nothing else but the end without one. -/
  seen : desk.session.seen = start.session.seen ++
    eventsOf pool ((pool.idle.zip trials).take (trials.findIdx Trial.succeeds + 1)) ++
      if trials.findIdx Trial.succeeds < trials.length then []
      else [.log (.exhausted pool.name)]
  now : desk.session.now = start.session.now +
    durationOf ((pool.idle.zip trials).take (trials.findIdx Trial.succeeds + 1))
  stock : ∃ pool', desk.session.world.pools[id]? = some pool' ∧
    pool'.identity = pool.identity ∧
    pool'.idle = pool.idle.drop (trials.findIdx Trial.succeeds + 1) ∧
    pool'.live + trials.findIdx Trial.succeeds = pool.live
  closed : ∀ entry ∈ pool.idle.take (trials.findIdx Trial.succeeds),
    desk.session.world.whereabouts entry.conn = []
  /-- The connection of the first success is lent, or a new one that replaces it. -/
  lent : ∀ entry trial, pool.idle[trials.findIdx Trial.succeeds]? = some entry →
    trials[trials.findIdx Trial.succeeds]? = some trial →
    ∃ conn, desk.session.world.loans.get? key = some ⟨id, conn, entry.index⟩ ∧
      replies = [.loan (desk.session.viewLoan ⟨id, conn, entry.index⟩)] ∧
      (trial.probe.2 = .success → conn = entry.conn) ∧
      (trial.probe.2 ≠ .success → conn.address = pool.address entry.index ∧
        start.session.world.dialed.count conn.address ≤ conn.serial ∧
        start.session.world.whereabouts conn = [] ∧
        desk.session.world.whereabouts entry.conn = [])
  exhausted : trials.findIdx Trial.succeeds = trials.length →
    desk.session.world.loans.get? key = none ∧
      replies = [.failed (.poolExhausted pool.name)]

variable {trials later : List Trial} {done : List (Entry × Trial)} {entry : Entry} {trial : Trial}
  {replies : List Reply}

/-- A call that is lent a connection has come to the first success. -/
theorem ends_of_lent (h : Split pool trials done entry rest trial later)
    (hsucceeds : trial.succeeds = true) (hcalled : desk.session.world.calls.get? key = none)
    (hseen : desk.session.seen = start.session.seen ++ eventsOf pool (done ++ [(entry, trial)]))
    (hnow : desk.session.now = start.session.now + durationOf (done ++ [(entry, trial)]))
    (hstock : ∃ pool', desk.session.world.pools[id]? = some pool' ∧
      pool'.identity = pool.identity ∧ pool'.idle = rest ∧ pool'.live + done.length = pool.live)
    (hground : desk.session.world.Grounded id pool (eventsOf pool (done ++ [(entry, trial)])))
    {conn : Conn} (hloan : desk.session.world.loans.get? key = some ⟨id, conn, entry.index⟩)
    (hsound : trial.probe.2 = .success → conn = entry.conn)
    (hreplaced : trial.probe.2 ≠ .success → conn.address = pool.address entry.index ∧
      start.session.world.dialed.count conn.address ≤ conn.serial ∧
      start.session.world.whereabouts conn = []) :
    EndsAsForetold start key id pool trials
      [.loan (desk.session.viewLoan ⟨id, conn, entry.index⟩)] desk := by
  have hfirst := h.findIdx_eq hsucceeds
  have hlength : done.length < trials.length := by
    rw [h.trials]
    simp
  have hentry : pool.idle[done.length]? = some entry := by
    rw [h.idle]
    simp
  have htrial : trials[done.length]? = some trial := by
    rw [h.trials]
    simp
  constructor
  · exact hcalled
  · rw [hfirst, h.take_zip, if_pos hlength, List.append_nil]
    exact hseen
  · rw [hfirst, h.take_zip]
    exact hnow
  · rw [hfirst, h.drop_idle]
    exact hstock
  · -- whatever was closed on the way is nowhere any more
    intro closed hclosed
    rw [hfirst, h.idle] at hclosed
    have hmem : closed ∈ done.map Prod.fst := by simpa using hclosed
    obtain ⟨attempt, hattempt, rfl⟩ := List.mem_map.mp hmem
    refine hground.nowhere ?_
    rw [eventsOf_snoc]
    exact List.mem_append_left _ (close_mem_eventsOf h.lost hattempt)
  · rw [hfirst]
    intro other otherTrial hother hotherTrial
    -- the entry and its trial are those at the position that was found
    cases hentry.symm.trans hother
    cases htrial.symm.trans hotherTrial
    refine ⟨conn, hloan, rfl, hsound, fun hfailed => ?_⟩
    obtain ⟨haddress, hserial, hnew⟩ := hreplaced hfailed
    refine ⟨haddress, hserial, hnew, hground.nowhere ?_⟩
    rw [eventsOf_snoc]
    exact List.mem_append_right _ (Trial.close_mem_events hfailed)
  · intro hnone
    omega

/-- A call that finds nothing more has come to the end of all trials. -/
theorem ends_of_exhausted (hidle : pool.idle = done.map Prod.fst)
    (htrials : trials = done.map Prod.snd) (hlost : ∀ attempt ∈ done, attempt.2.succeeds = false)
    (hcalled : desk.session.world.calls.get? key = none)
    (hloan : desk.session.world.loans.get? key = none)
    (hseen : desk.session.seen =
      start.session.seen ++ eventsOf pool done ++ [.log (.exhausted pool.name)])
    (hnow : desk.session.now = start.session.now + durationOf done)
    (hstock : ∃ pool', desk.session.world.pools[id]? = some pool' ∧
      pool'.identity = pool.identity ∧ pool'.idle = [] ∧ pool'.live + done.length = pool.live)
    (hground : desk.session.world.Grounded id pool (eventsOf pool done)) :
    EndsAsForetold start key id pool trials [.failed (.poolExhausted pool.name)] desk := by
  -- no trial succeeds, so the search runs to the end
  have hfirst : trials.findIdx Trial.succeeds = done.length := by
    have hall := findIdx_of_lost hlost []
    rw [List.append_nil] at hall
    rw [htrials, hall]
    rfl
  have hlength : done.length = trials.length := by rw [htrials, List.length_map]
  have hzip : (pool.idle.zip trials).take (done.length + 1) = done := by
    rw [hidle, htrials, List.zip_map', List.take_of_length_le (by simp)]
    simp
  constructor
  · exact hcalled
  · rw [hfirst, hzip, if_neg (by omega)]
    exact hseen
  · rw [hfirst, hzip]
    exact hnow
  · obtain ⟨pool', hpool', hsame, hempty, hlive⟩ := hstock
    refine ⟨pool', hpool', hsame, ?_, by rw [hfirst, hlive]⟩
    rw [hempty, hfirst, hidle, List.drop_of_length_le (by simp)]
  · intro closed hclosed
    rw [hidle] at hclosed
    obtain ⟨attempt, hattempt, rfl⟩ := List.mem_map.mp (List.mem_of_mem_take hclosed)
    exact hground.nowhere (close_mem_eventsOf hlost hattempt)
  · -- there is nothing at the position behind the last entry
    intro entry trial hentry
    rw [hfirst, hidle, List.getElem?_eq_none (by simp)] at hentry
    cases hentry
  · exact fun _ => ⟨hloan, rfl⟩

/-- How far a call has come that nothing interferes with. -/
inductive Alone (start : Desk) (key : Key) (id : PoolId) (pool : Pool) (trials : List Trial)
    (replies : List Reply) (desk : Desk) : Prop where
  | probing (done : List (Entry × Trial)) (entry : Entry) (rest : List Entry) (trial : Trial)
      (later : List Trial) (hsplit : Split pool trials done entry rest trial later)
      (hasking : Asking start key id pool (eventsOf pool done ++ [.probe pool.label entry.conn])
        done.length rest (.probing entry) (start.session.now + durationOf done) trial.probe desk)
      (hahead : trial.probe.2 ≠ .success →
        let dial := desk.session.script.takeDial (pool.address entry.index)
        dial.1.truncated pool.settings.dialTimeout = .settles trial.dial.1 trial.dial.2 ∧
          (trial.dial.2 ≠ .success →
            Foretells pool start.session.marks dial.2 rest later))
      (hreplies : replies = [])
  | redialing (done : List (Entry × Trial)) (entry : Entry) (rest : List Entry) (trial : Trial)
      (later : List Trial) (cause : String) (conn : Conn)
      (hsplit : Split pool trials done entry rest trial later)
      (hprobe : trial.probe.2 = .failure cause)
      (hconn : conn.address = pool.address entry.index ∧
        start.session.world.dialed.count conn.address ≤ conn.serial)
      (hasking : Asking start key id pool (eventsOf pool done ++ Trial.replacing pool entry cause)
        (done.length + 1) rest (.redialing ⟨conn, entry.index⟩)
        (start.session.now + durationOf done + trial.probe.1) trial.dial desk)
      (hahead : trial.dial.2 ≠ .success →
        Foretells pool start.session.marks desk.session.script rest later)
      (hreplies : replies = [])
  | ended (h : EndsAsForetold start key id pool trials replies desk)

/-! ## One answer after the other -/

section

variable (h : Asking start key id pool own closed rest phase begun answer desk)
include h

/-- The state in which an answer has been taken in. -/
theorem Asking.settled {w' : World} {events : List Event}
    (hstep : desk.session.world.step (.settle key answer.2) = (w', events)) :
    (desk.act (.settle key answer.2)).session.world = w' ∧
      (desk.act (.settle key answer.2)).session.seen = start.session.seen ++ (own ++ events) ∧
      w'.Grounded id pool (own ++ events) := by
  have hground := @World.Grounded.step _ _ _ _ (.settle key answer.2) h.ground nofun
  rw [hstep] at hground
  refine ⟨congrArg Prod.fst hstep, ?_, hground⟩
  change desk.session.seen ++ (desk.session.world.step (.settle key answer.2)).2 = _
  rw [hstep, h.seen, List.append_assoc]

/-- A call whose answer is due takes it in. -/
theorem Asking.serve_poll (hdue : desk.session.now = begun + answer.1) :
    desk.serve registry (.poll key) =
      (desk.act (.settle key answer.2)).resume key id := by
  have hanswer := h.answer?_eq.2
  rw [if_pos hdue] at hanswer
  rw [serve_poll_of_call h.called, hanswer]

end

/-- A sound connection is lent. -/
theorem alone_of_sound (hsplit : Split pool trials done entry rest trial later)
    (hasking : Asking start key id pool (eventsOf pool done ++ [.probe pool.label entry.conn])
      done.length rest (.probing entry) (start.session.now + durationOf done) trial.probe desk)
    (hprobe : trial.probe.2 = .success)
    (hdue : desk.session.now = start.session.now + durationOf done + trial.probe.1) :
    Alone start key id pool trials (desk.serve registry (.poll key)).2.toList
      (desk.serve registry (.poll key)).1 := by
  obtain ⟨pool', hpool', hsame, hidle, hlive⟩ := hasking.stock
  have hstep := World.settle_of_sound hasking.called hpool' hasking.ground.held rfl
  rw [← hprobe] at hstep
  obtain ⟨hworld, hseen, hground⟩ := hasking.settled hstep
  have hcalled : (desk.act (.settle key trial.probe.2)).session.world.calls.get? key = none :=
    (congrArg (·.calls.get? key) hworld).trans (Table.get?_erase_self ..)
  have hloan : (desk.act (.settle key trial.probe.2)).session.world.loans.get? key =
      some ⟨id, entry⟩ :=
    (congrArg (·.loans.get? key) hworld).trans (Table.get?_insert_self ..)
  rw [hasking.serve_poll hdue, resume_of_lent hcalled hloan id]
  have hevents : eventsOf pool (done ++ [(entry, trial)]) =
      eventsOf pool done ++ [.probe pool.label entry.conn] ++ [] := by
    rw [eventsOf_snoc, Trial.events_of_sound hprobe, List.append_nil]
  refine .ended (ends_of_lent hsplit ?_ hcalled ?_ ?_ ?_ ?_ hloan (fun _ => rfl) ?_)
  · simp [Trial.succeeds, hprobe]
  · rw [hevents]
    exact hseen
  · rw [durationOf_snoc, Trial.duration_of_sound hprobe, ← Nat.add_assoc]
    exact hdue
  · rw [hworld]
    exact ⟨pool', hpool', hsame, hidle, hlive⟩
  · rw [hworld, hevents]
    exact hground
  · exact fun hfailed => absurd hprobe hfailed

/-- A connection that fails its heartbeat is replaced by a dial. -/
theorem alone_of_sick (hsplit : Split pool trials done entry rest trial later)
    (hasking : Asking start key id pool (eventsOf pool done ++ [.probe pool.label entry.conn])
      done.length rest (.probing entry) (start.session.now + durationOf done) trial.probe desk)
    {cause : String} (hprobe : trial.probe.2 = .failure cause)
    (hahead : let dial := desk.session.script.takeDial (pool.address entry.index)
      dial.1.truncated pool.settings.dialTimeout = .settles trial.dial.1 trial.dial.2 ∧
        (trial.dial.2 ≠ .success → Foretells pool start.session.marks dial.2 rest later))
    (hdue : desk.session.now = start.session.now + durationOf done + trial.probe.1) :
    Alone start key id pool trials (desk.serve registry (.poll key)).2.toList
      (desk.serve registry (.poll key)).1 := by
  obtain ⟨pool', hpool', hsame, hidle, hlive⟩ := hasking.stock
  have hstep := World.settle_of_sick hasking.called hpool' rfl cause
  rw [← hprobe, Pool.endpoint_eq hsame, Pool.address_eq hsame] at hstep
  obtain ⟨hworld, hseen, hground⟩ := hasking.settled hstep
  -- the close and the dial belong to one replacement
  have hevents : eventsOf pool done ++ [.probe pool.label entry.conn] ++
      [.log (.heartbeatFailed (pool.address entry.index) cause), .close entry.conn,
        .dial (pool.endpoint entry.index)] =
      eventsOf pool done ++ Trial.replacing pool entry cause := by
    simp [Trial.replacing]
  rw [hevents] at hseen hground
  let conn := desk.session.world.nextConn (pool'.endpoint entry.index)
  have haddress : conn.address = pool.address entry.index := by
    change (pool'.endpoint entry.index).address = _
    rw [Pool.endpoint_eq hsame]
    rfl
  -- the probed connection is still counted, so the count can be lowered
  have hpositive : 0 < pool'.live := by
    have hlive := (hasking.ground.orderly.pool hpool').live_eq hpool'
    have hprobing := World.probing_pos hasking.called rfl
    dsimp only at hprobing
    omega
  have hasked : (desk.act (.settle key trial.probe.2)).session.ask
      (.redialing ⟨conn, entry.index⟩) =
        desk.session.script.takeDial (pool.address entry.index) :=
    congrArg desk.session.script.takeDial haddress
  have hstock : ∃ next, (desk.act (.settle key trial.probe.2)).session.world.pools[id]? =
      some next ∧ next.identity = pool.identity ∧ next.idle = rest ∧
        next.live + (done.length + 1) = pool.live := by
    have huntrack := Pool.live_untrack hpositive
    rw [hworld]
    exact ⟨pool'.untrack, List.getElem?_set_self (List.getElem?_eq_some_iff.mp hpool').1, hsame,
      hidle, by omega⟩
  have hdialed (address : String) : start.session.world.dialed.count address ≤
      (desk.act (.settle key trial.probe.2)).session.world.dialed.count address := by
    rw [hworld]
    exact Nat.le_trans (hasking.dialed address) (List.count_le_count_cons ..)
  obtain ⟨hnext, hscript, hreply⟩ := @asking_of_resume start
    (desk.act (.settle key trial.probe.2)) key id pool _ _ rest (.redialing ⟨conn, entry.index⟩)
    trial.dial (hworld ▸ hground) hseen hasking.marks hdialed
    (by rw [hworld]; exact Table.get?_insert_self ..) hstock (by rw [hasked]; exact hahead.1)
  change Asking start key id pool _ _ _ _ desk.session.now _ _ at hnext
  rw [hdue] at hnext
  rw [hasking.serve_poll hdue, hreply]
  refine .redialing done entry rest trial later cause conn hsplit hprobe
    ⟨haddress, hasking.dialed _⟩ hnext ?_ rfl
  rw [hscript, hasked]
  exact hahead.2

/-- A connection that was dialed anew is lent. -/
theorem alone_of_replaced (hstart : start.session.world.Grounded id pool [])
    (hsplit : Split pool trials done entry rest trial later) {cause : String}
    (hprobe : trial.probe.2 = .failure cause) {conn : Conn}
    (hconn : conn.address = pool.address entry.index ∧
      start.session.world.dialed.count conn.address ≤ conn.serial)
    (hasking : Asking start key id pool (eventsOf pool done ++ Trial.replacing pool entry cause)
      (done.length + 1) rest (.redialing ⟨conn, entry.index⟩)
      (start.session.now + durationOf done + trial.probe.1) trial.dial desk)
    (hdial : trial.dial.2 = .success)
    (hdue : desk.session.now =
      start.session.now + durationOf done + trial.probe.1 + trial.dial.1) :
    Alone start key id pool trials (desk.serve registry (.poll key)).2.toList
      (desk.serve registry (.poll key)).1 := by
  obtain ⟨pool', hpool', hsame, hidle, hlive⟩ := hasking.stock
  have hstep := World.settle_of_dialed hasking.called hpool' hasking.ground.held rfl
  rw [← hdial, Pool.address_eq hsame] at hstep
  obtain ⟨hworld, hseen, hground⟩ := hasking.settled hstep
  have hcalled : (desk.act (.settle key trial.dial.2)).session.world.calls.get? key = none :=
    (congrArg (·.calls.get? key) hworld).trans (Table.get?_erase_self ..)
  have hloan : (desk.act (.settle key trial.dial.2)).session.world.loans.get? key =
      some ⟨id, conn, entry.index⟩ :=
    (congrArg (·.loans.get? key) hworld).trans (Table.get?_insert_self ..)
  rw [hasking.serve_poll hdue, resume_of_lent hcalled hloan id]
  have hevents : eventsOf pool (done ++ [(entry, trial)]) =
      eventsOf pool done ++ Trial.replacing pool entry cause ++
        [.log (.established (pool.address entry.index)),
          .log (.reestablished (pool.address entry.index))] := by
    rw [eventsOf_snoc, Trial.events_of_replaced hprobe hdial, List.append_assoc]
  refine .ended (ends_of_lent hsplit ?_ hcalled ?_ ?_ ?_ ?_ hloan ?_ fun _ => ?_)
  · simp [Trial.succeeds, hdial]
  · rw [hevents]
    exact hseen
  · rw [durationOf_snoc, Trial.duration_of_failed hprobe, ← Nat.add_assoc, ← Nat.add_assoc]
    exact hdue
  · -- the count is below the capacity, so it can be raised again
    have htrack := Pool.live_track ((hasking.ground.orderly.pool hpool').live_le hpool')
      (hasking.ground.orderly.pool hpool').bounded
    rw [hworld]
    exact ⟨pool'.track, List.getElem?_set_self (List.getElem?_eq_some_iff.mp hpool').1, hsame,
      hidle, by omega⟩
  · rw [hworld, hevents]
    exact hground
  · -- the heartbeat has failed, so the connection is a new one
    intro hsound
    rw [hprobe] at hsound
    cases hsound
  · exact ⟨hconn.1, hconn.2, hstart.nowhere_of_serial hconn.2⟩

/-- After a failed dial the next connection is tried, and without one the call is over. -/
theorem alone_of_refused (hsplit : Split pool trials done entry rest trial later) {cause : String}
    (hprobe : trial.probe.2 = .failure cause) {conn : Conn}
    (hasking : Asking start key id pool (eventsOf pool done ++ Trial.replacing pool entry cause)
      (done.length + 1) rest (.redialing ⟨conn, entry.index⟩)
      (start.session.now + durationOf done + trial.probe.1) trial.dial desk)
    {dialCause : String} (hdial : trial.dial.2 = .failure dialCause)
    (hahead : Foretells pool start.session.marks desk.session.script rest later)
    (hdue : desk.session.now =
      start.session.now + durationOf done + trial.probe.1 + trial.dial.1) :
    Alone start key id pool trials (desk.serve registry (.poll key)).2.toList
      (desk.serve registry (.poll key)).1 := by
  obtain ⟨pool', hpool', hsame, hidle, hlive⟩ := hasking.stock
  -- the attempt is one more of those that were lost
  have hlost : ∀ attempt ∈ done ++ [(entry, trial)], attempt.2.succeeds = false := by
    intro attempt hattempt
    rcases List.mem_append.mp hattempt with hattempt | hattempt
    · exact hsplit.lost attempt hattempt
    · cases List.mem_singleton.mp hattempt
      simp [Trial.succeeds, hprobe, hdial]
  have hevents : eventsOf pool (done ++ [(entry, trial)]) =
      eventsOf pool done ++ Trial.replacing pool entry cause ++
        [.log (.redialFailed (pool.address entry.index) dialCause pool.name)] := by
    rw [eventsOf_snoc, Trial.events_of_lost hprobe hdial, List.append_assoc]
  have hnow : desk.session.now = start.session.now + durationOf (done ++ [(entry, trial)]) := by
    rw [durationOf_snoc, Trial.duration_of_failed hprobe, ← Nat.add_assoc, ← Nat.add_assoc]
    exact hdue
  cases rest with
  | nil =>
      -- nothing else was idle, so the call ends with nothing
      obtain rfl : later = [] := by
        cases later with
        | nil => rfl
        | cons => exact hahead.elim
      have hstep := World.settle_of_refused_last hasking.called hpool' hasking.ground.held rfl
        (.inl rfl) dialCause
      rw [← hdial, Pool.address_eq hsame, Pool.name_eq hsame] at hstep
      obtain ⟨hworld, hseen, hground⟩ := hasking.settled hstep
      have hcalled : (desk.act (.settle key trial.dial.2)).session.world.calls.get? key = none :=
        (congrArg (·.calls.get? key) hworld).trans (Table.get?_erase_self ..)
      have hloan : (desk.act (.settle key trial.dial.2)).session.world.loans.get? key = none :=
        (congrArg (·.loans.get? key) hworld).trans
          (hasking.ground.orderly.linked.not_lent hasking.called)
      have hended : eventsOf pool done ++ Trial.replacing pool entry cause ++
          [.log (.redialFailed (pool.address entry.index) dialCause pool.name),
            .log (.exhausted pool.name)] =
          eventsOf pool (done ++ [(entry, trial)]) ++ [.log (.exhausted pool.name)] := by
        rw [hevents, List.append_cons]
      rw [hended] at hseen hground
      rw [← hworld] at hground
      rw [hasking.serve_poll hdue, resume_of_exhausted hcalled hloan hground]
      refine .ended (ends_of_exhausted ?_ ?_ hlost hcalled hloan ?_ hnow ?_ ?_)
      · simp [hsplit.idle]
      · simp [hsplit.trials]
      · rw [hseen, List.append_assoc]
      · rw [hworld]
        exact ⟨pool', hpool', hsame, hidle, by simpa using hlive⟩
      · exact hground.mono fun event hmem => List.mem_append_left _ hmem
  | cons next rest =>
      -- the next idle connection is asked, and its trial is the next one
      obtain ⟨trial', later, rfl⟩ : ∃ trial' later', later = trial' :: later' := by
        cases later with
        | nil => exact hahead.elim
        | cons trial' later => exact ⟨trial', later, rfl⟩
      have hstep := World.settle_of_refused_cons hasking.called hpool' rfl rfl hidle dialCause
      rw [← hdial] at hstep
      obtain ⟨hworld, hseen, hground⟩ := hasking.settled hstep
      have hnext : eventsOf pool done ++ Trial.replacing pool entry cause ++
          [.log (.redialFailed (pool'.address entry.index) dialCause pool'.name),
            .probe pool'.label next.conn] =
          eventsOf pool (done ++ [(entry, trial)]) ++ [.probe pool.label next.conn] := by
        rw [Pool.address_eq hsame, Pool.name_eq hsame, Pool.label_eq hsame, hevents,
          List.append_cons]
      rw [hnext] at hseen hground
      -- the queue is shorter by that connection, and the count by the lost one
      have hstock : ∃ pool'', (desk.act (.settle key trial.dial.2)).session.world.pools[id]? =
          some pool'' ∧ pool''.identity = pool.identity ∧ pool''.idle = rest ∧
            pool''.live + (done ++ [(entry, trial)]).length = pool.live := by
        rw [hworld]
        refine ⟨_, List.getElem?_set_self (List.getElem?_eq_some_iff.mp hpool').1, hsame, rfl, ?_⟩
        rw [List.length_append]
        exact hlive
      have hasked : (desk.act (.settle key trial.dial.2)).session.ask (.probing next) =
          desk.session.script.probe start.session.marks next.conn :=
        congrArg (desk.session.script.probe · next.conn) hasking.marks
      obtain ⟨hasking', hscript, hreply⟩ := @asking_of_resume start
        (desk.act (.settle key trial.dial.2)) key id pool _ _ rest (.probing next)
        trial'.probe (hworld ▸ hground) hseen hasking.marks
        (by rw [hworld]; exact hasking.dialed)
        (by rw [hworld]; exact Table.get?_insert_self ..) hstock
        (by rw [hasked]; exact hahead.1)
      change Asking start key id pool _ _ _ _ desk.session.now _ _ at hasking'
      rw [hnow] at hasking'
      rw [hasking.serve_poll hdue, hreply]
      refine .probing (done ++ [(entry, trial)]) next rest trial' later ⟨?_, ?_, hlost⟩ hasking'
        ?_ rfl
      · simp [hsplit.idle]
      · simp [hsplit.trials]
      · rw [hscript, hasked]
        exact hahead.2

/-! ## Runs in which nothing else happens -/

/-- One request takes the trials further, or leaves them where they are. -/
theorem Alone.serve (hstart : start.session.world.Grounded id pool [])
    (h : Alone start key id pool trials replies desk)
    (hcalls : desk.session.world.calls.contains key = true) (hrequest : request.WaitsFor key)
    (hpasses : ∀ timer ∈ desk.timersOf key,
      request.duration = 0 ∨ desk.session.now + request.duration ≤ timer) :
    Alone start key id pool trials (replies ++ (desk.serve registry request).2.toList)
      (desk.serve registry request).1 := by
  cases request with
  | pass duration =>
      rw [show (desk.serve registry (.pass duration)).2 = none from rfl, Option.toList_none,
        List.append_nil]
      cases h with
      | probing done entry rest trial later hsplit hasking hahead hreplies =>
          exact .probing done entry rest trial later hsplit (hasking.pass hpasses) hahead hreplies
      | redialing done entry rest trial later cause conn hsplit hprobe hconn hasking hahead
          hreplies =>
          exact .redialing done entry rest trial later cause conn hsplit hprobe hconn
            (hasking.pass hpasses) hahead hreplies
      | ended h => simp [Table.contains, h.called] at hcalls
  | poll other =>
      cases hrequest
      cases h with
      | probing done entry rest trial later hsplit hasking hahead hreplies =>
          -- either the heartbeat is answered now or it is still waited for
          have hanswer := hasking.answer?_eq.2
          split at hanswer
          · next hdue =>
              rw [hreplies, List.nil_append]
              cases hprobe : trial.probe.2 with
              | success => exact alone_of_sound hsplit hasking hprobe hdue
              | failure cause =>
                  exact alone_of_sick hsplit hasking hprobe (hahead (by simp [hprobe])) hdue
          · rw [(serve_poll_of_none hasking.called hanswer).1, Option.toList_none, List.append_nil]
            exact .probing done entry rest trial later hsplit hasking hahead hreplies
      | redialing done entry rest trial later cause conn hsplit hprobe hconn hasking hahead
          hreplies =>
          -- either the dial is answered now or it is still waited for
          have hanswer := hasking.answer?_eq.2
          split at hanswer
          · next hdue =>
              rw [hreplies, List.nil_append]
              cases hdial : trial.dial.2 with
              | success => exact alone_of_replaced hstart hsplit hprobe hconn hasking hdial hdue
              | failure dialCause =>
                  exact alone_of_refused hsplit hprobe hasking hdial (hahead (by simp [hdial])) hdue
          · rw [(serve_poll_of_none hasking.called hanswer).1, Option.toList_none, List.append_nil]
            exact .redialing done entry rest trial later cause conn hsplit hprobe hconn hasking
              hahead hreplies
      | ended h => simp [Table.contains, h.called] at hcalls
  | acquire | cancel | release | drop => exact hrequest.elim

theorem replies_course_cons (hrequest : request.WaitsFor key) (rest : List Request) :
    (desk.course registry key (request :: rest)).replies =
      (desk.serve registry request).2.toList ++
        ((desk.serve registry request).1.course registry key rest).replies := by
  rw [course]
  cases request with
  | pass => rfl
  | poll other =>
      cases hrequest
      exact congrArg Course.replies (if_pos rfl)
  | acquire | cancel | release | drop => exact hrequest.elim

theorem Alone.after (hstart : start.session.world.Grounded id pool [])
    (h : Alone start key id pool trials replies desk) {requests : List Request}
    (hwaits : ∀ request ∈ requests, request.WaitsFor key)
    (hcalls : ∀ count < requests.length,
      (desk.after registry (requests.take count)).session.world.calls.contains key = true)
    (hpunctual : desk.Punctual registry key requests) :
    Alone start key id pool trials (replies ++ (desk.course registry key requests).replies)
      (desk.after registry requests) := by
  induction requests generalizing desk replies with
  | nil =>
      rw [show (desk.course registry key []).replies = [] from rfl, List.append_nil]
      exact h
  | cons request rest ih =>
      have hrequest := hwaits request List.mem_cons_self
      rw [replies_course_cons hrequest, ← List.append_assoc]
      exact ih (h.serve hstart (hcalls 0 (Nat.zero_lt_succ _)) hrequest hpunctual.1)
        (fun later hmem => hwaits later (List.mem_cons_of_mem _ hmem))
        (fun count hcount => hcalls (count + 1) (Nat.succ_lt_succ hcount)) hpunctual.2

theorem Alone.exists_asking (h : Alone start key id pool trials replies desk)
    (hcalls : desk.session.world.calls.contains key = true) :
    ∃ own closed rest phase begun answer,
      Asking start key id pool own closed rest phase begun answer desk := by
  cases h with
  | probing done entry rest trial later _ hasking => exact ⟨_, _, _, _, _, _, hasking⟩
  | redialing done entry rest trial later cause conn _ _ _ hasking =>
      exact ⟨_, _, _, _, _, _, hasking⟩
  | ended h => simp [Table.contains, h.called] at hcalls

/-- The time up to the answer passes over no timer. -/
theorem Asking.passes (h : Asking start key id pool own closed rest phase begun answer desk) :
    ∀ timer ∈ desk.timersOf key,
      desk.session.now + (begun + answer.1 - desk.session.now) ≤ timer := by
  intro timer htimer
  obtain ⟨wait, hwait, hunlimited, hdue⟩ := h.wait
  have hmem : timer ∈ wait.timers := by
    simpa [timersOf, Table.contains, h.called, hwait] using htimer
  obtain ⟨earlier, hearlier, hle⟩ := (Wait.covers wait).first timer hmem
  have heq : earlier = begun + answer.1 := by
    simpa [hunlimited, Wait.timers] using hearlier
  have hnow := h.answer?_eq.1
  omega

/-- A call under way may wait for its answer, and take it in. -/
theorem Alone.exists_next (registry : Registry) (hstart : start.session.world.Grounded id pool [])
    (h : Alone start key id pool trials replies desk) {call : Call}
    (hcall : desk.session.world.calls.get? key = some call) :
    ∃ duration replies', let waited := (desk.serve registry (.pass duration)).1
      (∀ timer ∈ desk.timersOf key, duration = 0 ∨ desk.session.now + duration ≤ timer) ∧
        waited.session.world.calls.get? key = some call ∧
        Alone start key id pool trials replies' (waited.serve registry (.poll key)).1 ∧
        ∀ next, (waited.serve registry (.poll key)).1.session.world.calls.get? key = some next →
          next.waitsLeft < call.waitsLeft := by
  have hcalls : desk.session.world.calls.contains key = true := by simp [Table.contains, hcall]
  obtain ⟨own, closed, rest, phase, begun, answer, hasking⟩ := h.exists_asking hcalls
  let pass : Request := .pass (begun + answer.1 - desk.session.now)
  have hpasses : ∀ timer ∈ desk.timersOf key,
      pass.duration = 0 ∨ desk.session.now + pass.duration ≤ timer :=
    fun timer htimer => .inr (hasking.passes timer htimer)
  have hpassed := @Alone.serve registry _ _ _ pass _ _ _ _ hstart h hcalls trivial hpasses
  refine ⟨pass.duration, _, hpasses, hcall,
    @Alone.serve registry _ _ _ (.poll key) _ _ _ _ hstart hpassed hcalls rfl fun _ _ => .inl rfl,
    fun next hnext => ?_⟩
  · have hwaited := @Asking.pass registry _ _ _ _ _ _ _ _ _ _ _ hasking _ hpasses
    have hdue : desk.session.now + (begun + answer.1 - desk.session.now) = begun + answer.1 := by
      have hnow := hasking.answer?_eq.1
      omega
    rw [hwaited.serve_poll hdue, (resume_frame ..).1] at hnext
    obtain ⟨old, hold, hlt⟩ := World.waitsLeft_lt hasking.ground.orderly.linked hnext
    cases hcall.symm.trans hold
    exact hlt

/-- Whatever the answers, there is a run up to the end. -/
theorem Alone.exists_over (registry : Registry) (hstart : start.session.world.Grounded id pool [])
    (bound : Nat) (h : Alone start key id pool trials replies desk)
    (hbound : ∀ call, desk.session.world.calls.get? key = some call → call.waitsLeft ≤ bound) :
    ∃ requests, (∀ request ∈ requests, request.WaitsFor key) ∧
      (∀ count < requests.length,
        (desk.after registry (requests.take count)).session.world.calls.contains key = true) ∧
      desk.Punctual registry key requests ∧
      (desk.after registry requests).session.world.calls.get? key = none := by
  induction bound generalizing desk replies with
  | zero =>
      refine ⟨[], nofun, nofun, trivial, Option.eq_none_iff_forall_ne_some.mpr fun call hcall => ?_⟩
      have hle := hbound call hcall
      have hpos := call.waitsLeft_pos
      omega
  | succ bound ih =>
      cases hcall : desk.session.world.calls.get? key with
      | none => exact ⟨[], nofun, nofun, trivial, hcall⟩
      | some call =>
          -- time passes until the next answer is there, and then it is taken in
          obtain ⟨duration, replies', hpasses, hcall', hnext, hless⟩ :=
            h.exists_next registry hstart hcall
          have hle := hbound call hcall
          obtain ⟨requests, hwaits, hcalls, hpunctual, hover⟩ :=
            ih hnext fun next hnext => Nat.le_of_lt_succ (Nat.lt_of_lt_of_le (hless next hnext) hle)
          refine ⟨.pass duration :: .poll key :: requests, ?_, ?_,
            ⟨hpasses, fun _ _ => .inl rfl, hpunctual⟩, hover⟩
          · intro request hmem
            rcases List.mem_cons.mp hmem with rfl | hmem
            · trivial
            · rcases List.mem_cons.mp hmem with rfl | hmem
              · rfl
              · exact hwaits request hmem
          · intro count hcount
            match count with
            | 0 => exact Option.isSome_iff_exists.mpr ⟨call, hcall⟩
            | 1 => exact Option.isSome_iff_exists.mpr ⟨call, hcall'⟩
            | count + 2 =>
                exact hcalls count (Nat.lt_of_succ_lt_succ (Nat.lt_of_succ_lt_succ hcount))

/-- The first connection is tried, and without any the call is over. -/
theorem alone_of_acquire {service : String} (hground : desk.session.world.Grounded id pool [])
    (hpool : desk.session.world.pools[id]? = some pool)
    (hservice : registry.get? service = some id) (hfree : desk.isTaken key = false)
    (htrials : Foretells pool desk.session.marks desk.session.script pool.idle trials) :
    Alone desk key id pool trials (desk.serve registry (.acquire key service)).2.toList
      (desk.serve registry (.acquire key service)).1 := by
  obtain ⟨hcall, hloan⟩ : desk.session.world.calls.get? key = none ∧
      desk.session.world.loans.get? key = none := by
    simpa [isTaken, Table.contains] using hfree
  rw [serve_acquire_of_free hservice hfree]
  have hnext := @World.Grounded.step _ _ _ _ (.acquire key id) hground (by simp)
  have hsized := (hground.orderly.pool hpool).sized.idleConnections_eq
  cases hidle : pool.idle with
  | nil =>
      rw [hidle] at htrials
      -- an empty queue leaves nothing to try
      obtain rfl : trials = [] := by
        cases trials with
        | nil => rfl
        | cons => exact htrials.elim
      have hstep := World.acquire_of_nil hcall hloan hground.held hpool hidle
      have hworld : (desk.act (.acquire key id)).session.world = desk.session.world :=
        congrArg Prod.fst hstep
      have hseen : (desk.act (.acquire key id)).session.seen =
          desk.session.seen ++ [.log (.exhausted pool.name)] :=
        congrArg (fun change : World.Change => desk.session.seen ++ change.2) hstep
      rw [resume_of_exhausted (hworld ▸ hcall) (hworld ▸ hloan) hnext]
      refine .ended (@ends_of_exhausted _ _ _ _ _ _ [] hidle rfl (by simp) (hworld ▸ hcall)
        (hworld ▸ hloan) ?_ rfl ⟨pool, hworld ▸ hpool, rfl, hidle, rfl⟩ (hworld ▸ hground))
      rw [hseen, show eventsOf pool [] = [] from rfl, List.append_nil]
  | cons entry rest =>
      rw [hidle] at htrials hsized
      obtain ⟨trial, later, rfl⟩ : ∃ trial later, trials = trial :: later := by
        cases trials with
        | nil => exact htrials.elim
        | cons trial later => exact ⟨trial, later, rfl⟩
      have hstep := World.acquire_of_cons hcall hloan hground.held hpool hidle
      have hworld : (desk.act (.acquire key id)).session.world = _ := congrArg Prod.fst hstep
      have hseen : (desk.act (.acquire key id)).session.seen =
          desk.session.seen ++ [.probe pool.label entry.conn] :=
        congrArg (fun change : World.Change => desk.session.seen ++ change.2) hstep
      rw [hstep] at hnext
      -- the number of attempts is fixed by what is idle at the start
      have hleft : max pool.idleConnections 1 - 1 = rest.length := by
        rw [List.length_cons] at hsized
        omega
      obtain ⟨hasking, hscript, hreply⟩ := @asking_of_resume desk
        (desk.act (.acquire key id)) key id pool [.probe pool.label entry.conn] 0 rest
        (.probing entry) trial.probe (hworld ▸ hnext) hseen rfl
        (by rw [hworld]; exact fun _ => Nat.le_refl _)
        (by rw [hworld, hleft]; exact Table.get?_insert_self ..)
        ⟨{ pool with idle := rest, free := pool.free + 1 }, by
          rw [hworld]; exact List.getElem?_set_self (List.getElem?_eq_some_iff.mp hpool).1,
          rfl, rfl, rfl⟩ htrials.1
      rw [hreply]
      refine .probing [] entry rest trial later ⟨hidle, rfl, by simp⟩ hasking ?_ rfl
      rw [hscript]
      exact htrials.2

/-! ## A call alone -/

/-- A run in which nothing happens but to one call, up to its end: time passes, but not over a timer
of the call, and the call takes in its answers. -/
structure Undisturbed (registry : Registry) (key : Key) (service : String) (desk : Desk)
    (requests : List Request) : Prop where
  waits : ∀ request ∈ requests, request.WaitsFor key
  underWay : ∀ count < requests.length, (desk.after registry
    (.acquire key service :: requests.take count)).session.world.calls.contains key = true
  punctual : desk.Punctual registry key (.acquire key service :: requests)
  ended : (desk.after registry
    (.acquire key service :: requests)).session.world.calls.get? key = none

/-- A call that nothing interferes with comes to what is in store for the idle connections: the
first success decides.  The attempts up to it are seen, in order, and nothing else is probed or
dialed; they take the time of their heartbeats and dials.  What failed is closed and no longer
counted, what comes after stays idle, and the connection is lent that passed its heartbeat, or a new
one to the same endpoint.  Without a success, or without any idle connection, the call ends
exhausted, and nothing is left idle.

There is such a run, and all such runs come to the same. -/
theorem call_alone {past : List World.Action}
    (hreached : desk.session.world = (World.run {} past).1) {service : String}
    (hservice : registry.get? service = some id) (hheld : id ∈ desk.session.world.held)
    (hpool : desk.session.world.pools[id]? = some pool) (hfree : desk.isTaken key = false)
    (htrials : Foretells pool desk.session.marks desk.session.script pool.idle trials) :
    (∀ requests, Undisturbed registry key service desk requests →
      EndsAsForetold desk key id pool trials
        (desk.course registry key (.acquire key service :: requests)).replies
        (desk.after registry (.acquire key service :: requests))) ∧
      ∃ requests, Undisturbed registry key service desk requests := by
  have hground := World.grounded_of_run hreached hheld hpool
  have hstarted := alone_of_acquire hground hpool hservice hfree htrials
  refine ⟨fun requests h => ?_, ?_⟩
  · have hreplies : (desk.course registry key (.acquire key service :: requests)).replies =
        (desk.serve registry (.acquire key service)).2.toList ++
          ((desk.serve registry (.acquire key service)).1.course registry key requests).replies :=
      congrArg Course.replies (if_pos rfl)
    have hends := hstarted.after hground h.waits h.underWay h.punctual.2
    rw [← hreplies] at hends
    cases hends with
    | ended hends => exact hends
    | probing _ _ _ _ _ _ hasking | redialing _ _ _ _ _ _ _ _ _ _ hasking =>
        cases hasking.called.symm.trans h.ended
  · obtain ⟨bound, hbound⟩ : ∃ bound, ∀ call,
        (desk.serve registry (.acquire key service)).1.session.world.calls.get? key = some call →
          call.waitsLeft ≤ bound := by
      cases (desk.serve registry (.acquire key service)).1.session.world.calls.get? key with
      | none => exact ⟨0, nofun⟩
      | some call => exact ⟨call.waitsLeft, fun _ heq => by cases heq; exact Nat.le_refl _⟩
    obtain ⟨requests, hwaits, hcalls, hpunctual, hover⟩ :=
      hstarted.exists_over registry hground bound hbound
    refine ⟨requests, hwaits, hcalls, ⟨fun timer htimer => .inl rfl, hpunctual⟩, hover⟩

/-- A pool of three connections to an endpoint that has been restarted. -/
def restartedDesk : Desk :=
  { session :=
      { world := (World.run {}
          [.create 0 "echo" "echo" [{ address := "a:1" }]
              { perEndpoint := 3, heartbeatTimeout := some 5, dialTimeout := some 3 },
            .dialSlot 0, .dialSlot 0, .dialSlot 0, .settleSlot 0 0 .success,
            .settleSlot 0 1 .success, .settleSlot 0 2 .success, .finish 0]).1
        script :=
          { dials := .ofList
              [("a:1", { queue := [.settles 1 (.failure "refused"), .settles 2 .success] })]
            probes := .ofList
              [("a:1", { queue := [.hangs, .settles 2 (.failure "gone")] })] } } }

/-- The first connection is lost, the second is replaced, and the third would be sound. -/
def restartTrials : List Trial :=
  [⟨(5, .failure deadlineText), (1, .failure "refused")⟩, ⟨(2, .failure "gone"), (2, .success)⟩,
    ⟨(0, .success), (0, .success)⟩]

/-- Each answer is taken in when it comes. -/
def waitedOut : List Request :=
  [.pass 5, .poll 2, .pass 1, .poll 2, .pass 2, .poll 2, .pass 2, .poll 2]

theorem call_alone_restarted : restartTrials.findIdx Trial.succeeds = 1 ∧
    EndsAsForetold restartedDesk 2 0 (restartedDesk.session.poolAt 0) restartTrials
      (restartedDesk.course (.ofList [("echo", 0)]) 2 (.acquire 2 "echo" :: waitedOut)).replies
      (restartedDesk.after (.ofList [("echo", 0)]) (.acquire 2 "echo" :: waitedOut)) := by
  have htrials : Foretells (restartedDesk.session.poolAt 0) restartedDesk.session.marks
      restartedDesk.session.script (restartedDesk.session.poolAt 0).idle restartTrials :=
    ⟨by decide +kernel, fun _ => ⟨by decide +kernel, fun _ =>
      ⟨by decide +kernel, fun _ => ⟨by decide +kernel, fun h => absurd rfl h⟩⟩⟩⟩
  refine ⟨by decide, (call_alone rfl rfl (by decide) rfl rfl htrials).1 waitedOut ⟨?_, ?_, ?_, ?_⟩⟩
  · simp [waitedOut, Request.WaitsFor]
  · decide +kernel
  · decide +kernel
  · decide +kernel

end Desk

end HeartbeatPool
