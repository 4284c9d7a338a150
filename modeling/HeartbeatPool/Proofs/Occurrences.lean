import HeartbeatPool.Proofs.Step
import HeartbeatPool.Session.Activity

/-!
# Runs in which answers take their time

An answer of the world carries a verdict.  Here the verdict is made: a dial or a heartbeat comes out
after some time or never, and the time limits of the pool decide what that is worth.  A run of such
occurrences is a run of actions, so all that is true of every run of actions is true of it.

The waits of a session come to the same verdicts, provided that they are looked at whenever one of
their timers is due (`poll_start`); so what a session does for a call is a run of occurrences
(`advance_play`).
-/

namespace HeartbeatPool

/-! ## Time limits -/

/-- What an outcome is worth under a time limit: an answer that comes in time counts, one that comes
too late, or not at all, is a failure at the limit.  Without a limit every answer counts. -/
def Outcome.within (limit : Option Nat) (outcome : Outcome) : Option Verdict :=
  match limit, outcome with
  | none, .settles _ verdict => some verdict
  | none, .hangs => none
  | some limit, .settles delay verdict =>
      if delay ≤ limit then some verdict else some (.failure deadlineText)
  | some _, .hangs => some (.failure deadlineText)

/-- Only a success in time is worth a success. -/
theorem Outcome.within_eq_success_iff {limit : Option Nat} {outcome : Outcome} :
    outcome.within limit = some .success ↔
      ∃ delay, outcome = .settles delay .success ∧ ∀ time, limit = some time → delay ≤ time := by
  rcases limit with _ | limit <;> rcases outcome with ⟨delay, verdict⟩ | _
  · simp [within]
  · simp [within]
  · by_cases hle : delay ≤ limit
    · simp [within, hle]
    · simp [within, hle]
  · simp [within]

/-- As long as none of its timers was missed, a wait has come to what the limit makes of the
outcome if one of the timers is due, and to nothing before. -/
theorem Wait.poll_start (begun : Nat) (limit : Option Nat) (outcome : Outcome) {now : Nat}
    (hnow : ∀ timer ∈ (Wait.start begun limit outcome).timers, now ≤ timer) :
    (Wait.start begun limit outcome).poll now =
      if now ∈ (Wait.start begun limit outcome).timers then outcome.within limit else none := by
  rcases limit with _ | limit <;> rcases outcome with ⟨delay, verdict⟩ | _
  · have hle : now ≤ begun + delay := hnow _ (by simp [timers, start])
    simp only [poll, start, timers, overdue, Outcome.within]
    grind
  · rfl
  · have hanswer : now ≤ begun + delay := hnow _ (by simp [timers, start])
    have hdeadline : now ≤ begun + limit := hnow _ (by simp [timers, start])
    simp only [poll, start, timers, overdue, Outcome.within]
    grind
  · have hdeadline : now ≤ begun + limit := hnow _ (by simp [timers, start])
    simp only [poll, start, timers, overdue, Outcome.within]
    grind

/-! ## Occurrences -/

/-- The time limit on what a call waits for. -/
def Pool.limit (pool : Pool) : Phase → Option Nat
  | .probing _ => pool.settings.heartbeatTimeout
  | .redialing _ => pool.settings.dialTimeout

namespace World

/-- Whether an action is the answer to a dial or a heartbeat. -/
def Action.isAnswer : Action → Bool
  | .settleSlot .. | .settle .. => true
  | _ => false

/-- The call that an action is a step of. -/
def Action.call? : Action → Option Key
  | .acquire key _ | .settle key _ | .cancel key => some key
  | _ => none

/-- Something that occurs. -/
inductive Occurrence where
  /-- Somebody does something, or gives a call up. -/
  | move (action : Action)
  /-- The dial of a slot of a creation comes out. -/
  | dialed (key : Key) (slot : Nat) (outcome : Outcome)
  /-- What a call waits for comes out. -/
  | answered (key : Key) (outcome : Outcome)

/-- The action that an occurrence amounts to; an outcome that never comes amounts to none. -/
def actionOf? (w : World) : Occurrence → Option Action
  | .move action => if action.isAnswer then none else some action
  | .dialed key slot outcome =>
      match w.creations.get? key with
      | none => none
      | some creation =>
          (outcome.within creation.pool.settings.dialTimeout).map (.settleSlot key slot)
  | .answered key outcome =>
      match w.calls.get? key with
      | none => none
      | some call =>
          match w.pools[call.pool]? with
          | none => none
          | some pool => (outcome.within (pool.limit call.phase)).map (.settle key)

/-- What an occurrence does. -/
def occur (w : World) (occurrence : Occurrence) : Change :=
  match w.actionOf? occurrence with
  | none => (w, [])
  | some action => w.step action

/-- What some occurrences do, one after the other. -/
def play (w : World) : List Occurrence → Change
  | [] => (w, [])
  | occurrence :: rest => Change.andThen (w.occur occurrence) fun w => w.play rest

/-- The actions that some occurrences amount to. -/
def actionsOf (w : World) : List Occurrence → List Action
  | [] => []
  | occurrence :: rest => (w.actionOf? occurrence).toList ++ (w.occur occurrence).1.actionsOf rest

/-- What is seen of the steps of one call in an occurrence. -/
def ownEvents (w : World) (key : Key) (occurrence : Occurrence) : List Event :=
  match w.actionOf? occurrence with
  | none => []
  | some action => if action.call? = some key then (w.step action).2 else []

/-- What is seen of the steps of the calls under one key in some occurrences. -/
def ownHistory (w : World) (key : Key) : List Occurrence → List Event
  | [] => []
  | occurrence :: rest =>
      w.ownEvents key occurrence ++ (w.occur occurrence).1.ownHistory key rest

variable {w : World} {key : Key} {occurrence : Occurrence}

/-- Occurrences are actions. -/
theorem play_eq_run (w : World) (occurrences : List Occurrence) :
    w.play occurrences = w.run (w.actionsOf occurrences) := by
  induction occurrences generalizing w with
  | nil => rfl
  | cons occurrence rest ih =>
      simp only [play, actionsOf, ih]
      unfold occur
      cases w.actionOf? occurrence with
      | none => simp [Change.andThen]
      | some action => rfl

theorem play_append_fst (w : World) (first second : List Occurrence) :
    (w.play (first ++ second)).1 = ((w.play first).1.play second).1 := by
  induction first generalizing w with
  | nil => rfl
  | cons occurrence rest ih => exact ih _

theorem play_snoc_fst (w : World) (occurrences : List Occurrence) (occurrence : Occurrence) :
    (w.play (occurrences ++ [occurrence])).1 = ((w.play occurrences).1.occur occurrence).1 :=
  play_append_fst w occurrences [occurrence]

theorem play_append_snd (w : World) (first second : List Occurrence) :
    (w.play (first ++ second)).2 = (w.play first).2 ++ ((w.play first).1.play second).2 := by
  induction first generalizing w with
  | nil => rfl
  | cons occurrence rest ih =>
      have hrest := ih (w.occur occurrence).1
      simp only [List.cons_append, play, Change.andThen, hrest, List.append_assoc]

theorem ownHistory_append (w : World) (key : Key) (first second : List Occurrence) :
    w.ownHistory key (first ++ second) =
      w.ownHistory key first ++ (w.play first).1.ownHistory key second := by
  induction first generalizing w with
  | nil => rfl
  | cons occurrence rest ih =>
      simp only [List.cons_append, ownHistory, ih, List.append_assoc]
      rfl

/-- What an occurrence amounts to: a move to itself, and an outcome to an answer with what the limit
makes of it. -/
inductive AmountsTo (w : World) : Occurrence → Action → Prop where
  | move {action} (hanswer : action.isAnswer = false) : AmountsTo w (.move action) action
  | dialed {key slot outcome verdict} :
      AmountsTo w (.dialed key slot outcome) (.settleSlot key slot verdict)
  | answered {key outcome verdict call pool} (hcall : w.calls.get? key = some call)
      (hpool : w.pools[call.pool]? = some pool)
      (hwithin : outcome.within (pool.limit call.phase) = some verdict) :
      AmountsTo w (.answered key outcome) (.settle key verdict)

theorem amountsTo {action : Action} (haction : w.actionOf? occurrence = some action) :
    w.AmountsTo occurrence action := by
  cases occurrence with
  | move moved =>
      simp only [actionOf?, Option.ite_none_left_eq_some, Option.some.injEq] at haction
      obtain ⟨hanswer, rfl⟩ := haction
      exact .move (Bool.eq_false_iff.mpr hanswer)
  | dialed key slot outcome =>
      simp only [actionOf?] at haction
      split at haction
      · cases haction
      · obtain ⟨verdict, -, rfl⟩ := Option.map_eq_some_iff.mp haction
        exact .dialed
  | answered key outcome =>
      simp only [actionOf?] at haction
      split at haction
      · cases haction
      · next call hcall =>
          split at haction
          · cases haction
          · next pool hpool =>
              obtain ⟨verdict, hwithin, rfl⟩ := Option.map_eq_some_iff.mp haction
              exact .answered hcall hpool hwithin

/-- An answer is what the limit makes of an outcome. -/
theorem answered_of_settle {verdict : Verdict}
    (haction : w.actionOf? occurrence = some (.settle key verdict)) :
    ∃ outcome call pool, occurrence = .answered key outcome ∧ w.calls.get? key = some call ∧
      w.pools[call.pool]? = some pool ∧
      outcome.within (pool.limit call.phase) = some verdict := by
  cases amountsTo haction with
  | move hanswer => cases hanswer
  | answered hcall hpool hwithin => exact ⟨_, _, _, rfl, hcall, hpool, hwithin⟩

theorem occur_eq_step {action : Action} (haction : w.actionOf? occurrence = some action) :
    w.occur occurrence = w.step action := by
  unfold occur
  rw [haction]

/-- An outcome that is worth something to a call is an answer. -/
theorem occur_answered {call : Call} {pool : Pool} {outcome : Outcome} {verdict : Verdict}
    (hcall : w.calls.get? key = some call) (hpool : w.pools[call.pool]? = some pool)
    (hwithin : outcome.within (pool.limit call.phase) = some verdict) :
    w.occur (.answered key outcome) = w.step (.settle key verdict) := by
  refine occur_eq_step ?_
  simp only [actionOf?, hcall, hpool, hwithin, Option.map_some]

end World

/-! ## The waits of a session -/

theorem Wait.le_of_mem_timers {now timer : Nat} {limit : Option Nat} {outcome : Outcome}
    (h : timer ∈ (Wait.start now limit outcome).timers) : now ≤ timer := by
  rw [timers, List.mem_append, Option.mem_toList, Option.mem_toList] at h
  rcases h with hanswer | hdeadline
  · cases outcome with
    | settles delay verdict =>
        obtain rfl : now + delay = timer := Option.some.inj hanswer
        exact Nat.le_add_right ..
    | hangs => cases hanswer
  · obtain ⟨time, -, rfl⟩ := Option.map_eq_some_iff.mp hdeadline
    exact Nat.le_add_right ..

namespace Session

variable {session : Session} {key : Key} {wait : Wait}

/-- A session waits for what a call has asked for, and has not missed a timer of the wait. -/
def Awaits (session : Session) (key : Key) (wait : Wait) : Prop :=
  ∃ call pool begun outcome, session.world.calls.get? key = some call ∧
    session.world.pools[call.pool]? = some pool ∧
    wait = Wait.start begun (pool.limit call.phase) outcome ∧
    ∀ timer ∈ wait.timers, session.now ≤ timer

theorem callWait_frame (session : Session) (call : Call) :
    (session.callWait call).1.world = session.world ∧
      (session.callWait call).1.seen = session.seen := by
  unfold callWait
  split
  · split <;> exact ⟨rfl, rfl⟩
  · exact ⟨rfl, rfl⟩

/-- A call that has just asked for something is waited for. -/
theorem awaits_callWait (hw : session.world.Linked) {call : Call}
    (hcall : session.world.calls.get? key = some call) :
    (session.callWait call).1.Awaits key (session.callWait call).2 := by
  obtain ⟨pool, hpool⟩ := hw.poolOfCall hcall
  have hsettings : (session.poolAt call.pool).settings = pool.settings := by
    rw [poolAt, List.getD_eq_getElem?_getD, hpool, Option.getD_some]
  unfold callWait
  rw [hsettings]
  cases hphase : call.phase with
  | probing entry =>
      have hlimit : pool.limit call.phase = pool.settings.heartbeatTimeout := by rw [hphase]; rfl
      dsimp only
      split
      · exact ⟨call, pool, session.now, .settles 0 (.failure "sick"), hcall, hpool, by rw [hlimit],
          fun timer => Wait.le_of_mem_timers⟩
      · exact ⟨call, pool, session.now, (session.script.takeProbe entry.conn.address).1, hcall,
          hpool, by rw [hlimit], fun timer => Wait.le_of_mem_timers⟩
  | redialing entry =>
      have hlimit : pool.limit call.phase = pool.settings.dialTimeout := by rw [hphase]; rfl
      exact ⟨call, pool, session.now, (session.script.takeDial entry.conn.address).1, hcall, hpool,
        by rw [hlimit], fun timer => Wait.le_of_mem_timers⟩

/-- The answer that a wait has come to is what the outcome is worth. -/
theorem Awaits.occur (h : session.Awaits key wait) {verdict : Verdict}
    (hpoll : wait.poll session.now = some verdict) :
    ∃ outcome, session.world.occur (.answered key outcome) =
      session.world.step (.settle key verdict) := by
  obtain ⟨call, pool, begun, outcome, hcall, hpool, rfl, htimers⟩ := h
  rw [Wait.poll_start begun _ outcome htimers] at hpoll
  split at hpoll
  · exact ⟨outcome, World.occur_answered hcall hpool hpoll⟩
  · cases hpoll

/-- What a session does for a call at one instant is a run of occurrences, and the wait that it
leaves has not missed a timer either. -/
theorem advance_play (hw : session.world.Linked) (h : session.Awaits key wait) (bound : Nat) :
    (∃ outcomes : List Outcome,
      (session.advance key wait bound).1.world =
          (session.world.play (outcomes.map (.answered key))).1 ∧
        (session.advance key wait bound).1.seen =
          session.seen ++ (session.world.play (outcomes.map (.answered key))).2) ∧
      ∀ rest, (session.advance key wait bound).2 = some rest →
        (session.advance key wait bound).1.Awaits key rest := by
  induction bound generalizing session wait with
  | zero =>
      refine ⟨⟨[], rfl, (List.append_nil _).symm⟩, fun rest hrest => ?_⟩
      cases hrest
      exact h
  | succ bound ih =>
      unfold advance
      cases hpoll : wait.poll session.now with
      | none =>
          refine ⟨⟨[], rfl, (List.append_nil _).symm⟩, fun rest hrest => ?_⟩
          cases hrest
          exact h
      | some verdict =>
          -- the answer that has come is an occurrence of the world
          obtain ⟨outcome, hoccur⟩ := h.occur hpoll
          have hlinked := World.step_linked hw (.settle key verdict)
          dsimp only
          cases hcall : (session.act (.settle key verdict)).world.calls.get? key with
          | none =>
              refine ⟨⟨[outcome], ?_, ?_⟩, fun rest hrest => nomatch hrest⟩
              · simp [World.play, World.Change.andThen, hoccur, act]
              · simp [World.play, World.Change.andThen, hoccur, act]
          | some call =>
              obtain ⟨hworld, hseen⟩ :=
                callWait_frame (session.act (.settle key verdict)) call
              obtain ⟨⟨outcomes, hfst, hsnd⟩, hrest⟩ :=
                ih (hworld ▸ hlinked) (awaits_callWait hlinked hcall)
              refine ⟨⟨outcome :: outcomes, ?_, ?_⟩, hrest⟩
              · rw [hfst, hworld]
                simp [World.play, World.Change.andThen, hoccur, act]
              · rw [hsnd, hseen, hworld]
                simp [World.play, World.Change.andThen, hoccur, act]

end Session

end HeartbeatPool
