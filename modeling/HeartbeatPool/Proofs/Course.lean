import HeartbeatPool.Proofs.Answers
import HeartbeatPool.Proofs.Desk
import HeartbeatPool.Proofs.History

/-!
# The course of one call

Many calls are under way at a desk.  `Desk.course` picks out of a run what belongs to one of them:
what is seen of its steps, the answers that it takes in, the idle queues in which it looks for a
connection, and its replies.

A request is one action of the world or none (`serve_world`, `shown_eq`), and only the requests of a
call itself change the call and its wait (`serve_calls_of_ne`, `serve_waits_of_ne`).
-/

namespace HeartbeatPool

/-- The call that a request is a step of. -/
def Request.call? : Request → Option Key
  | .acquire key _ | .poll key | .cancel key => some key
  | .pass _ | .release _ _ | .drop _ => none

/-- How long a request lets time pass. -/
def Request.duration : Request → Nat
  | .pass duration => duration
  | _ => 0

/-- What is known of the steps of one call. -/
@[ext]
structure Course where
  events : List Event := []
  /-- The answers that were taken in, each with what the call had waited for. -/
  answers : List (Phase × Verdict) := []
  /-- The idle queues in which the call has looked for a connection, as they were then. -/
  looks : List (List Entry) := []
  replies : List Reply := []

namespace Course

/-- The connections that were probed. -/
def probed (course : Course) : List Conn := probesIn course.events

/-- The endpoints that were dialed. -/
def dialed (course : Course) : List Endpoint := dialsIn course.events

/-- One course after another. -/
def append (first second : Course) : Course where
  events := first.events ++ second.events
  answers := first.answers ++ second.answers
  looks := first.looks ++ second.looks
  replies := first.replies ++ second.replies

instance : Append Course := ⟨append⟩

variable (first second : Course)

@[simp] theorem events_append : (first ++ second).events = first.events ++ second.events := rfl

@[simp] theorem answers_append : (first ++ second).answers = first.answers ++ second.answers := rfl

@[simp] theorem looks_append : (first ++ second).looks = first.looks ++ second.looks := rfl

@[simp] theorem replies_append : (first ++ second).replies = first.replies ++ second.replies := rfl

@[simp] theorem probed_append : (first ++ second).probed = first.probed ++ second.probed :=
  probesIn_append ..

@[simp] theorem dialed_append : (first ++ second).dialed = first.dialed ++ second.dialed :=
  dialsIn_append ..

theorem append_empty : first ++ ({} : Course) = first := by
  ext1 <;> simp

theorem append_assoc (third : Course) : first ++ second ++ third = first ++ (second ++ third) := by
  ext1 <;> simp

end Course

/-! ## What a call asks for -/

/-- The outcome of the heartbeat of a connection, and what is scripted from then on. -/
def Script.probe (script : Script) (marks : Table Conn Mark) (conn : Conn) : Outcome × Script :=
  if ((marks.get? conn).getD {}).sick then (.settles 0 (.failure "sick"), script)
  else script.takeProbe conn.address

namespace Session

/-- The outcome of what a call asks for, and what is scripted from then on. -/
def ask (session : Session) : Phase → Outcome × Script
  | .probing entry => session.script.probe session.marks entry.conn
  | .redialing entry => session.script.takeDial entry.conn.address

/-- A call takes one outcome out of the script, and waits for it within the limit of its pool. -/
theorem callWait_eq (session : Session) (call : Call) :
    session.callWait call =
      ({ session with script := (session.ask call.phase).2 },
        Wait.start session.now ((session.poolAt call.pool).limit call.phase)
          (session.ask call.phase).1) := by
  unfold callWait ask
  cases call.phase with
  | probing entry =>
      unfold Script.probe mark
      dsimp only
      split <;> rfl
  | redialing entry => rfl

end Session

namespace Desk

/-- The answer that has come for a call, with what the call has waited for. -/
def answer? (desk : Desk) (key : Key) : Option (Phase × Verdict) :=
  match desk.session.world.calls.get? key, desk.waits.get? key with
  | some call, some wait => (wait.poll desk.session.now).map fun verdict => (call.phase, verdict)
  | _, _ => none

/-- The answers that a request takes in. -/
def answersTo (desk : Desk) : Request → List (Phase × Verdict)
  | .poll key => (desk.answer? key).toList
  | _ => []

/-- The idle queue in which a request makes a call look for a connection: at its start, and after a
failed dial if the call has attempts left. -/
def look? (registry : Registry) (desk : Desk) : Request → Option (List Entry)
  | .acquire key service =>
      if desk.isTaken key then none
      else (registry.get? service).map fun id => (desk.session.poolAt id).idle
  | .poll key =>
      match desk.session.world.calls.get? key, desk.answer? key with
      | some call, some (.redialing _, .failure _) =>
          if call.attemptsLeft = 0 then none else some (desk.session.poolAt call.pool).idle
      | _, _ => none
  | _ => none

/-- What is seen of a request. -/
def shown (registry : Registry) (desk : Desk) (request : Request) : List Event :=
  (desk.serve registry request).1.session.seen.drop desk.session.seen.length

/-- What a request is in the course of its call. -/
def stage (registry : Registry) (desk : Desk) (request : Request) : Course where
  events := desk.shown registry request
  answers := desk.answersTo request
  looks := (desk.look? registry request).toList
  replies := (desk.serve registry request).2.toList

/-- The course of a call in a run. -/
def course (registry : Registry) (key : Key) (desk : Desk) : List Request → Course
  | [] => {}
  | request :: rest =>
      let later := (desk.serve registry request).1.course registry key rest
      if request.call? = some key then desk.stage registry request ++ later else later

/-- The action that a request amounts to, if any. -/
def actionOf? (registry : Registry) (desk : Desk) : Request → Option World.Action
  | .pass _ => none
  | .acquire key service =>
      if desk.isTaken key then none
      else some (((registry.get? service).map (.acquire key)).getD (.reportUnknown service))
  | .poll key => (desk.answer? key).map fun answer => .settle key answer.2
  | .cancel key => (desk.session.world.calls.get? key).map fun _ => .cancel key
  | .release key service =>
      (desk.session.world.loans.get? key).map fun _ =>
        ((registry.get? service).map (.release key)).getD (.refuse key service)
  | .drop key => (desk.session.world.loans.get? key).map fun _ => .drop key

variable {registry : Registry} {desk : Desk} {key : Key} {request : Request} {id : PoolId}
  {service : String} {call : Call} {verdict : Verdict}

/-! ## Requests are actions -/

theorem resume_frame (desk : Desk) (key : Key) (id : PoolId) :
    (desk.resume key id).1.session.world = desk.session.world ∧
      (desk.resume key id).1.session.seen = desk.session.seen ∧
      (desk.resume key id).1.session.now = desk.session.now := by
  unfold resume
  split
  · next call _ =>
      rw [Session.callWait_eq]
      exact ⟨rfl, rfl, rfl⟩
  · split <;> exact ⟨rfl, rfl, rfl⟩

/-- What a request does to the world, to the log and to the time. -/
structure Does (desk desk' : Desk) (action : Option World.Action) (duration : Nat) : Prop where
  world : desk'.session.world =
    (action.elim (desk.session.world, []) desk.session.world.step).1
  seen : desk'.session.seen =
    desk.session.seen ++ (action.elim (desk.session.world, []) desk.session.world.step).2
  now : desk'.session.now = desk.session.now + duration

theorem Does.nothing (desk : Desk) : Does desk desk none 0 :=
  ⟨rfl, (List.append_nil _).symm, rfl⟩

theorem Does.act (desk : Desk) (action : World.Action) : Does desk (desk.act action) action 0 :=
  ⟨rfl, rfl, rfl⟩

theorem Does.resume {desk' : Desk} {action : Option World.Action} {duration : Nat}
    (h : Does desk desk' action duration) (key : Key) (id : PoolId) :
    Does desk (desk'.resume key id).1 action duration := by
  obtain ⟨hworld, hseen, hnow⟩ := desk'.resume_frame key id
  exact ⟨hworld.trans h.world, hseen.trans h.seen, hnow.trans h.now⟩

/-- Every request does what its action does, and nothing else to the world. -/
theorem does_serve (registry : Registry) (desk : Desk) (request : Request) :
    Does desk (desk.serve registry request).1 (desk.actionOf? registry request)
      request.duration := by
  cases request with
  | pass duration => exact ⟨rfl, (List.append_nil _).symm, rfl⟩
  | acquire key service =>
      simp only [serve, acquire, actionOf?]
      split
      · exact .nothing desk
      · cases registry.get? service with
        | none => exact .act desk _
        | some id => exact (Does.act desk (.acquire key id)).resume key id
  | poll key =>
      simp only [serve, poll, actionOf?, answer?]
      cases desk.session.world.calls.get? key with
      | none => exact .nothing desk
      | some call =>
          cases desk.waits.get? key with
          | none => exact .nothing desk
          | some wait =>
              dsimp only
              cases wait.poll desk.session.now with
              | none => exact .nothing desk
              -- only an answer that has come leads to an action
              | some verdict => exact (Does.act desk (.settle key verdict)).resume key call.pool
  | cancel key =>
      simp only [serve, cancel, actionOf?]
      cases desk.session.world.calls.get? key with
      | none => exact .nothing desk
      | some call => exact .act desk _
  | release key service =>
      simp only [serve, release, actionOf?]
      cases desk.session.world.loans.get? key with
      | none => exact .nothing desk
      | some loan => cases registry.get? service <;> exact .act desk _
  | drop key =>
      simp only [serve, drop, actionOf?]
      cases desk.session.world.loans.get? key with
      | none => exact .nothing desk
      | some loan => exact .act desk _

/-- What is seen of a request is what is seen of its action. -/
theorem shown_eq (registry : Registry) (desk : Desk) (request : Request) :
    desk.shown registry request =
      ((desk.actionOf? registry request).elim (desk.session.world, [])
        desk.session.world.step).2 := by
  rw [shown, (desk.does_serve registry request).seen, List.drop_left]

/-- The action of a request is a step of the same call, and lets go of no pool. -/
theorem call?_of_actionOf? {action : World.Action}
    (haction : desk.actionOf? registry request = some action) :
    (action.call? = none ∨ action.call? = request.call?) ∧ ∀ id, action ≠ .letGo id := by
  cases request with
  | pass => cases haction
  | acquire key service =>
      simp only [actionOf?, Option.ite_none_left_eq_some, Option.some.injEq] at haction
      obtain ⟨-, rfl⟩ := haction
      cases registry.get? service <;> simp [World.Action.call?, Request.call?]
  | poll key | cancel key | drop key =>
      obtain ⟨_, -, rfl⟩ := Option.map_eq_some_iff.mp haction
      simp [World.Action.call?, Request.call?]
  | release key service =>
      obtain ⟨_, -, rfl⟩ := Option.map_eq_some_iff.mp haction
      cases registry.get? service <;> simp [World.Action.call?]

/-! ## The requests of others -/

theorem resume_waits_of_ne {other : Key} (hne : other ≠ key) (id : PoolId) :
    (desk.resume other id).1.waits.get? key = desk.waits.get? key := by
  unfold resume
  split
  · exact (Table.get?_insert ..).trans (if_neg hne)
  · split <;> rfl

/-- Only its own requests change the wait of a call. -/
theorem serve_waits_of_ne (hother : request.call? ≠ some key) :
    (desk.serve registry request).1.waits.get? key = desk.waits.get? key := by
  have hne (other : Key) (hother : some other ≠ some key) : other ≠ key :=
    fun heq => hother (congrArg some heq)
  cases request with
  | pass => rfl
  | acquire other service =>
      simp only [serve, acquire]
      split
      · rfl
      · split
        · rfl
        · exact resume_waits_of_ne (hne other hother) _
  | poll other =>
      simp only [serve, poll]
      split
      · split
        · rfl
        · exact resume_waits_of_ne (hne other hother) _
      · rfl
  | cancel other =>
      simp only [serve, cancel]
      split <;> rfl
  | release other service =>
      simp only [serve, release]
      split
      · rfl
      · split <;> rfl
  | drop other =>
      simp only [serve, drop]
      split <;> rfl

/-- Only its own requests change a call. -/
theorem serve_calls_of_ne (hlinked : desk.session.world.Linked)
    (hother : request.call? ≠ some key) :
    (desk.serve registry request).1.session.world.calls.get? key =
      desk.session.world.calls.get? key := by
  rw [(desk.does_serve registry request).world]
  cases haction : desk.actionOf? registry request with
  | none => rfl
  | some action =>
      refine World.step_calls_of_ne hlinked fun heq => ?_
      rcases (call?_of_actionOf? haction).1 with hnone | hsame
      · rw [hnone] at heq
        cases heq
      · exact hother (hsame ▸ heq)

/-! ## The requests of the call itself -/

/-- A call is not started again while it is under way. -/
theorem serve_acquire_of_call (hcall : desk.session.world.calls.get? key = some call)
    (service : String) :
    desk.serve registry (.acquire key service) = (desk, none) ∧
      desk.stage registry (.acquire key service) = {} := by
  have htaken : desk.isTaken key = true := by simp [isTaken, Table.contains, hcall]
  have hserve : desk.serve registry (.acquire key service) = (desk, none) := by
    simp only [serve, acquire, htaken, if_true]
  refine ⟨hserve, ?_⟩
  simp [stage, shown, hserve, answersTo, look?, htaken]

/-- A call under a free key is started. -/
theorem serve_acquire_of_free (hservice : registry.get? service = some id)
    (hfree : desk.isTaken key = false) :
    desk.serve registry (.acquire key service) = (desk.act (.acquire key id)).resume key id := by
  simp only [serve, acquire, hfree, hservice, Bool.false_eq_true, if_false]

theorem serve_poll_of_call (hcall : desk.session.world.calls.get? key = some call) :
    desk.serve registry (.poll key) =
      match desk.answer? key with
      | none => (desk, none)
      | some answer => (desk.act (.settle key answer.2)).resume key call.pool := by
  simp only [serve, poll, answer?, hcall]
  cases desk.waits.get? key with
  | none => rfl
  | some wait =>
      dsimp only
      cases wait.poll desk.session.now <;> rfl

/-- Nothing happens before an answer has come. -/
theorem serve_poll_of_none (hcall : desk.session.world.calls.get? key = some call)
    (hanswer : desk.answer? key = none) :
    desk.serve registry (.poll key) = (desk, none) ∧ desk.stage registry (.poll key) = {} := by
  have hserve : desk.serve registry (.poll key) = (desk, none) := by
    rw [serve_poll_of_call hcall, hanswer]
  refine ⟨hserve, ?_⟩
  simp [stage, shown, hserve, answersTo, look?, hcall, hanswer]

theorem phase_of_answer? (hcall : desk.session.world.calls.get? key = some call)
    {answer : Phase × Verdict} (hanswer : desk.answer? key = some answer) :
    answer.1 = call.phase := by
  unfold answer? at hanswer
  rw [hcall] at hanswer
  split at hanswer
  · next heq _ =>
      cases heq
      obtain ⟨_, -, rfl⟩ := Option.map_eq_some_iff.mp hanswer
      rfl
  · cases hanswer

/-- A call takes in the answer that has come. -/
theorem serve_poll_of_some (hcall : desk.session.world.calls.get? key = some call)
    {answer : Phase × Verdict} (hanswer : desk.answer? key = some answer) :
    desk.serve registry (.poll key) = (desk.act (.settle key answer.2)).resume key call.pool ∧
      desk.stage registry (.poll key) =
        { events := (desk.session.world.step (.settle key answer.2)).2
          answers := [answer]
          looks := (desk.look? registry (.poll key)).toList
          replies := ((desk.act (.settle key answer.2)).resume key call.pool).2.toList } := by
  have hserve : desk.serve registry (.poll key) =
      (desk.act (.settle key answer.2)).resume key call.pool := by
    rw [serve_poll_of_call hcall, hanswer]
  refine ⟨hserve, ?_⟩
  rw [stage, shown_eq, hserve, answersTo, actionOf?, hanswer]
  rfl

end Desk

end HeartbeatPool
