import HeartbeatPool.Config.Reader
import HeartbeatPool.Session.Activity

/-!
# Running a session

Time stands still while anything can go on.  Then it jumps to the next timer, and everything that
waits is looked at, in the order of the tasks, each running until it must wait again.

Main definitions: `Session.perform` runs one step to its end, and `Session.run` a whole session.
-/

namespace HeartbeatPool

open Session

mutual

/-- A step that waits. -/
inductive Activity where
  | asleep (wake : Nat)
  | acquiring (acquiring : Acquiring)
  | creating (pool : String) (creating : Creating) (stall : Nat)
  | building (registry : String) (members : List Member) (stall : Nat)
  | group (tasks : List Task)

/-- A list of steps that is carried out: the results so far, and what is left. -/
inductive Task where
  | finished (results : List (Reply × Nat))
  | waiting (results : List (Reply × Nat)) (activity : Activity) (rest : List Step)

end

/-- The results of tasks that have all come to their ends. -/
def results? : List Task → Option (List (List (Reply × Nat)))
  | [] => some []
  | .finished results :: rest => (results? rest).map (results :: ·)
  | .waiting .. :: _ => none

/-- How far a group of tasks has come. -/
def groupProgress (tasks : List Task) : Progress Reply Activity :=
  match results? tasks with
  | some results => .done (.group results)
  | none => .waiting (.group tasks)

namespace Session

/-! ## How steps begin -/

/-- The creation of a pool: it ends with the pool being kept under its name. -/
def creationProgress (pool : String) (stall : Nat)
    (progress : Session × Progress (Except Error PoolId) Creating) :
    Session × Progress Reply Activity :=
  match progress with
  | (session, .done (.error error)) => (session, .done (.failed error))
  | (session, .done (.ok id)) => (session.keepPool pool id, .done .ok)
  | (session, .waiting creating) =>
      if stall ≤ session.now then (session.act (.abandon creating.key), .done .stalled)
      else (session, .waiting (.creating pool creating stall))

/-- The building of a registry: it ends with the registry being kept under its name. -/
def buildProgress (registry : String) (stall : Nat)
    (progress : Session × Progress (Except Error Registry) (List Member)) :
    Session × Progress Reply Activity :=
  match progress with
  | (session, .done (.error error)) => (session, .done (.failed error))
  | (session, .done (.ok pools)) => (session.keepRegistry registry pools, .done .ok)
  | (session, .waiting members) =>
      if stall ≤ session.now then (members.foldl discard session, .done .stalled)
      else (session, .waiting (.building registry members stall))

/-- The progress of a call as that of a step. -/
def acquireProgress (progress : Session × Progress Reply Acquiring) :
    Session × Progress Reply Activity :=
  match progress with
  | (session, .done reply) => (session, .done reply)
  | (session, .waiting acquiring) => (session, .waiting (.acquiring acquiring))

/-- Hands a loan back. -/
def releaseLoan (session : Session) (target : Target) (name : String) : Session × Reply :=
  match session.resolve target with
  | .error what => (session, .missing what)
  | .ok destination =>
      match session.takeLoan name with
      | none => (session, .missing .loan)
      | some (key, session) =>
          match destination with
          | none =>
              let service := serviceOf target
              (session.act (.refuse key service), .failed (.unknownService service))
          | some id =>
              let reply : Reply := ((session.world.releaseError? key id).map .failed).getD .ok
              (session.act (.release key id), reply)

/-- Exchanges the connections of two loans.  If one of them is missing, or both are the same, the
loans there are get dropped. -/
def swapLoans (session : Session) (first second : String) : Session × Reply :=
  let dropLoan (session : Session) (name : String) : Session :=
    match session.takeLoan name with
    | none => session
    | some (key, session) => session.act (.drop key)
  match session.loans.get? first, session.loans.get? second with
  | some a, some b =>
      if first = second then (dropLoan session first, .missing .loan)
      else (session.act (.swap a b), .ok)
  | _, _ => (dropLoan (dropLoan session first) second, .missing .loan)

/-- Changes what the connection of a loan carries. -/
def tagLoan (session : Session) (name : String) (tag : Option String) (sick : Option Bool) :
    Session × Reply :=
  match session.loanAt name with
  | none => (session, .missing .loan)
  | some loan =>
      let conn := loan.entry.conn
      let mark := session.mark conn
      let mark : Mark := { tag := tag.getD mark.tag, sick := sick.getD mark.sick }
      ({ session with marks := session.marks.insert conn mark }, .ok)

/-- The outline of something. -/
def outlineOf (session : Session) (subject : Subject) : Except Missing Text.Shape :=
  match subject with
  | .loan name =>
      match session.loanAt name with
      | none => .error .loan
      | some loan => .ok (loanShape loan)
  | .pool key =>
      match session.pools.get? key with
      | none => .error .pool
      | some id => .ok (session.poolAt id).shape
  | .registry name =>
      match session.registries.get? name with
      | none => .error .registry
      | some registry => .ok (session.registryShape registry)

/-- Texts in the order of their characters. -/
def sortTexts (texts : List String) : List String := texts.mergeSort fun a b => decide (a ≤ b)

mutual

/-- Starts a step and runs it until it must wait. -/
def beginStep (session : Session) : Step → Session × Progress Reply Activity
  | .setDial address queue usual =>
      ({ session with script := session.script.changeDials address queue usual }, .done .ok)
  | .setProbe address queue usual =>
      ({ session with script := session.script.changeProbes address queue usual }, .done .ok)
  | .setQueue queue =>
      ({ session with script := { session.script with ahead := queue } }, .done .ok)
  | .create key name endpoints settings =>
      creationProgress key (session.now + stallLimit)
        (session.beginCreation key name endpoints settings)
  | .build registry (.listed services) heartbeats settings =>
      buildProgress registry (session.now + stallLimit)
        (session.beginBuild services heartbeats settings)
  | .build registry (.configuration text) heartbeats settings =>
      match ClientConfig.ofText text with
      | .error error => (session, .done (.failed error))
      | .ok config =>
          buildProgress registry (session.now + stallLimit)
            (session.fromConfig .ofFile config heartbeats settings)
  | .acquire target name limit =>
      match session.resolve target with
      | .error what => (session, .done (.missing what))
      | .ok none =>
          let service := serviceOf target
          (session.act (.reportUnknown service), .done (.failed (.unknownService service)))
      | .ok (some id) => acquireProgress (session.beginAcquire id name limit)
  | .release target name =>
      let (session, reply) := session.releaseLoan target name
      (session, .done reply)
  | .drop name =>
      match session.takeLoan name with
      | none => (session, .done (.missing .loan))
      | some (key, session) => (session.act (.drop key), .done .ok)
  | .dropPool key =>
      match session.pools.get? key with
      | none => (session, .done (.missing .pool))
      | some id =>
          let session := { session with pools := session.pools.erase key }
          (session.act (.letGo id), .done .ok)
  | .tag name tag sick =>
      let (session, reply) := session.tagLoan name tag sick
      (session, .done reply)
  | .swap first second =>
      let (session, reply) := session.swapLoans first second
      (session, .done reply)
  | .look name =>
      match session.loanAt name with
      | none => (session, .done (.missing .loan))
      | some loan => (session, .done (.loan (session.viewLoan loan)))
  | .observe target =>
      match session.resolve target with
      | .error what => (session, .done (.missing what))
      | .ok id => (session, .done (.pool (id.map session.viewPool)))
  | .services registry =>
      match session.registries.get? registry with
      | none => (session, .done (.missing .registry))
      | some pools => (session, .done (.services (sortTexts pools.keys)))
  | .outline subject pretty =>
      match session.outlineOf subject with
      | .error what => (session, .done (.missing what))
      | .ok shape => (session, .done (.text (if pretty then shape.block else shape.line)))
  | .sleep duration =>
      if duration = 0 then (session, .done .ok)
      else (session, .waiting (.asleep (later session.now duration)))
  | .parallel tasks =>
      let (session, tasks) := session.beginTasks tasks
      (session, groupProgress tasks)

/-- Carries out steps, one after the other, until one must wait. -/
def proceed (session : Session) (results : List (Reply × Nat)) : List Step → Session × Task
  | [] => (session, .finished results)
  | step :: rest =>
      match session.beginStep step with
      | (session, .done reply) => session.proceed (results ++ [(reply, session.now)]) rest
      | (session, .waiting activity) => (session, .waiting results activity rest)

/-- Starts tasks, in order. -/
def beginTasks (session : Session) : List (List Step) → Session × List Task
  | [] => (session, [])
  | steps :: rest =>
      let (session, task) := session.proceed [] steps
      let (session, tasks) := session.beginTasks rest
      (session, task :: tasks)

end

/-! ## How steps go on -/

mutual

/-- Goes on with a step that waits. -/
def pollActivity (session : Session) : Activity → Session × Progress Reply Activity
  | .asleep wake =>
      if wake ≤ session.now then (session, .done .ok) else (session, .waiting (.asleep wake))
  | .acquiring acquiring => acquireProgress (session.pollAcquire acquiring)
  | .creating pool creating stall =>
      creationProgress pool stall (session.pollCreation creating)
  | .building registry members stall =>
      buildProgress registry stall (session.pollBuild members)
  | .group tasks =>
      let (session, tasks) := session.pollTasks tasks
      (session, groupProgress tasks)

/-- Goes on with a task. -/
def pollTask (session : Session) : Task → Session × Task
  | .finished results => (session, .finished results)
  | .waiting results activity rest =>
      match session.pollActivity activity with
      | (session, .done reply) => session.proceed (results ++ [(reply, session.now)]) rest
      | (session, .waiting activity) => (session, .waiting results activity rest)

/-- Goes on with tasks, in order. -/
def pollTasks (session : Session) : List Task → Session × List Task
  | [] => (session, [])
  | task :: rest =>
      let (session, task) := session.pollTask task
      let (session, rest) := session.pollTasks rest
      (session, task :: rest)

end

mutual

/-- The times at which there may be something new about a step. -/
def timersOf : Activity → List Nat
  | .asleep wake => [wake]
  | .acquiring acquiring => acquiring.timers
  | .creating _ creating stall => creating.timers ++ [stall]
  | .building _ members stall => members.flatMap Member.timers ++ [stall]
  | .group tasks => timersOfAll tasks

/-- The times at which there may be something new about a task. -/
def timersOfTask : Task → List Nat
  | .finished _ => []
  | .waiting _ activity _ => timersOf activity

/-- The times at which there may be something new about some tasks. -/
def timersOfAll : List Task → List Nat
  | [] => []
  | task :: rest => timersOfTask task ++ timersOfAll rest

end

/-- The first of some times that is still to come. -/
def nextTimer (now : Nat) (timers : List Nat) : Option Nat :=
  (timers.filter (now < ·)).min?

/-- Lets time pass until a task has come to its end.  The number bounds the jumps of the clock;
as each jump is forward, the longest time that the task takes is always enough. -/
def drive (session : Session) (task : Task) : Nat → Session × Task
  | 0 => (session, task)
  | bound + 1 =>
      match nextTimer session.now (timersOfTask task) with
      | none => (session, task)
      | some instant =>
          -- time stands still while anything can run, then jumps to the next timer
          let (session, task) := { session with now := instant }.pollTask task
          session.drive task bound

/-! ## Whole sessions -/

/-- What a step came to. -/
structure Record where
  reply : Reply
  events : List Event
  time : Nat
  census : Table String (Nat × Nat)
  deriving Inhabited

/-- The result of a task of one step. -/
def replyOf : Task → Reply
  | .finished ((reply, _) :: _) => reply
  | _ => .stalled

/-- The events of a step in the order in which they are reported.  The pools of a registry are
created side by side, in an order that nobody should rely on, so those of a successful build are
sorted by their texts and those of one that failed are left out. -/
def arrange (step : Step) (reply : Reply) (events : List Event) : List Event :=
  match step, reply with
  | .build .., .ok => events.mergeSort fun a b => decide (a.text ≤ b.text)
  | .build .., _ => []
  | _, _ => events

/-- Carries out one step to its end. -/
def perform (session : Session) (step : Step) : Session × Record :=
  let (session, task) := { session with seen := [] }.proceed [] [step]
  let (session, task) := session.drive task step.longest
  let reply := replyOf task
  (session,
    { reply := reply
      events := arrange step reply session.seen
      time := session.now
      census := session.census })

/-- Carries out steps, one after the other. -/
def run (session : Session) : List Step → List Record
  | [] => []
  | step :: rest =>
      let (session, record) := session.perform step
      record :: session.run rest

end Session

end HeartbeatPool
