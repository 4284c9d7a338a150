import HeartbeatPool.Proofs.Occurrences
import HeartbeatPool.Session.Run

/-!
# A registry at work

Callers ask a registry for connections of its services and hand them back, in any order, and many
calls are under way at once.  A `Request` is what one of them does at an instant, and `Desk.serve`
carries it out.  A list of requests is one interleaving, for all that callers do and for all times
at which they go on.

A session carries out its steps by just such requests: it starts a call as a desk does
(`beginAcquire_eq_serve`), goes on with it by polling it some times (`advance_eq_after`), and hands
loans back in the same way (`releaseLoan_eq_serve`).
-/

namespace HeartbeatPool

/-! ## A registry at work -/

/-- A session in which a registry is at work, with the wait of each call under way. -/
structure Desk where
  session : Session := {}
  waits : Table Key Wait := ∅

/-- What callers of a registry do.  The caller chooses a key for the call, and for the loan that it
ends in. -/
inductive Request where
  /-- Time passes. -/
  | pass (duration : Nat)
  | acquire (key : Key) (service : String)
  /-- Goes on with a call if what it waits for has come. -/
  | poll (key : Key)
  | cancel (key : Key)
  | release (key : Key) (service : String)
  | drop (key : Key)
  deriving DecidableEq, Repr

namespace Desk

/-- Lets one action of the world happen. -/
def act (desk : Desk) (action : World.Action) : Desk :=
  { desk with session := desk.session.act action }

/-- What a call comes to next: it waits again, or ends with a loan or without one. -/
def resume (desk : Desk) (key : Key) (id : PoolId) : Desk × Option Reply :=
  match desk.session.world.calls.get? key with
  | some call =>
      let (session, wait) := desk.session.callWait call
      ({ session := session, waits := desk.waits.insert key wait }, none)
  | none =>
      match desk.session.world.loans.get? key with
      | some loan => (desk, some (.loan (desk.session.viewLoan loan)))
      | none => (desk, some (.failed (.poolExhausted (desk.session.poolAt id).name)))

/-- Whether a key names a call or a loan. -/
def isTaken (desk : Desk) (key : Key) : Bool :=
  desk.session.world.calls.contains key || desk.session.world.loans.contains key

/-- Starts a call for a connection of a service. -/
def acquire (registry : Registry) (desk : Desk) (key : Key) (service : String) :
    Desk × Option Reply :=
  if desk.isTaken key then (desk, none)
  else
    match registry.get? service with
    | none => (desk.act (.reportUnknown service), some (.failed (.unknownService service)))
    | some id => (desk.act (.acquire key id)).resume key id

/-- Goes on with a call if what it waits for has come. -/
def poll (desk : Desk) (key : Key) : Desk × Option Reply :=
  match desk.session.world.calls.get? key, desk.waits.get? key with
  | some call, some wait =>
      match wait.poll desk.session.now with
      | none => (desk, none)
      | some verdict => (desk.act (.settle key verdict)).resume key call.pool
  | _, _ => (desk, none)

/-- Gives up a call. -/
def cancel (desk : Desk) (key : Key) : Desk × Option Reply :=
  match desk.session.world.calls.get? key with
  | none => (desk, none)
  | some _ => (desk.act (.cancel key), some .cancelled)

/-- Hands a loan back to a service. -/
def release (registry : Registry) (desk : Desk) (key : Key) (service : String) :
    Desk × Option Reply :=
  match desk.session.world.loans.get? key with
  | none => (desk, some (.missing .loan))
  | some _ =>
      match registry.get? service with
      | none => (desk.act (.refuse key service), some (.failed (.unknownService service)))
      | some id =>
          let reply : Reply := ((desk.session.world.releaseError? key id).map .failed).getD .ok
          (desk.act (.release key id), some reply)

/-- Drops a loan. -/
def drop (desk : Desk) (key : Key) : Desk × Option Reply :=
  match desk.session.world.loans.get? key with
  | none => (desk, some (.missing .loan))
  | some _ => (desk.act (.drop key), some .ok)

/-- What a request does, and the reply if there is one. -/
def serve (registry : Registry) (desk : Desk) : Request → Desk × Option Reply
  | .pass duration =>
      ({ desk with session := { desk.session with now := desk.session.now + duration } }, none)
  | .acquire key service => desk.acquire registry key service
  | .poll key => desk.poll key
  | .cancel key => desk.cancel key
  | .release key service => desk.release registry key service
  | .drop key => desk.drop key

end Desk

/-- What was seen of the pool of a service after a request. -/
structure Observation where
  request : Request
  reply : Option Reply
  pool : Option Pool

namespace Desk

variable (registry : Registry) (service : String) (id : PoolId)

/-- The desk after some requests. -/
def after (desk : Desk) (requests : List Request) : Desk :=
  requests.foldl (fun desk request => (desk.serve registry request).1) desk

/-- What was seen of a pool in a run. -/
def record (desk : Desk) : List Request → List Observation
  | [] => []
  | request :: rest =>
      let (after, reply) := desk.serve registry request
      ⟨request, reply, after.session.world.pools[id]?⟩ :: after.record rest

/-- Whether a request concerns a service: it acquires a connection of it, goes on with such a call
or gives it up, or is about a loan of the service.  Time passes for all services. -/
def concerns (desk : Desk) : Request → Bool
  | .pass _ => true
  | .acquire key other => other == service && !desk.isTaken key
  | .poll key | .cancel key => (desk.session.world.calls.get? key).any fun call => call.pool == id
  | .release key _ | .drop key =>
      (desk.session.world.loans.get? key).any fun loan => loan.pool == id

/-- What was seen of a pool in a run after the requests that concern its service. -/
def recordOwn (desk : Desk) : List Request → List Observation
  | [] => []
  | request :: rest =>
      let (after, reply) := desk.serve registry request
      let others := after.recordOwn rest
      if desk.concerns service id request then
        ⟨request, reply, after.session.world.pools[id]?⟩ :: others
      else others

end Desk

/-- A loan of a service that is released elsewhere is dropped. -/
def Request.redirect (service : String) : Request → Request
  | .release key other => if other = service then .release key other else .drop key
  | request => request

namespace Desk

/-- The requests of a run that concern a service, with the loans dropped that go elsewhere. -/
def ownRequests (registry : Registry) (service : String) (id : PoolId) (desk : Desk)
    (requests : List Request) : List Request :=
  (desk.recordOwn registry service id requests).map fun seen => seen.request.redirect service

variable {registry : Registry} {service : String} {id : PoolId} {desk : Desk} {key : Key}
  {s : Session} {name target : String} {call : Call} {wait : Wait}

/-! ## Sessions at a desk -/

theorem resume_of_call (hcall : desk.session.world.calls.get? key = some call) :
    desk.resume key id =
      ({ session := (desk.session.callWait call).1
         waits := desk.waits.insert key (desk.session.callWait call).2 }, none) := by
  simp only [resume, hcall]

/-- A call that has ended has the reply that a session gives. -/
theorem resume_of_ended (hcall : desk.session.world.calls.get? key = none) (name : String) :
    desk.resume key id = (desk, some (desk.session.endAcquire key id name).2) := by
  simp only [resume, hcall, Session.endAcquire, World.callResult]
  cases desk.session.world.loans.get? key <;> rfl

/-- A session hands back a loan as it is handed back at a desk. -/
theorem releaseLoan_eq_serve (hregistry : s.registries.get? target = some registry)
    (hname : s.loans.get? name = some key) {loan : Loan}
    (hloan : s.world.loans.get? key = some loan) :
    let served := ({ session := { s with loans := s.loans.erase name } } : Desk).serve registry
      (.release key service)
    (s.releaseLoan (.service target service) name).1 = served.1.session ∧
      served.2 = some (s.releaseLoan (.service target service) name).2 := by
  simp only [Session.releaseLoan, Session.resolve, hregistry, Session.takeLoan, hname,
    Option.map_some, serve, release, hloan, Session.serviceOf]
  cases registry.get? service <;> exact ⟨rfl, rfl⟩

/-- A session starts a call under a new key as it is started at a desk. -/
theorem beginAcquire_eq_serve (hservice : registry.get? service = some id)
    (hfree : ({ session := s } : Desk).isTaken s.nextKey = false) (limit : Option Nat) :
    let served := ({ session := s.freshKey.2 } : Desk).serve registry (.acquire s.nextKey service)
    s.beginAcquire id name limit =
      match served.1.waits.get? s.nextKey with
      | none =>
          let ended := served.1.session.endAcquire s.nextKey id name
          (ended.1, .done ended.2)
      | some wait =>
          served.1.session.pollAcquire
            { key := s.nextKey
              pool := id
              name := name
              wait := wait
              deadline := later served.1.session.now (limit.getD stallLimit)
              isLimited := limit.isSome } := by
  have hfree' : ({ session := s.freshKey.2 } : Desk).isTaken s.nextKey = false := hfree
  have hserve : ({ session := s.freshKey.2 } : Desk).serve registry (.acquire s.nextKey service) =
      (({ session := s.freshKey.2 } : Desk).act (.acquire s.nextKey id)).resume s.nextKey id := by
    simp only [serve, acquire, hfree', hservice, Bool.false_eq_true, if_false]
  rw [hserve]
  cases hcall : (s.freshKey.2.act (.acquire s.nextKey id)).world.calls.get? s.nextKey with
  | none =>
      rw [resume_of_ended hcall name]
      simp only [Session.beginAcquire, Session.freshKey] at hcall ⊢
      rw [hcall]
      rfl
  | some call =>
      rw [resume_of_call hcall]
      simp only [Session.beginAcquire, Session.freshKey, Table.get?_insert_self] at hcall ⊢
      rw [hcall]
      rfl

/-- A session goes on with a call by polling it at a desk. -/
theorem advance_eq_after (hcall : desk.session.world.calls.get? key = some call)
    (hwait : desk.waits.get? key = some wait) (bound : Nat) :
    ∃ count, let after := desk.after registry (List.replicate count (.poll key))
      (desk.session.advance key wait bound).1 = after.session ∧
        (desk.session.advance key wait bound).2 =
          if after.session.world.calls.contains key then after.waits.get? key else none := by
  induction bound generalizing desk call wait with
  | zero => exact ⟨0, rfl, by simp [after, Session.advance, Table.contains, hcall, hwait]⟩
  | succ bound ih =>
      cases hpoll : wait.poll desk.session.now with
      | none =>
          refine ⟨0, ?_⟩
          simp [after, Session.advance, hpoll, Table.contains, hcall, hwait]
      | some verdict =>
          let settled := desk.act (.settle key verdict)
          have hserve : desk.serve registry (.poll key) = settled.resume key call.pool := by
            simp only [serve, poll, hcall, hwait, hpoll, settled]
          simp only [Session.advance, hpoll]
          cases hnext : settled.session.world.calls.get? key with
          | none =>
              change settled.session.world.calls.get? key = none at hnext
              refine ⟨1, ?_⟩
              simp only [after, List.replicate_one, List.foldl_cons, List.foldl_nil, hserve]
              rw [resume_of_ended hnext "", show (desk.session.act (.settle key verdict)) =
                settled.session from rfl]
              simp [Table.contains, hnext]
          | some next =>
              -- the answer that has come is taken in, and the call waits for another one
              let waited : Desk :=
                { session := (settled.session.callWait next).1
                  waits := settled.waits.insert key (settled.session.callWait next).2 }
              have hresume : settled.resume key call.pool = (waited, none) := resume_of_call hnext
              have hworld := (Session.callWait_frame settled.session next).1
              obtain ⟨count, hadvance⟩ := @ih waited next _ (hworld ▸ hnext)
                (Table.get?_insert_self ..)
              rw [show (desk.session.act (.settle key verdict)) = settled.session from rfl, hnext]
              refine ⟨count + 1, ?_⟩
              simp only [after, List.replicate_succ, List.foldl_cons, hserve, hresume]
              exact hadvance

end Desk

end HeartbeatPool
