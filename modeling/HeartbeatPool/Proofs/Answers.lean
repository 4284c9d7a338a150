import HeartbeatPool.Proofs.Dials
import HeartbeatPool.Proofs.Occurrences
import HeartbeatPool.Proofs.Slots

/-!
# What a call makes of an answer

A call on a pool that somebody holds goes on in one of five ways when it is answered, and its start
leads to one of two things.  Here each of them is an equation for `World.step`, with the state that
its rule gives: the pool stays open, so no queue is closed on the side.

A step changes the queue, the free places and the counter of a pool, and nothing else about it
(`step_identity`).
-/

namespace HeartbeatPool

/-- The connections that are probed, in order. -/
def probesIn (events : List Event) : List Conn :=
  events.filterMap fun
    | .probe _ conn => some conn
    | .log _ | .dial _ | .close _ => none

theorem probesIn_append (first second : List Event) :
    probesIn (first ++ second) = probesIn first ++ probesIn second :=
  List.filterMap_append

section Events

variable (events : List Event) (notice : Notice) (label : String) (conn : Conn)
  (endpoint : Endpoint)

@[simp] theorem probesIn_nil : probesIn [] = [] := rfl

@[simp] theorem probesIn_log : probesIn (.log notice :: events) = probesIn events := rfl

@[simp] theorem probesIn_dial : probesIn (.dial endpoint :: events) = probesIn events := rfl

@[simp] theorem probesIn_close : probesIn (.close conn :: events) = probesIn events := rfl

@[simp] theorem probesIn_probe :
    probesIn (.probe label conn :: events) = conn :: probesIn events := rfl

@[simp] theorem dialsIn_nil : dialsIn [] = [] := rfl

@[simp] theorem dialsIn_log : dialsIn (.log notice :: events) = dialsIn events := rfl

@[simp] theorem dialsIn_dial :
    dialsIn (.dial endpoint :: events) = endpoint :: dialsIn events := rfl

@[simp] theorem dialsIn_close : dialsIn (.close conn :: events) = dialsIn events := rfl

@[simp] theorem dialsIn_probe : dialsIn (.probe label conn :: events) = dialsIn events := rfl

end Events

/-- What never changes about a pool. -/
def Pool.identity (pool : Pool) : String × String × List Endpoint × Settings :=
  (pool.name, pool.label, pool.endpoints, pool.settings)

section Identity

variable {pool pool' : Pool} (h : pool'.identity = pool.identity)
include h

theorem Pool.name_eq : pool'.name = pool.name := congrArg (·.1) h

theorem Pool.label_eq : pool'.label = pool.label := congrArg (·.2.1) h

theorem Pool.settings_eq : pool'.settings = pool.settings := congrArg (·.2.2.2) h

theorem Pool.endpoints_eq : pool'.endpoints = pool.endpoints := congrArg (·.2.2.1) h

theorem Pool.endpoint_eq (index : Nat) : pool'.endpoint index = pool.endpoint index := by
  rw [endpoint, endpoint, endpoints_eq h]

theorem Pool.capacity_eq : pool'.capacity = pool.capacity := by
  rw [capacity, capacity, settings_eq h, endpoints_eq h]

theorem Pool.address_eq (index : Nat) : pool'.address index = pool.address index := by
  rw [address, address, endpoint_eq h]

theorem Pool.limit_eq (phase : Phase) : pool'.limit phase = pool.limit phase := by
  unfold limit
  rw [settings_eq h]

end Identity

theorem Pool.takeIdle?_eq_none_iff {pool : Pool} : pool.takeIdle? = none ↔ pool.idle = [] := by
  unfold takeIdle?
  cases pool.idle <;> simp

theorem Pool.takeIdle?_of_cons {pool : Pool} {entry : Entry} {rest : List Entry}
    (hidle : pool.idle = entry :: rest) :
    pool.takeIdle? = some (entry, { pool with idle := rest, free := pool.free + 1 }) :=
  takeIdle?_eq_some_iff.mpr ⟨rest, hidle, rfl⟩

theorem Pool.identity_takeIdle {pool taken : Pool} {entry : Entry}
    (htake : pool.takeIdle? = some (entry, taken)) : taken.identity = pool.identity := by
  obtain ⟨rest, -, rfl⟩ := takeIdle?_eq_some_iff.mp htake
  rfl

namespace World

variable {w w' : World} {action : Action} {account : Account} {key : Key} {id : PoolId}
  {pool : Pool} {call : Call} {entry : Entry} {cause : String}

/-! ## Identities -/

theorem identity_set {other : PoolId} {old new : Pool} (hpool : w.pools[id]? = some pool)
    (hold : w.pools[other]? = some old) (hsame : new.identity = old.identity) :
    ∃ pool', (w.pools.set other new)[id]? = some pool' ∧ pool'.identity = pool.identity := by
  by_cases hid : other = id
  · subst hid
    cases hpool.symm.trans hold
    exact ⟨new, List.getElem?_set_self (List.getElem?_eq_some_iff.mp hpool).1, hsame⟩
  · exact ⟨pool, by rw [List.getElem?_set_ne hid, hpool], rfl⟩

theorem Effect.identity (h : Effect w action w' account) (hpool : w.pools[id]? = some pool) :
    ∃ pool', w'.pools[id]? = some pool' ∧ pool'.identity = pool.identity := by
  cases h with
  | finish =>
      have hlength := (List.getElem?_eq_some_iff.mp hpool).1
      exact ⟨pool, by rw [List.getElem?_append_left hlength, hpool], rfl⟩
  | start _ _ _ hold htake | retry _ hold _ _ htake =>
      exact identity_set hpool hold (Pool.identity_takeIdle htake)
  | dismiss _ hold | replace _ hold | cancelProbe _ hold | cancelFull _ hold | takeBack _ _ hold
  | takeFull _ _ hold | turnAway _ _ _ _ hold | refuse _ hold | drop _ hold =>
      exact identity_set hpool hold rfl
  | _ => exact ⟨pool, hpool, rfl⟩

/-- A pool stays, and stays what it is. -/
theorem step_identity (hw : w.Linked) (hpool : w.pools[id]? = some pool) (action : Action) :
    ∃ pool', (w.step action).1.pools[id]? = some pool' ∧ pool'.identity = pool.identity := by
  rcases step_cases hw action with
    ⟨hstep, -⟩ | ⟨w', account, heff, ⟨hstep, -⟩ | ⟨left, old, -, hold, -, hstep⟩⟩
  · rw [hstep]
    exact ⟨pool, hpool, rfl⟩
  · rw [hstep]
    exact heff.identity hpool
  · rw [hstep]
    obtain ⟨pool', hpool', hsame⟩ := heff.identity hpool
    have hemptied : old.closeIdle.1.identity = old.identity := rfl
    obtain ⟨closed, hclosed, hsame'⟩ := identity_set hpool' hold hemptied
    exact ⟨closed, hclosed, hsame'.trans hsame⟩

/-! ## The start of a call -/

section Start

variable (hcall : w.calls.get? key = none) (hloan : w.loans.get? key = none)
  (hheld : id ∈ w.held) (hpool : w.pools[id]? = some pool)
include hcall hloan hheld hpool

/-- A call may make as many attempts as there are idle connections, and one if there are none. -/
theorem acquire_eq_attempt : ∃ attemptsLeft, max pool.idleConnections 1 = attemptsLeft + 1 ∧
    w.step (.acquire key id) = w.attempt key id pool (attemptsLeft + 1) := by
  obtain ⟨attemptsLeft, hleft⟩ : ∃ attemptsLeft, max pool.idleConnections 1 = attemptsLeft + 1 :=
    ⟨_, (Nat.sub_add_cancel (Nat.le_max_right ..)).symm⟩
  refine ⟨attemptsLeft, hleft, ?_⟩
  simp [World.step, World.acquire, Table.contains, hcall, hloan, hheld, hpool, hleft]

/-- A call probes the connection that has been idle longest. -/
theorem acquire_of_cons {rest : List Entry} (hidle : pool.idle = entry :: rest) :
    w.step (.acquire key id) =
      (w.withProbe key id { pool with idle := rest, free := pool.free + 1 }
        (max pool.idleConnections 1 - 1) entry, [.probe pool.label entry.conn]) := by
  obtain ⟨attemptsLeft, hleft, hstep⟩ := acquire_eq_attempt hcall hloan hheld hpool
  rw [hstep, hleft, attempt, Pool.takeIdle?_of_cons hidle]
  rfl

/-- A call that finds nothing ends at once. -/
theorem acquire_of_nil (hidle : pool.idle = []) :
    w.step (.acquire key id) = (w, [.log (.exhausted pool.name)]) := by
  obtain ⟨attemptsLeft, -, hstep⟩ := acquire_eq_attempt hcall hloan hheld hpool
  rw [hstep, attempt, Pool.takeIdle?_eq_none_iff.mpr hidle]
  simp only [attempt.exhausted, Change.andThen, reap_of_held hheld, List.append_nil]

end Start

/-! ## The answers to a call -/

/-- The state in which a call dials anew for a connection that it has closed. -/
def withRedial (w : World) (key : Key) (call : Call) (pool : Pool) (entry : Entry) : World :=
  { w.setPool call.pool pool.untrack with
    dialed := (pool.endpoint entry.index).address :: w.dialed
    calls := w.calls.insert key
      { call with
        phase := .redialing ⟨w.nextConn (pool.endpoint entry.index), entry.index⟩ } }

/-- The state after a call was lent the connection that replaces what it has closed. -/
def withReplacement (w : World) (key : Key) (call : Call) (pool : Pool) (entry : Entry) : World :=
  (w.setPool call.pool pool.track).withLoan key ⟨call.pool, entry⟩

section Answers

variable (hcall : w.calls.get? key = some call) (hpool : w.pools[call.pool]? = some pool)
include hcall hpool

/-- A connection that fails its heartbeat is closed, and its endpoint is dialed. -/
theorem settle_of_sick (hphase : call.phase = .probing entry) (cause : String) :
    w.step (.settle key (.failure cause)) =
      (w.withRedial key call pool entry,
        [.log (.heartbeatFailed (pool.address entry.index) cause), .close entry.conn,
          .dial (pool.endpoint entry.index)]) := by
  simp only [World.step, World.settle, hcall, hpool, hphase]
  rfl

/-- After a failed dial a call with attempts left probes what has now been idle longest. -/
theorem settle_of_refused_cons (hphase : call.phase = .redialing entry) {attemptsLeft : Nat}
    (hleft : call.attemptsLeft = attemptsLeft + 1) {next : Entry} {rest : List Entry}
    (hidle : pool.idle = next :: rest) (cause : String) :
    w.step (.settle key (.failure cause)) =
      ({ w with calls := w.calls.erase key }.withProbe key call.pool
          { pool with idle := rest, free := pool.free + 1 } attemptsLeft next,
        [.log (.redialFailed (pool.address entry.index) cause pool.name),
          .probe pool.label next.conn]) := by
  simp only [World.step, World.settle, hcall, hpool, hphase, hleft, World.attempt,
    Pool.takeIdle?_of_cons hidle]
  rfl

variable (hheld : call.pool ∈ w.held)
include hheld

/-- A connection that passes its heartbeat is lent. -/
theorem settle_of_sound (hphase : call.phase = .probing entry) :
    w.step (.settle key .success) = (w.withLoan key ⟨call.pool, entry⟩, []) := by
  simp only [World.step, World.settle, hcall, hpool, hphase]
  exact reap_of_held hheld

/-- A connection that replaces a closed one is lent. -/
theorem settle_of_dialed (hphase : call.phase = .redialing entry) :
    w.step (.settle key .success) =
      (w.withReplacement key call pool entry,
        [.log (.established (pool.address entry.index)),
          .log (.reestablished (pool.address entry.index))]) := by
  have hreap : ((w.setPool call.pool pool.track).withLoan key ⟨call.pool, entry⟩).reap call.pool =
      ((w.setPool call.pool pool.track).withLoan key ⟨call.pool, entry⟩, []) := reap_of_held hheld
  simp only [World.step, World.settle, hcall, hpool, hphase, Change.andThen, lend]
  unfold withLoan at hreap
  rw [hreap]
  rfl

/-- After a failed dial a call that has no attempts left, or finds nothing, ends. -/
theorem settle_of_refused_last (hphase : call.phase = .redialing entry)
    (hlast : call.attemptsLeft = 0 ∨ pool.idle = []) (cause : String) :
    w.step (.settle key (.failure cause)) =
      ({ w with calls := w.calls.erase key },
        [.log (.redialFailed (pool.address entry.index) cause pool.name),
          .log (.exhausted pool.name)]) := by
  have hreap : { w with calls := w.calls.erase key }.reap call.pool =
      ({ w with calls := w.calls.erase key }, []) := reap_of_held hheld
  have hattempt : { w with calls := w.calls.erase key }.attempt key call.pool pool
      call.attemptsLeft =
        ({ w with calls := w.calls.erase key }, [.log (.exhausted pool.name)]) := by
    cases hleft : call.attemptsLeft with
    | zero => simp only [World.attempt, attempt.exhausted, Change.andThen, hreap, List.append_nil]
    | succ attemptsLeft =>
        have hidle : pool.idle = [] := by simpa [hleft] using hlast
        simp only [World.attempt, Pool.takeIdle?_eq_none_iff.mpr hidle, attempt.exhausted,
          Change.andThen, hreap, List.append_nil]
  simp only [World.step, World.settle, hcall, hpool, hphase, Change.andThen, hattempt]
  rfl

/-- A call that is given up closes nothing and leaves no call behind. -/
theorem cancel_of_held (hw : w.Orderly) : ∃ w' events, w.step (.cancel key) = (w', events) ∧
    w'.calls = w.calls.erase key ∧ w'.loans = w.loans ∧ probesIn events = [] ∧
      dialsIn events = [] := by
  cases hphase : call.phase with
  | probing entry =>
      let parked : World :=
        { w.setPool call.pool (pool.parked entry) with calls := w.calls.erase key }
      have hreap : parked.reap call.pool = (parked, []) := reap_of_held hheld
      refine ⟨parked, [.log (.acquireCancelled pool.name (pool.address entry.index))],
        (step_cancel hw hcall hpool hphase).trans ?_, rfl, rfl, rfl, rfl⟩
      change Change.andThen (parked, _) (fun w => w.reap call.pool) = _
      simp only [Change.andThen, hreap, List.append_nil]
  | redialing entry =>
      refine ⟨{ w with calls := w.calls.erase key }, [], ?_, rfl, rfl, rfl, rfl⟩
      simp only [World.step, World.cancel, hcall, hpool, hphase]
      exact reap_of_held hheld

end Answers

end World

end HeartbeatPool
