import HeartbeatPool.Proofs.Holdings
import HeartbeatPool.Proofs.Stock

/-!
# What one action can do

`World.step` is a function; here it is told as a relation.  `Effect w action w' account` says that
the action makes sense in `w` and leads to `w'`; the account tells what was seen, which holdings
come to an end and which begin, and which pool is then closed if nobody is there any more who could
use it.  There is one rule for each thing that can happen, so that an invariant is proved by going
through the rules once.

`Linked` says that every pool that is spoken of exists; every rule keeps it.
-/

namespace HeartbeatPool.World

/-! ## The rules -/

/-- The state after a loan has been given up: its connection is closed, and the pool that lent it
counts one less. -/
def withoutLoan (w : World) (key : Key) (loan : Loan) (pool : Pool) : World :=
  { w.setPool loan.pool pool.untrack with loans := w.loans.erase key }

/-- The state after a call has ended with a connection. -/
def withLoan (w : World) (key : Key) (loan : Loan) : World :=
  { w with calls := w.calls.erase key, loans := w.loans.insert key loan }

/-- The state after a call has taken an idle connection to probe it. -/
def withProbe (w : World) (key : Key) (id : PoolId) (taken : Pool) (attemptsLeft : Nat)
    (entry : Entry) : World :=
  { w.setPool id taken with calls := w.calls.insert key ⟨id, attemptsLeft, .probing entry⟩ }

/-- The connection that the dial of an endpoint would deliver. -/
def nextConn (w : World) (endpoint : Endpoint) : Conn :=
  ⟨endpoint.address, w.dialed.count endpoint.address⟩

/-- What there is to tell of an action besides the state it leads to. -/
structure Account where
  events : List Event := []
  /-- The holdings that come to an end. -/
  gone : List Holding := []
  /-- The holdings that begin. -/
  come : List Holding := []
  /-- The pool that may be left alone. -/
  left : Option PoolId := none

/-- What an action does that makes sense, up to the closing of a pool that is left alone. -/
inductive Effect (w : World) : Action → World → Account → Prop where
  | create {key label name endpoints settings capacity} (hkey : w.creations.get? key = none)
      (hok : checkParameters endpoints settings = .ok capacity) :
      Effect w (.create key label name endpoints settings)
        { w with
          creations := w.creations.insert key
            { pool := { name := name, label := label, endpoints := endpoints, settings } } }
        {}
  | dialSlot {key creation} (hcreation : w.creations.get? key = some creation)
      (hroom : creation.slots.length < creation.pool.capacity) :
      Effect w (.dialSlot key)
        { w with
          dialed := creation.nextEndpoint.address :: w.dialed
          creations := w.creations.insert key (creation.push (w.nextConn creation.nextEndpoint)) }
        { events := [.dial creation.nextEndpoint]
          come := [⟨.dialing key, w.nextConn creation.nextEndpoint,
            creation.endpointOf creation.slots.length⟩] }
  | establish {key slot creation conn} (hcreation : w.creations.get? key = some creation)
      (hslot : creation.slots[slot]? = some (.dialing conn)) :
      Effect w (.settleSlot key slot .success)
        { w with creations := w.creations.insert key (creation.establish slot conn) }
        { events := [.log (.established (creation.pool.address (creation.endpointOf slot)))]
          gone := [⟨.dialing key, conn, creation.endpointOf slot⟩]
          come := [⟨.result key, conn, creation.endpointOf slot⟩] }
  | failSlot {key slot creation conn cause} (hcreation : w.creations.get? key = some creation)
      (hslot : creation.slots[slot]? = some (.dialing conn)) :
      Effect w (.settleSlot key slot (.failure cause))
        { w with creations := w.creations.insert key (creation.fail slot cause) }
        { gone := [⟨.dialing key, conn, creation.endpointOf slot⟩] }
  | finishEmpty {key creation error} (hcreation : w.creations.get? key = some creation)
      (hsettled : creation.isSettled) (houtcome : creation.outcome = .error error) :
      Effect w (.finish key) { w with creations := w.creations.erase key }
        { events := creation.report, gone := creation.holdings key }
  | finish {key creation pool} (hcreation : w.creations.get? key = some creation)
      (hsettled : creation.isSettled) (houtcome : creation.outcome = .ok pool) :
      Effect w (.finish key)
        { w with
          creations := w.creations.erase key
          pools := w.pools ++ [pool]
          held := w.held ++ [w.pools.length] }
        { events := creation.report
          gone := creation.holdings key
          come := pool.holdings w.pools.length }
  | abandon {key creation} (hcreation : w.creations.get? key = some creation) :
      Effect w (.abandon key) { w with creations := w.creations.erase key }
        { events := creation.closing.map .close, gone := creation.holdings key }
  | start {key id pool entry taken} (hkey : w.calls.get? key = none)
      (hloan : w.loans.get? key = none) (hheld : id ∈ w.held) (hpool : w.pools[id]? = some pool)
      (htake : pool.takeIdle? = some (entry, taken)) :
      Effect w (.acquire key id)
        (w.withProbe key id taken (max pool.idleConnections 1 - 1) entry)
        { events := [.probe pool.label entry.conn]
          gone := [⟨.idle id, entry⟩]
          come := [⟨.checkout key id, entry⟩] }
  | startEmpty {key id pool} (hkey : w.calls.get? key = none) (hloan : w.loans.get? key = none)
      (hheld : id ∈ w.held) (hpool : w.pools[id]? = some pool) (htake : pool.takeIdle? = none) :
      Effect w (.acquire key id) w { events := [.log (.exhausted pool.name)], left := some id }
  | pass {key call pool entry} (hcall : w.calls.get? key = some call)
      (hpool : w.pools[call.pool]? = some pool) (hphase : call.phase = .probing entry) :
      Effect w (.settle key .success) (w.withLoan key ⟨call.pool, entry⟩)
        { gone := [⟨.checkout key call.pool, entry⟩]
          come := [⟨.loan key call.pool, entry⟩]
          left := some call.pool }
  | dismiss {key call pool entry cause} (hcall : w.calls.get? key = some call)
      (hpool : w.pools[call.pool]? = some pool) (hphase : call.phase = .probing entry) :
      Effect w (.settle key (.failure cause))
        { w.setPool call.pool pool.untrack with
          dialed := (pool.endpoint entry.index).address :: w.dialed
          calls := w.calls.insert key
            { call with
              phase := .redialing ⟨w.nextConn (pool.endpoint entry.index), entry.index⟩ } }
        { events :=
            [.log (.heartbeatFailed (pool.address entry.index) cause), .close entry.conn,
              .dial (pool.endpoint entry.index)]
          gone := [⟨.checkout key call.pool, entry⟩]
          come := [⟨.redialing key call.pool, w.nextConn (pool.endpoint entry.index),
            entry.index⟩] }
  | replace {key call pool entry} (hcall : w.calls.get? key = some call)
      (hpool : w.pools[call.pool]? = some pool) (hphase : call.phase = .redialing entry) :
      Effect w (.settle key .success)
        ((w.setPool call.pool pool.track).withLoan key ⟨call.pool, entry⟩)
        { events :=
            [.log (.established (pool.address entry.index)),
              .log (.reestablished (pool.address entry.index))]
          gone := [⟨.redialing key call.pool, entry⟩]
          come := [⟨.loan key call.pool, entry⟩]
          left := some call.pool }
  | retry {key call pool entry cause attemptsLeft next taken}
      (hcall : w.calls.get? key = some call) (hpool : w.pools[call.pool]? = some pool)
      (hphase : call.phase = .redialing entry) (hleft : call.attemptsLeft = attemptsLeft + 1)
      (htake : pool.takeIdle? = some (next, taken)) :
      Effect w (.settle key (.failure cause))
        ({ w with calls := w.calls.erase key }.withProbe key call.pool taken attemptsLeft next)
        { events :=
            [.log (.redialFailed (pool.address entry.index) cause pool.name),
              .probe pool.label next.conn]
          gone := [⟨.redialing key call.pool, entry⟩, ⟨.idle call.pool, next⟩]
          come := [⟨.checkout key call.pool, next⟩] }
  | giveUp {key call pool entry cause} (hcall : w.calls.get? key = some call)
      (hpool : w.pools[call.pool]? = some pool) (hphase : call.phase = .redialing entry)
      (hlast : call.attemptsLeft = 0 ∨ pool.takeIdle? = none) :
      Effect w (.settle key (.failure cause)) { w with calls := w.calls.erase key }
        { events :=
            [.log (.redialFailed (pool.address entry.index) cause pool.name),
              .log (.exhausted pool.name)]
          gone := [⟨.redialing key call.pool, entry⟩]
          left := some call.pool }
  | cancelProbe {key call pool entry} (hcall : w.calls.get? key = some call)
      (hpool : w.pools[call.pool]? = some pool) (hphase : call.phase = .probing entry)
      (hfree : 0 < pool.free) :
      Effect w (.cancel key)
        { w.setPool call.pool (pool.parked entry) with calls := w.calls.erase key }
        { events := [.log (.acquireCancelled pool.name (pool.address entry.index))]
          gone := [⟨.checkout key call.pool, entry⟩]
          come := [⟨.idle call.pool, entry⟩]
          left := some call.pool }
  | cancelFull {key call pool entry} (hcall : w.calls.get? key = some call)
      (hpool : w.pools[call.pool]? = some pool) (hphase : call.phase = .probing entry)
      (hfull : pool.free = 0) :
      Effect w (.cancel key)
        { w.setPool call.pool pool.untrack with calls := w.calls.erase key }
        { events :=
            [.log (.acquireCancelled pool.name (pool.address entry.index)),
              .log (.queueFull pool.name (pool.address entry.index)), .close entry.conn]
          gone := [⟨.checkout key call.pool, entry⟩]
          left := some call.pool }
  | cancelRedial {key call pool entry} (hcall : w.calls.get? key = some call)
      (hpool : w.pools[call.pool]? = some pool) (hphase : call.phase = .redialing entry) :
      Effect w (.cancel key) { w with calls := w.calls.erase key }
        { gone := [⟨.redialing key call.pool, entry⟩], left := some call.pool }
  | takeBack {key loan pool} (hloan : w.loans.get? key = some loan) (hheld : loan.pool ∈ w.held)
      (hpool : w.pools[loan.pool]? = some pool) (hfree : 0 < pool.free) :
      Effect w (.release key loan.pool)
        { w.setPool loan.pool (pool.parked loan.entry) with loans := w.loans.erase key }
        { gone := [⟨.loan key loan.pool, loan.entry⟩]
          come := [⟨.idle loan.pool, loan.entry⟩] }
  | takeFull {key loan pool} (hloan : w.loans.get? key = some loan) (hheld : loan.pool ∈ w.held)
      (hpool : w.pools[loan.pool]? = some pool) (hfull : pool.free = 0) :
      Effect w (.release key loan.pool) (w.withoutLoan key loan pool)
        { events :=
            [.log (.queueFull pool.name (pool.address loan.entry.index)), .close loan.entry.conn]
          gone := [⟨.loan key loan.pool, loan.entry⟩] }
  | turnAway {key id loan other pool} (hloan : w.loans.get? key = some loan) (hheld : id ∈ w.held)
      (hne : loan.pool ≠ id) (hother : w.pools[id]? = some other)
      (hpool : w.pools[loan.pool]? = some pool) :
      Effect w (.release key id) (w.withoutLoan key loan pool)
        { events := [.log (.foreignRelease other.name), .close loan.entry.conn]
          gone := [⟨.loan key loan.pool, loan.entry⟩] }
  | refuse {key service loan pool} (hloan : w.loans.get? key = some loan)
      (hpool : w.pools[loan.pool]? = some pool) :
      Effect w (.refuse key service) (w.withoutLoan key loan pool)
        { events := [.log (.unknownService service), .close loan.entry.conn]
          gone := [⟨.loan key loan.pool, loan.entry⟩] }
  | reportUnknown {service} :
      Effect w (.reportUnknown service) w { events := [.log (.unknownService service)] }
  | drop {key loan pool} (hloan : w.loans.get? key = some loan)
      (hpool : w.pools[loan.pool]? = some pool) :
      Effect w (.drop key) (w.withoutLoan key loan pool)
        { events := [.close loan.entry.conn]
          gone := [⟨.loan key loan.pool, loan.entry⟩] }
  | swap {first second a b} (hfirst : w.loans.get? first = some a)
      (hsecond : w.loans.get? second = some b) (hne : first ≠ second) :
      Effect w (.swap first second)
        { w with
          loans := (w.loans.insert first ⟨a.pool, b.entry.conn, a.entry.index⟩).insert second
            ⟨b.pool, a.entry.conn, b.entry.index⟩ }
        { gone := [⟨.loan first a.pool, a.entry⟩, ⟨.loan second b.pool, b.entry⟩]
          come :=
            [⟨.loan first a.pool, b.entry.conn, a.entry.index⟩,
              ⟨.loan second b.pool, a.entry.conn, b.entry.index⟩] }
  | letGo {id} :
      Effect w (.letGo id) { w with held := w.held.erase id } { left := some id }

/-! ## References -/

/-- Every pool that is spoken of exists, and no key names both a call and a loan. -/
structure Linked (w : World) : Prop where
  call_pool : ∀ {key call}, w.calls.get? key = some call → call.pool < w.pools.length
  loan_pool : ∀ {key loan}, w.loans.get? key = some loan → loan.pool < w.pools.length
  held_pool : ∀ {id}, id ∈ w.held → id < w.pools.length
  not_lent : ∀ {key call}, w.calls.get? key = some call → w.loans.get? key = none

theorem Linked.poolOfCall {w : World} (hw : w.Linked) {key : Key} {call : Call}
    (h : w.calls.get? key = some call) : ∃ pool, w.pools[call.pool]? = some pool :=
  ⟨_, List.getElem?_eq_getElem (hw.call_pool h)⟩

theorem Linked.poolOfLoan {w : World} (hw : w.Linked) {key : Key} {loan : Loan}
    (h : w.loans.get? key = some loan) : ∃ pool, w.pools[loan.pool]? = some pool :=
  ⟨_, List.getElem?_eq_getElem (hw.loan_pool h)⟩

theorem Linked.poolOfHeld {w : World} (hw : w.Linked) {id : PoolId} (h : id ∈ w.held) :
    ∃ pool, w.pools[id]? = some pool :=
  ⟨_, List.getElem?_eq_getElem (hw.held_pool h)⟩

theorem Linked.initial : Linked {} := by
  constructor <;> simp [Table.get?, Table.find, EmptyCollection.emptyCollection, Table.empty]

/-- Linked states stay linked as long as no pool vanishes and nothing new is spoken of. -/
theorem Linked.congr {w w' : World} (hw : w.Linked) (hcalls : w'.calls = w.calls)
    (hloans : w'.loans = w.loans) (hheld : ∀ id ∈ w'.held, id ∈ w.held)
    (hpools : w.pools.length ≤ w'.pools.length) : w'.Linked where
  call_pool h := Nat.lt_of_lt_of_le (hw.call_pool (hcalls ▸ h)) hpools
  loan_pool h := Nat.lt_of_lt_of_le (hw.loan_pool (hloans ▸ h)) hpools
  held_pool h := Nat.lt_of_lt_of_le (hw.held_pool (hheld _ h)) hpools
  not_lent h := hloans ▸ hw.not_lent (hcalls ▸ h)

theorem Linked.setPool {w : World} (hw : w.Linked) (id : PoolId) (pool : Pool) :
    (w.setPool id pool).Linked :=
  hw.congr rfl rfl (fun _ h => h) (by simp [World.setPool])

theorem Linked.eraseCall {w : World} (hw : w.Linked) (key : Key) :
    Linked { w with calls := w.calls.erase key } where
  call_pool h := hw.call_pool (Table.get?_of_erase h)
  loan_pool := hw.loan_pool
  held_pool := hw.held_pool
  not_lent h := hw.not_lent (Table.get?_of_erase h)

theorem Linked.eraseLoan {w : World} (hw : w.Linked) (key : Key) :
    Linked { w with loans := w.loans.erase key } where
  call_pool := hw.call_pool
  loan_pool h := hw.loan_pool (Table.get?_of_erase h)
  held_pool := hw.held_pool
  not_lent h := by
    rw [Table.get?_erase]
    split
    · rfl
    · exact hw.not_lent h

theorem Linked.insertCall {w : World} (hw : w.Linked) {key : Key} {call : Call}
    (hpool : call.pool < w.pools.length) (hloan : w.loans.get? key = none) :
    Linked { w with calls := w.calls.insert key call } where
  call_pool :=
    Table.insert_induction (P := fun _ (call : Call) => call.pool < w.pools.length) hpool
      hw.call_pool
  loan_pool := hw.loan_pool
  held_pool := hw.held_pool
  not_lent := Table.insert_induction (P := fun other _ => w.loans.get? other = none) hloan
    hw.not_lent

theorem Linked.insertLoan {w : World} (hw : w.Linked) {key : Key} (loan : Loan)
    (hpool : loan.pool < w.pools.length) (hcall : w.calls.get? key = none) :
    Linked { w with loans := w.loans.insert key loan } where
  call_pool := hw.call_pool
  loan_pool :=
    Table.insert_induction (P := fun _ (loan : Loan) => loan.pool < w.pools.length) hpool
      hw.loan_pool
  held_pool := hw.held_pool
  not_lent {other _} h := by
    by_cases hkey : key = other
    · rw [← hkey, hcall] at h
      cases h
    · rw [Table.get?_insert, if_neg hkey]
      exact hw.not_lent h

theorem Linked.not_called {w : World} (hw : w.Linked) {key : Key} {loan : Loan}
    (h : w.loans.get? key = some loan) : w.calls.get? key = none := by
  cases hcall : w.calls.get? key with
  | none => rfl
  | some call =>
      rw [hw.not_lent hcall] at h
      cases h

theorem Linked.withLoan {w : World} (hw : w.Linked) {key : Key} {call : Call} {entry : Entry}
    (hcall : w.calls.get? key = some call) : (w.withLoan key ⟨call.pool, entry⟩).Linked :=
  (hw.eraseCall key).insertLoan _ (hw.call_pool hcall) (w.calls.get?_erase_self key)

theorem Linked.withoutLoan {w : World} (hw : w.Linked) (key : Key) (loan : Loan) (pool : Pool) :
    (w.withoutLoan key loan pool).Linked :=
  (hw.setPool loan.pool pool.untrack).eraseLoan key

theorem Linked.effect {w w' : World} {action : Action} {account : Account} (hw : w.Linked)
    (h : Effect w action w' account) : w'.Linked := by
  cases h with
  | create | dialSlot | establish | failSlot | finishEmpty | abandon =>
      exact hw.congr rfl rfl (fun _ h => h) (Nat.le_refl _)
  | startEmpty | reportUnknown => exact hw
  | finish =>
      refine ⟨fun h => ?_, fun h => ?_, fun h => ?_, hw.not_lent⟩
      · simpa using Nat.lt_succ_of_lt (hw.call_pool h)
      · simpa using Nat.lt_succ_of_lt (hw.loan_pool h)
      · rcases List.mem_append.mp h with h | h
        · simpa using Nat.lt_succ_of_lt (hw.held_pool h)
        · simp_all
  | start hkey hloan hheld =>
      exact (hw.setPool ..).insertCall (by simpa [World.setPool] using hw.held_pool hheld) hloan
  | pass hcall => exact hw.withLoan hcall
  | dismiss hcall hpool =>
      exact ((hw.setPool ..).insertCall (by simpa [World.setPool] using hw.call_pool hcall)
        (hw.not_lent hcall)).congr rfl rfl (fun _ h => h) (Nat.le_refl _)
  | replace hcall => exact (hw.setPool ..).withLoan hcall
  | retry hcall =>
      exact ((hw.eraseCall _).setPool ..).insertCall
        (by simpa [World.setPool] using hw.call_pool hcall) (hw.not_lent hcall)
  | giveUp | cancelRedial => exact hw.eraseCall _
  | cancelProbe | cancelFull => exact (hw.setPool ..).eraseCall _
  | takeBack => exact (hw.setPool ..).eraseLoan _
  | takeFull | turnAway | refuse | drop => exact hw.withoutLoan ..
  | @swap _ _ a b hfirst hsecond =>
      have ha : a.pool < w.pools.length := hw.loan_pool hfirst
      have hb : b.pool < w.pools.length := hw.loan_pool hsecond
      exact (hw.insertLoan ⟨a.pool, b.entry.conn, a.entry.index⟩ ha
        (hw.not_called hfirst)).insertLoan ⟨b.pool, a.entry.conn, b.entry.index⟩ hb
        (hw.not_called hsecond)
  | letGo => exact hw.congr rfl rfl (fun _ h => List.mem_of_mem_erase h) (Nat.le_refl _)

end HeartbeatPool.World
