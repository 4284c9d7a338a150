import HeartbeatPool.Proofs.Counter
import HeartbeatPool.Proofs.History
import HeartbeatPool.Proofs.Slots
import HeartbeatPool.Session.Run

/-!
# A pool accepts exactly its own loans

Whose a loan is was decided when it was handed out (`HandedOut`), and neither an exchange of
connections nor the end of a pool changes it.  A pool that gets one of its own loans back puts the
connection at the end of its queue and counts as before.  Any other destination, a pool that has
not lent the connection or a service without a pool, closes it, and the only number that changes is
the count of the lender.
-/

namespace HeartbeatPool

namespace World

variable {w : World} {key : Key} {id : PoolId} {loan : Loan} {pool other : Pool}

/-! ## One step -/

theorem step_turnAway (hloan : w.loans.get? key = some loan) (hheld : id ∈ w.held)
    (hne : loan.pool ≠ id) (hother : w.pools[id]? = some other)
    (hpool : w.pools[loan.pool]? = some pool) :
    w.step (.release key id) =
      (w.withoutLoan key loan pool,
        [.log (.foreignRelease other.name), .close loan.entry.conn]) := by
  have hcontains : w.held.contains id = true := List.contains_iff_mem.mpr hheld
  simp only [World.step, release, hcontains, hloan, hother, hne, if_false, Change.andThen,
    drop_eq hloan hpool]
  rfl

theorem step_refuse (hloan : w.loans.get? key = some loan)
    (hpool : w.pools[loan.pool]? = some pool) (service : String) :
    w.step (.refuse key service) =
      (w.withoutLoan key loan pool, [.log (.unknownService service), .close loan.entry.conn]) := by
  simp only [World.step, refuse, hloan, Change.andThen, reportUnknown, drop_eq hloan hpool]
  rfl

/-- Giving up a loan leaves all queues as they are, and only its lender counts one less. -/
theorem Orderly.pools_withoutLoan (hw : w.Orderly) (hloan : w.loans.get? key = some loan)
    (hpool : w.pools[loan.pool]? = some pool) {id : PoolId} {before : Pool}
    (hbefore : w.pools[id]? = some before) :
    ∃ after, (w.withoutLoan key loan pool).pools[id]? = some after ∧
      after.idle = before.idle ∧ after.live + (if id = loan.pool then 1 else 0) = before.live := by
  by_cases hid : id = loan.pool
  · subst hid
    have hlength := (List.getElem?_eq_some_iff.mp hpool).1
    rw [hpool, Option.some.injEq] at hbefore
    subst hbefore
    refine ⟨pool.untrack, List.getElem?_set_self hlength, rfl, ?_⟩
    have hlent : 0 < w.lent loan.pool := lent_pos hloan
    have hlive := (hw.pool hpool).live_eq hpool
    rw [if_pos rfl]
    exact Pool.live_untrack (by omega)
  · refine ⟨before, ?_, rfl, by rw [if_neg hid, Nat.add_zero]⟩
    show (w.pools.set loan.pool pool.untrack)[id]? = some before
    rw [List.getElem?_set_ne fun h => hid h.symm, hbefore]

/-- A loan that is taken back stands at the end of the queue of its pool, and nothing is counted
anew. -/
theorem pools_takeBack (hpool : w.pools[id]? = some pool) (entry : Entry) {other : PoolId}
    {before : Pool} (hbefore : w.pools[other]? = some before) :
    ∃ after, (w.setPool id (pool.parked entry)).pools[other]? = some after ∧
      after.idle = before.idle ++ (if other = id then [entry] else []) ∧
      after.live = before.live := by
  by_cases hid : other = id
  · subst hid
    have hlength := (List.getElem?_eq_some_iff.mp hpool).1
    rw [hpool, Option.some.injEq] at hbefore
    subst hbefore
    exact ⟨pool.parked entry, List.getElem?_set_self hlength, by rw [if_pos rfl]; rfl, rfl⟩
  · refine ⟨before, ?_, by rw [if_neg hid, List.append_nil], rfl⟩
    show (w.pools.set id (pool.parked entry))[other]? = some before
    rw [List.getElem?_set_ne fun h => hid h.symm, hbefore]

theorem step_swap {first second : Key} {a b : Loan} (hfirst : w.loans.get? first = some a)
    (hsecond : w.loans.get? second = some b) (hne : first ≠ second) :
    (w.step (.swap first second)).1.loans =
      (w.loans.insert first ⟨a.pool, b.entry.conn, a.entry.index⟩).insert second
        ⟨b.pool, a.entry.conn, b.entry.index⟩ := by
  simp only [World.step, swap, hfirst, hsecond, if_neg hne]

/-- Exchanging the connections of two loans leaves each loan there. -/
theorem exists_loan_of_swap (first second : Key) (hloan : w.loans.get? key = some loan) :
    ∃ loan', (w.step (.swap first second)).1.loans.get? key = some loan' := by
  simp only [World.step, swap]
  split
  · split
    · exact ⟨loan, hloan⟩
    · simp only [Table.get?_insert]
      split
      · exact ⟨_, rfl⟩
      · split
        · exact ⟨_, rfl⟩
        · exact ⟨loan, hloan⟩
  · exact ⟨loan, hloan⟩

/-- Exchanging connections changes nothing about whose the loans are. -/
theorem handedOut_swap_iff {actions : List Action} (first second : Key)
    (hloan : (run {} actions).1.loans.get? key = some loan) :
    HandedOut key id (actions ++ [.swap first second]) ↔ HandedOut key id actions := by
  obtain ⟨loan', hloan'⟩ := exists_loan_of_swap first second hloan
  have hpool : loan'.pool = loan.pool := by
    rcases step_loan_cases (Orderly.initial.run actions).linked hloan' with
      ⟨old, hold, hpool⟩ | ⟨hnone, -⟩
    · rw [hloan, Option.some.injEq] at hold
      rw [hpool, hold]
    · rw [hloan] at hnone
      cases hnone
  rw [← run_snoc_fst] at hloan'
  rw [handedOut_iff hloan, handedOut_iff hloan', hpool]

theorem releaseError?_of_own (hloan : w.loans.get? key = some loan) :
    w.releaseError? key loan.pool = none := by
  simp [releaseError?, hloan]

theorem releaseError?_of_foreign (hloan : w.loans.get? key = some loan) (hne : loan.pool ≠ id)
    (hpool : w.pools[id]? = some pool) :
    w.releaseError? key id = some (.releaseMismatch pool.name) := by
  simp [releaseError?, hloan, hne, hpool]

end World

/-! ## Every run -/

namespace Session

open World

variable {session : Session} {target : Target} {name : String} {key : Key}

/-- A service without a pool: the connection is closed, and its lender counts one less. -/
theorem releaseLoan_of_unknown {loan : Loan} {lender : Pool}
    (hresolve : session.resolve target = .ok none) (hname : session.loans.get? name = some key)
    (hloan : session.world.loans.get? key = some loan)
    (hlender : session.world.pools[loan.pool]? = some lender) :
    session.releaseLoan target name =
      ({ session with
          loans := session.loans.erase name
          world := session.world.withoutLoan key loan lender
          seen := session.seen ++
            [.log (.unknownService (serviceOf target)), .close loan.entry.conn] },
        .failed (.unknownService (serviceOf target))) := by
  simp only [releaseLoan, hresolve, takeLoan, hname, Option.map_some, act,
    step_refuse hloan hlender]

/-- The pool that has lent the connection takes it back. -/
theorem releaseLoan_of_own {loan : Loan} {pool : Pool} (hw : session.world.Orderly)
    (hresolve : session.resolve target = .ok (some loan.pool))
    (hheld : loan.pool ∈ session.world.held) (hname : session.loans.get? name = some key)
    (hloan : session.world.loans.get? key = some loan)
    (hpool : session.world.pools[loan.pool]? = some pool) :
    session.releaseLoan target name =
      ({ session with
          loans := session.loans.erase name
          world :=
            { session.world.setPool loan.pool (pool.parked loan.entry) with
              loans := session.world.loans.erase key } }, .ok) := by
  simp only [releaseLoan, hresolve, takeLoan, hname, Option.map_some, act,
    releaseError?_of_own hloan, step_release hw hloan hheld hpool, List.append_nil]
  rfl

/-- Another pool refuses it. -/
theorem releaseLoan_of_foreign {loan : Loan} {id : PoolId} {pool lender : Pool}
    (hresolve : session.resolve target = .ok (some id)) (hheld : id ∈ session.world.held)
    (hname : session.loans.get? name = some key)
    (hloan : session.world.loans.get? key = some loan) (hne : loan.pool ≠ id)
    (hpool : session.world.pools[id]? = some pool)
    (hlender : session.world.pools[loan.pool]? = some lender) :
    session.releaseLoan target name =
      ({ session with
          loans := session.loans.erase name
          world := session.world.withoutLoan key loan lender
          seen := session.seen ++ [.log (.foreignRelease pool.name), .close loan.entry.conn] },
        .failed (.releaseMismatch pool.name)) := by
  simp only [releaseLoan, hresolve, takeLoan, hname, Option.map_some, act,
    releaseError?_of_foreign hloan hne hpool, step_turnAway hloan hheld hne hpool hlender]
  rfl

/-- Whatever has happened before, a loan that is handed to a pool, or to the service of a registry,
is accepted exactly if that pool has handed it out; then its connection stands at the end of the
pool's queue, and all counts stay.  Otherwise the connection is closed, all queues stay, and of all
counts only that of the pool that has handed it out goes down, by one.  Exchanging the connections
of two loans does not change which pool has handed out either. -/
theorem releaseLoan_after_run (actions : List Action) (session : Session)
    (hworld : session.world = (World.run {} actions).1) (target : Target) (name : String)
    (destination : Option PoolId) (hresolve : session.resolve target = .ok destination)
    (hheld : ∀ id, destination = some id → id ∈ session.world.held) (key : Key) (loan : Loan)
    (hname : session.loans.get? name = some key)
    (hloan : session.world.loans.get? key = some loan) :
    ((session.releaseLoan target name).2 = .ok ↔
        ∃ id, destination = some id ∧ HandedOut key id actions) ∧
      (∀ id, destination = some id → HandedOut key id actions →
        (session.releaseLoan target name).1.seen = session.seen ∧
          ∀ other before, session.world.pools[other]? = some before →
            ∃ after, (session.releaseLoan target name).1.world.pools[other]? = some after ∧
              after.idle = before.idle ++ (if other = id then [loan.entry] else []) ∧
              after.live = before.live) ∧
      (∀ id, destination = some id → ¬ HandedOut key id actions →
        (session.releaseLoan target name).2 =
            .failed (.releaseMismatch (session.poolAt id).name) ∧
          (session.releaseLoan target name).1.seen = session.seen ++
            [.log (.foreignRelease (session.poolAt id).name), .close loan.entry.conn]) ∧
      (destination = none →
        (session.releaseLoan target name).2 = .failed (.unknownService (serviceOf target)) ∧
          (session.releaseLoan target name).1.seen = session.seen ++
            [.log (.unknownService (serviceOf target)), .close loan.entry.conn]) ∧
      ((session.releaseLoan target name).2 ≠ .ok →
        ∃ lender, HandedOut key lender actions ∧
          ∀ other before, session.world.pools[other]? = some before →
            ∃ after, (session.releaseLoan target name).1.world.pools[other]? = some after ∧
              after.idle = before.idle ∧
              after.live + (if other = lender then 1 else 0) = before.live) ∧
      (session.releaseLoan target name).1.world.loans = session.world.loans.erase key ∧
      ∀ first second a b, first ≠ second → session.world.loans.get? first = some a →
        session.world.loans.get? second = some b →
        (session.act (.swap first second)).world.loans =
            (session.world.loans.insert first ⟨a.pool, b.entry.conn, a.entry.index⟩).insert second
              ⟨b.pool, a.entry.conn, b.entry.index⟩ ∧
          ∀ lent loan id, session.world.loans.get? lent = some loan →
            (HandedOut lent id (actions ++ [.swap first second]) ↔ HandedOut lent id actions) := by
  have hw : session.world.Orderly := hworld ▸ Orderly.initial.run actions
  obtain ⟨lender, hlender⟩ := hw.linked.poolOfLoan hloan
  -- the pool that has lent a connection is named by its loan
  have hhanded (id : PoolId) : HandedOut key id actions ↔ loan.pool = id :=
    handedOut_iff (hworld ▸ hloan)
  have hpools {id : PoolId} {before : Pool} (hbefore : session.world.pools[id]? = some before) :=
    hw.pools_withoutLoan hloan hlender hbefore
  have hswap : ∀ first second a b, first ≠ second → session.world.loans.get? first = some a →
      session.world.loans.get? second = some b →
      (session.act (.swap first second)).world.loans =
          (session.world.loans.insert first ⟨a.pool, b.entry.conn, a.entry.index⟩).insert second
            ⟨b.pool, a.entry.conn, b.entry.index⟩ ∧
        ∀ lent loan id, session.world.loans.get? lent = some loan →
          (HandedOut lent id (actions ++ [.swap first second]) ↔ HandedOut lent id actions) := by
    intro first second a b hne hfirst hsecond
    refine ⟨step_swap hfirst hsecond hne, fun lent loan id hlent => ?_⟩
    exact handedOut_swap_iff first second (hworld ▸ hlent)
  cases destination with
  | none =>
      -- without a destination the connection is closed
      rw [releaseLoan_of_unknown hresolve hname hloan hlender]
      refine ⟨by simp, by simp, by simp, fun _ => ⟨rfl, rfl⟩, fun _ => ?_, rfl, hswap⟩
      exact ⟨loan.pool, (hhanded _).mpr rfl, fun other before hbefore => hpools hbefore⟩
  | some id =>
      have hid := hheld id rfl
      by_cases hown : loan.pool = id
      · -- the lender takes its connection back
        subst hown
        rw [releaseLoan_of_own hw hresolve hid hname hloan hlender]
        refine ⟨⟨fun _ => ⟨_, rfl, (hhanded _).mpr rfl⟩, fun _ => rfl⟩, ?_, ?_, by simp,
          fun hne => absurd rfl hne, rfl, hswap⟩
        · rintro _ ⟨⟩ -
          exact ⟨rfl, fun other before hbefore => pools_takeBack hlender loan.entry hbefore⟩
        · rintro _ ⟨⟩ hnot
          exact absurd ((hhanded _).mpr rfl) hnot
      · -- a pool that is not the lender refuses the connection
        obtain ⟨pool, hpool⟩ := hw.linked.poolOfHeld hid
        have hname' : (session.poolAt id).name = pool.name := by
          rw [poolAt, List.getD_eq_getElem?_getD, hpool, Option.getD_some]
        rw [releaseLoan_of_foreign hresolve hid hname hloan hown hpool hlender]
        refine ⟨⟨by simp, ?_⟩, ?_, ?_, by simp, fun _ => ?_, rfl, hswap⟩
        · rintro ⟨_, ⟨⟩, hyes⟩
          exact absurd ((hhanded _).mp hyes) hown
        · rintro _ ⟨⟩ hyes
          exact absurd ((hhanded _).mp hyes) hown
        · rintro _ ⟨⟩ -
          rw [hname']
          exact ⟨rfl, rfl⟩
        · exact ⟨loan.pool, (hhanded _).mpr rfl, fun other before hbefore => hpools hbefore⟩

/-- Lends a connection of a pool, lets go of the pool, creates one anew under the same name, lends
its connection as well, and exchanges the two connections. -/
def renewed : List Action :=
  twoIdle ++ [.acquire 1 0, .settle 1 .success, .letGo 0,
    .create 3 "echo" "echo" [{ address := "a:1" }] {}, .dialSlot 3, .settleSlot 3 0 .success,
    .finish 3, .acquire 4 1, .settle 4 .success, .swap 1 4]

/-- The session that holds the new pool, a registry without services, and both loans. -/
def renewedSession : Session :=
  { world := (World.run {} renewed).1
    pools := .ofList [("echo", 1)]
    registries := .ofList [("services", ∅)]
    loans := .ofList [("old", 1), ("new", 4)] }

/-- The new pool accepts its own loan, which has the connection of the old one, and refuses the old
loan, which has its own connection; a registry knows neither. -/
theorem releaseLoan_after_renewal :
    (HandedOut 4 1 renewed ∧ (renewedSession.releaseLoan (.pool "echo") "new").1.seen = []) ∧
      ((renewedSession.releaseLoan (.pool "echo") "old").2 = .failed (.releaseMismatch "echo") ∧
        (renewedSession.releaseLoan (.pool "echo") "old").1.seen =
          [.log (.foreignRelease "echo"), .close ⟨"a:1", 2⟩]) ∧
      (renewedSession.releaseLoan (.service "services" "echo") "old").2 =
        .failed (.unknownService "echo") := by
  have hheld (id : PoolId) (h : some 1 = some id) : id ∈ renewedSession.world.held := by
    cases h
    decide
  obtain ⟨haccepted, hown, -⟩ := releaseLoan_after_run renewed renewedSession rfl (.pool "echo")
    "new" (some 1) rfl hheld 4 _ rfl rfl
  obtain ⟨hrefused, -, hforeign, -⟩ := releaseLoan_after_run renewed renewedSession rfl
    (.pool "echo") "old" (some 1) rfl hheld 1 _ rfl rfl
  obtain ⟨-, -, -, hunknown, -⟩ := releaseLoan_after_run renewed renewedSession rfl
    (.service "services" "echo") "old" none rfl nofun 1 _ rfl rfl
  obtain ⟨_, ⟨⟩, hnew⟩ := haccepted.mp rfl
  have hold : ¬ HandedOut 1 1 renewed := fun h => nomatch hrefused.mpr ⟨1, rfl, h⟩
  exact ⟨⟨hnew, (hown 1 rfl hnew).1⟩, hforeign 1 rfl hold, (hunknown rfl).1⟩

end Session

end HeartbeatPool
