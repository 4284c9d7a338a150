import HeartbeatPool.Proofs.Custody
import HeartbeatPool.Proofs.Dials
import HeartbeatPool.Proofs.History

/-!
# Where connections come from

An entry carries the position of an endpoint, from the slot of a creation or from a dial that
replaces a connection, through queue, calls and loans.  The position never leaves the table of the
pool, and the table is the one that the pool was created with.

`Sourced` says more, for as long as nobody exchanges the connections of two loans: the dial that a
connection is named after was the dial of just the endpoint at the position that goes with it.  One
step needs no more than two facts: what is held after a rule was held before or begins with it
(`Effect.mem_holdings`), and what begins takes its entry from something held before or from the one
dial of the rule (`Effect.come_cases`).
-/

namespace HeartbeatPool

/-- The endpoint of the dial that a connection is named after. -/
def dialOf (events : List Event) (conn : Conn) : Option Endpoint :=
  ((dialsIn events).filter fun endpoint => endpoint.address == conn.address)[conn.serial]?

theorem dialOf_append {events : List Event} {conn : Conn} {endpoint : Endpoint}
    (h : dialOf events conn = some endpoint) (more : List Event) :
    dialOf (events ++ more) conn = some endpoint := by
  unfold dialOf at *
  rw [dialsIn_append, List.filter_append,
    List.getElem?_append_left (List.getElem?_eq_some_iff.mp h).1, h]

namespace World

variable {w w' : World} {action : Action} {account : Account} {key : Key} {id : PoolId}
  {pool : Pool} {events : List Event}

/-- A new dial is the one that the connection is named after which it may deliver. -/
theorem dialOf_nextConn (hdialed : w.dialed = ((dialsIn events).map Endpoint.address).reverse)
    {more : List Event} {endpoint : Endpoint} (hmore : dialsIn more = [endpoint]) :
    dialOf (events ++ more) (w.nextConn endpoint) = some endpoint := by
  have hserial : w.dialed.count endpoint.address =
      ((dialsIn events).filter fun other => other.address == endpoint.address).length := by
    rw [hdialed, List.count_reverse, List.count, List.countP_map, List.countP_eq_length_filter]
    rfl
  unfold dialOf nextConn
  rw [dialsIn_append, hmore, List.filter_append]
  simp [hserial]

/-! ## Tables -/

/-- The table that the positions of a place refer to. -/
def tableAt (w : World) : Place → Option (List Endpoint)
  | .dialing key | .result key =>
      (w.creations.get? key).map fun creation => creation.pool.endpoints
  | .idle id | .checkout _ id | .redialing _ id | .loan _ id => w.pools[id]?.map Pool.endpoints

/-- Whatever is held refers to a table. -/
theorem Linked.exists_table (hw : w.Linked) {holding : Holding} (h : holding ∈ w.holdings) :
    ∃ table, w.tableAt holding.place = some table := by
  rw [holdings, List.mem_append, List.mem_append, List.mem_append] at h
  rcases h with ((h | h) | h) | h
  · obtain ⟨⟨key, creation⟩, hcreation, hmem⟩ := List.mem_flatMap.mp h
    have hget := (w.creations.get?_eq_some_iff key creation).mpr hcreation
    obtain ⟨⟨slot, position⟩, -, hholding⟩ := List.mem_filterMap.mp hmem
    cases slot <;> cases hholding <;> exact ⟨_, by rw [tableAt, hget]; rfl⟩
  · obtain ⟨⟨pool, id⟩, hpool, hmem⟩ := List.mem_flatMap.mp h
    obtain ⟨entry, -, rfl⟩ := List.mem_map.mp hmem
    exact ⟨pool.endpoints, by rw [tableAt, List.mk_mem_zipIdx_iff_getElem?.mp hpool]; rfl⟩
  · obtain ⟨⟨key, call⟩, hcall, rfl⟩ := List.mem_map.mp h
    obtain ⟨pool, hpool⟩ := hw.poolOfCall ((w.calls.get?_eq_some_iff key call).mpr hcall)
    refine ⟨pool.endpoints, ?_⟩
    unfold Call.holding
    split <;> simp [tableAt, hpool]
  · obtain ⟨⟨key, loan⟩, hloan, rfl⟩ := List.mem_map.mp h
    obtain ⟨pool, hpool⟩ := hw.poolOfLoan ((w.loans.get?_eq_some_iff key loan).mpr hloan)
    exact ⟨pool.endpoints, by simp [Loan.holding, tableAt, hpool]⟩

/-- A place keeps its table. -/
theorem Effect.tableAt_eq (hw : w.Orderly) (h : Effect w action w' account) {place : Place}
    {table table' : List Endpoint} (htable : w.tableAt place = some table)
    (htable' : w'.tableAt place = some table') : table' = table := by
  have hcreation (key : Key)
      (ht : (w.creations.get? key).map (fun creation => creation.pool.endpoints) = some table)
      (ht' : (w'.creations.get? key).map (fun creation => creation.pool.endpoints) = some table') :
      table' = table := by
    obtain ⟨creation, hcreation, rfl⟩ := Option.map_eq_some_iff.mp ht
    obtain ⟨creation', hcreation', rfl⟩ := Option.map_eq_some_iff.mp ht'
    rcases h.creation_cases hcreation' with ⟨old, hold, hgiven⟩ | ⟨hnone, -⟩
    · rw [hcreation, Option.some.injEq] at hold
      rw [hold]
      exact congrArg Prod.fst hgiven
    · rw [hcreation] at hnone
      cases hnone
  have hpool (id : PoolId) (ht : w.pools[id]?.map Pool.endpoints = some table)
      (ht' : w'.pools[id]?.map Pool.endpoints = some table') : table' = table := by
    obtain ⟨pool, hpool, rfl⟩ := Option.map_eq_some_iff.mp ht
    obtain ⟨pool', hpool', rfl⟩ := Option.map_eq_some_iff.mp ht'
    rcases h.pool_cases hw hpool' with ⟨old, hold, hgiven⟩ | ⟨rfl, -⟩
    · rw [hpool, Option.some.injEq] at hold
      rw [hold]
      exact congrArg Prod.fst hgiven
    · rw [List.getElem?_eq_none (Nat.le_refl _)] at hpool
      cases hpool
  cases place with
  | dialing key | result key => exact hcreation key htable htable'
  | idle id | checkout _ id | redialing _ id | loan _ id => exact hpool id htable htable'

/-- Replacing a pool leaves all tables alone if the new one has the table of the old one. -/
theorem map_endpoints_set {pools : List Pool} (hpool : pools[id]? = some pool) (new : Pool)
    (hnew : new.endpoints = pool.endpoints) (other : PoolId) :
    (pools.set id new)[other]?.map Pool.endpoints = pools[other]?.map Pool.endpoints := by
  by_cases hid : id = other
  · subst hid
    rw [List.getElem?_set_self (List.getElem?_eq_some_iff.mp hpool).1, hpool, Option.map_some,
      Option.map_some, hnew]
  · rw [List.getElem?_set_ne hid]

/-! ## What begins with a rule -/

/-- What is held after a rule was held before or begins with it. -/
theorem Effect.mem_holdings (hw : w.Linked) (h : Effect w action w' account) {holding : Holding}
    (hmem : holding ∈ w'.holdings) : holding ∈ w.holdings ∨ holding ∈ account.come := by
  have hbalance := h.count_balance hw (· == holding)
  have hpos : 0 < w'.count (· == holding) :=
    List.countP_pos_iff.mpr ⟨holding, hmem, beq_self_eq_true holding⟩
  have hsome : 0 < w.count (· == holding) ∨ 0 < account.come.countP (· == holding) := by omega
  refine hsome.imp ?_ ?_
  · intro hcount
    obtain ⟨other, hother, heq⟩ := List.countP_pos_iff.mp hcount
    exact beq_iff_eq.mp heq ▸ hother
  · intro hcount
    obtain ⟨other, hother, heq⟩ := List.countP_pos_iff.mp hcount
    exact beq_iff_eq.mp heq ▸ hother

theorem holding_mem_of_slot {creation : Creation} {slot : Nat} {result : Slot} {holding : Holding}
    (hcreation : w.creations.get? key = some creation) (hslot : creation.slots[slot]? = some result)
    (hholding : creation.holding? key (result, slot) = some holding) : holding ∈ w.holdings := by
  have hmem := (w.creations.get?_eq_some_iff key creation).mp hcreation
  have hzip : (result, slot) ∈ creation.slots.zipIdx := List.mk_mem_zipIdx_iff_getElem?.mpr hslot
  refine List.mem_append_left _ (List.mem_append_left _ (List.mem_append_left _ ?_))
  exact List.mem_flatMap.mpr ⟨_, hmem, List.mem_filterMap.mpr ⟨_, hzip, hholding⟩⟩

theorem holding_mem_of_probing {call : Call} {entry : Entry}
    (hcall : w.calls.get? key = some call) (hphase : call.phase = .probing entry) :
    ⟨.checkout key call.pool, entry⟩ ∈ w.holdings := by
  have hmem := holding_mem_of_call hcall
  rwa [Call.holding, hphase] at hmem

theorem holding_mem_of_redialing {call : Call} {entry : Entry}
    (hcall : w.calls.get? key = some call) (hphase : call.phase = .redialing entry) :
    ⟨.redialing key call.pool, entry⟩ ∈ w.holdings := by
  have hmem := holding_mem_of_call hcall
  rwa [Call.holding, hphase] at hmem

theorem holding_mem_of_takeIdle {taken : Pool} {entry : Entry} (hpool : w.pools[id]? = some pool)
    (htake : pool.takeIdle? = some (entry, taken)) : ⟨.idle id, entry⟩ ∈ w.holdings := by
  obtain ⟨rest, hidle, -⟩ := Pool.takeIdle?_eq_some_iff.mp htake
  exact holding_mem_of_idle hpool (hidle ▸ List.mem_cons_self ..)

/-- A holding has its entry from one that was there before, or from the one dial that the rule
makes. -/
def Derives (w w' : World) (events : List Event) (holding : Holding) : Prop :=
  (∃ old ∈ w.holdings, old.entry = holding.entry ∧
      w'.tableAt holding.place = w.tableAt old.place) ∨
    ∃ endpoint table, dialsIn events = [endpoint] ∧
      holding.entry.conn = w.nextConn endpoint ∧ w'.tableAt holding.place = some table ∧
      table[holding.entry.index]? = some endpoint

theorem Effect.come_cases (hw : w.Orderly) (h : Effect w action w' account)
    (hswap : ∀ first second, action ≠ .swap first second) {holding : Holding}
    (hmem : holding ∈ account.come) : Derives w w' account.events holding := by
  cases h with
  | @dialSlot key creation hcreation hroom =>
      obtain rfl := List.mem_singleton.mp hmem
      exact Or.inr ⟨_, _, rfl, rfl, by rw [tableAt, Table.get?_insert_self]; rfl,
        Creation.getElem?_nextEndpoint hroom⟩
  | @establish key slot creation conn hcreation hslot =>
      obtain rfl := List.mem_singleton.mp hmem
      refine Or.inl ⟨_, holding_mem_of_slot hcreation hslot rfl, rfl, ?_⟩
      rw [tableAt, tableAt, Table.get?_insert_self, hcreation]
      rfl
  | @finish key creation pool hcreation hsettled houtcome =>
      -- an entry of the new queue comes from the slot with its connection
      have hfresh := hw.fresh hcreation
      obtain ⟨-, rfl⟩ := hfresh.outcome_eq_ok_iff.mp houtcome
      obtain ⟨entry, hentry, rfl⟩ := List.mem_map.mp hmem
      rw [hfresh.stock_eq] at hentry
      obtain ⟨⟨result, slot⟩, hzip, hresult⟩ := List.mem_filterMap.mp hentry
      cases result with
      | dialing | failed => cases hresult
      | established conn =>
          cases hresult
          have hslot := List.mk_mem_zipIdx_iff_getElem?.mp hzip
          refine Or.inl ⟨_, holding_mem_of_slot hcreation hslot rfl, rfl, ?_⟩
          rw [tableAt, tableAt, List.getElem?_concat_length, hcreation, hfresh.stock_eq]
          rfl
  | @start key id pool entry taken hkey hloan hheld hpool htake =>
      obtain rfl := List.mem_singleton.mp hmem
      have hgiven := (Pool.Kept.takeIdle htake 0).endpoints
      exact Or.inl ⟨_, holding_mem_of_takeIdle hpool htake, rfl,
        map_endpoints_set hpool taken hgiven _⟩
  | pass hcall hpool hphase =>
      obtain rfl := List.mem_singleton.mp hmem
      exact Or.inl ⟨_, holding_mem_of_probing hcall hphase, rfl, rfl⟩
  | @dismiss key call pool entry cause hcall hpool hphase =>
      obtain rfl := List.mem_singleton.mp hmem
      -- the failed connection was dialed for an endpoint of the pool
      have hlt : entry.index < pool.endpoints.length := by
        have hlt := hw.index_lt_of_call hcall hpool
        rwa [Call.entry, hphase] at hlt
      refine Or.inr ⟨_, pool.endpoints, rfl, rfl, ?_, Pool.getElem?_endpoint hlt⟩
      refine (map_endpoints_set hpool pool.untrack rfl _).trans ?_
      rw [hpool]
      rfl
  | @replace key call pool entry hcall hpool hphase =>
      obtain rfl := List.mem_singleton.mp hmem
      refine Or.inl ⟨_, holding_mem_of_redialing hcall hphase, rfl, ?_⟩
      exact map_endpoints_set hpool pool.track rfl _
  | @retry key call pool entry cause attemptsLeft next taken hcall hpool hphase hleft htake =>
      obtain rfl := List.mem_singleton.mp hmem
      have hgiven := (Pool.Kept.takeIdle htake 0).endpoints
      exact Or.inl ⟨_, holding_mem_of_takeIdle hpool htake, rfl,
        map_endpoints_set hpool taken hgiven _⟩
  | @cancelProbe key call pool entry hcall hpool hphase hfree =>
      obtain rfl := List.mem_singleton.mp hmem
      refine Or.inl ⟨_, holding_mem_of_probing hcall hphase, rfl, ?_⟩
      exact map_endpoints_set hpool (pool.parked entry) rfl _
  | @takeBack key loan pool hloan hheld hpool hfree =>
      obtain rfl := List.mem_singleton.mp hmem
      refine Or.inl ⟨_, holding_mem_of_loan hloan, rfl, ?_⟩
      exact map_endpoints_set hpool (pool.parked loan.entry) rfl _
  | swap => exact absurd rfl (hswap _ _)
  | _ => cases hmem

/-- A rule notes down what it dials. -/
theorem Effect.dialed_eq (hw : w.Orderly) (h : Effect w action w' account) :
    w'.dialed = ((dialsIn account.events).map Endpoint.address).reverse ++ w.dialed := by
  cases h with
  | finishEmpty hcreation | finish hcreation =>
      have hnone : dialsIn (Creation.report _) = [] := dialsIn_eq_nil fun endpoint hmem => by
        obtain ⟨notice, heq, -⟩ := (hw.fresh hcreation).log_of_mem_report hmem
        cases heq
      rw [hnone]
      rfl
  | abandon =>
      rw [dialsIn_eq_nil fun endpoint => by simp]
      rfl
  | _ => rfl

/-! ## Back to the dial -/

/-- Everything that is held is named after the dial of the endpoint at its position. -/
structure Sourced (w : World) (events : List Event) : Prop where
  dialed : w.dialed = ((dialsIn events).map Endpoint.address).reverse
  held : ∀ holding ∈ w.holdings, ∃ table endpoint, w.tableAt holding.place = some table ∧
    table[holding.entry.index]? = some endpoint ∧ dialOf events holding.entry.conn = some endpoint

theorem Sourced.initial : Sourced {} [] := ⟨rfl, fun holding hmem => by cases hmem⟩

theorem Sourced.effect (h : w.Sourced events) (hw : w.Orderly) (heff : Effect w action w' account)
    (hswap : ∀ first second, action ≠ .swap first second) :
    w'.Sourced (events ++ account.events) where
  dialed := by
    rw [heff.dialed_eq hw, h.dialed, dialsIn_append, List.map_append, List.reverse_append]
  held holding hmem := by
    rcases heff.mem_holdings hw.linked hmem with hold | hcome
    · -- it stays where it is, and so does its table
      obtain ⟨table, endpoint, htable, hendpoint, hdial⟩ := h.held holding hold
      obtain ⟨table', htable'⟩ := (hw.linked.effect heff).exists_table hmem
      have hsame := heff.tableAt_eq hw htable htable'
      exact ⟨table', endpoint, htable', hsame ▸ hendpoint, dialOf_append hdial _⟩
    · rcases heff.come_cases hw hswap hcome with
        ⟨old, hold, hentry, hplace⟩ | ⟨endpoint, table, hdials, hconn, htable, hendpoint⟩
      · obtain ⟨table, endpoint, htable, hendpoint, hdial⟩ := h.held old hold
        rw [hentry] at hendpoint hdial
        exact ⟨table, endpoint, hplace ▸ htable, hendpoint, dialOf_append hdial _⟩
      · rw [hconn]
        exact ⟨table, endpoint, htable, hendpoint, dialOf_nextConn h.dialed hdials⟩

theorem tableAt_closeIdle (hpool : w.pools[id]? = some pool) (place : Place) :
    (w.setPool id pool.closeIdle.1).tableAt place = w.tableAt place := by
  cases place with
  | dialing | result => rfl
  | idle other | checkout _ other | redialing _ other | loan _ other =>
      exact map_endpoints_set hpool pool.closeIdle.1 rfl other

theorem Sourced.close (h : w.Sourced events) (hpool : w.pools[id]? = some pool) :
    (w.setPool id pool.closeIdle.1).Sourced (events ++ pool.closeIdle.2) where
  dialed := by
    rw [dialsIn_append, dialsIn_closeIdle, List.append_nil]
    exact h.dialed
  held holding hmem := by
    have hbalance := count_closeIdle (· == holding) hpool
    have hpos : 0 < (w.setPool id pool.closeIdle.1).count (· == holding) :=
      List.countP_pos_iff.mpr ⟨holding, hmem, beq_self_eq_true holding⟩
    have hbefore : 0 < w.count (· == holding) := by omega
    obtain ⟨other, hother, heq⟩ := List.countP_pos_iff.mp hbefore
    obtain ⟨table, endpoint, htable, hendpoint, hdial⟩ :=
      h.held holding (beq_iff_eq.mp heq ▸ hother)
    exact ⟨table, endpoint, (tableAt_closeIdle hpool _).trans htable, hendpoint,
      dialOf_append hdial _⟩

theorem Sourced.step (h : w.Sourced events) (hw : w.Orderly)
    (hswap : ∀ first second, action ≠ .swap first second) :
    (w.step action).1.Sourced (events ++ (w.step action).2) := by
  rcases step_cases hw.linked action with
    ⟨hstep, -⟩ | ⟨w', account, heff, ⟨hstep, -⟩ | ⟨left, old, -, hold, -, hstep⟩⟩
  · rw [hstep, List.append_nil]
    exact h
  · rw [hstep]
    exact h.effect hw heff hswap
  · rw [hstep, ← List.append_assoc]
    exact (h.effect hw heff hswap).close hold

theorem Sourced.run (h : w.Sourced events) (hw : w.Orderly) {actions : List Action}
    (hswap : ∀ first second, .swap first second ∉ actions) :
    (w.run actions).1.Sourced (events ++ (w.run actions).2) := by
  induction actions generalizing w events with
  | nil =>
      rw [World.run, List.append_nil]
      exact h
  | cons action rest ih =>
      have hfirst (first second : Key) : action ≠ .swap first second := by
        rintro rfl
        exact hswap first second (List.mem_cons_self ..)
      have hrest := ih (h.step hw hfirst) (hw.step action) fun first second hmem =>
        hswap first second (List.mem_cons_of_mem _ hmem)
      rwa [List.append_assoc] at hrest

/-! ## Every run -/

/-- The entries that a pool keeps account of: those that are idle, probed or lent. -/
inductive Tracks (w : World) (id : PoolId) : Entry → Prop where
  | idle {pool entry} (hpool : w.pools[id]? = some pool) (hentry : entry ∈ pool.idle) :
      Tracks w id entry
  | probed {key call entry} (hcall : w.calls.get? key = some call) (hid : call.pool = id)
      (hphase : call.phase = .probing entry) : Tracks w id entry
  | lent {key loan} (hloan : w.loans.get? key = some loan) (hid : loan.pool = id) :
      Tracks w id loan.entry

theorem Tracks.holding {entry : Entry} (h : w.Tracks id entry) :
    ∃ place, ⟨place, entry⟩ ∈ w.holdings ∧ place.isDelivered = true ∧ place.pool? = some id ∧
      w.tableAt place = w.pools[id]?.map Pool.endpoints := by
  cases h with
  | idle hpool hentry => exact ⟨_, holding_mem_of_idle hpool hentry, rfl, rfl, rfl⟩
  | probed hcall hid hphase =>
      subst hid
      exact ⟨_, holding_mem_of_probing hcall hphase, rfl, rfl, rfl⟩
  | lent hloan hid =>
      subst hid
      exact ⟨_, holding_mem_of_loan hloan, rfl, rfl, rfl⟩

/-- After every run, each pool has the table that its creation was given, and the position of
whatever it keeps account of lies inside.  What is dialed next belongs to a creation, or else it is
the endpoint at the position of what a call has probed in vain.  Unless connections of loans were
exchanged, whatever a pool keeps account of was delivered by a dial of just the endpoint at its
position. -/
theorem provenance_after_run (actions : List Action) :
    (∀ id pool, (run {} actions).1.pools[id]? = some pool →
      Founded id pool.given actions ∧
        ∀ entry, (run {} actions).1.Tracks id entry → entry.index < pool.endpoints.length) ∧
      (∀ action endpoint, .dial endpoint ∈ ((run {} actions).1.step action).2 →
        (∃ key, action = .dialSlot key) ∨
          ∃ key cause call pool entry, action = .settle key (.failure cause) ∧
            (run {} actions).1.calls.get? key = some call ∧
            (run {} actions).1.pools[call.pool]? = some pool ∧ call.phase = .probing entry ∧
            pool.endpoints[entry.index]? = some endpoint) ∧
      ((∀ first second, .swap first second ∉ actions) →
        ∀ id pool entry, (run {} actions).1.pools[id]? = some pool →
          (run {} actions).1.Tracks id entry → entry.conn ∈ delivered {} actions ∧
            ∃ endpoint, pool.endpoints[entry.index]? = some endpoint ∧
              dialOf (run {} actions).2 entry.conn = some endpoint) := by
  have hw := Orderly.initial.run actions
  refine ⟨fun id pool hpool => ⟨(founded_iff hpool).mpr rfl, fun entry htracks => ?_⟩,
    fun action endpoint hdial => ?_, fun hswap id pool entry hpool htracks => ?_⟩
  · obtain ⟨place, hmem, -, hplace, -⟩ := htracks.holding
    exact (hw.pool hpool).index_lt hmem hplace
  · exact dial_cases hw hdial
  · obtain ⟨place, hmem, hdelivered, -, htable⟩ := htracks.holding
    -- the connection is somewhere, so it was delivered
    have hwhere : place ∈ (run {} actions).1.whereabouts entry.conn :=
      mem_whereabouts_iff.mpr ⟨entry.index, hmem, hdelivered⟩
    constructor
    · have hlength := (ledger_of_run actions).length_whereabouts_add entry.conn
      have hpos := List.length_pos_of_mem hwhere
      exact List.count_pos_iff.mp (by omega)
    · -- without swaps it was dialed for the table of its pool
      have hsourced := Sourced.initial.run .initial hswap
      obtain ⟨table, endpoint, htable', hendpoint, hdial⟩ := hsourced.held _ hmem
      rw [htable, hpool, Option.map_some, Option.some.injEq] at htable'
      exact ⟨endpoint, htable' ▸ hendpoint, hdial⟩

/-- Creates a pool with one connection to each of two endpoints, lends one that replaces the first,
and probes the second. -/
def relentAndProbed : List Action :=
  [.create 0 "echo" "echo" [{ address := "a:1" }, { address := "b:1" }] {}, .dialSlot 0,
    .dialSlot 0, .settleSlot 0 1 .success, .settleSlot 0 0 .success, .finish 0, .acquire 1 0,
    .settle 1 (.failure "sick"), .settle 1 .success, .acquire 2 0]

/-- The loan has what the second dial to its endpoint has delivered, and if the probe fails, the
other endpoint is dialed. -/
theorem provenance_after_redial :
    (∃ pool, (run {} relentAndProbed).1.pools[0]? = some pool ∧
        Founded 0 pool.given relentAndProbed ∧ 0 < pool.endpoints.length) ∧
      (∃ key cause call pool entry,
        Action.settle 2 (.failure "sick") = .settle key (.failure cause) ∧
          (run {} relentAndProbed).1.calls.get? key = some call ∧
          (run {} relentAndProbed).1.pools[call.pool]? = some pool ∧
          call.phase = .probing entry ∧
          pool.endpoints[entry.index]? = some { address := "b:1" }) ∧
      ⟨"a:1", 1⟩ ∈ delivered {} relentAndProbed ∧
      ∃ endpoint, dialOf (run {} relentAndProbed).2 ⟨"a:1", 1⟩ = some endpoint := by
  obtain ⟨hpools, hdials, hsourced⟩ := provenance_after_run relentAndProbed
  have htracks : (run {} relentAndProbed).1.Tracks 0 ⟨⟨"a:1", 1⟩, 0⟩ :=
    @Tracks.lent _ 0 1 ⟨0, ⟨"a:1", 1⟩, 0⟩ rfl rfl
  have hswap (first second : Key) : .swap first second ∉ relentAndProbed := by
    simp [relentAndProbed]
  refine ⟨⟨_, rfl, (hpools 0 _ rfl).1, (hpools 0 _ rfl).2 _ htracks⟩, ?_, ?_⟩
  · rcases hdials (.settle 2 (.failure "sick")) { address := "b:1" } (by decide) with
      ⟨key, hkey⟩ | hredial
    · cases hkey
    · exact hredial
  · obtain ⟨hdelivered, endpoint, -, hdial⟩ := hsourced hswap 0 _ _ rfl htracks
    exact ⟨hdelivered, endpoint, hdial⟩

end World

end HeartbeatPool
