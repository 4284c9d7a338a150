import HeartbeatPool.Proofs.Open

/-!
# The ledger of connections

A connection is delivered by the dial that it is named after, and from then on it is in one place
or closed.  The ledger of a run says so with two laws for each connection: as often as it was
delivered, somebody has it or it was closed; and there is no more than one dial that delivered it or
still may.
-/

namespace HeartbeatPool

/-- Whether a holding has a connection, which was delivered. -/
def Holding.has (conn : Conn) (holding : Holding) : Bool :=
  holding.entry.conn == conn && holding.place.isDelivered

/-- Whether a holding is a dial under way that may deliver a connection. -/
def Holding.awaits (conn : Conn) (holding : Holding) : Bool :=
  holding.entry.conn == conn && !holding.place.isDelivered

namespace Creation

variable {creation : Creation}

/-- A creation has what was established. -/
theorem countP_has_holdings (conn : Conn) (key : Key) (creation : Creation) :
    (creation.holdings key).countP (Holding.has conn) =
      (creation.entries.map Entry.conn).count conn := by
  rw [List.count, List.countP_map, holdings, entries, List.countP_filterMap,
    List.countP_filterMap]
  refine List.countP_congr fun pair _ => ?_
  rcases pair with ⟨_ | _ | _, _⟩ <;>
    simp [holding?, entryOf?, Holding.has, Place.isDelivered]

theorem count_closing (conn : Conn) (creation : Creation) :
    (creation.closing.map Event.close).count (.close conn) =
      (creation.entries.map Entry.conn).count conn := by
  rw [← creation.closing_perm.count_eq conn, List.count, List.count, List.countP_map]
  refine List.countP_congr fun other _ => ?_
  simp

theorem count_report (hfresh : creation.Fresh) (conn : Conn) :
    creation.report.count (.close conn) = 0 := by
  refine List.count_eq_zero.mpr fun hmem => ?_
  obtain ⟨notice, heq, -⟩ := hfresh.log_of_mem_report hmem
  cases heq

end Creation

namespace World

variable {w w' : World} {action : Action} {account : Account} {conn : Conn}

/-- The connections that an action delivers: what a dial of a creation or of a call comes to. -/
def deliveries (w : World) : Action → List Conn
  | .settleSlot key slot .success =>
      match (w.creations.get? key).bind fun creation => creation.slots[slot]? with
      | some (.dialing conn) => [conn]
      | _ => []
  | .settle key .success =>
      match (w.calls.get? key).map Call.phase with
      | some (.redialing entry) => [entry.conn]
      | _ => []
  | _ => []

/-- The connections that a run delivers. -/
def delivered (w : World) : List Action → List Conn
  | [] => []
  | action :: rest => w.deliveries action ++ (w.step action).1.delivered rest

/-- Whether the dial that a connection is named after was made. -/
def issued (dialed : List String) (conn : Conn) : Nat :=
  if conn.serial < dialed.count conn.address then 1 else 0

theorem issued_cons (endpoint : Endpoint) (conn : Conn) (w : World) :
    issued (endpoint.address :: w.dialed) conn =
      issued w.dialed conn + if w.nextConn endpoint = conn then 1 else 0 := by
  obtain ⟨address, serial⟩ := conn
  unfold issued nextConn
  simp only [List.count_cons, beq_iff_eq, Conn.mk.injEq]
  by_cases haddress : endpoint.address = address
  · subst haddress
    simp only [if_true, true_and]
    split <;> split <;> split <;> omega
  · simp [haddress]

/-! ## Rules -/

/-- What a rule delivers it puts somewhere, and what it takes away it puts elsewhere or closes. -/
theorem Effect.has_balance (hw : w.Orderly) (h : Effect w action w' account) (conn : Conn) :
    account.come.countP (Holding.has conn) + account.events.count (.close conn) =
      account.gone.countP (Holding.has conn) + (w.deliveries action).count conn := by
  cases h with
  | establish hcreation hslot =>
      simp [deliveries, hcreation, hslot, Holding.has, Place.isDelivered, List.count_cons]
  | @finishEmpty key creation error hcreation hsettled houtcome =>
      have hfresh := hw.fresh hcreation
      rw [Creation.countP_has_holdings, hfresh.entries_of_error houtcome,
        Creation.count_report hfresh]
      rfl
  | @finish key creation pool hcreation hsettled houtcome =>
      have hfresh := hw.fresh hcreation
      obtain ⟨-, rfl⟩ := hfresh.outcome_eq_ok_iff.mp houtcome
      rw [Creation.countP_has_holdings, Pool.countP_holdings, Creation.count_report hfresh,
        hfresh.stock_eq, List.count, List.countP_map]
      simp [deliveries, Holding.has, Place.isDelivered, Function.comp_def]
  | @abandon key creation hcreation =>
      rw [Creation.countP_has_holdings, Creation.count_closing]
      simp [deliveries]
  | pass hcall hpool hphase | dismiss hcall hpool hphase | replace hcall hpool hphase =>
      simp [deliveries, hcall, hphase, Holding.has, Place.isDelivered, List.count_cons]
  | swap =>
      simp [deliveries, Holding.has, Place.isDelivered, List.countP_cons]
      omega
  | _ => simp [deliveries, Holding.has, Place.isDelivered, List.countP_cons, List.count_cons]

/-- What a rule delivers was awaited, and what it awaits anew is named after the dial that it
makes. -/
theorem Effect.awaits_balance (h : Effect w action w' account) (conn : Conn) :
    account.come.countP (Holding.awaits conn) + (w.deliveries action).count conn +
        issued w.dialed conn ≤
      account.gone.countP (Holding.awaits conn) + issued w'.dialed conn := by
  cases h with
  | dialSlot hcreation =>
      rw [issued_cons]
      simp [deliveries, Holding.awaits, Place.isDelivered, List.countP_cons]
      omega
  | establish hcreation hslot =>
      simp [deliveries, hcreation, hslot, Holding.awaits, Place.isDelivered, List.count_cons]
  | @finish key creation pool hcreation =>
      simp [deliveries, Pool.countP_holdings, Holding.awaits, Place.isDelivered]
  | dismiss hcall hpool hphase =>
      rw [issued_cons]
      simp [deliveries, Holding.awaits, Place.isDelivered, List.countP_cons]
      omega
  | pass hcall hpool hphase | replace hcall hpool hphase =>
      simp [deliveries, hcall, hphase, Holding.awaits, Place.isDelivered, List.count_cons,
        withLoan, setPool]
  | _ => simp [deliveries, Holding.awaits, Place.isDelivered, withProbe, withoutLoan, setPool]

/-- An action that makes no sense delivers nothing. -/
theorem deliveries_of_no_effect (hw : w.Linked)
    (hnone : ∀ w' account, ¬ Effect w action w' account) : w.deliveries action = [] := by
  unfold deliveries
  split
  · next key slot =>
      split
      · next conn hslot =>
          obtain ⟨creation, hcreation, hslot⟩ := Option.bind_eq_some_iff.mp hslot
          exact absurd (.establish hcreation hslot) (hnone _ _)
      · rfl
  · next key =>
      split
      · next entry hphase =>
          obtain ⟨call, hcall, hphase⟩ := Option.map_eq_some_iff.mp hphase
          obtain ⟨pool, hpool⟩ := hw.poolOfCall hcall
          exact absurd (.replace hcall hpool hphase) (hnone _ _)
      · rfl
  · rfl

/-! ## The ledger -/

/-- What is true of a state, of what was seen and of what was delivered on the way to it. -/
structure Ledger (w : World) (events : List Event) (conns : List Conn) : Prop where
  kept : ∀ conn, w.count (Holding.has conn) + events.count (.close conn) = conns.count conn
  issued : ∀ conn, w.count (Holding.awaits conn) + conns.count conn ≤ issued w.dialed conn

variable {events : List Event} {conns : List Conn}

theorem Ledger.initial : Ledger {} [] [] where
  kept _ := rfl
  issued _ := Nat.zero_le _

theorem Ledger.effect (hledger : Ledger w events conns) (hw : w.Orderly)
    (h : Effect w action w' account) :
    Ledger w' (events ++ account.events) (conns ++ w.deliveries action) where
  kept conn := by
    have hkept := hledger.kept conn
    have hbalance := h.count_balance hw.linked (Holding.has conn)
    have hrule := h.has_balance hw conn
    rw [List.count_append, List.count_append]
    omega
  issued conn := by
    have hissued := hledger.issued conn
    have hbalance := h.count_balance hw.linked (Holding.awaits conn)
    have hrule := h.awaits_balance conn
    rw [List.count_append]
    omega

theorem Ledger.close (hledger : Ledger w events conns) {id : PoolId} {pool : Pool}
    (hpool : w.pools[id]? = some pool) :
    Ledger (w.setPool id pool.closeIdle.1) (events ++ pool.closeIdle.2) conns where
  kept conn := by
    have hkept := hledger.kept conn
    have hbalance := count_closeIdle (Holding.has conn) hpool
    have hclosed : pool.closeIdle.2.count (.close conn) =
        (pool.holdings id).countP (Holding.has conn) := by
      rw [Pool.countP_holdings, Pool.closeIdle, List.count, List.countP_map]
      refine List.countP_congr fun entry _ => ?_
      simp [Holding.has, Place.isDelivered]
    rw [List.count_append]
    omega
  issued conn := by
    have hissued := hledger.issued conn
    have hbalance := count_closeIdle (Holding.awaits conn) hpool
    have hdialed : (w.setPool id pool.closeIdle.1).dialed = w.dialed := rfl
    rw [hdialed]
    omega

theorem Ledger.step (hledger : Ledger w events conns) (hw : w.Orderly) (action : Action) :
    Ledger (w.step action).1 (events ++ (w.step action).2) (conns ++ w.deliveries action) := by
  rcases step_cases hw.linked action with
    ⟨hstep, hnone⟩ | ⟨w', account, heff, ⟨hstep, -⟩ | ⟨left, old, -, hold, -, hstep⟩⟩
  · rw [hstep, deliveries_of_no_effect hw.linked hnone, List.append_nil, List.append_nil]
    exact hledger
  · rw [hstep]
    exact hledger.effect hw heff
  · rw [hstep, ← List.append_assoc]
    exact (hledger.effect hw heff).close hold

theorem Ledger.run (hledger : Ledger w events conns) (hw : w.Orderly) (actions : List Action) :
    Ledger (w.run actions).1 (events ++ (w.run actions).2) (conns ++ w.delivered actions) := by
  induction actions generalizing w events conns with
  | nil => simpa [World.run, delivered] using hledger
  | cons action rest ih =>
      have hrest := ih (hledger.step hw action) (hw.step action)
      rw [List.append_assoc, List.append_assoc] at hrest
      exact hrest

/-- The ledger of a run from the beginning. -/
theorem ledger_of_run (actions : List Action) :
    Ledger (run {} actions).1 (run {} actions).2 (delivered {} actions) :=
  Ledger.initial.run .initial actions

end World

end HeartbeatPool
