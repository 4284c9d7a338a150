import HeartbeatPool.Proofs.Step

/-!
# The balance of a step

The account of a rule is complete: what is held after the rule is what was held before, without what
came to an end and with what began.  This is said at once for every number that can be added up over
the holdings.
-/

namespace HeartbeatPool.World

variable {w w' : World} {action : Action} {account : Account}

theorem weigh_withoutLoan (f : Holding → Nat) {key : Key} {loan : Loan} {pool : Pool}
    (hloan : w.loans.get? key = some loan) (hpool : w.pools[loan.pool]? = some pool) :
    (w.withoutLoan key loan pool).weigh f + f ⟨.loan key loan.pool, loan.entry⟩ = w.weigh f := by
  have hloans := Table.total_erase (Loan.weight f) hloan
  have hpools := Pool.total_weight_set f hpool pool.untrack
  rw [Loan.weight_eq] at hloans
  rw [Pool.weight_untrack] at hpools
  simp only [weigh_eq, withoutLoan, setPool]
  omega

theorem weigh_withLoan (f : Holding → Nat) {key : Key} {call : Call} (hw : w.Linked)
    (hcall : w.calls.get? key = some call) (loan : Loan) :
    (w.withLoan key loan).weigh f + call.weight f key =
      w.weigh f + f ⟨.loan key loan.pool, loan.entry⟩ := by
  have hcalls := Table.total_erase (Call.weight f) hcall
  have hloans := Table.total_insert_new (Loan.weight f) (hw.not_lent hcall) loan
  rw [Loan.weight_eq] at hloans
  simp only [weigh_eq, withLoan]
  omega

theorem weigh_withProbe (f : Holding → Nat) {key : Key} {id : PoolId} {pool taken : Pool}
    {entry : Entry} (hcall : w.calls.get? key = none) (hpool : w.pools[id]? = some pool)
    (htake : pool.takeIdle? = some (entry, taken)) (attemptsLeft : Nat) :
    (w.withProbe key id taken attemptsLeft entry).weigh f + f ⟨.idle id, entry⟩ =
      w.weigh f + f ⟨.checkout key id, entry⟩ := by
  have hcalls := Table.total_insert_new (Call.weight f) hcall ⟨id, attemptsLeft, .probing entry⟩
  have hpools := Pool.total_weight_set f hpool taken
  have hidle := Pool.weight_takeIdle f id htake
  rw [Call.weight_probing] at hcalls
  simp only [weigh_eq, withProbe, setPool]
  omega

theorem weigh_eraseCall (f : Holding → Nat) {key : Key} {call : Call}
    (hcall : w.calls.get? key = some call) :
    weigh f { w with calls := w.calls.erase key } + call.weight f key = w.weigh f := by
  have hcalls := Table.total_erase (Call.weight f) hcall
  simp only [weigh_eq]
  omega

theorem weigh_setPool (f : Holding → Nat) {id : PoolId} {old : Pool}
    (hpool : w.pools[id]? = some old) (new : Pool) :
    (w.setPool id new).weigh f + Pool.weight f (old, id) =
      w.weigh f + Pool.weight f (new, id) := by
  have hpools := Pool.total_weight_set f hpool new
  simp only [weigh_eq, setPool]
  omega

theorem weigh_insertCreation (f : Holding → Nat) {key : Key} {old : Creation}
    (hcreation : w.creations.get? key = some old) (creation : Creation) (dialed : List String) :
    weigh f { w with dialed := dialed, creations := w.creations.insert key creation } +
        old.weight f key =
      w.weigh f + creation.weight f key := by
  have hcreations := Table.total_insert_old (Creation.weight f) hcreation creation
  simp only [weigh_eq]
  omega

theorem weigh_eraseCreation (f : Holding → Nat) {key : Key} {creation : Creation}
    (hcreation : w.creations.get? key = some creation) :
    weigh f { w with creations := w.creations.erase key } + ((creation.holdings key).map f).sum =
      w.weigh f := by
  have hcreations := Table.total_erase (Creation.weight f) hcreation
  rw [Creation.weight] at hcreations
  simp only [weigh_eq]
  omega

/-- The account of a rule is complete. -/
theorem Effect.balance (hw : w.Linked) (h : Effect w action w' account) (f : Holding → Nat) :
    w'.weigh f + (account.gone.map f).sum = w.weigh f + (account.come.map f).sum := by
  cases h with
  | @create key label name endpoints settings capacity hkey hok =>
      -- a new creation has no slots yet
      have hcreations := Table.total_insert_new (Creation.weight f) hkey
        { pool := { name := name, label := label, endpoints := endpoints, settings := settings } }
      have hzero : Creation.weight f key
          { pool := { name, label, endpoints, settings } } = 0 := rfl
      simp only [weigh_eq, List.map_nil, List.sum_nil]
      omega
  | @dialSlot key creation hcreation hroom =>
      -- the slot that is dialed is what comes
      have hpush := creation.weight_push f key (w.nextConn creation.nextEndpoint)
      have hset := weigh_insertCreation f hcreation
        (creation.push (w.nextConn creation.nextEndpoint))
        (creation.nextEndpoint.address :: w.dialed)
      simp only [List.map_cons, List.map_nil, List.sum_cons, List.sum_nil]
      omega
  | @establish key slot creation conn hcreation hslot =>
      -- the connection stays in its slot, and only its state changes
      have hslots := Creation.weight_establish f key hslot conn
      have hset := weigh_insertCreation f hcreation (creation.establish slot conn) w.dialed
      simp only [List.map_cons, List.map_nil, List.sum_cons, List.sum_nil]
      omega
  | @failSlot key slot creation conn cause hcreation hslot =>
      have hslots := Creation.weight_fail f key hslot cause
      have hset := weigh_insertCreation f hcreation (creation.fail slot cause) w.dialed
      simp only [List.map_cons, List.map_nil, List.sum_cons, List.sum_nil]
      omega
  | finishEmpty hcreation | abandon hcreation =>
      have hcreations := weigh_eraseCreation f hcreation
      simp only [List.map_nil, List.sum_nil]
      omega
  | @finish key creation pool hcreation hsettled houtcome =>
      -- the slots go, and the queue of the new pool comes
      have hcreations := Table.total_erase (Creation.weight f) hcreation
      have hpools := Pool.total_weight_append f w.pools pool
      rw [Creation.weight] at hcreations
      rw [Pool.weight_eq] at hpools
      simp only [weigh_eq]
      omega
  | @start key id pool entry taken hkey hloan hheld hpool htake =>
      -- the first connection of the queue goes over to the call
      have hprobe := weigh_withProbe f hkey hpool htake (max pool.idleConnections 1 - 1)
      simp only [List.map_cons, List.map_nil, List.sum_cons, List.sum_nil]
      omega
  | startEmpty | reportUnknown => rfl
  | @pass key call pool entry hcall hpool hphase =>
      -- the connection goes from the call to the loan
      have hlend := weigh_withLoan f hw hcall ⟨call.pool, entry⟩
      rw [Call.weight_of_probing f _ hphase] at hlend
      simp only [List.map_cons, List.map_nil, List.sum_cons, List.sum_nil]
      omega
  | @dismiss key call pool entry cause hcall hpool hphase =>
      -- the call waits for a dial from now on, and the queue is as it was
      have hcalls := Table.total_insert_old (Call.weight f) hcall
        { call with phase := .redialing ⟨w.nextConn (pool.endpoint entry.index), entry.index⟩ }
      have hpools := Pool.total_weight_set f hpool pool.untrack
      rw [Call.weight_of_probing f _ hphase, Call.weight_redialing] at hcalls
      rw [Pool.weight_untrack] at hpools
      simp only [weigh_eq, setPool, List.map_cons, List.map_nil, List.sum_cons, List.sum_nil]
      omega
  | @replace key call pool entry hcall hpool hphase =>
      -- the connection is counted first, and lent then
      have hlend := weigh_withLoan (w := w.setPool call.pool pool.track) f (hw.setPool ..) hcall
        ⟨call.pool, entry⟩
      have hpools := weigh_setPool f hpool pool.track
      rw [Call.weight_of_redialing f _ hphase] at hlend
      dsimp only at hlend
      rw [Pool.weight_track] at hpools
      simp only [List.map_cons, List.map_nil, List.sum_cons, List.sum_nil]
      omega
  | @retry key call pool entry cause attemptsLeft next taken hcall hpool hphase hleft htake =>
      -- the dial is given up before the next connection is taken
      have hnone : (w.calls.erase key).get? key = none := w.calls.get?_erase_self key
      have hprobe := weigh_withProbe (w := { w with calls := w.calls.erase key }) f hnone hpool
        htake attemptsLeft
      have hcalls := weigh_eraseCall f hcall
      rw [Call.weight_of_redialing f _ hphase] at hcalls
      simp only [List.map_cons, List.map_nil, List.sum_cons, List.sum_nil]
      omega
  | giveUp hcall hpool hphase | cancelRedial hcall hpool hphase =>
      have hcalls := weigh_eraseCall f hcall
      rw [Call.weight_of_redialing f _ hphase] at hcalls
      simp only [List.map_cons, List.map_nil, List.sum_cons, List.sum_nil]
      omega
  | @cancelProbe key call pool entry hcall hpool hphase hfree =>
      -- the connection goes from the call back to the queue
      have hcalls := Table.total_erase (Call.weight f) hcall
      have hpools := Pool.total_weight_set f hpool (pool.parked entry)
      rw [Call.weight_of_probing f _ hphase] at hcalls
      rw [Pool.weight_parked] at hpools
      simp only [weigh_eq, setPool, List.map_cons, List.map_nil, List.sum_cons, List.sum_nil]
      omega
  | @cancelFull key call pool entry hcall hpool hphase hfull =>
      have hcalls := Table.total_erase (Call.weight f) hcall
      have hpools := Pool.total_weight_set f hpool pool.untrack
      rw [Call.weight_of_probing f _ hphase] at hcalls
      rw [Pool.weight_untrack] at hpools
      simp only [weigh_eq, setPool, List.map_cons, List.map_nil, List.sum_cons, List.sum_nil]
      omega
  | @takeBack key loan pool hloan hheld hpool hfree =>
      -- the connection goes from the loan back to the queue
      have hloans := Table.total_erase (Loan.weight f) hloan
      have hpools := Pool.total_weight_set f hpool (pool.parked loan.entry)
      rw [Loan.weight_eq] at hloans
      rw [Pool.weight_parked] at hpools
      simp only [weigh_eq, setPool, List.map_cons, List.map_nil, List.sum_cons, List.sum_nil]
      omega
  | takeFull hloan _ hpool | turnAway hloan _ _ _ hpool | refuse hloan hpool | drop hloan hpool =>
      have hloans := weigh_withoutLoan f hloan hpool
      simp only [List.map_cons, List.map_nil, List.sum_cons, List.sum_nil]
      omega
  | @swap first second a b hfirst hsecond hne =>
      -- the first loan is changed before the second, which is still as it was
      have hkept : (w.loans.insert first ⟨a.pool, b.entry.conn, a.entry.index⟩).get? second =
          some b := by
        rw [Table.get?_insert, if_neg hne, hsecond]
      have hinner := Table.total_insert_old (Loan.weight f) hfirst
        ⟨a.pool, b.entry.conn, a.entry.index⟩
      have houter := Table.total_insert_old (Loan.weight f) hkept
        ⟨b.pool, a.entry.conn, b.entry.index⟩
      simp only [Loan.weight_eq] at hinner houter
      simp only [weigh_eq, List.map_cons, List.map_nil, List.sum_cons, List.sum_nil]
      omega
  | letGo => rfl

theorem Effect.count_balance (hw : w.Linked) (h : Effect w action w' account)
    (p : Holding → Bool) :
    w'.count p + account.gone.countP p = w.count p + account.come.countP p := by
  have hbalance := h.balance hw fun holding => if p holding then 1 else 0
  rw [← countP_eq_sum, ← countP_eq_sum, ← count_eq_weigh, ← count_eq_weigh] at hbalance
  exact hbalance

/-- A pool that is closed gives up what is in its queue. -/
theorem weigh_closeIdle (f : Holding → Nat) {id : PoolId} {pool : Pool}
    (hpool : w.pools[id]? = some pool) :
    (w.setPool id pool.closeIdle.1).weigh f + ((pool.holdings id).map f).sum = w.weigh f := by
  have hset := weigh_setPool f hpool pool.closeIdle.1
  rw [Pool.weight_closeIdle, Pool.weight_eq] at hset
  omega

theorem count_closeIdle (p : Holding → Bool) {id : PoolId} {pool : Pool}
    (hpool : w.pools[id]? = some pool) :
    (w.setPool id pool.closeIdle.1).count p + (pool.holdings id).countP p = w.count p := by
  have hclose := weigh_closeIdle (fun holding => if p holding then 1 else 0) hpool
  rw [← countP_eq_sum, ← count_eq_weigh, ← count_eq_weigh] at hclose
  exact hclose

end HeartbeatPool.World
