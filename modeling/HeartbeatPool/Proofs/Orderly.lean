import HeartbeatPool.Proofs.Keeping

/-!
# The invariant of all pools

`Orderly` collects what is true of the pools and the creations of every state that can be reached.
The clauses about a pool speak of counts of holdings, so that the balance of a step shows that they
are kept.

* `slots`: no endpoint has more slots than it may have connections; nothing in the code enforces
  this, it holds because a slot begins only where one of the same endpoint ends.
* `counted`: the counter of a pool is the number of the connections that it has to count, up to the
  wrapping of machine words.
-/

namespace HeartbeatPool.World

variable {w w' : World} {action : Action} {account : Account} {id : PoolId} {pool pool' : Pool}

/-- What is true of one pool in a state. -/
structure OrderlyPool (w : World) (id : PoolId) (pool : Pool) : Prop where
  sized : pool.Sized
  bounded : pool.capacity ≤ maxCapacity
  counted : pool.counter = UInt64.ofNat (w.count (Holding.isTracked id))
  slots : ∀ index, w.count (Holding.isSlot id (· == index)) ≤ pool.settings.perEndpoint
  /-- No slot belongs to an endpoint outside the table. -/
  indexed : w.count (Holding.isSlot id fun index => decide (pool.endpoints.length ≤ index)) = 0

/-- What is true of every state that can be reached. -/
structure Orderly (w : World) : Prop where
  linked : w.Linked
  fresh : ∀ {key creation}, w.creations.get? key = some creation → creation.Fresh
  pool : ∀ {id pool}, w.pools[id]? = some pool → w.OrderlyPool id pool

theorem Orderly.initial : Orderly {} where
  linked := .initial
  fresh h := by simp [Table.get?, Table.find, EmptyCollection.emptyCollection, Table.empty] at h
  pool h := by simp at h

/-! ## Creations -/

theorem Effect.fresh (h : Effect w action w' account)
    (hfresh : ∀ {key creation}, w.creations.get? key = some creation → creation.Fresh)
    {key : Key} {creation : Creation} (hcreation : w'.creations.get? key = some creation) :
    creation.Fresh := by
  cases h with
  | create hkey hok => exact Table.insert_induction (.new hok) hfresh hcreation
  | dialSlot hold hroom =>
      exact Table.insert_induction ((hfresh hold).push hroom _) hfresh hcreation
  | establish hold hslot =>
      exact Table.insert_induction ((hfresh hold).establish hslot _) hfresh hcreation
  | failSlot hold hslot =>
      exact Table.insert_induction ((hfresh hold).fail hslot _) hfresh hcreation
  | finishEmpty | finish | abandon => exact hfresh (Table.get?_of_erase hcreation)
  | _ => exact hfresh hcreation

/-! ## Pools -/

/-- A pool that was there before stays orderly. -/
theorem OrderlyPool.kept (horderly : w.OrderlyPool id pool) (hkept : account.Keeps id pool pool')
    (hbalance : ∀ p, w'.count p + account.gone.countP p = w.count p + account.come.countP p)
    (hle : ∀ among, account.come.countP (Holding.isSlot id among) ≤
      account.gone.countP (Holding.isSlot id among)) : w'.OrderlyPool id pool' := by
  have hslots (among : Nat → Bool) :
      w'.count (Holding.isSlot id among) ≤ w.count (Holding.isSlot id among) := by
    have hbalance := hbalance (Holding.isSlot id among)
    have hle := hle among
    omega
  refine
    { sized := hkept.sized horderly.sized
      bounded := hkept.capacity_eq ▸ horderly.bounded
      counted := ?_
      slots := fun index => ?_
      indexed := ?_ }
  · -- the counter moved by what came and went, and so did the count
    have hcounter := hkept.counter
    rw [horderly.counted, ← UInt64.ofNat_add, ← hbalance, UInt64.ofNat_add] at hcounter
    exact UInt64.add_left_inj _ |>.mp hcounter
  · rw [hkept.settings]
    exact Nat.le_trans (hslots _) (horderly.slots index)
  · rw [hkept.endpoints]
    exact Nat.le_zero.mp (horderly.indexed ▸ hslots _)

/-- A new pool is orderly. -/
theorem OrderlyPool.new (hw : w.Linked) (h : Effect w action w' account) {key : Key}
    {creation : Creation} (hfresh : creation.Fresh) (houtcome : creation.outcome = .ok pool)
    (hgone : account.gone = creation.holdings key)
    (hcome : account.come = pool.holdings w.pools.length) :
    w'.OrderlyPool w.pools.length pool := by
  obtain ⟨-, rfl⟩ := hfresh.outcome_eq_ok_iff.mp houtcome
  -- what is in the new pool is what its creation has established
  have hcount {p : Holding → Bool}
      (hp : ∀ holding, p holding = true → holding.place.pool? = some w.pools.length)
      (hnone : (creation.holdings key).countP p = 0) :
      w'.count p = creation.entries.countP fun entry => p ⟨.idle w.pools.length, entry⟩ := by
    have hbalance := h.count_balance hw p
    rw [hgone, hcome, hnone, hw.count_absent (Nat.le_refl _) hp, Pool.countP_holdings,
      hfresh.stock_eq] at hbalance
    simpa using hbalance
  have htracked := hcount (p := Holding.isTracked w.pools.length)
    (fun holding hp => by simp_all [Holding.isTracked])
    (countP_holdings_isTracked _ key creation)
  have hslot (among : Nat → Bool) := hcount (p := Holding.isSlot w.pools.length among)
    (fun holding hp => by simp_all [Holding.isSlot])
    (countP_holdings_isSlot _ among key creation)
  rw [hfresh.stock_eq]
  refine
    { sized := ?_
      bounded := hfresh.bounded
      counted := ?_
      slots := fun index => ?_
      indexed := ?_ }
  · have hle := creation.length_entries_le
    have hroom := hfresh.room
    unfold Pool.Sized Pool.capacity
    unfold Pool.capacity at hroom
    dsimp only
    omega
  · rw [htracked, hfresh.counter]
    simp
  · rw [hslot]
    simpa using hfresh.countP_entries_le index
  · rw [hslot]
    simpa using fun entry hentry => hfresh.index_lt hentry

theorem Orderly.effect (hw : w.Orderly) (h : Effect w action w' account) : w'.Orderly where
  linked := hw.linked.effect h
  fresh := h.fresh hw.fresh
  pool {id pool'} hpool' := by
    rcases h.pools hpool' with ⟨pool, hpool, hkept⟩ |
      ⟨rfl, key, creation, hcreation, -, houtcome, hgone, hcome⟩
    · have hid : id < w.pools.length := (List.getElem?_eq_some_iff.mp hpool).1
      exact (hw.pool hpool).kept hkept (h.count_balance hw.linked) (h.slots_le hid)
    · exact .new hw.linked h (hw.fresh hcreation) houtcome hgone hcome

/-! ## The closing of a pool -/

theorem Orderly.close (hw : w.Orderly) (hpool : w.pools[id]? = some pool) :
    (w.setPool id pool.closeIdle.1).Orderly where
  linked := hw.linked.setPool id _
  fresh := hw.fresh
  pool {other pool'} hpool' := by
    -- closing is told by an account like any other: all of the queue comes to an end
    let account : Account := { gone := pool.holdings id }
    have hnew : account.Keeps id pool pool.closeIdle.1 := by
      simpa [Account.Keeps, account, Pool.countP_holdings] using .closeIdle pool
    have hothers (other : PoolId) (hne : other ≠ id) :
        account.gone.countP (Holding.isTracked other) = 0 := by
      simp [account, Pool.countP_holdings, hne.symm]
    obtain ⟨old, hold, hkept⟩ := keeps_of_set hpool hpool' hnew hothers
    exact (hw.pool hold).kept hkept (fun p => count_closeIdle p hpool) fun _ => Nat.zero_le _

/-! ## Runs -/

theorem Orderly.step (hw : w.Orderly) (action : Action) : (w.step action).1.Orderly :=
  step_induction hw.linked hw hw.effect (fun hw' hpool _ => hw'.close hpool) action

theorem Orderly.run (hw : w.Orderly) (actions : List Action) : (w.run actions).1.Orderly :=
  run_induction (fun _ hw action => hw.step action) actions hw.linked hw

end HeartbeatPool.World
