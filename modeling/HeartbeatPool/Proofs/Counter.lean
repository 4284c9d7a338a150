import HeartbeatPool.Proofs.Census

/-!
# The counter of live connections

After every run the counter of a pool says how many connections the pool has, and it never wraps
around: whatever the pool may give up is counted at that moment.
-/

namespace HeartbeatPool

/-! ## One pool -/

namespace Pool

variable {pool : Pool}

/-- Giving up one connection of several counts one less. -/
theorem live_untrack (h : 0 < pool.live) : pool.untrack.live + 1 = pool.live := by
  have hone : (1 : UInt64) ≤ pool.counter := UInt64.le_iff_toNat_le.mpr h
  unfold live untrack
  rw [UInt64.toNat_sub_of_le _ _ hone]
  exact Nat.sub_add_cancel h

/-- Closing the queue counts as many less as there were in it. -/
theorem live_closeIdle (h : pool.idle.length ≤ pool.live) :
    pool.closeIdle.1.live + pool.idle.length = pool.live := by
  have hsmall : pool.idle.length < 2 ^ 64 := Nat.lt_of_le_of_lt h (UInt64.toNat_lt _)
  have hnumber : (UInt64.ofNat pool.idle.length).toNat = pool.idle.length := by
    rw [UInt64.toNat_ofNat', Nat.mod_eq_of_lt hsmall]
  have hle : UInt64.ofNat pool.idle.length ≤ pool.counter := by
    rw [UInt64.le_iff_toNat_le, hnumber]
    exact h
  unfold live closeIdle
  rw [UInt64.toNat_sub_of_le _ _ hle, hnumber]
  exact Nat.sub_add_cancel h

end Pool

namespace World

variable {w : World} {id : PoolId} {pool : Pool}

theorem probing_eq_zero (h : ∀ key call, w.calls.get? key = some call → call.pool ≠ id) :
    w.probing id = 0 := by
  refine List.countP_eq_zero.mpr fun call hcall => ?_
  obtain ⟨⟨key, call⟩, hmem, rfl⟩ := List.mem_map.mp hcall
  have hne := h key call ((w.calls.get?_eq_some_iff key call).mpr hmem)
  simp [hne]

theorem lent_eq_zero (h : ∀ key loan, w.loans.get? key = some loan → loan.pool ≠ id) :
    w.lent id = 0 := by
  refine List.countP_eq_zero.mpr fun loan hloan => ?_
  obtain ⟨⟨key, loan⟩, hmem, rfl⟩ := List.mem_map.mp hloan
  have hne := h key loan ((w.loans.get?_eq_some_iff key loan).mpr hmem)
  simp [hne]

/-! ## Every run -/

/-- After every run, the counter of a pool is the number of its connections that are idle, under
probe or on loan, and the number of idle connections is the length of the queue.  So nothing that
the pool may give up, be it a connection whose heartbeat may fail, one on loan, or the whole queue,
makes the counter wrap around.  Where no call is under way and nothing is on loan, all connections
are idle. -/
theorem live_after_run (actions : List Action) (id : PoolId)
    (hpool : (run {} actions).1.pools[id]? = some pool) :
    pool.live = pool.idle.length + (run {} actions).1.probing id + (run {} actions).1.lent id ∧
      (pool.free ≤ pool.capacity ∧ pool.idleConnections = pool.idle.length) ∧
      (∀ key call entry, (run {} actions).1.calls.get? key = some call → call.pool = id →
        call.phase = .probing entry → pool.untrack.live + 1 = pool.live) ∧
      (∀ key loan, (run {} actions).1.loans.get? key = some loan → loan.pool = id →
        pool.untrack.live + 1 = pool.live) ∧
      pool.closeIdle.1.live + pool.idle.length = pool.live ∧
      ((∀ key call, (run {} actions).1.calls.get? key = some call → call.pool ≠ id) →
        (∀ key loan, (run {} actions).1.loans.get? key = some loan → loan.pool ≠ id) →
        pool.live = pool.idleConnections) := by
  have horderly := (Orderly.initial.run actions).pool hpool
  have hlive := horderly.live_eq hpool
  have hidle := horderly.sized.idleConnections_eq
  refine ⟨hlive, ⟨horderly.sized.free_le, hidle⟩, ?_, ?_, ?_, ?_⟩
  · rintro key call entry hcall rfl hphase
    have hprobing := probing_pos hcall hphase
    exact Pool.live_untrack (by omega)
  · rintro key loan hloan rfl
    have hlent := lent_pos hloan
    exact Pool.live_untrack (by omega)
  · exact Pool.live_closeIdle (by omega)
  · intro hcalls hloans
    have hprobing := probing_eq_zero hcalls
    have hlent := lent_eq_zero hloans
    omega

/-- Two connections are alive, whether both are idle or one is on loan and one is probed. -/
theorem live_after_loan_and_probe :
    (∃ pool, (run {} twoIdle).1.pools[0]? = some pool ∧ pool.live = pool.idleConnections) ∧
      ∃ pool, (run {} lentAndProbed).1.pools[0]? = some pool ∧ pool.live = 0 + 1 + 1 ∧
        (∃ loan, (run {} lentAndProbed).1.loans.get? 1 = some loan ∧
          pool.untrack.live + 1 = pool.live) ∧
        ∃ call, (run {} lentAndProbed).1.calls.get? 2 = some call ∧
          pool.untrack.live + 1 = pool.live := by
  constructor
  · refine ⟨_, rfl, ?_⟩
    have h := live_after_run twoIdle 0 rfl
    exact h.2.2.2.2.2 (fun key call h => nomatch h) (fun key loan h => nomatch h)
  · have h := live_after_run lentAndProbed 0 rfl
    refine ⟨_, rfl, h.1, ⟨_, rfl, ?_⟩, ⟨_, rfl, ?_⟩⟩
    · exact h.2.2.2.1 1 _ rfl rfl
    · exact h.2.2.1 2 _ _ rfl rfl rfl

end World

end HeartbeatPool
