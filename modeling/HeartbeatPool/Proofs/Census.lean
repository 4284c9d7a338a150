import HeartbeatPool.Proofs.Orderly

/-!
# How many connections a pool has, and where

The counts of the invariant, told place by place: what waits in the idle queue, what is probed or
redialed by a call, and what is on loan.  No endpoint has more slots than it may have connections,
so the pool has no more than its capacity, the counter never wraps around, and there is a free place
in the queue for every connection that comes back.
-/

namespace HeartbeatPool

/-- Whether a call waits for a heartbeat. -/
def Call.isProbing (call : Call) : Bool :=
  match call.phase with
  | .probing _ => true
  | .redialing _ => false

/-- What a call has in its hands: a connection that it probes, or what it dials. -/
def Call.entry (call : Call) : Entry :=
  match call.phase with
  | .probing entry | .redialing entry => entry

namespace World

variable {w w' : World} {action : Action} {id : PoolId} {pool : Pool}

/-- How many connections of a pool are under probe. -/
def probing (w : World) (id : PoolId) : Nat :=
  w.calls.values.countP fun call => call.pool == id && call.isProbing

/-- How many connections of a pool are on loan. -/
def lent (w : World) (id : PoolId) : Nat := w.loans.values.countP fun loan => loan.pool == id

/-- How many slots of a pool belong to an endpoint: idle connections, connections under probe,
dials that replace a connection, and loans. -/
def slotsAt (w : World) (id : PoolId) (index : Nat) : Nat :=
  ((w.pools[id]?.elim [] Pool.idle).countP fun entry => entry.index == index) +
    (w.calls.values.countP fun call => call.pool == id && call.entry.index == index) +
    w.loans.values.countP fun loan => loan.pool == id && loan.entry.index == index

/-! ## Counts place by place -/

/-- What is counted of one pool is in its queue, in the hands of a call, or on loan. -/
theorem count_eq (hpool : w.pools[id]? = some pool) {p : Holding → Bool}
    (hp : ∀ holding, p holding = true → holding.place.pool? = some id) :
    w.count p =
      (pool.idle.countP fun entry => p ⟨.idle id, entry⟩) +
        (w.calls.toList.countP fun pair => p (pair.2.holding pair.1)) +
        w.loans.toList.countP fun pair => p (pair.2.holding pair.1) := by
  have hcreations :
      (w.creations.toList.flatMap fun pair => pair.2.holdings pair.1).countP p = 0 := by
    refine List.countP_eq_zero.mpr fun holding hmem htrue => ?_
    obtain ⟨pair, -, hmem⟩ := List.mem_flatMap.mp hmem
    have hplace := hp holding htrue
    rw [pair.2.pool?_of_mem_holdings hmem] at hplace
    cases hplace
  have hpools : (w.pools.zipIdx.flatMap fun pair => pair.1.holdings pair.2).countP p =
      pool.idle.countP fun entry => p ⟨.idle id, entry⟩ := by
    rw [countP_eq_sum, sum_map_flatMap, sum_zipIdx_eq_single hpool 0, ← countP_eq_sum,
      Nat.zero_add, Pool.countP_holdings]
    intro other position hne
    rw [← countP_eq_sum, Pool.countP_holdings, List.countP_eq_zero]
    intro entry _ htrue
    have hplace := hp _ htrue
    exact hne (by simpa [Place.pool?] using hplace)
  rw [count, holdings, List.countP_append, List.countP_append, List.countP_append, hcreations,
    hpools, List.countP_map, List.countP_map, Nat.zero_add]
  rfl

theorem count_isTracked (hpool : w.pools[id]? = some pool) :
    w.count (Holding.isTracked id) = pool.idle.length + w.probing id + w.lent id := by
  rw [count_eq hpool fun holding h => by simp_all [Holding.isTracked], probing, lent,
    Table.values, Table.values, List.countP_map, List.countP_map]
  congr 1
  · congr 1
    · simp
    · refine List.countP_congr fun pair _ => ?_
      rcases pair with ⟨key, other, attemptsLeft, entry | entry⟩ <;>
        simp [Call.holding, Call.isProbing]
  · refine List.countP_congr fun pair _ => ?_
    simp [Loan.holding]

theorem count_isSlot (hpool : w.pools[id]? = some pool) (index : Nat) :
    w.count (Holding.isSlot id (· == index)) = w.slotsAt id index := by
  rw [count_eq hpool fun holding h => by simp_all [Holding.isSlot], slotsAt, hpool,
    Table.values, Table.values, List.countP_map, List.countP_map]
  congr 1
  congr 1
  · simp
  · refine List.countP_congr fun pair _ => ?_
    rcases pair with ⟨key, other, attemptsLeft, entry | entry⟩ <;>
      simp [Call.holding, Call.entry]

/-! ## Bounds -/

/-- The slots of some endpoints, and those of one more. -/
theorem count_isSlot_succ (w : World) (id : PoolId) (length : Nat) :
    w.count (Holding.isSlot id fun index => decide (index < length + 1)) =
      w.count (Holding.isSlot id fun index => decide (index < length)) +
        w.count (Holding.isSlot id (· == length)) := by
  rw [count_eq_weigh, count_eq_weigh, count_eq_weigh, ← weigh_add]
  refine weigh_congr (fun holding => ?_) w
  unfold Holding.isSlot
  rcases Nat.lt_trichotomy holding.entry.index length with hlt | heq | hgt
  · have hne : ¬ holding.entry.index = length := by omega
    have hle : holding.entry.index < length + 1 := by omega
    simp [hlt, hne, hle]
  · simp [heq]
  · have hne : ¬ holding.entry.index = length := by omega
    have hnot : ¬ holding.entry.index < length := by omega
    have hnot' : ¬ holding.entry.index < length + 1 := by omega
    simp [hne, hnot, hnot']

namespace OrderlyPool

variable (h : w.OrderlyPool id pool)
include h

theorem count_isSlot_lt_le (length : Nat) :
    w.count (Holding.isSlot id fun index => decide (index < length)) ≤
      pool.settings.perEndpoint * length := by
  induction length with
  | zero =>
      have hnone : w.count (Holding.isSlot id fun index => decide (index < 0)) = 0 :=
        List.countP_eq_zero.mpr fun holding _ => by simp [Holding.isSlot]
      exact Nat.le_of_eq hnone
  | succ length ih =>
      have hslots := h.slots length
      rw [count_isSlot_succ, Nat.mul_succ]
      omega

/-- All slots of a pool belong to endpoints of its table. -/
theorem count_isSlot_all : w.count (Holding.isSlot id fun _ => true) =
    w.count (Holding.isSlot id fun index => decide (index < pool.endpoints.length)) := by
  have hparts : w.count (Holding.isSlot id fun _ => true) =
      w.count (Holding.isSlot id fun index => decide (index < pool.endpoints.length)) +
        w.count (Holding.isSlot id fun index => decide (pool.endpoints.length ≤ index)) := by
    rw [count_eq_weigh, count_eq_weigh, count_eq_weigh, ← weigh_add]
    refine weigh_congr (fun holding => ?_) w
    unfold Holding.isSlot
    by_cases hlt : holding.entry.index < pool.endpoints.length
    · simp [hlt, Nat.not_le_of_lt hlt]
    · simp [hlt, Nat.le_of_not_lt hlt]
  rw [hparts, h.indexed, Nat.add_zero]

/-- A pool has no more slots than its capacity. -/
theorem count_isSlot_le : w.count (Holding.isSlot id fun _ => true) ≤ pool.capacity := by
  rw [h.count_isSlot_all]
  exact h.count_isSlot_lt_le pool.endpoints.length

theorem count_isTracked_le : w.count (Holding.isTracked id) ≤ pool.capacity := by
  refine Nat.le_trans (List.countP_mono_left fun holding _ htracked => ?_) h.count_isSlot_le
  simp_all [Holding.isTracked, Holding.isSlot]

/-- The counter is the number of connections. -/
theorem live_eq (hpool : w.pools[id]? = some pool) :
    pool.live = pool.idle.length + w.probing id + w.lent id := by
  have hbound : w.count (Holding.isTracked id) < 2 ^ 64 :=
    Nat.lt_of_le_of_lt (Nat.le_trans h.count_isTracked_le h.bounded) (by decide)
  rw [Pool.live, h.counted, UInt64.toNat_ofNat', Nat.mod_eq_of_lt hbound, count_isTracked hpool]

/-- The counter never exceeds the capacity. -/
theorem live_le (hpool : w.pools[id]? = some pool) : pool.live ≤ pool.capacity := by
  rw [h.live_eq hpool, ← count_isTracked hpool]
  exact h.count_isTracked_le

end OrderlyPool

/-! ## Room in the queue -/

theorem probing_pos {key : Key} {call : Call} {entry : Entry}
    (hcall : w.calls.get? key = some call) (hphase : call.phase = .probing entry) :
    0 < w.probing call.pool := by
  have hmem : call ∈ w.calls.values :=
    List.mem_map.mpr ⟨(key, call), (w.calls.get?_eq_some_iff key call).mp hcall, rfl⟩
  exact List.countP_pos_iff.mpr ⟨call, hmem, by simp [Call.isProbing, hphase]⟩

theorem lent_pos {key : Key} {loan : Loan} (hloan : w.loans.get? key = some loan) :
    0 < w.lent loan.pool := by
  have hmem : loan ∈ w.loans.values :=
    List.mem_map.mpr ⟨(key, loan), (w.loans.get?_eq_some_iff key loan).mp hloan, rfl⟩
  exact List.countP_pos_iff.mpr ⟨loan, hmem, by simp⟩

/-- While a connection of a pool is probed or on loan, the queue has a free place for it. -/
theorem OrderlyPool.free_pos (h : w.OrderlyPool id pool) (hpool : w.pools[id]? = some pool)
    (haway : 0 < w.probing id + w.lent id) : 0 < pool.free := by
  have hlive := h.live_eq hpool
  have hle := h.live_le hpool
  have hsized := h.sized
  unfold Pool.Sized at hsized
  omega

/-! ## A small run -/

/-- Creates a pool with two connections to one endpoint. -/
def twoIdle : List Action :=
  [.create 0 "echo" "echo" [{ address := "a:1" }] { perEndpoint := 2 }, .dialSlot 0, .dialSlot 0,
    .settleSlot 0 0 .success, .settleSlot 0 1 .success, .finish 0]

/-- Then lends one of them, and probes the other. -/
def lentAndProbed : List Action := twoIdle ++ [.acquire 1 0, .settle 1 .success, .acquire 2 0]

example : (run {} lentAndProbed).1.lent 0 = 1 ∧ (run {} lentAndProbed).1.probing 0 = 1 := by decide

end World

end HeartbeatPool
