import HeartbeatPool.Proofs.Stock
import HeartbeatPool.World.Step
import Mathlib.Data.List.Basic

/-!
# Who holds which connection

Every connection that is neither closed nor still unknown is in the hands of somebody: of a
creation, of an idle queue, of a call, or of a caller.  `World.holdings` lists all of it, and
`weigh` adds up a number for each holding.  Counting the connections of a pool, the slots of an
endpoint, or the places where one connection is found are all instances of `weigh`.

The lemmas say what the change of one part of the state does to every such number.
-/

namespace HeartbeatPool

/-! ## Holdings -/

/-- Where a connection can be.  Two of the places are dials under way, whose connections were not
delivered yet. -/
inductive Place where
  /-- The dial of a slot of a creation. -/
  | dialing (key : Key)
  /-- The results of a creation. -/
  | result (key : Key)
  /-- The idle queue of a pool. -/
  | idle (pool : PoolId)
  /-- The hands of a call that probes it. -/
  | checkout (key : Key) (pool : PoolId)
  /-- The dial of a call that replaces a connection. -/
  | redialing (key : Key) (pool : PoolId)
  /-- The hands of a caller. -/
  | loan (key : Key) (pool : PoolId)
  deriving DecidableEq, Repr

/-- Whether the connections of a place were delivered. -/
def Place.isDelivered : Place → Bool
  | .dialing _ | .redialing _ _ => false
  | .result _ | .idle _ | .checkout _ _ | .loan _ _ => true

/-- The pool that a place belongs to; a pool on its way is none yet. -/
def Place.pool? : Place → Option PoolId
  | .dialing _ | .result _ => none
  | .idle pool | .checkout _ pool | .redialing _ pool | .loan _ pool => some pool

/-- A connection in its place. -/
structure Holding where
  place : Place
  entry : Entry
  deriving DecidableEq, Repr

/-- What a call has in its hands. -/
def Call.holding (key : Key) (call : Call) : Holding :=
  match call.phase with
  | .probing entry => ⟨.checkout key call.pool, entry⟩
  | .redialing entry => ⟨.redialing key call.pool, entry⟩

/-- What a loan is. -/
def Loan.holding (key : Key) (loan : Loan) : Holding := ⟨.loan key loan.pool, loan.entry⟩

/-- What waits in the idle queue of a pool. -/
def Pool.holdings (id : PoolId) (pool : Pool) : List Holding :=
  pool.idle.map fun entry => ⟨.idle id, entry⟩

theorem Pool.countP_holdings (p : Holding → Bool) (id : PoolId) (pool : Pool) :
    (pool.holdings id).countP p = pool.idle.countP fun entry => p ⟨.idle id, entry⟩ := by
  rw [holdings, List.countP_map]
  rfl

/-- What a slot of a creation holds. -/
def Creation.holding? (key : Key) (creation : Creation) : Slot × Nat → Option Holding
  | (.dialing conn, slot) => some ⟨.dialing key, conn, creation.endpointOf slot⟩
  | (.established conn, slot) => some ⟨.result key, conn, creation.endpointOf slot⟩
  | (.failed _, _) => none

/-- What a creation holds. -/
def Creation.holdings (key : Key) (creation : Creation) : List Holding :=
  creation.slots.zipIdx.filterMap (creation.holding? key)

namespace World

/-- Everything that anybody holds. -/
def holdings (w : World) : List Holding :=
  (w.creations.toList.flatMap fun pair => pair.2.holdings pair.1) ++
    (w.pools.zipIdx.flatMap fun pair => pair.1.holdings pair.2) ++
    (w.calls.toList.map fun pair => pair.2.holding pair.1) ++
    w.loans.toList.map fun pair => pair.2.holding pair.1

/-- The sum of a number for every holding. -/
def weigh (f : Holding → Nat) (w : World) : Nat := (w.holdings.map f).sum

end World

/-! ## The parts of the sum -/

section Weights

variable (f : Holding → Nat) (key : Key)

/-- What a creation contributes. -/
def Creation.weight (creation : Creation) : Nat := ((creation.holdings key).map f).sum

/-- What a pool contributes. -/
def Pool.weight (pool : Pool × PoolId) : Nat := ((pool.1.holdings pool.2).map f).sum

/-- What a call contributes. -/
def Call.weight (call : Call) : Nat := f (call.holding key)

/-- What a loan contributes. -/
def Loan.weight (loan : Loan) : Nat := f (loan.holding key)

@[simp] theorem Call.weight_probing (id : PoolId) (attemptsLeft : Nat) (entry : Entry) :
    Call.weight f key ⟨id, attemptsLeft, .probing entry⟩ = f ⟨.checkout key id, entry⟩ := rfl

@[simp] theorem Call.weight_redialing (id : PoolId) (attemptsLeft : Nat) (entry : Entry) :
    Call.weight f key ⟨id, attemptsLeft, .redialing entry⟩ = f ⟨.redialing key id, entry⟩ := rfl

theorem Call.weight_of_probing {call : Call} {entry : Entry} (h : call.phase = .probing entry) :
    call.weight f key = f ⟨.checkout key call.pool, entry⟩ := by
  rw [weight, holding, h]

theorem Call.weight_of_redialing {call : Call} {entry : Entry}
    (h : call.phase = .redialing entry) :
    call.weight f key = f ⟨.redialing key call.pool, entry⟩ := by
  rw [weight, holding, h]

@[simp] theorem Loan.weight_eq (loan : Loan) :
    loan.weight f key = f ⟨.loan key loan.pool, loan.entry⟩ := rfl

theorem Pool.weight_eq (pool : Pool) (id : PoolId) :
    Pool.weight f (pool, id) = ((pool.holdings id).map f).sum := rfl

theorem Pool.weight_takeIdle {pool taken : Pool} {entry : Entry} (id : PoolId)
    (htake : pool.takeIdle? = some (entry, taken)) :
    Pool.weight f (pool, id) = f ⟨.idle id, entry⟩ + Pool.weight f (taken, id) := by
  obtain ⟨rest, hidle, rfl⟩ := takeIdle?_eq_some_iff.mp htake
  rw [weight, holdings, hidle]
  rfl

theorem Pool.weight_parked (pool : Pool) (id : PoolId) (entry : Entry) :
    Pool.weight f (pool.parked entry, id) = Pool.weight f (pool, id) + f ⟨.idle id, entry⟩ := by
  simp [weight, holdings]

@[simp] theorem Pool.weight_track (pool : Pool) (id : PoolId) :
    Pool.weight f (pool.track, id) = Pool.weight f (pool, id) := rfl

@[simp] theorem Pool.weight_untrack (pool : Pool) (id : PoolId) :
    Pool.weight f (pool.untrack, id) = Pool.weight f (pool, id) := rfl

@[simp] theorem Pool.weight_closeIdle (pool : Pool) (id : PoolId) :
    Pool.weight f (pool.closeIdle.1, id) = 0 := rfl

/-- The weight of pools of which one was replaced. -/
theorem Pool.total_weight_set {pools : List Pool} {id : PoolId} {old : Pool}
    (hpool : pools[id]? = some old) (new : Pool) :
    ((pools.set id new).zipIdx.map (Pool.weight f)).sum + Pool.weight f (old, id) =
      (pools.zipIdx.map (Pool.weight f)).sum + Pool.weight f (new, id) := by
  have hset := sum_zipIdx_set (Pool.weight f) hpool new 0
  rw [Nat.zero_add] at hset
  exact hset

/-- The weight of pools with a new one. -/
theorem Pool.total_weight_append (pools : List Pool) (new : Pool) :
    ((pools ++ [new]).zipIdx.map (Pool.weight f)).sum =
      (pools.zipIdx.map (Pool.weight f)).sum + Pool.weight f (new, pools.length) := by
  rw [List.zipIdx_append, List.map_append, List.sum_append_nat]
  simp

end Weights

namespace World

/-- The sum falls apart into the four parts of the state. -/
theorem weigh_eq (f : Holding → Nat) (w : World) :
    w.weigh f =
      w.creations.total (Creation.weight f) + (w.pools.zipIdx.map (Pool.weight f)).sum +
        w.calls.total (Call.weight f) + w.loans.total (Loan.weight f) := by
  unfold weigh holdings
  simp only [List.map_append, List.sum_append_nat, sum_map_flatMap, List.map_map]
  rfl

/-- How many holdings are of some kind. -/
def count (p : Holding → Bool) (w : World) : Nat := w.holdings.countP p

theorem count_eq_weigh (p : Holding → Bool) (w : World) :
    w.count p = w.weigh fun holding => if p holding then 1 else 0 :=
  countP_eq_sum p w.holdings

theorem weigh_congr {f g : Holding → Nat} (h : ∀ holding, f holding = g holding) (w : World) :
    w.weigh f = w.weigh g :=
  congrArg List.sum (List.map_congr_left fun holding _ => h holding)

theorem weigh_add (f g : Holding → Nat) (w : World) :
    w.weigh (fun holding => f holding + g holding) = w.weigh f + w.weigh g :=
  List.sum_map_add

end World

/-! ## Slots of a creation -/

namespace Creation

variable {creation : Creation}

theorem weight_eq (f : Holding → Nat) (key : Key) (creation : Creation) :
    creation.weight f key =
      (creation.slots.zipIdx.map fun pair => (creation.holding? key pair).elim 0 f).sum :=
  sum_map_filterMap ..

theorem weight_push (f : Holding → Nat) (key : Key) (conn : Conn) :
    (creation.push conn).weight f key =
      creation.weight f key +
        f ⟨.dialing key, conn, creation.endpointOf creation.slots.length⟩ := by
  have hholding : (creation.push conn).holding? key = creation.holding? key := rfl
  have hslots : (creation.push conn).slots = creation.slots ++ [.dialing conn] := rfl
  rw [weight_eq, weight_eq, hholding, hslots]
  simp [List.zipIdx_append, holding?]

theorem weight_establish (f : Holding → Nat) (key : Key) {slot : Nat} {old : Conn}
    (hslot : creation.slots[slot]? = some (.dialing old)) (conn : Conn) :
    (creation.establish slot conn).weight f key +
        f ⟨.dialing key, old, creation.endpointOf slot⟩ =
      creation.weight f key + f ⟨.result key, conn, creation.endpointOf slot⟩ := by
  have hholding : (creation.establish slot conn).holding? key = creation.holding? key := rfl
  have hslots : (creation.establish slot conn).slots =
      creation.slots.set slot (.established conn) := rfl
  have hset := sum_zipIdx_set (fun pair => (creation.holding? key pair).elim 0 f) hslot
    (.established conn) 0
  rw [weight_eq, weight_eq, hholding, hslots]
  simpa [holding?] using hset

theorem weight_fail (f : Holding → Nat) (key : Key) {slot : Nat} {old : Conn}
    (hslot : creation.slots[slot]? = some (.dialing old)) (cause : String) :
    (creation.fail slot cause).weight f key +
        f ⟨.dialing key, old, creation.endpointOf slot⟩ =
      creation.weight f key := by
  have hholding : (creation.fail slot cause).holding? key = creation.holding? key := rfl
  have hslots : (creation.fail slot cause).slots = creation.slots.set slot (.failed cause) := rfl
  have hset := sum_zipIdx_set (fun pair => (creation.holding? key pair).elim 0 f) hslot
    (.failed cause) 0
  rw [weight_eq, weight_eq, hholding, hslots]
  simpa [holding?] using hset

/-- What a creation holds is of no pool yet. -/
theorem pool?_of_mem_holdings {key : Key} {holding : Holding}
    (h : holding ∈ creation.holdings key) : holding.place.pool? = none := by
  obtain ⟨⟨slot, position⟩, -, hholding⟩ := List.mem_filterMap.mp h
  cases slot <;> cases hholding <;> rfl

end Creation

end HeartbeatPool
