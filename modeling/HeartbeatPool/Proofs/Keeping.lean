import HeartbeatPool.Proofs.Balance

/-!
# What a rule does to a pool

Every rule leaves a pool as it was, or does one thing to it: it takes a connection out of the queue,
puts one in, or counts one more or one less.  In each case the counter moves as the connections do
that the pool has to count, and no holding of the pool begins at an endpoint where none ends.
-/

namespace HeartbeatPool

/-! ## Kinds of holdings -/

/-- Whether a pool counts a holding: the connection was delivered, and is of the pool. -/
def Holding.isTracked (id : PoolId) (holding : Holding) : Bool :=
  holding.place.pool? == some id && holding.place.isDelivered

/-- Whether a holding is of a pool and of some of its endpoints. -/
def Holding.isSlot (id : PoolId) (among : Nat → Bool) (holding : Holding) : Bool :=
  holding.place.pool? == some id && among holding.entry.index

/-- Whether a holding is in the idle queue of a pool. -/
def Holding.isIdle (id : PoolId) (holding : Holding) : Bool := holding.place == .idle id

namespace Holding

variable (id other : PoolId) (key : Key) (entry : Entry) (among : Nat → Bool)

@[simp] theorem isTracked_dialing : isTracked id ⟨.dialing key, entry⟩ = false := rfl

@[simp] theorem isTracked_result : isTracked id ⟨.result key, entry⟩ = false := rfl

@[simp] theorem isTracked_idle : isTracked id ⟨.idle other, entry⟩ = (other == id) :=
  Bool.and_true _

@[simp] theorem isTracked_checkout :
    isTracked id ⟨.checkout key other, entry⟩ = (other == id) :=
  Bool.and_true _

@[simp] theorem isTracked_redialing : isTracked id ⟨.redialing key other, entry⟩ = false :=
  Bool.and_false _

@[simp] theorem isTracked_loan : isTracked id ⟨.loan key other, entry⟩ = (other == id) :=
  Bool.and_true _

@[simp] theorem isSlot_dialing : isSlot id among ⟨.dialing key, entry⟩ = false := rfl

@[simp] theorem isSlot_result : isSlot id among ⟨.result key, entry⟩ = false := rfl

@[simp] theorem isSlot_idle :
    isSlot id among ⟨.idle other, entry⟩ = (other == id && among entry.index) := rfl

@[simp] theorem isSlot_checkout :
    isSlot id among ⟨.checkout key other, entry⟩ = (other == id && among entry.index) := rfl

@[simp] theorem isSlot_redialing :
    isSlot id among ⟨.redialing key other, entry⟩ = (other == id && among entry.index) := rfl

@[simp] theorem isSlot_loan :
    isSlot id among ⟨.loan key other, entry⟩ = (other == id && among entry.index) := rfl

end Holding

/-! ## Pools -/

/-- A pool is what another became when it ceased to count some connections and began to count some
others. -/
structure Pool.Kept (ceased began : Nat) (pool pool' : Pool) : Prop where
  settings : pool'.settings = pool.settings
  endpoints : pool'.endpoints = pool.endpoints
  sized : pool.Sized → pool'.Sized
  counter : pool'.counter + UInt64.ofNat ceased = pool.counter + UInt64.ofNat began

namespace Pool.Kept

variable {pool pool' : Pool} {ceased began : Nat}

theorem refl (n : Nat) (pool : Pool) : pool.Kept n n pool := ⟨rfl, rfl, id, rfl⟩

theorem takeIdle {taken : Pool} {entry : Entry} (htake : pool.takeIdle? = some (entry, taken))
    (n : Nat) : pool.Kept n n taken := by
  have hsized (h : pool.Sized) : taken.Sized := h.takeIdle htake
  obtain ⟨rest, hidle, rfl⟩ := takeIdle?_eq_some_iff.mp htake
  exact ⟨rfl, rfl, hsized, rfl⟩

theorem parked (hfree : 0 < pool.free) (entry : Entry) (n : Nat) :
    pool.Kept n n (pool.parked entry) :=
  ⟨rfl, rfl, fun h => h.parked hfree, rfl⟩

theorem track (n : Nat) (pool : Pool) : pool.Kept n (n + 1) pool.track := by
  refine ⟨rfl, rfl, id, ?_⟩
  have hone : UInt64.ofNat 1 = 1 := rfl
  rw [UInt64.ofNat_add, Pool.track, hone, UInt64.add_assoc, UInt64.add_comm 1]

theorem untrack (n : Nat) (pool : Pool) : pool.Kept (n + 1) n pool.untrack := by
  refine ⟨rfl, rfl, id, ?_⟩
  have hone : UInt64.ofNat 1 = 1 := rfl
  rw [UInt64.ofNat_add, Pool.untrack, hone, UInt64.add_comm (UInt64.ofNat n), ← UInt64.add_assoc,
    UInt64.sub_add_cancel]

theorem closeIdle (pool : Pool) : pool.Kept pool.idle.length 0 pool.closeIdle.1 := by
  refine ⟨rfl, rfl, Sized.closeIdle, ?_⟩
  rw [Pool.closeIdle, UInt64.sub_add_cancel]
  exact (UInt64.add_zero _).symm

theorem capacity_eq (h : pool.Kept ceased began pool') : pool'.capacity = pool.capacity := by
  rw [capacity, capacity, h.settings, h.endpoints]

end Pool.Kept

namespace World

variable {w w' : World} {action : Action} {account : Account} {id : PoolId} {pool pool' : Pool}

/-- How many connections an account takes out of and brings into what a pool counts. -/
def Account.Keeps (account : Account) (id : PoolId) (pool pool' : Pool) : Prop :=
  pool.Kept (account.gone.countP (Holding.isTracked id))
    (account.come.countP (Holding.isTracked id)) pool'

/-- One pool is replaced, and the account speaks of no other. -/
theorem keeps_of_set {i : PoolId} {new : Pool} (hi : w.pools[i]? = some pool)
    (hset : (w.pools.set i new)[id]? = some pool') (hnew : account.Keeps i pool new)
    (hothers : ∀ id, id ≠ i → account.gone.countP (Holding.isTracked id) =
      account.come.countP (Holding.isTracked id)) :
    ∃ pool, w.pools[id]? = some pool ∧ account.Keeps id pool pool' := by
  by_cases hid : i = id
  · subst hid
    have hlength : i < w.pools.length := (List.getElem?_eq_some_iff.mp hi).1
    rw [List.getElem?_set_self hlength, Option.some.injEq] at hset
    subst hset
    exact ⟨pool, hi, hnew⟩
  · rw [List.getElem?_set_ne hid] at hset
    refine ⟨pool', hset, ?_⟩
    unfold Account.Keeps
    rw [hothers id fun h => hid h.symm]
    exact .refl _ _

/-- A pool that a rule does not touch, and whose connections it moves at most from hand to hand. -/
theorem keeps_of_same (hpool : w.pools[id]? = some pool)
    (hsame : account.gone.countP (Holding.isTracked id) =
      account.come.countP (Holding.isTracked id)) :
    ∃ old, w.pools[id]? = some old ∧ account.Keeps id old pool := by
  refine ⟨pool, hpool, ?_⟩
  unfold Account.Keeps
  rw [hsame]
  exact .refl _ _

theorem countP_holdings_isTracked (id : PoolId) (key : Key) (creation : Creation) :
    (creation.holdings key).countP (Holding.isTracked id) = 0 := by
  refine List.countP_eq_zero.mpr fun holding hmem htracked => ?_
  rw [Holding.isTracked, creation.pool?_of_mem_holdings hmem] at htracked
  cases htracked

/-- A pool after a rule is one that was there before, or the new one. -/
theorem Effect.pools (h : Effect w action w' account) (hpool' : w'.pools[id]? = some pool') :
    (∃ pool, w.pools[id]? = some pool ∧ account.Keeps id pool pool') ∨
      (id = w.pools.length ∧ ∃ key creation, w.creations.get? key = some creation ∧
        creation.isSettled ∧ creation.outcome = .ok pool' ∧
        account.gone = creation.holdings key ∧ account.come = pool'.holdings id) := by
  cases h with
  | create | dialSlot | establish | failSlot | startEmpty | pass | giveUp | cancelRedial
  | reportUnknown | swap | letGo =>
      exact Or.inl (keeps_of_same hpool' (by simp [List.countP_cons]))
  | finishEmpty | abandon =>
      exact Or.inl (keeps_of_same hpool' (by simp [countP_holdings_isTracked]))
  | @finish key creation new hcreation hsettled houtcome =>
      -- the new pool comes last, and the others are as they were
      rcases Nat.lt_trichotomy id w.pools.length with hlt | heq | hgt
      · rw [List.getElem?_append_left hlt] at hpool'
        refine Or.inl (keeps_of_same hpool' ?_)
        have hother : (w.pools.length == id) = false := beq_false_of_ne (Nat.ne_of_gt hlt)
        simp [countP_holdings_isTracked, Pool.countP_holdings, hother]
      · subst heq
        obtain rfl : new = pool' := by simpa using hpool'
        exact Or.inr ⟨rfl, key, creation, hcreation, hsettled, houtcome, rfl, rfl⟩
      · rw [List.getElem?_eq_none (by simpa using Nat.succ_le_of_lt hgt)] at hpool'
        cases hpool'
  | start hkey hloan hheld hpool htake =>
      refine Or.inl (keeps_of_set hpool hpool' ?_ fun other hne => ?_)
      · simpa [Account.Keeps] using .takeIdle htake 1
      · simp
  | dismiss hcall hpool hphase =>
      refine Or.inl (keeps_of_set hpool hpool' ?_ fun other hne => ?_)
      · simpa [Account.Keeps] using .untrack 0 _
      · simp [hne.symm]
  | replace hcall hpool hphase =>
      refine Or.inl (keeps_of_set hpool hpool' ?_ fun other hne => ?_)
      · simpa [Account.Keeps] using .track 0 _
      · simp [hne.symm]
  | retry hcall hpool hphase hleft htake =>
      refine Or.inl (keeps_of_set hpool hpool' ?_ fun other hne => ?_)
      · simpa [Account.Keeps] using .takeIdle htake 1
      · simp
  | cancelProbe hcall hpool hphase hfree =>
      refine Or.inl (keeps_of_set hpool hpool' ?_ fun other hne => ?_)
      · simpa [Account.Keeps] using .parked hfree _ 1
      · simp
  | cancelFull hcall hpool hphase hfull =>
      refine Or.inl (keeps_of_set hpool hpool' ?_ fun other hne => ?_)
      · simpa [Account.Keeps] using .untrack 0 _
      · simp [hne.symm]
  | takeBack hloan hheld hpool hfree =>
      refine Or.inl (keeps_of_set hpool hpool' ?_ fun other hne => ?_)
      · simpa [Account.Keeps] using .parked hfree _ 1
      · simp
  | takeFull hloan hheld hpool hfull | turnAway hloan hheld hne hother hpool | refuse hloan hpool
  | drop hloan hpool =>
      refine Or.inl (keeps_of_set hpool hpool' ?_ fun other hne => ?_)
      · simpa [Account.Keeps] using .untrack 0 _
      · simp [hne.symm]

theorem countP_holdings_isSlot (id : PoolId) (among : Nat → Bool) (key : Key)
    (creation : Creation) : (creation.holdings key).countP (Holding.isSlot id among) = 0 := by
  refine List.countP_eq_zero.mpr fun holding hmem hslot => ?_
  rw [Holding.isSlot, creation.pool?_of_mem_holdings hmem] at hslot
  cases hslot

/-- A slot of a pool begins only where one of the same endpoint ends. -/
theorem Effect.slots_le (h : Effect w action w' account) (hid : id < w.pools.length)
    (among : Nat → Bool) :
    account.come.countP (Holding.isSlot id among) ≤
      account.gone.countP (Holding.isSlot id among) := by
  cases h with
  | @finish key creation new =>
      have hother : (w.pools.length == id) = false := beq_false_of_ne (Nat.ne_of_gt hid)
      simp [Pool.countP_holdings, hother]
  | _ => simp [List.countP_cons]

/-- Nothing belongs to a pool that does not exist yet. -/
theorem Linked.count_absent (hw : w.Linked) (hid : w.pools.length ≤ id) {p : Holding → Bool}
    (hp : ∀ holding, p holding = true → holding.place.pool? = some id) : w.count p = 0 := by
  refine List.countP_eq_zero.mpr fun holding hmem htrue => ?_
  have hplace := hp holding htrue
  rw [holdings, List.mem_append, List.mem_append, List.mem_append] at hmem
  rcases hmem with ((hmem | hmem) | hmem) | hmem
  · obtain ⟨pair, -, hmem⟩ := List.mem_flatMap.mp hmem
    rw [pair.2.pool?_of_mem_holdings hmem] at hplace
    cases hplace
  · obtain ⟨⟨pool, other⟩, hpair, hmem⟩ := List.mem_flatMap.mp hmem
    obtain ⟨entry, -, rfl⟩ := List.mem_map.mp hmem
    obtain rfl : other = id := by simpa [Place.pool?] using hplace
    exact absurd (List.mem_zipIdx' hpair).1 (Nat.not_lt_of_le hid)
  · obtain ⟨⟨key, call⟩, hcall, rfl⟩ := List.mem_map.mp hmem
    have hlt := hw.call_pool ((w.calls.get?_eq_some_iff key call).mpr hcall)
    have heq : call.pool = id := by
      cases hphase : call.phase <;> simpa [Call.holding, hphase, Place.pool?] using hplace
    exact absurd hlt (Nat.not_lt_of_le (heq ▸ hid))
  · obtain ⟨⟨key, loan⟩, hloan, rfl⟩ := List.mem_map.mp hmem
    have hlt := hw.loan_pool ((w.loans.get?_eq_some_iff key loan).mpr hloan)
    have heq : loan.pool = id := by simpa [Loan.holding, Place.pool?] using hplace
    exact absurd hlt (Nat.not_lt_of_le (heq ▸ hid))

end World

end HeartbeatPool
