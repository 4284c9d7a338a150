import HeartbeatPool.Proofs.Attempts
import HeartbeatPool.Proofs.Channels

/-!
# Pools of channels heal

A pool of channels that connect on first use has only connections to good endpoints, and a dial of
a good endpoint always succeeds.  So a connection that fails its heartbeat is replaced at once, and
the call that has probed it goes on to lend the new one.

The connections of a pool and the dials under way that replace some are together its slots.  What
may occur to a pool of channels (`Occurrence.Suits`) costs it a slot only if a loan is dropped or
rejected.  So between calls the pool has as many connections as before, less those.

Main statement: `Sound.live_play`.
-/

namespace HeartbeatPool

variable {factory : ChannelFactory} {network : Network}

/-- An answer that comes some time is worth something under any limit. -/
theorem Outcome.isSome_within_settles (limit : Option Nat) (delay : Nat) (verdict : Verdict) :
    ((settles delay verdict).within limit).isSome = true := by
  cases limit with
  | none => rfl
  | some limit => by_cases hle : delay ≤ limit <;> simp [within, hle]

/-- An answer that comes at once is in time under any limit. -/
theorem Outcome.within_settles_zero (limit : Option Nat) (verdict : Verdict) :
    (settles 0 verdict).within limit = some verdict := by
  cases limit <;> simp [within]

namespace World

variable {w w' : World} {action : Action} {occurrence : Occurrence} {id : PoolId}
  {pool pool' : Pool} {key : Key}

/-! ## What may occur -/

/-- What may occur to a pool of channels: nobody lets go of the pool or gives up a call on it, and a
dial that replaces one of its connections comes out at once, as a factory answers it.  Heartbeats
come out as they like. -/
def Occurrence.Suits (factory : ChannelFactory) (network : Network) (id : PoolId) (w : World) :
    Occurrence → Prop
  | .move (.letGo other) => other ≠ id
  | .move (.cancel key) => ∀ call ∈ w.calls.get? key, call.pool ≠ id
  | .answered key outcome => ∀ call ∈ w.calls.get? key, call.pool = id → call.isProbing = false →
      outcome = .settles 0
        (factory.dial network ((w.pools.getD id default).endpoint call.entry.index)).2
  | _ => True

/-- Only such things occur in a run. -/
def Suited (factory : ChannelFactory) (network : Network) (id : PoolId) (w : World) :
    List Occurrence → Prop
  | [] => True
  | occurrence :: rest =>
      occurrence.Suits factory network id w ∧
        (w.occur occurrence).1.Suited factory network id rest

instance Occurrence.decidableSuits (factory : ChannelFactory) (network : Network) (id : PoolId)
    (w : World) : (occurrence : Occurrence) → Decidable (occurrence.Suits factory network id w)
  | .move (.letGo other) => inferInstanceAs (Decidable (other ≠ id))
  | .move (.cancel key) => inferInstanceAs (Decidable (∀ call ∈ w.calls.get? key, call.pool ≠ id))
  | .answered key outcome =>
      inferInstanceAs (Decidable (∀ call ∈ w.calls.get? key, call.pool = id →
        call.isProbing = false → outcome = .settles 0
          (factory.dial network ((w.pools.getD id default).endpoint call.entry.index)).2))
  | .dialed .. | .move (.create ..) | .move (.dialSlot _) | .move (.settleSlot ..)
  | .move (.finish _) | .move (.abandon _) | .move (.acquire ..) | .move (.settle ..)
  | .move (.release ..) | .move (.refuse ..) | .move (.reportUnknown _) | .move (.drop _)
  | .move (.swap ..) => isTrue trivial

instance decidableSuited (factory : ChannelFactory) (network : Network) (id : PoolId) (w : World) :
    (occurrences : List Occurrence) → Decidable (w.Suited factory network id occurrences)
  | [] => isTrue trivial
  | occurrence :: rest =>
      haveI := decidableSuited factory network id (w.occur occurrence).1 rest
      inferInstanceAs (Decidable (_ ∧ _))

/-- Whether an action costs a pool a connection that it has lent: the loan is dropped, or it is
rejected by another pool or by a service without one. -/
def forfeits (w : World) (id : PoolId) : Action → Bool
  | .drop key | .refuse key _ => (w.loans.get? key).any fun loan => loan.pool == id
  | .release key other =>
      other != id && w.held.contains other &&
        (w.loans.get? key).any fun loan => loan.pool == id
  | _ => false

/-- How many connections a run costs a pool in that way. -/
def forfeited (w : World) (id : PoolId) : List Occurrence → Nat
  | [] => 0
  | occurrence :: rest =>
      (if (w.actionOf? occurrence).any (w.forfeits id) then 1 else 0) +
        (w.occur occurrence).1.forfeited id rest

/-- How many dials are under way that replace connections of a pool. -/
def redialing (w : World) (id : PoolId) : Nat :=
  w.calls.values.countP fun call => call.pool == id && !call.isProbing

theorem redialing_eq_zero (h : ∀ key call, w.calls.get? key = some call → call.pool ≠ id) :
    w.redialing id = 0 := by
  refine List.countP_eq_zero.mpr fun call hcall => ?_
  obtain ⟨⟨key, call⟩, hmem, rfl⟩ := List.mem_map.mp hcall
  have hne := h key call ((w.calls.get?_eq_some_iff key call).mpr hmem)
  simp [hne]

/-! ## Slots -/

/-- The slots of a pool are its connections and the dials that replace some. -/
theorem OrderlyPool.live_add_redialing (h : w.OrderlyPool id pool)
    (hpool : w.pools[id]? = some pool) :
    pool.live + w.redialing id = w.count (Holding.isSlot id fun _ => true) := by
  have hcalls : (w.calls.toList.countP fun pair =>
      (pair.2.holding pair.1).isSlot id fun _ => true) = w.probing id + w.redialing id := by
    rw [probing, redialing, Table.values, List.countP_map, List.countP_map, countP_eq_sum,
      countP_eq_sum, countP_eq_sum, ← List.sum_map_add]
    refine congrArg List.sum (List.map_congr_left fun pair _ => ?_)
    rcases pair with ⟨key, other, attemptsLeft, entry | entry⟩ <;>
      simp [Call.holding, Call.isProbing]
  have hloans : (w.loans.toList.countP fun pair =>
      (pair.2.holding pair.1).isSlot id fun _ => true) = w.lent id := by
    rw [lent, Table.values, List.countP_map]
    refine List.countP_congr fun pair _ => ?_
    simp [Loan.holding]
  rw [h.live_eq hpool, count_eq hpool fun holding h => by simp_all [Holding.isSlot], hcalls, hloans]
  simp
  omega

/-- An action spends a slot of one endpoint only. -/
theorem Spends.index_eq {index other : Nat} (h : w.Spends id index action)
    (h' : w.Spends id other action) : index = other := by
  cases action with
  | settle key verdict =>
      cases verdict with
      | success => exact h.elim
      | failure cause =>
          obtain ⟨call, conn, hcall, -, hphase⟩ := h
          exact ((redialing_spends_iff hcall hphase).mp h').2
  | cancel key =>
      obtain ⟨call, conn, hcall, -, hphase⟩ := h
      exact ((redialing_spends_iff hcall hphase).mp h').2
  | drop key | refuse key service =>
      obtain ⟨conn, hloan⟩ := h
      exact ((lent_spends_iff hloan).mp h').2
  | release key elsewhere =>
      obtain ⟨-, -, conn, hloan⟩ := h
      exact ((lent_spends_iff hloan).mp h'.2.2).2
  | _ => exact h.elim

/-- A step loses a slot of some endpoints exactly if its action spends one of them, unless it closes
the pool. -/
theorem step_count_isSlot_lt (hw : w.Orderly) (htidy : w.Tidy) (hpool : w.pools[id]? = some pool)
    (action : Action) (hopen : w.isOpen id = false ∨ (w.step action).1.isOpen id = true)
    (length : Nat) :
    Drops (∃ index < length, w.Spends id index action)
      (w.count (Holding.isSlot id fun index => decide (index < length)))
      ((w.step action).1.count (Holding.isSlot id fun index => decide (index < length))) := by
  induction length with
  | zero =>
      have hnone (w : World) :
          w.count (Holding.isSlot id fun index => decide (index < 0)) = 0 :=
        List.countP_eq_zero.mpr fun holding _ => by simp [Holding.isSlot]
      exact .kept (by simp) ((hnone _).trans (hnone _).symm)
  | succ length ih =>
      obtain ⟨pool', hpool'⟩ := step_pool hw.linked hpool action
      have hlast := step_slots hw htidy hpool length action hopen
      rw [← count_isSlot hpool, ← count_isSlot hpool'] at hlast
      rw [count_isSlot_succ, count_isSlot_succ]
      by_cases hspends : w.Spends id length action
      · -- a step spends at most one slot, and this is the last one
        have hbefore : ¬ ∃ index < length, w.Spends id index action := by
          rintro ⟨index, hlt, hother⟩
          exact Nat.ne_of_lt hlt (hother.index_eq hspends)
        have hkept := ih.2 hbefore
        have hdrop := hlast.1 hspends
        exact ⟨fun _ => by omega, fun hnone => absurd ⟨length, Nat.lt_succ_self _, hspends⟩ hnone⟩
      · -- the last slot is spared, so it is one of those before
        have hiff : (∃ index < length + 1, w.Spends id index action) ↔
            ∃ index < length, w.Spends id index action := by
          constructor
          · rintro ⟨index, hlt, hother⟩
            rcases Nat.lt_succ_iff_lt_or_eq.mp hlt with hlt | rfl
            · exact ⟨index, hlt, hother⟩
            · exact absurd hother hspends
          · rintro ⟨index, hlt, hother⟩
            exact ⟨index, Nat.lt_succ_of_lt hlt, hother⟩
        have hkept := hlast.2 hspends
        rw [hiff, hkept]
        exact ⟨fun hsome => by have := ih.1 hsome; omega, fun hnone => by rw [ih.2 hnone]⟩

/-! ## A pool in working order -/

/-- A pool that somebody holds, and all of whose slots belong to good endpoints. -/
structure Sound (id : PoolId) (pool : Pool) (w : World) : Prop where
  ground : w.Grounded id pool []
  tidy : w.Tidy
  good : w.count (Holding.isSlot id fun index => !(pool.endpoint index).isGood) = 0

/-- An action by which no dial of a pool fails or is given up, and nobody lets go of it. -/
structure Spares (w : World) (id : PoolId) (action : Action) : Prop where
  keeps : action ≠ .letGo id
  waits : ∀ key call, action = .cancel key → w.calls.get? key = some call → call.pool ≠ id
  redials : ∀ key cause call entry, action = .settle key (.failure cause) →
    w.calls.get? key = some call → call.pool = id → call.phase ≠ .redialing entry

namespace Sound

theorem step (h : w.Sound id pool) (action : Action) (hkeeps : action ≠ .letGo id) :
    (w.step action).1.Sound id pool where
  ground := (h.ground.step hkeeps).mono nofun
  tidy := h.tidy.step h.ground.orderly.linked action
  good := by
    obtain ⟨old, hold, -⟩ := h.ground.same
    exact Nat.le_zero.mp (h.good ▸ step_count_isSlot_le h.ground.orderly hold _ action)

section

variable (h : w.Sound id pool)
include h

theorem isGood {holding : Holding} (hmem : holding ∈ w.holdings)
    (hplace : holding.place.pool? = some id) :
    (pool.endpoint holding.entry.index).isGood = true := by
  have hnone := List.countP_eq_zero.mp h.good holding hmem
  simpa [Holding.isSlot, hplace] using hnone

/-- Whatever there is of the pool belongs to a good endpoint of its table. -/
theorem exists_endpoint {holding : Holding} (hmem : holding ∈ w.holdings)
    (hplace : holding.place.pool? = some id) :
    ∃ endpoint, pool.endpoints[holding.entry.index]? = some endpoint ∧
      endpoint.isGood = true := by
  obtain ⟨pool', hpool', hsame⟩ := h.ground.same
  have hlt := (h.ground.orderly.pool hpool').index_lt hmem hplace
  rw [Pool.endpoints_eq hsame] at hlt
  exact ⟨_, Pool.getElem?_endpoint hlt, h.isGood hmem hplace⟩

theorem identity_getD : (w.pools.getD id default).identity = pool.identity := by
  obtain ⟨pool', hpool', hsame⟩ := h.ground.same
  rwa [List.getD_eq_getElem?_getD, hpool', Option.getD_some]

/-- A factory that connects on first use answers the dial of a call with success. -/
theorem dial_eq (hlazy : factory.isLazy = true) {call : Call}
    (hcall : w.calls.get? key = some call) (hid : call.pool = id) {entry : Entry}
    (hphase : call.phase = .redialing entry) :
    (factory.dial network ((w.pools.getD id default).endpoint entry.index)).2 = .success := by
  rw [ChannelFactory.dial_eq_success_iff hlazy, Pool.endpoint_eq h.identity_getD]
  exact h.isGood (holding_mem_of_redialing hcall hphase) (congrArg some hid)

/-- A dial that replaces a connection succeeds at once. -/
theorem outcome_eq (hlazy : factory.isLazy = true) {outcome : Outcome}
    (hsuits : (Occurrence.answered key outcome).Suits factory network id w) {call : Call}
    (hcall : w.calls.get? key = some call) (hid : call.pool = id) {entry : Entry}
    (hphase : call.phase = .redialing entry) : outcome = .settles 0 .success := by
  have houtcome := hsuits call hcall hid (by rw [Call.isProbing, hphase])
  rwa [Call.entry, hphase, h.dial_eq hlazy hcall hid hphase] at houtcome

/-- What may occur to the pool lets it replace what it has closed. -/
theorem spares (hlazy : factory.isLazy = true) (hsuits : occurrence.Suits factory network id w)
    (haction : w.actionOf? occurrence = some action) : w.Spares id action := by
  cases amountsTo haction with
  | move hanswer =>
      refine ⟨?_, ?_, ?_⟩
      · rintro rfl
        exact hsuits rfl
      · rintro key call rfl
        exact hsuits call
      · rintro key cause call entry rfl
        cases hanswer
  | dialed => exact ⟨nofun, nofun, nofun⟩
  | answered hcall hpool hwithin =>
      refine ⟨nofun, nofun, ?_⟩
      rintro key cause call entry heq hcall' hid hphase
      cases heq
      rw [h.outcome_eq hlazy hsuits hcall' hid hphase, Outcome.within_settles_zero] at hwithin
      cases hwithin

/-- The only way to lose a slot is that a loan is dropped or rejected. -/
theorem spends_iff (hspares : w.Spares id action) :
    (∃ index < pool.endpoints.length, w.Spends id index action) ↔
      w.forfeits id action = true := by
  -- a loan of the pool has an index of its endpoints
  have hlent (key : Key) : (∃ index < pool.endpoints.length, ∃ conn,
      w.loans.get? key = some ⟨id, conn, index⟩) ↔
        (w.loans.get? key).any (fun loan => loan.pool == id) = true := by
    constructor
    · rintro ⟨index, -, conn, hloan⟩
      simp [hloan]
    · intro hany
      cases hloan : w.loans.get? key with
      | none => simp [hloan] at hany
      | some loan =>
          obtain rfl : loan.pool = id := by simpa [hloan] using hany
          obtain ⟨endpoint, hendpoint, -⟩ :=
            h.exists_endpoint (holding_mem_of_loan hloan) rfl
          exact ⟨loan.entry.index, (List.getElem?_eq_some_iff.mp hendpoint).1, loan.entry.conn, rfl⟩
  cases action with
  | settle key verdict =>
      -- a dial of the pool does not fail, so no answer spends a slot
      refine iff_of_false ?_ (by simp [forfeits])
      rintro ⟨index, -, hspends⟩
      cases verdict with
      | success => exact hspends
      | failure cause =>
          obtain ⟨call, conn, hcall, hid, hphase⟩ := hspends
          exact hspares.redials key cause call _ rfl hcall hid hphase
  | cancel key =>
      refine iff_of_false ?_ (by simp [forfeits])
      rintro ⟨index, -, call, conn, hcall, hid, -⟩
      exact hspares.waits key call rfl hcall hid
  | drop key | refuse key service => exact hlent key
  | release key other =>
      rw [forfeits, Bool.and_eq_true, Bool.and_eq_true, ← hlent key, bne_iff_ne,
        List.contains_iff_mem]
      constructor
      · rintro ⟨index, hlt, hne, hheld, hloan⟩
        exact ⟨⟨hne, hheld⟩, index, hlt, hloan⟩
      · rintro ⟨⟨hne, hheld⟩, index, hlt, hloan⟩
        exact ⟨index, hlt, hne, hheld, hloan⟩
  | _ => exact iff_of_false (fun hspends => hspends.choose_spec.2) (by simp [forfeits])

/-- A step costs the pool a slot exactly if it forfeits one. -/
theorem live_step (hspares : w.Spares id action) (hpool : w.pools[id]? = some pool')
    {after : Pool} (hafter : (w.step action).1.pools[id]? = some after) :
    after.live + (w.step action).1.redialing id + (if w.forfeits id action then 1 else 0) =
      pool'.live + w.redialing id := by
  have hnext := h.step action hspares.keeps
  obtain ⟨old, hold, hsame⟩ := h.ground.same
  cases hpool.symm.trans hold
  obtain ⟨new, hnew, hsame'⟩ := hnext.ground.same
  cases hafter.symm.trans hnew
  have horderly := h.ground.orderly.pool hpool
  have horderly' := hnext.ground.orderly.pool hafter
  have hdrops := step_count_isSlot_lt h.ground.orderly h.tidy hpool action
    (Or.inr (isOpen_of_held hnext.ground.held)) pool.endpoints.length
  rw [h.spends_iff hspares, ← Pool.endpoints_eq hsame, ← horderly.count_isSlot_all,
    Pool.endpoints_eq hsame, ← Pool.endpoints_eq hsame', ← horderly'.count_isSlot_all] at hdrops
  rw [horderly.live_add_redialing hpool, horderly'.live_add_redialing hafter]
  split
  · next hforfeits => exact hdrops.1 hforfeits
  · next hkeeps => exact hdrops.2 hkeeps

end

/-! ## Runs -/

theorem occur (h : w.Sound id pool) (hlazy : factory.isLazy = true)
    (hsuits : occurrence.Suits factory network id w) :
    (w.occur occurrence).1.Sound id pool := by
  cases haction : w.actionOf? occurrence with
  | none =>
      rw [World.occur, haction]
      exact h
  | some action =>
      rw [occur_eq_step haction]
      exact h.step action (h.spares hlazy hsuits haction).keeps

theorem live_occur (h : w.Sound id pool) (hlazy : factory.isLazy = true)
    (hsuits : occurrence.Suits factory network id w) (hpool : w.pools[id]? = some pool')
    {after : Pool} (hafter : (w.occur occurrence).1.pools[id]? = some after) :
    after.live + (w.occur occurrence).1.redialing id +
        (if (w.actionOf? occurrence).any (w.forfeits id) then 1 else 0) =
      pool'.live + w.redialing id := by
  cases haction : w.actionOf? occurrence with
  | none =>
      rw [World.occur, haction] at hafter ⊢
      cases hpool.symm.trans hafter
      rfl
  | some action =>
      rw [occur_eq_step haction] at hafter ⊢
      exact h.live_step (h.spares hlazy hsuits haction) hpool hafter

theorem play (h : w.Sound id pool) (hlazy : factory.isLazy = true)
    {occurrences : List Occurrence} (hsuited : w.Suited factory network id occurrences) :
    (w.play occurrences).1.Sound id pool := by
  induction occurrences generalizing w with
  | nil => exact h
  | cons occurrence rest ih => exact ih (h.occur hlazy hsuited.1) hsuited.2

/-- What a pool and its dials under way have lost in a run is what the run has forfeited. -/
theorem live_play (h : w.Sound id pool) (hlazy : factory.isLazy = true)
    {occurrences : List Occurrence} (hsuited : w.Suited factory network id occurrences)
    (hpool : w.pools[id]? = some pool') {after : Pool}
    (hafter : (w.play occurrences).1.pools[id]? = some after) :
    after.live + (w.play occurrences).1.redialing id + w.forfeited id occurrences =
      pool'.live + w.redialing id := by
  induction occurrences generalizing w pool' with
  | nil =>
      cases hpool.symm.trans hafter
      rfl
  | cons occurrence rest ih =>
      have hnext := h.occur hlazy hsuited.1
      obtain ⟨middle, hmiddle, -⟩ := hnext.ground.same
      have hfirst := h.live_occur hlazy hsuited.1 hpool hmiddle
      have hrest := ih hnext hsuited.2 hmiddle hafter
      rw [forfeited]
      change after.live + ((w.occur occurrence).1.play rest).1.redialing id + _ = _
      omega

end Sound

end World

end HeartbeatPool
