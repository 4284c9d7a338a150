import HeartbeatPool.Proofs.Open

/-!
# The slots of an endpoint

A slot of an endpoint is an idle connection, one under probe, a dial that replaces one, or one on
loan.  A pool starts with at most as many slots for an endpoint as it may have connections, and
`Spends` names the only ways in which a slot is lost while the pool is open.
-/

namespace HeartbeatPool.World

variable {w w' : World} {action : Action} {account : Account} {id : PoolId} {pool : Pool}
  {index : Nat}

/-- An action that costs a pool a slot of an endpoint: the dial that replaces a connection fails or
is given up, or a loan is dropped, handed to another pool or to a service without one. -/
def Spends (w : World) (id : PoolId) (index : Nat) : Action → Prop
  | .settle key (.failure _) | .cancel key =>
      ∃ call conn, w.calls.get? key = some call ∧ call.pool = id ∧
        call.phase = .redialing ⟨conn, index⟩
  | .drop key | .refuse key _ => ∃ conn, w.loans.get? key = some ⟨id, conn, index⟩
  | .release key other =>
      other ≠ id ∧ other ∈ w.held ∧ ∃ conn, w.loans.get? key = some ⟨id, conn, index⟩
  | _ => False

theorem redialing_spends_iff {key : Key} {call : Call} {entry : Entry}
    (hcall : w.calls.get? key = some call) (hphase : call.phase = .redialing entry) :
    (∃ call conn, w.calls.get? key = some call ∧ call.pool = id ∧
        call.phase = .redialing ⟨conn, index⟩) ↔ call.pool = id ∧ entry.index = index := by
  constructor
  · rintro ⟨call', conn, hcall', hpool, hphase'⟩
    rw [hcall, Option.some.injEq] at hcall'
    subst hcall'
    rw [hphase, Phase.redialing.injEq] at hphase'
    exact ⟨hpool, by rw [hphase']⟩
  · rintro ⟨hpool, rfl⟩
    exact ⟨call, entry.conn, hcall, hpool, hphase⟩

theorem probing_not_spends {key : Key} {call : Call} {entry : Entry}
    (hcall : w.calls.get? key = some call) (hphase : call.phase = .probing entry) :
    ¬ ∃ call conn, w.calls.get? key = some call ∧ call.pool = id ∧
      call.phase = .redialing ⟨conn, index⟩ := by
  rintro ⟨call', conn, hcall', -, hphase'⟩
  rw [hcall, Option.some.injEq] at hcall'
  subst hcall'
  rw [hphase] at hphase'
  cases hphase'

theorem lent_spends_iff {key : Key} {loan : Loan} (hloan : w.loans.get? key = some loan) :
    (∃ conn, w.loans.get? key = some ⟨id, conn, index⟩) ↔
      loan.pool = id ∧ loan.entry.index = index := by
  constructor
  · rintro ⟨conn, hloan'⟩
    rw [hloan, Option.some.injEq] at hloan'
    subst hloan'
    exact ⟨rfl, rfl⟩
  · rintro ⟨rfl, rfl⟩
    exact ⟨loan.entry.conn, hloan⟩

/-! ## Rules -/

theorem Orderly.free_of_probing (hw : w.Orderly) {key : Key} {call : Call} {entry : Entry}
    (hcall : w.calls.get? key = some call) (hpool : w.pools[call.pool]? = some pool)
    (hphase : call.phase = .probing entry) : 0 < pool.free :=
  (hw.pool hpool).free_pos hpool (Nat.add_pos_left (probing_pos hcall hphase) _)

theorem Orderly.free_of_lent (hw : w.Orderly) {key : Key} {loan : Loan}
    (hloan : w.loans.get? key = some loan) (hpool : w.pools[loan.pool]? = some pool) :
    0 < pool.free :=
  (hw.pool hpool).free_pos hpool (Nat.add_pos_right _ (lent_pos hloan))

/-- A number goes down by one if something is the case, and otherwise stays. -/
def Drops (spent : Prop) (before after : Nat) : Prop :=
  (spent → after + 1 = before) ∧ (¬ spent → after = before)

theorem Drops.kept {spent : Prop} {before after : Nat} (hkept : ¬ spent) (h : after = before) :
    Drops spent before after :=
  ⟨fun hspent => absurd hspent hkept, fun _ => h⟩

theorem Drops.of_iff {spent P : Prop} [Decidable P] {before after : Nat} (hiff : spent ↔ P)
    (h : after + (if P then 1 else 0) = before) : Drops spent before after := by
  refine ⟨fun hspent => ?_, fun hkept => ?_⟩
  · rwa [if_pos (hiff.mp hspent)] at h
  · rwa [if_neg fun hP => hkept (hiff.mpr hP)] at h

/-- Two numbers that change by as much drop alike. -/
theorem Drops.of_balance {spent : Prop} {before after gone come : Nat} (h : Drops spent gone come)
    (hbalance : after + gone = before + come) : Drops spent before after := by
  refine ⟨fun hspent => ?_, fun hkept => ?_⟩
  · have hdrop := h.1 hspent
    omega
  · have hkeep := h.2 hkept
    omega

/-- A rule loses a slot of an endpoint exactly if its action spends it. -/
theorem Effect.slots (hw : w.Orderly) (h : Effect w action w' account)
    (hid : id < w.pools.length) (index : Nat) :
    Drops (w.Spends id index action) (account.gone.countP (Holding.isSlot id (· == index)))
      (account.come.countP (Holding.isSlot id (· == index))) := by
  cases h with
  | @finish key creation new =>
      have hother : (w.pools.length == id) = false := beq_false_of_ne (Nat.ne_of_gt hid)
      refine .kept (fun h => h) ?_
      simp [Pool.countP_holdings, hother, countP_holdings_isSlot]
  | finishEmpty | abandon => exact .kept (fun h => h) (by simp [countP_holdings_isSlot])
  | dismiss hcall hpool hphase | cancelProbe hcall hpool hphase =>
      exact .kept (probing_not_spends hcall hphase) (by simp [List.countP_cons])
  -- what comes back finds a free place, so neither of these rules ever applies
  | cancelFull hcall hpool hphase hfull =>
      exact absurd hfull (Nat.ne_of_gt (hw.free_of_probing hcall hpool hphase))
  | takeFull hloan hheld hpool hfull =>
      exact absurd hfull (Nat.ne_of_gt (hw.free_of_lent hloan hpool))
  | takeBack hloan =>
      refine .kept ?_ (by simp [List.countP_cons])
      rintro ⟨hne, -, hspent⟩
      exact hne ((lent_spends_iff hloan).mp hspent).1
  | retry hcall _ hphase | giveUp hcall _ hphase | cancelRedial hcall _ hphase =>
      exact .of_iff (redialing_spends_iff hcall hphase) (by simp [List.countP_cons, Nat.add_comm])
  | refuse hloan | drop hloan =>
      exact .of_iff (lent_spends_iff hloan) (by simp [List.countP_cons])
  | turnAway hloan hheld hne =>
      refine .of_iff (P := _ ∧ _) ⟨fun h => (lent_spends_iff hloan).mp h.2.2, fun h => ?_⟩
        (by simp [List.countP_cons])
      exact ⟨fun hid => hne (h.1.trans hid.symm), hheld, (lent_spends_iff hloan).mpr h⟩
  | _ => exact .kept (fun h => h) (by simp [List.countP_cons])

/-- An action that spends a slot makes sense. -/
theorem Spends.effect (hw : w.Linked) (h : w.Spends id index action) :
    ∃ w' account, Effect w action w' account := by
  cases action with
  | settle key verdict =>
      cases verdict with
      | success => exact h.elim
      | failure cause =>
          -- a failed dial spends a slot, and the call goes on if it can
          obtain ⟨call, conn, hcall, rfl, hphase⟩ := h
          obtain ⟨pool, hpool⟩ := hw.poolOfCall hcall
          cases hleft : call.attemptsLeft with
          | zero => exact ⟨_, _, .giveUp hcall hpool hphase (Or.inl hleft)⟩
          | succ attemptsLeft =>
              cases htake : pool.takeIdle? with
              | none => exact ⟨_, _, .giveUp hcall hpool hphase (Or.inr htake)⟩
              | some taken => exact ⟨_, _, .retry hcall hpool hphase hleft htake⟩
  | cancel key =>
      obtain ⟨call, conn, hcall, rfl, hphase⟩ := h
      obtain ⟨pool, hpool⟩ := hw.poolOfCall hcall
      exact ⟨_, _, .cancelRedial hcall hpool hphase⟩
  | release key other =>
      -- the connection of another pool is turned away
      obtain ⟨hne, hheld, conn, hloan⟩ := h
      obtain ⟨pool, hpool⟩ := hw.poolOfLoan hloan
      obtain ⟨pool', hpool'⟩ := hw.poolOfHeld hheld
      exact ⟨_, _, .turnAway hloan hheld hne.symm hpool' hpool⟩
  | drop key =>
      obtain ⟨conn, hloan⟩ := h
      obtain ⟨pool, hpool⟩ := hw.poolOfLoan hloan
      exact ⟨_, _, .drop hloan hpool⟩
  | refuse key service =>
      obtain ⟨conn, hloan⟩ := h
      obtain ⟨pool, hpool⟩ := hw.poolOfLoan hloan
      exact ⟨_, _, .refuse hloan hpool⟩
  | _ => exact h.elim

/-! ## Steps -/

theorem step_length_le (hw : w.Linked) (action : Action) :
    w.pools.length ≤ (w.step action).1.pools.length := by
  refine step_induction (P := fun w' => w.pools.length ≤ w'.pools.length) hw (Nat.le_refl _)
    (fun h => ?_) (fun hle _ _ => ?_) action
  · cases h <;> simp [withProbe, withLoan, withoutLoan, setPool]
  · simpa [setPool] using hle

theorem step_pool (hw : w.Linked) (hpool : w.pools[id]? = some pool) (action : Action) :
    ∃ pool', (w.step action).1.pools[id]? = some pool' := by
  have hlt := Nat.lt_of_lt_of_le (List.getElem?_eq_some_iff.mp hpool).1 (step_length_le hw action)
  exact ⟨_, List.getElem?_eq_getElem hlt⟩

/-- Closing one pool takes no slots from any other. -/
theorem countP_holdings_of_ne {other : PoolId} (hne : other ≠ id) (pool : Pool)
    (among : Nat → Bool) : (pool.holdings other).countP (Holding.isSlot id among) = 0 := by
  have hother : (other == id) = false := beq_false_of_ne hne
  simp [Pool.countP_holdings, hother]

/-- A step loses a slot of an endpoint exactly if its action spends it, unless it closes the
pool. -/
theorem step_slots (hw : w.Orderly) (htidy : w.Tidy) (hpool : w.pools[id]? = some pool)
    (index : Nat) (action : Action)
    (hopen : w.isOpen id = false ∨ (w.step action).1.isOpen id = true) :
    Drops (w.Spends id index action) (w.slotsAt id index)
      ((w.step action).1.slotsAt id index) := by
  obtain ⟨pool', hpool'⟩ := step_pool hw.linked hpool action
  rw [← count_isSlot hpool, ← count_isSlot hpool']
  have hid := (List.getElem?_eq_some_iff.mp hpool).1
  rcases step_cases hw.linked action with
    ⟨hstep, hnone⟩ | ⟨w', account, heff, ⟨hstep, -⟩ | ⟨left, old, hleft, hold, hclosed, hstep⟩⟩
  · -- the action does nothing, so it spends nothing
    rw [hstep]
    refine .kept (fun hspent => ?_) rfl
    obtain ⟨w', account, heff⟩ := hspent.effect hw.linked
    exact hnone w' account heff
  · rw [hstep]
    exact (heff.slots hw hid index).of_balance (heff.count_balance hw.linked _)
  · -- the pool that is closed is another one, or this one, which was closed before and is empty
    have hkept : (old.holdings left).countP (Holding.isSlot id (· == index)) = 0 := by
      by_cases hleftid : left = id
      · subst hleftid
        have hempty : old.idle = [] := by
          refine htidy.idle_eq_nil hw.linked heff hid ?_ hold
          rw [hstep] at hopen
          exact hopen.resolve_right fun h => Bool.false_ne_true (hclosed.symm.trans h)
        simp [Pool.countP_holdings, hempty]
      · exact countP_holdings_of_ne hleftid old _
    have hclose := count_closeIdle (Holding.isSlot id (· == index)) hold
    rw [hkept, Nat.add_zero] at hclose
    rw [hstep, hclose]
    exact (heff.slots hw hid index).of_balance (heff.count_balance hw.linked _)

/-- No step gains a slot of some endpoints. -/
theorem step_count_isSlot_le (hw : w.Orderly) (hpool : w.pools[id]? = some pool)
    (among : Nat → Bool) (action : Action) :
    (w.step action).1.count (Holding.isSlot id among) ≤ w.count (Holding.isSlot id among) := by
  have hid := (List.getElem?_eq_some_iff.mp hpool).1
  refine step_induction (P := fun w' => w'.count _ ≤ w.count _) hw.linked (Nat.le_refl _)
    (fun heff => ?_) (fun hle hold _ => ?_) action
  · have hbalance := heff.count_balance hw.linked (Holding.isSlot id among)
    have hle := heff.slots_le hid among
    omega
  · have hclose := count_closeIdle (Holding.isSlot id among) hold
    omega

/-- No step gains a slot. -/
theorem step_slots_le (hw : w.Orderly) (hpool : w.pools[id]? = some pool) (index : Nat)
    (action : Action) : (w.step action).1.slotsAt id index ≤ w.slotsAt id index := by
  obtain ⟨pool', hpool'⟩ := step_pool hw.linked hpool action
  rw [← count_isSlot hpool, ← count_isSlot hpool']
  exact step_count_isSlot_le hw hpool (· == index) action

/-! ## Runs -/

theorem run_slots_le (hw : w.Orderly) (hpool : w.pools[id]? = some pool) (index : Nat)
    (actions : List Action) : (w.run actions).1.slotsAt id index ≤ w.slotsAt id index := by
  induction actions generalizing w pool with
  | nil => exact Nat.le_refl _
  | cons action rest ih =>
      obtain ⟨pool', hpool'⟩ := step_pool hw.linked hpool action
      exact Nat.le_trans (ih (hw.step action) hpool') (step_slots_le hw hpool index action)

/-! ## Room in the queue -/

/-- No step finds the queue of a pool full. -/
theorem queueFull_not_mem_step (hw : w.Orderly) (action : Action) (name address : String) :
    .log (.queueFull name address) ∉ (w.step action).2 := by
  have heffect {w' account} (h : Effect w action w' account) :
      .log (.queueFull name address) ∉ account.events := by
    cases h with
    | finishEmpty hcreation | finish hcreation =>
        intro hmem
        obtain ⟨notice, heq, hnotice⟩ := (hw.fresh hcreation).log_of_mem_report hmem
        cases heq
        exact hnotice name address rfl
    | cancelFull hcall hpool hphase hfull =>
        exact absurd hfull (Nat.ne_of_gt (hw.free_of_probing hcall hpool hphase))
    | takeFull hloan hheld hpool hfull =>
        exact absurd hfull (Nat.ne_of_gt (hw.free_of_lent hloan hpool))
    | _ => simp
  rcases step_cases hw.linked action with
    ⟨hstep, -⟩ | ⟨w', account, heff, ⟨hstep, -⟩ | ⟨left, old, -, -, -, hstep⟩⟩
  · simp [hstep]
  · rw [hstep]
    exact heffect heff
  · rw [hstep, List.mem_append, not_or]
    exact ⟨heffect heff, by simp [Pool.closeIdle]⟩

/-- A pool takes back what it has lent. -/
theorem step_release (hw : w.Orderly) {key : Key} {loan : Loan}
    (hloan : w.loans.get? key = some loan) (hheld : loan.pool ∈ w.held)
    (hpool : w.pools[loan.pool]? = some pool) :
    w.step (.release key loan.pool) =
      ({ w.setPool loan.pool (pool.parked loan.entry) with loans := w.loans.erase key }, []) := by
  have hcontains : w.held.contains loan.pool = true := List.contains_iff_mem.mpr hheld
  have hparked := Pool.park_of_free (hw.free_of_lent hloan hpool) loan.entry
  simp only [World.step, release, hcontains, hloan, hpool, hparked]
  rfl

/-- A call that is given up during a heartbeat puts its connection back into the queue. -/
theorem step_cancel (hw : w.Orderly) {key : Key} {call : Call} {entry : Entry}
    (hcall : w.calls.get? key = some call) (hpool : w.pools[call.pool]? = some pool)
    (hphase : call.phase = .probing entry) :
    w.step (.cancel key) =
      Change.andThen
        ({ w.setPool call.pool (pool.parked entry) with calls := w.calls.erase key },
          [.log (.acquireCancelled pool.name (pool.address entry.index))])
        fun w => w.reap call.pool := by
  have hparked := Pool.park_of_free (hw.free_of_probing hcall hpool hphase) entry
  simp only [World.step, cancel, hcall, hpool, hphase, hparked]
  rfl

/-! ## Every run -/

/-- After every run, no endpoint of a pool has more slots than it may have connections.  Nothing
that may follow gains a slot, and a step loses one exactly if it is one of those that `Spends`
names, unless it closes the pool; as long as somebody holds a pool and does not let go of it, no
step does.  So a pool never has more idle connections than live ones nor more live ones than its
capacity; its queue has never been found full, and always has a place for what is released to it and
for what a call that is given up was probing. -/
theorem slots_after_run (actions : List Action) (id : PoolId)
    (hpool : (run {} actions).1.pools[id]? = some pool) :
    (∀ index, (run {} actions).1.slotsAt id index ≤ pool.settings.perEndpoint) ∧
      (∀ more index, (run {} (actions ++ more)).1.slotsAt id index ≤
        (run {} actions).1.slotsAt id index) ∧
      (∀ action index,
        (run {} actions).1.isOpen id = false ∨
            (run {} (actions ++ [action])).1.isOpen id = true →
          Drops ((run {} actions).1.Spends id index action)
            ((run {} actions).1.slotsAt id index)
            ((run {} (actions ++ [action])).1.slotsAt id index)) ∧
      (∀ action, id ∈ (run {} actions).1.held → action ≠ .letGo id →
        (run {} (actions ++ [action])).1.isOpen id = true) ∧
      (pool.idleConnections ≤ pool.live ∧ pool.live ≤ pool.capacity) ∧
      (∀ name address, .log (.queueFull name address) ∉ (run {} actions).2) ∧
      (∀ key loan, (run {} actions).1.loans.get? key = some loan → loan.pool = id →
        id ∈ (run {} actions).1.held →
        (run {} actions).1.step (.release key id) =
          ({ (run {} actions).1.setPool id (pool.parked loan.entry) with
              loans := (run {} actions).1.loans.erase key }, [])) ∧
      (∀ key call entry, (run {} actions).1.calls.get? key = some call → call.pool = id →
        call.phase = .probing entry →
        (run {} actions).1.step (.cancel key) =
          Change.andThen
            ({ (run {} actions).1.setPool id (pool.parked entry) with
                calls := (run {} actions).1.calls.erase key },
              [.log (.acquireCancelled pool.name (pool.address entry.index))])
            fun w => w.reap id) := by
  have hw := Orderly.initial.run actions
  have htidy := Tidy.initial.run .initial actions
  have horderly := hw.pool hpool
  have hlive := horderly.live_eq hpool
  -- a run that is longer by one action ends with a step
  have hone (action : Action) :
      (run {} (actions ++ [action])).1 = ((run {} actions).1.step action).1 :=
    run_append_fst {} actions [action]
  refine ⟨fun index => ?_, fun more index => ?_, fun action index hopen => ?_,
    fun action hheld hkeeps => ?_, ⟨?_, ?_⟩, ?_, ?_, ?_⟩
  · rw [← count_isSlot hpool]
    exact horderly.slots index
  · rw [run_append_fst]
    exact run_slots_le hw hpool index more
  · rw [hone] at hopen ⊢
    exact step_slots hw htidy hpool index action hopen
  · rw [hone]
    exact isOpen_of_held (mem_held_step hw.linked hheld hkeeps)
  · rw [horderly.sized.idleConnections_eq]
    omega
  · exact horderly.live_le hpool
  · intro name address hmem
    obtain ⟨before, action, after, -, hevent⟩ := exists_of_mem_run hmem
    exact queueFull_not_mem_step (Orderly.initial.run before) action name address hevent
  · rintro key loan hloan rfl hheld
    exact step_release hw hloan hheld hpool
  · rintro key call entry hcall rfl hphase
    exact step_cancel hw hcall hpool hphase

/-- Dropping the loan costs a slot, releasing it does not, and neither does giving up the call. -/
theorem slots_after_loan_and_probe :
    Drops ((run {} lentAndProbed).1.Spends 0 0 (.drop 1)) 2
        ((run {} (lentAndProbed ++ [.drop 1])).1.slotsAt 0 0) ∧
      ((run {} lentAndProbed).1.step (.release 1 0)).2 = [] ∧
      ((run {} lentAndProbed).1.step (.cancel 2)).2 =
        [.log (.acquireCancelled "echo" "a:1")] := by
  obtain ⟨-, -, hdrops, hopen, -, -, hrelease, hcancel⟩ := slots_after_run lentAndProbed 0 rfl
  refine ⟨hdrops (.drop 1) 0 (Or.inr (hopen (.drop 1) (by decide) nofun)), ?_, ?_⟩
  · rw [hrelease 1 _ rfl rfl (by decide)]
  · rw [hcancel 2 _ _ rfl rfl rfl]
    rfl

end HeartbeatPool.World
