import HeartbeatPool.Proofs.Census

/-!
# Open pools

A pool is open as long as somebody holds it or a call is under way on it.  Only what names the pool
as left alone can end that, and then the queue is closed; so nothing waits in the queue of a pool
that is not open.
-/

namespace HeartbeatPool.World

variable {w w' : World} {action : Action} {account : Account} {id : PoolId} {pool : Pool}

theorem isBusy_iff :
    w.isBusy id = true ↔ ∃ key call, w.calls.get? key = some call ∧ call.pool = id := by
  unfold isBusy Table.values
  rw [List.any_eq_true]
  constructor
  · rintro ⟨call, hcall, hpool⟩
    obtain ⟨⟨key, call⟩, hmem, rfl⟩ := List.mem_map.mp hcall
    exact ⟨key, call, (w.calls.get?_eq_some_iff key call).mpr hmem, beq_iff_eq.mp hpool⟩
  · rintro ⟨key, call, hcall, hpool⟩
    have hmem := (w.calls.get?_eq_some_iff key call).mp hcall
    exact ⟨call, List.mem_map.mpr ⟨(key, call), hmem, rfl⟩, beq_iff_eq.mpr hpool⟩

theorem isOpen_iff : w.isOpen id = true ↔
    id ∈ w.held ∨ ∃ key call, w.calls.get? key = some call ∧ call.pool = id := by
  rw [isOpen, Bool.or_eq_true, List.contains_iff_mem, isBusy_iff]

theorem isOpen_of_call {key : Key} {call : Call} (hcall : w.calls.get? key = some call) :
    w.isOpen call.pool = true :=
  isOpen_iff.mpr (Or.inr ⟨key, call, hcall, rfl⟩)

theorem isOpen_of_held (hheld : id ∈ w.held) : w.isOpen id = true := isOpen_iff.mpr (Or.inl hheld)

/-- A pool stays open if its holder stays, and all calls on it stay on it. -/
theorem isOpen_of_stays (hopen : w.isOpen id = true) (hheld : id ∈ w.held → id ∈ w'.held)
    (hcalls : ∀ key call, w.calls.get? key = some call → call.pool = id →
      ∃ call', w'.calls.get? key = some call' ∧ call'.pool = id) : w'.isOpen id = true := by
  rcases isOpen_iff.mp hopen with h | ⟨key, call, hcall, hpool⟩
  · exact isOpen_of_held (hheld h)
  · obtain ⟨call', hcall', hpool'⟩ := hcalls key call hcall hpool
    exact hpool' ▸ isOpen_of_call hcall'

/-- The calls on a pool stay on it if one call is changed that remains on its pool. -/
theorem calls_stay_insert {key : Key} {call : Call} (hnew : ∀ old, w.calls.get? key = some old →
      old.pool = call.pool) (other : Key) (old : Call) (hold : w.calls.get? other = some old)
    (hpool : old.pool = id) :
    ∃ call', (w.calls.insert key call).get? other = some call' ∧ call'.pool = id := by
  by_cases hkey : key = other
  · subst hkey
    exact ⟨call, w.calls.get?_insert_self key call, (hnew old hold).symm.trans hpool⟩
  · exact ⟨old, by rw [Table.get?_insert, if_neg hkey, hold], hpool⟩

theorem calls_stay_erase {key : Key} {call : Call} (hcall : w.calls.get? key = some call)
    (hne : call.pool ≠ id) (other : Key) (old : Call) (hold : w.calls.get? other = some old)
    (hpool : old.pool = id) :
    ∃ call', (w.calls.erase key).get? other = some call' ∧ call'.pool = id := by
  have hkey : key ≠ other := by
    rintro rfl
    rw [hcall, Option.some.injEq] at hold
    exact hne (hold ▸ hpool)
  exact ⟨old, by rw [Table.get?_erase, if_neg hkey, hold], hpool⟩

/-- Only the one who holds a pool can let go of it. -/
theorem Effect.mem_held (h : Effect w action w' account) (hheld : id ∈ w.held)
    (hkeeps : action ≠ .letGo id) : id ∈ w'.held := by
  cases h with
  | finish => exact List.mem_append_left _ hheld
  | @letGo other =>
      have hne : id ≠ other := fun h => hkeeps (congrArg Action.letGo h.symm)
      exact (List.mem_erase_of_ne hne).mpr hheld
  | _ => exact hheld

theorem mem_held_step (hw : w.Linked) (hheld : id ∈ w.held) (hkeeps : action ≠ .letGo id) :
    id ∈ (w.step action).1.held := by
  rcases step_cases hw action with
    ⟨hstep, -⟩ | ⟨w', account, heff, ⟨hstep, -⟩ | ⟨left, old, -, -, -, hstep⟩⟩
  · rw [hstep]
    exact hheld
  · rw [hstep]
    exact heff.mem_held hheld hkeeps
  · rw [hstep]
    exact heff.mem_held hheld hkeeps

/-- A rule that does not leave a pool alone leaves it open. -/
theorem Effect.stays_open (h : Effect w action w' account) (hopen : w.isOpen id = true)
    (hleft : account.left ≠ some id) : w'.isOpen id = true := by
  cases h with
  | create | dialSlot | establish | failSlot | finishEmpty | abandon | startEmpty | takeBack
  | takeFull | turnAway | refuse | reportUnknown | drop | swap =>
      exact hopen
  | finish =>
      exact isOpen_of_stays hopen (List.mem_append_left _) fun key call hcall hpool =>
        ⟨call, hcall, hpool⟩
  | start hkey =>
      exact isOpen_of_stays hopen (fun h => h)
        (calls_stay_insert fun old hold => by rw [hkey] at hold; cases hold)
  | dismiss hcall =>
      exact isOpen_of_stays hopen (fun h => h)
        (calls_stay_insert fun old hold => by rw [hcall] at hold; cases hold; rfl)
  | @retry key call pool entry cause attemptsLeft next taken hcall =>
      -- the call ends and begins anew on the same pool
      refine isOpen_of_stays hopen (fun h => h) fun other old hold hpool => ?_
      obtain rfl | hkey := Decidable.em (key = other)
      · rw [hcall, Option.some.injEq] at hold
        subst hold
        exact ⟨_, (w.calls.erase key).get?_insert_self key _, hpool⟩
      · have hkept : ((w.calls.erase key).insert key ⟨call.pool, attemptsLeft, .probing next⟩).get?
            other = some old := by
          rw [Table.get?_insert, if_neg hkey, Table.get?_erase, if_neg hkey, hold]
        exact ⟨old, hkept, hpool⟩
  | pass hcall | replace hcall | giveUp hcall | cancelProbe hcall | cancelFull hcall
  | cancelRedial hcall =>
      exact isOpen_of_stays hopen (fun h => h)
        (calls_stay_erase hcall fun hpool => hleft (congrArg some hpool))
  | @letGo other =>
      have hne : id ≠ other := fun h => hleft (congrArg some h.symm)
      exact isOpen_of_stays hopen (fun h => (List.mem_erase_of_ne hne).mpr h)
        fun key call hcall hpool => ⟨call, hcall, hpool⟩

/-- A pool that was not there before is open. -/
theorem Effect.new_isOpen (h : Effect w action w' account) (hid : w.pools.length ≤ id)
    (hpool : w'.pools[id]? = some pool) : w'.isOpen id = true := by
  have hlt : id < w'.pools.length := (List.getElem?_eq_some_iff.mp hpool).1
  cases h with
  | finish =>
      rw [List.length_append, List.length_singleton] at hlt
      obtain rfl : id = w.pools.length := Nat.le_antisymm (Nat.lt_succ_iff.mp hlt) hid
      exact isOpen_of_held (List.mem_append_right _ (List.mem_singleton.mpr rfl))
  | create | dialSlot | establish | failSlot | finishEmpty | abandon | startEmpty | pass | giveUp
  | cancelRedial | reportUnknown | swap | letGo =>
      exact absurd hlt (Nat.not_lt_of_le hid)
  | _ =>
      simp only [withProbe, withLoan, withoutLoan, setPool, List.length_set] at hlt
      exact absurd hlt (Nat.not_lt_of_le hid)

/-! ## The queue of a pool that is not open -/

theorem count_isIdle (hpool : w.pools[id]? = some pool) :
    w.count (Holding.isIdle id) = pool.idle.length := by
  have hp (holding : Holding) (h : holding.isIdle id = true) : holding.place.pool? = some id := by
    rw [beq_iff_eq.mp h]
    rfl
  have hcalls : (w.calls.toList.countP fun pair => (pair.2.holding pair.1).isIdle id) = 0 := by
    refine List.countP_eq_zero.mpr fun pair _ => ?_
    rcases pair with ⟨key, other, attemptsLeft, entry | entry⟩ <;>
      simp [Call.holding, Holding.isIdle]
  have hloans : (w.loans.toList.countP fun pair => (pair.2.holding pair.1).isIdle id) = 0 :=
    List.countP_eq_zero.mpr fun pair _ => by simp [Loan.holding, Holding.isIdle]
  rw [count_eq hpool hp, hcalls, hloans]
  simp [Holding.isIdle]

/-- Nothing is put into the queue of a pool that is not open. -/
theorem Effect.come_isIdle (h : Effect w action w' account) (hid : id < w.pools.length)
    (hclosed : w.isOpen id = false) : account.come.countP (Holding.isIdle id) = 0 := by
  have hnot {other : PoolId} (hopen : w.isOpen other = true) : other ≠ id := by
    rintro rfl
    rw [hopen] at hclosed
    cases hclosed
  cases h with
  | @finish key creation new =>
      simp [Pool.countP_holdings, Holding.isIdle, Nat.ne_of_gt hid]
  | cancelProbe hcall => simp [Holding.isIdle, hnot (isOpen_of_call hcall)]
  | takeBack hloan hheld => simp [Holding.isIdle, hnot (isOpen_of_held hheld)]
  | _ => simp [Holding.isIdle]

/-- Nothing waits in the queue of a pool that is not open. -/
def Tidy (w : World) : Prop :=
  ∀ id pool, w.pools[id]? = some pool → w.isOpen id = false → pool.idle = []

theorem Tidy.initial : Tidy {} := fun id pool hpool => by simp at hpool

/-- A rule leaves the queue of a pool empty that was not open before. -/
theorem Tidy.idle_eq_nil (htidy : w.Tidy) (hw : w.Linked) (h : Effect w action w' account)
    (hid : id < w.pools.length) (hclosed : w.isOpen id = false)
    (hpool' : w'.pools[id]? = some pool) : pool.idle = [] := by
  have hpool := List.getElem?_eq_getElem hid
  have hbefore := count_isIdle hpool
  have hafter := count_isIdle hpool'
  have hbalance := h.count_balance hw (Holding.isIdle id)
  have hcome := h.come_isIdle hid hclosed
  rw [htidy id _ hpool hclosed, List.length_nil] at hbefore
  exact List.eq_nil_of_length_eq_zero (by omega)

/-- A rule leaves the queue of a pool empty that is not open, unless it leaves the pool alone. -/
theorem Tidy.effect (htidy : w.Tidy) (hw : w.Linked) (h : Effect w action w' account)
    (hpool' : w'.pools[id]? = some pool) (hclosed' : w'.isOpen id = false)
    (hleft : account.left ≠ some id) : pool.idle = [] := by
  have hid : id < w.pools.length := by
    refine Decidable.byContradiction fun hid => ?_
    rw [h.new_isOpen (Nat.le_of_not_lt hid) hpool'] at hclosed'
    cases hclosed'
  have hclosed : w.isOpen id = false := by
    refine Bool.eq_false_iff.mpr fun hopen => ?_
    rw [h.stays_open hopen hleft] at hclosed'
    cases hclosed'
  exact htidy.idle_eq_nil hw h hid hclosed hpool'

theorem Tidy.step (htidy : w.Tidy) (hw : w.Linked) (action : Action) : (w.step action).1.Tidy := by
  intro id pool hpool hclosed
  rcases step_cases hw action with
    ⟨hstep, -⟩ | ⟨w', account, heff, ⟨hstep, hopen⟩ | ⟨left, old, hleft, hold, -, hstep⟩⟩
  · rw [hstep] at hpool hclosed
    exact htidy id pool hpool hclosed
  · rw [hstep] at hpool hclosed
    refine htidy.effect hw heff hpool hclosed fun hleft => ?_
    rcases hopen id hleft with hopen | hnone
    · rw [hopen] at hclosed
      cases hclosed
    · rw [hnone] at hpool
      cases hpool
  · rw [hstep] at hpool hclosed
    by_cases hid : left = id
    · subst hid
      have hlength := (List.getElem?_eq_some_iff.mp hold).1
      rw [setPool, List.getElem?_set_self hlength, Option.some.injEq] at hpool
      rw [← hpool, Pool.idle_closeIdle]
    · rw [setPool, List.getElem?_set_ne hid] at hpool
      refine htidy.effect hw heff hpool hclosed ?_
      rw [hleft]
      exact fun h => hid (Option.some.inj h)

theorem Tidy.run (htidy : w.Tidy) (hw : w.Linked) (actions : List Action) :
    (w.run actions).1.Tidy :=
  run_induction (fun hw htidy action => htidy.step hw action) actions hw htidy

end HeartbeatPool.World
