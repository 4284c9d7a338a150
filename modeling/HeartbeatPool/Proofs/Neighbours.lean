import HeartbeatPool.Proofs.Open
import HeartbeatPool.Proofs.Provenance

/-!
# Pools side by side

Several pools are in one world.  `Alike` compares two worlds as far as one pool is concerned: the
pool itself, the calls on it, the loans from it, and the numbers of dials to its addresses.  What is
done on another pool changes none of that (`Separate.alike_step`), and what is done on the pool does
the same in both worlds (`Alike.acquire` and so on).

For this the pools must be `Separate`: no other pool has one of the addresses, and all pools are
held, so that no pool is closed.
-/

namespace HeartbeatPool

/-! ## Tables that are the same for values of one kind -/

namespace Table

variable {κ α : Type} [DecidableEq κ] {p : α → Prop} {table table' : Table κ α} {key : κ}
  {value : α}

theorem insert_other (hold : ∀ old, table.get? key = some old → ¬p old) (hnew : ¬p value)
    (other : κ) (found : α) (hfound : p found) :
    table.get? other = some found ↔ (table.insert key value).get? other = some found := by
  rw [get?_insert]
  split
  · next heq =>
      subst heq
      refine ⟨fun h => absurd hfound (hold found h), fun h => ?_⟩
      cases h
      exact absurd hfound hnew
  · rfl

theorem erase_other (hold : ∀ old, table.get? key = some old → ¬p old) (other : κ) (found : α)
    (hfound : p found) :
    table.get? other = some found ↔ (table.erase key).get? other = some found := by
  rw [get?_erase]
  split
  · next heq =>
      subst heq
      exact ⟨fun h => absurd hfound (hold found h), by simp⟩
  · rfl

section

variable (h : ∀ key value, p value → (table.get? key = some value ↔ table'.get? key = some value))

include h

theorem insert_congr (key : κ) (value : α) (other : κ) (found : α) (hfound : p found) :
    (table.insert key value).get? other = some found ↔
      (table'.insert key value).get? other = some found := by
  rw [get?_insert, get?_insert]
  split
  · rfl
  · exact h other found hfound

theorem erase_congr (key other : κ) (found : α) (hfound : p found) :
    (table.erase key).get? other = some found ↔ (table'.erase key).get? other = some found := by
  rw [get?_erase, get?_erase]
  split
  · rfl
  · exact h other found hfound

end

end Table

namespace World

variable {w w' w'' : World} {ids : List PoolId} {id other : PoolId} {addresses : List String}
  {key : Key} {action : Action} {account : Account} {call : Call} {loan : Loan} {pool : Pool}

/-! ## Worlds that are alike for one pool -/

/-- Two worlds are the same as far as a pool and the dials to some addresses are concerned. -/
structure Alike (id : PoolId) (addresses : List String) (w w' : World) : Prop where
  pool : w.pools[id]? = w'.pools[id]?
  calls : ∀ key call, call.pool = id →
    (w.calls.get? key = some call ↔ w'.calls.get? key = some call)
  loans : ∀ key loan, loan.pool = id →
    (w.loans.get? key = some loan ↔ w'.loans.get? key = some loan)
  dialed : ∀ address ∈ addresses, w.dialed.count address = w'.dialed.count address

namespace Alike

theorem refl (id : PoolId) (addresses : List String) (w : World) : Alike id addresses w w :=
  ⟨rfl, fun _ _ _ => .rfl, fun _ _ _ => .rfl, fun _ _ => rfl⟩

theorem symm (h : Alike id addresses w w') : Alike id addresses w' w where
  pool := h.pool.symm
  calls key call hcall := (h.calls key call hcall).symm
  loans key loan hloan := (h.loans key loan hloan).symm
  dialed address haddress := (h.dialed address haddress).symm

theorem trans (h : Alike id addresses w w') (h' : Alike id addresses w' w'') :
    Alike id addresses w w'' where
  pool := h.pool.trans h'.pool
  calls key call hcall := (h.calls key call hcall).trans (h'.calls key call hcall)
  loans key loan hloan := (h.loans key loan hloan).trans (h'.loans key loan hloan)
  dialed address haddress := (h.dialed address haddress).trans (h'.dialed address haddress)

/-! ### Changes elsewhere -/

theorem setPool_other (hother : other ≠ id) (pool : Pool) :
    Alike id addresses w (w.setPool other pool) :=
  { refl id addresses w with pool := (List.getElem?_set_ne hother).symm }

theorem insertCall_other (hold : ∀ old, w.calls.get? key = some old → old.pool ≠ id)
    (hnew : call.pool ≠ id) :
    Alike id addresses w { w with calls := w.calls.insert key call } :=
  { refl id addresses w with calls := Table.insert_other hold hnew }

theorem eraseCall_other (hold : ∀ old, w.calls.get? key = some old → old.pool ≠ id) :
    Alike id addresses w { w with calls := w.calls.erase key } :=
  { refl id addresses w with calls := Table.erase_other hold }

theorem insertLoan_other (hold : ∀ old, w.loans.get? key = some old → old.pool ≠ id)
    (hnew : loan.pool ≠ id) :
    Alike id addresses w { w with loans := w.loans.insert key loan } :=
  { refl id addresses w with loans := Table.insert_other hold hnew }

theorem eraseLoan_other (hold : ∀ old, w.loans.get? key = some old → old.pool ≠ id) :
    Alike id addresses w { w with loans := w.loans.erase key } :=
  { refl id addresses w with loans := Table.erase_other hold }

theorem dial_other {address : String} (haddress : address ∉ addresses) :
    Alike id addresses w { w with dialed := address :: w.dialed } :=
  { refl id addresses w with
    dialed := fun other hother => by
      have hne : address ≠ other := fun heq => haddress (heq ▸ hother)
      rw [List.count_cons_of_ne hne] }

/-! ### The same change in both worlds -/

theorem setPool (h : Alike id addresses w w') (pool : Pool) :
    Alike id addresses (w.setPool id pool) (w'.setPool id pool) :=
  { h with
    pool := by simp only [World.setPool, List.getElem?_set_self', h.pool] }

theorem insertCall (h : Alike id addresses w w') (key : Key) (call : Call) :
    Alike id addresses { w with calls := w.calls.insert key call }
      { w' with calls := w'.calls.insert key call } :=
  { h with calls := Table.insert_congr h.calls key call }

theorem eraseCall (h : Alike id addresses w w') (key : Key) :
    Alike id addresses { w with calls := w.calls.erase key }
      { w' with calls := w'.calls.erase key } :=
  { h with calls := Table.erase_congr h.calls key }

theorem insertLoan (h : Alike id addresses w w') (key : Key) (loan : Loan) :
    Alike id addresses { w with loans := w.loans.insert key loan }
      { w' with loans := w'.loans.insert key loan } :=
  { h with loans := Table.insert_congr h.loans key loan }

theorem eraseLoan (h : Alike id addresses w w') (key : Key) :
    Alike id addresses { w with loans := w.loans.erase key }
      { w' with loans := w'.loans.erase key } :=
  { h with loans := Table.erase_congr h.loans key }

theorem dial (h : Alike id addresses w w') (address : String) :
    Alike id addresses { w with dialed := address :: w.dialed }
      { w' with dialed := address :: w'.dialed } :=
  { h with
    dialed := fun other hother => by
      rw [List.count_cons, List.count_cons, h.dialed other hother] }

end Alike

/-! ## Separate pools -/

/-- What is done on the pools of a registry. -/
inductive Serving (ids : List PoolId) : Action → Prop where
  | acquire {call : Key} {pool : PoolId} (hpool : pool ∈ ids) : Serving ids (.acquire call pool)
  | settle {call : Key} {verdict : Verdict} : Serving ids (.settle call verdict)
  | cancel {call : Key} : Serving ids (.cancel call)
  | release {loan : Key} {pool : PoolId} : Serving ids (.release loan pool)
  | refuse {loan : Key} {service : String} : Serving ids (.refuse loan service)
  | reportUnknown {service : String} : Serving ids (.reportUnknown service)
  | drop {loan : Key} : Serving ids (.drop loan)

/-- Some pools are held, all calls and loans are theirs, and the addresses are those of one of
them only. -/
structure Separate (ids : List PoolId) (id : PoolId) (addresses : List String) (w : World) :
    Prop where
  orderly : w.Orderly
  sourced : ∃ events, w.Sourced events
  held : ∀ other ∈ ids, other ∈ w.held
  called : ∀ key call, w.calls.get? key = some call → call.pool ∈ ids
  lent : ∀ key loan, w.loans.get? key = some loan → loan.pool ∈ ids
  mem_iff : ∀ other ∈ ids, ∀ pool, w.pools[other]? = some pool →
    ∀ endpoint ∈ pool.endpoints, endpoint.address ∈ addresses ↔ other = id

namespace Separate

theorem step (h : w.Separate ids id addresses) (hserving : Serving ids action) :
    (w.step action).1.Separate ids id addresses where
  orderly := h.orderly.step action
  sourced := by
    obtain ⟨events, hsourced⟩ := h.sourced
    refine ⟨_, hsourced.step h.orderly fun first second heq => ?_⟩
    rw [heq] at hserving
    cases hserving
  held other hother :=
    mem_held_step h.orderly.linked (h.held other hother) fun heq => by
      rw [heq] at hserving
      cases hserving
  called key call' hcall' := by
    rcases step_call_cases h.orderly.linked hcall' with ⟨call, hcall, hpool⟩ | ⟨-, rfl⟩
    · exact hpool ▸ h.called key call hcall
    · cases hserving with
      | acquire hid => exact hid
  lent key loan' hloan' := by
    rcases step_loan_cases h.orderly.linked hloan' with
      ⟨loan, hloan, hpool⟩ | ⟨-, -, call, hcall, hpool⟩
    · exact hpool ▸ h.lent key loan hloan
    · exact hpool ▸ h.called key call hcall
  mem_iff other hother pool' hpool' := by
    rcases step_pool_cases h.orderly hpool' with
      ⟨pool, hpool, hgiven⟩ | ⟨-, key, creation, rfl, -⟩
    · have hendpoints : pool'.endpoints = pool.endpoints := congrArg Prod.fst hgiven
      rw [hendpoints]
      exact h.mem_iff other hother pool hpool
    · cases hserving

/-- A call has a connection to an address of its own pool. -/
theorem address_mem_iff (h : w.Separate ids id addresses) (hcall : w.calls.get? key = some call) :
    call.entry.conn.address ∈ addresses ↔ call.pool = id := by
  obtain ⟨events, hsourced⟩ := h.sourced
  obtain ⟨table, endpoint, htable, hendpoint, hdial⟩ :=
    hsourced.held _ (holding_mem_of_call hcall)
  have hentry : (call.holding key).entry = call.entry := by
    unfold Call.holding Call.entry
    cases call.phase <;> rfl
  have hplace : w.tableAt (call.holding key).place = w.pools[call.pool]?.map Pool.endpoints := by
    unfold Call.holding
    cases call.phase <;> rfl
  rw [hplace, Option.map_eq_some_iff] at htable
  obtain ⟨pool, hpool, rfl⟩ := htable
  have haddress : endpoint.address = call.entry.conn.address := by
    have hmem := List.mem_of_getElem? hdial
    rw [hentry] at hmem
    simpa using (List.mem_filter.mp hmem).2
  rw [← haddress]
  exact h.mem_iff call.pool (h.called key call hcall) pool hpool endpoint
    (List.mem_of_getElem? hendpoint)

/-- What a call dials is an endpoint of its own pool. -/
theorem endpoint_mem_iff (h : w.Separate ids id addresses) (hcall : w.calls.get? key = some call)
    (hpool : w.pools[call.pool]? = some pool) :
    (pool.endpoint call.entry.index).address ∈ addresses ↔ call.pool = id := by
  have hendpoint := Pool.getElem?_endpoint (h.orderly.index_lt_of_call hcall hpool)
  exact h.mem_iff call.pool (h.called key call hcall) pool hpool _ (List.mem_of_getElem? hendpoint)

theorem left_mem (h : w.Separate ids id addresses) (hserving : Serving ids action)
    (heff : Effect w action w' account) : ∀ left ∈ account.left, left ∈ ids := by
  intro left hleft
  cases heff with
  | startEmpty =>
      cases hleft
      cases hserving with
      | acquire hid => exact hid
  | pass hcall | replace hcall | giveUp hcall | cancelProbe hcall | cancelFull hcall
  | cancelRedial hcall =>
      cases hleft
      exact h.called _ _ hcall
  | letGo => cases hserving
  | _ => cases hleft

/-- A step does nothing or what its rule says, since no pool is closed. -/
theorem step_cases (h : w.Separate ids id addresses) (hserving : Serving ids action) :
    w.step action = (w, []) ∨
      ∃ w' account, Effect w action w' account ∧ w.step action = (w', account.events) := by
  rcases World.step_cases h.orderly.linked action with
    ⟨hstep, -⟩ | ⟨w', account, heff, ⟨hstep, -⟩ | ⟨left, pool, hleft, -, hclosed, -⟩⟩
  · exact Or.inl hstep
  · exact Or.inr ⟨w', account, heff, hstep⟩
  · have hheld : left ∈ w'.held := by
      refine heff.mem_held (h.held left (h.left_mem hserving heff left hleft)) fun heq => ?_
      rw [heq] at hserving
      cases hserving
    rw [isOpen_of_held hheld] at hclosed
    cases hclosed

end Separate

/-- Where all calls are on the pool, no other call is under way. -/
theorem Alike.calls_none (h : Alike id addresses w w') (halone : w'.Separate [id] id addresses)
    (hnone : w.calls.get? key = none) : w'.calls.get? key = none := by
  cases hcall : w'.calls.get? key with
  | none => rfl
  | some call =>
      have hpool := List.mem_singleton.mp (halone.called key call hcall)
      rw [(h.calls key call hpool).mpr hcall] at hnone
      cases hnone

theorem Alike.loans_none (h : Alike id addresses w w') (halone : w'.Separate [id] id addresses)
    (hnone : w.loans.get? key = none) : w'.loans.get? key = none := by
  cases hloan : w'.loans.get? key with
  | none => rfl
  | some loan =>
      have hpool := List.mem_singleton.mp (halone.lent key loan hloan)
      rw [(h.loans key loan hpool).mpr hloan] at hnone
      cases hnone

/-! ## What is done on another pool -/

/-- An action is about a pool: it is done on it, on a call on it or on a loan from it. -/
def About (w : World) (id : PoolId) : Action → Prop
  | .acquire _ other => other = id
  | .settle key _ | .cancel key => ∃ call, w.calls.get? key = some call ∧ call.pool = id
  | .release key _ | .refuse key _ | .drop key =>
      ∃ loan, w.loans.get? key = some loan ∧ loan.pool = id
  | _ => False

theorem Alike.withoutLoan_other (hloan : w.loans.get? key = some loan) (hother : loan.pool ≠ id)
    (pool : Pool) : Alike id addresses w (w.withoutLoan key loan pool) :=
  (Alike.setPool_other hother pool.untrack).trans (eraseLoan_other fun old hold => by
    cases hloan.symm.trans hold
    exact hother)

theorem Alike.withLoan_other (hw : w.Linked) (hcall : w.calls.get? key = some call)
    (hother : call.pool ≠ id) (entry : Entry) :
    Alike id addresses w (w.withLoan key ⟨call.pool, entry⟩) := by
  have hlent : w.loans.get? key = none := hw.not_lent hcall
  refine (eraseCall_other fun old hold => ?_).trans (insertLoan_other (fun old hold => ?_) hother)
  · cases hcall.symm.trans hold
    exact hother
  · cases hlent.symm.trans hold

/-- What a rule does to another pool does nothing to this one. -/
theorem Separate.alike_effect (h : w.Separate ids id addresses) (hserving : Serving ids action)
    (hother : ¬w.About id action) (heff : Effect w action w' account) :
    Alike id addresses w w' := by
  -- a call on another pool is none of the one in question
  have hcalled {key : Key} {call : Call} (hcall : w.calls.get? key = some call)
      (hne : call.pool ≠ id) : ∀ old, w.calls.get? key = some old → old.pool ≠ id := by
    intro old hold
    cases hcall.symm.trans hold
    exact hne
  cases heff with
  | start hkey hloan hheld hpool htake =>
      refine (Alike.setPool_other hother _).trans (.insertCall_other (fun old hold => ?_) hother)
      cases hkey.symm.trans hold
  | startEmpty | reportUnknown => exact .refl ..
  | pass hcall hpool hphase =>
      exact .withLoan_other h.orderly.linked hcall (fun heq => hother ⟨_, hcall, heq⟩) _
  | @dismiss key call pool entry cause hcall hpool hphase =>
      have hne : call.pool ≠ id := fun heq => hother ⟨_, hcall, heq⟩
      -- the lost connection is replaced by a dial, which goes to an address of the other pool
      have haddress : (pool.endpoint entry.index).address ∉ addresses := by
        have hiff := h.endpoint_mem_iff hcall hpool
        rw [Call.entry, hphase] at hiff
        exact fun hmem => hne (hiff.mp hmem)
      exact (Alike.setPool_other hne _).trans
        ((Alike.dial_other haddress).trans (.insertCall_other (hcalled hcall hne) hne))
  | @replace key call pool entry hcall hpool hphase =>
      have hne : call.pool ≠ id := fun heq => hother ⟨_, hcall, heq⟩
      exact (Alike.setPool_other hne _).trans
        (.withLoan_other (h.orderly.linked.setPool ..) hcall hne _)
  | @retry key call pool entry cause attemptsLeft next taken hcall hpool hphase hleft htake =>
      -- the call is taken out and put in again, both on the other pool
      have hne : call.pool ≠ id := fun heq => hother ⟨_, hcall, heq⟩
      refine (Alike.eraseCall_other (hcalled hcall hne)).trans
        ((Alike.setPool_other hne taken).trans (.insertCall_other (fun old hold => ?_) hne))
      cases (w.calls.get?_erase_self key).symm.trans hold
  | giveUp hcall | cancelRedial hcall =>
      exact .eraseCall_other (hcalled hcall fun heq => hother ⟨_, hcall, heq⟩)
  | cancelProbe hcall | cancelFull hcall =>
      exact (Alike.setPool_other (fun heq => hother ⟨_, hcall, heq⟩) _).trans
        (.eraseCall_other (hcalled hcall fun heq => hother ⟨_, hcall, heq⟩))
  | @takeBack key loan pool hloan hheld hpool hfree =>
      have hne : loan.pool ≠ id := fun heq => hother ⟨_, hloan, heq⟩
      refine (Alike.setPool_other hne _).trans (.eraseLoan_other fun old hold => ?_)
      cases hloan.symm.trans hold
      exact hne
  | takeFull hloan | turnAway hloan | refuse hloan | drop hloan =>
      exact .withoutLoan_other hloan (fun heq => hother ⟨_, hloan, heq⟩) _
  | create | dialSlot | establish | failSlot | finishEmpty | finish | abandon | swap | letGo =>
      cases hserving

/-- What is done on another pool does nothing to this one. -/
theorem Separate.alike_step (h : w.Separate ids id addresses) (hserving : Serving ids action)
    (hother : ¬w.About id action) : Alike id addresses w (w.step action).1 := by
  rcases h.step_cases hserving with hstep | ⟨w', account, heff, hstep⟩
  · rw [hstep]
    exact .refl ..
  · rw [hstep]
    exact h.alike_effect hserving hother heff

/-! ## What is done on the pool -/

theorem acquire_of_free (hcall : w.calls.get? key = none) (hloan : w.loans.get? key = none)
    (hheld : id ∈ w.held) : w.acquire key id =
      match w.pools[id]? with
      | none => (w, [])
      | some pool => w.attempt key id pool (max pool.idleConnections 1) := by
  unfold World.acquire
  exact if_neg (by simp [Table.contains, hcall, hloan, hheld])

section

variable (h : Alike id addresses w w') (hheld : id ∈ w.held) (hheld' : id ∈ w'.held)

include h hheld hheld'

theorem Alike.attempt (key : Key) (pool : Pool) (attempts : Nat) :
    Alike id addresses (w.attempt key id pool attempts).1 (w'.attempt key id pool attempts).1 := by
  have hexhausted : Alike id addresses (attempt.exhausted w id pool).1
      (attempt.exhausted w' id pool).1 := by
    simp only [attempt.exhausted, Change.andThen, reap_of_held hheld, reap_of_held hheld']
    exact h
  cases attempts with
  | zero => exact hexhausted
  | succ attemptsLeft =>
      unfold World.attempt
      cases htake : pool.takeIdle? with
      | none => exact hexhausted
      | some taken => exact (h.setPool taken.2).insertCall key _

/-- A new call begins in the same way. -/
theorem Alike.acquire (hcall : w.calls.get? key = none) (hloan : w.loans.get? key = none)
    (hcall' : w'.calls.get? key = none) (hloan' : w'.loans.get? key = none) :
    Alike id addresses (w.acquire key id).1 (w'.acquire key id).1 := by
  rw [acquire_of_free hcall hloan hheld, acquire_of_free hcall' hloan' hheld', h.pool]
  cases w'.pools[id]? with
  | none => exact h
  | some pool => exact h.attempt hheld hheld' key pool _

theorem Alike.lend (key : Key) (entry : Entry) :
    Alike id addresses (w.lend key id entry).1 (w'.lend key id entry).1 := by
  unfold World.lend
  rw [reap_of_held (by exact hheld), reap_of_held (by exact hheld')]
  exact (h.eraseCall key).insertLoan key _

/-- An answer does the same for a call. -/
theorem Alike.settle (hcall : w.calls.get? key = some call) (hid : call.pool = id)
    (haddress : ∀ pool, w.pools[id]? = some pool →
      (pool.endpoint call.entry.index).address ∈ addresses) (verdict : Verdict) :
    Alike id addresses (w.settle key verdict).1 (w'.settle key verdict).1 := by
  subst hid
  have hcall' := (h.calls key call rfl).mp hcall
  unfold World.settle
  simp only [hcall, hcall', ← h.pool]
  cases hpool : w.pools[call.pool]? with
  | none => exact h
  | some pool =>
      cases hphase : call.phase with
      | probing entry =>
          cases verdict with
          | success => exact h.lend hheld hheld' key entry
          | failure cause =>
              have hin := haddress pool hpool
              rw [Call.entry, hphase] at hin
              have hdismissed := h.setPool pool.untrack
              simp only [Change.andThen, World.dismiss, World.redial, World.dial]
              rw [hdismissed.dialed _ hin]
              exact (hdismissed.dial _).insertCall key _
      | redialing entry =>
          cases verdict with
          | success => exact (h.setPool pool.track).lend hheld hheld' key entry
          | failure cause => exact (h.eraseCall key).attempt hheld hheld' key pool _

/-- A call is given up in the same way. -/
theorem Alike.cancel (hcall : w.calls.get? key = some call) (hid : call.pool = id) :
    Alike id addresses (w.cancel key).1 (w'.cancel key).1 := by
  subst hid
  have hcall' := (h.calls key call rfl).mp hcall
  unfold World.cancel
  simp only [hcall, hcall', ← h.pool]
  cases w.pools[call.pool]? with
  | none => exact h
  | some pool =>
      cases call.phase with
      | redialing entry =>
          dsimp only
          rw [reap_of_held (by exact hheld), reap_of_held (by exact hheld')]
          exact h.eraseCall key
      | probing entry =>
          simp only [Change.andThen]
          rw [reap_of_held (by exact hheld), reap_of_held (by exact hheld')]
          exact (h.eraseCall key).setPool _

omit hheld hheld' in
/-- A loan is dropped in the same way. -/
theorem Alike.drop (hloan : w.loans.get? key = some loan) (hid : loan.pool = id) :
    Alike id addresses (w.drop key).1 (w'.drop key).1 := by
  subst hid
  have hloan' := (h.loans key loan rfl).mp hloan
  unfold World.drop
  simp only [hloan, hloan', ← h.pool]
  cases w.pools[loan.pool]? with
  | none => exact h.eraseLoan key
  | some pool => exact (h.eraseLoan key).setPool pool.untrack

/-- A loan is taken back in the same way. -/
theorem Alike.release (hloan : w.loans.get? key = some loan) (hid : loan.pool = id) :
    Alike id addresses (w.release key id).1 (w'.release key id).1 := by
  subst hid
  have hloan' := (h.loans key loan rfl).mp hloan
  unfold World.release
  rw [if_neg (by simp [hheld]), if_neg (by simp [hheld'])]
  simp only [hloan, hloan', ← h.pool]
  cases w.pools[loan.pool]? with
  | none => exact h
  | some pool =>
      simp only [if_true]
      exact (h.setPool _).eraseLoan key

end

/-! ## Loans that are handed back elsewhere -/

/-- A pool that has not lent the connection does what dropping the loan does. -/
theorem release_fst_of_ne (hw : w.Linked) (hloan : w.loans.get? key = some loan)
    (hother : loan.pool ≠ other) (hheld : other ∈ w.held) :
    (w.release key other).1 = (w.drop key).1 := by
  obtain ⟨pool, hpool⟩ := hw.poolOfHeld hheld
  unfold release
  rw [if_neg (by simp [hheld])]
  simp only [hloan, hpool, if_neg hother, Change.andThen]

theorem refuse_fst (hloan : w.loans.get? key = some loan) (service : String) :
    (w.refuse key service).1 = (w.drop key).1 := by
  simp only [refuse, hloan, Change.andThen, reportUnknown]

end World

end HeartbeatPool
