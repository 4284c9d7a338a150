import HeartbeatPool.Proofs.Answers
import HeartbeatPool.Proofs.Vetting
import Mathlib.Data.List.Rotate

/-!
# Giving up a call

A call waits for one heartbeat or one dial at a time, and may be given up while it does.  By then it
has discarded a connection for each attempt that is over: its heartbeat failed, so it was closed and
no longer counted (`Discarded`).  `Tried` tells which connections those were and how many attempts
the call had left.

To give up a call undoes nothing of that.  A connection under test goes to the back of the queue; a
dial in flight delivers nothing any more; all that belongs to others stays as it is (`Forgets`).
Only a pool that nobody has any more is then closed, which is not the call's doing.
-/

namespace HeartbeatPool

/-- A new key that is forgotten again leaves no trace. -/
theorem Table.erase_insert_of_absent {κ α : Type} [DecidableEq κ] {table : Table κ α} {key : κ}
    (habsent : table.get? key = none) (value : α) : (table.insert key value).erase key = table := by
  have hnot : key ∉ table.toList.map Prod.fst := (get?_eq_none_iff table key).mp habsent
  have hput (pairs : List (κ × α)) (hpairs : key ∉ pairs.map Prod.fst) :
      (put pairs key value).filter (fun pair => pair.1 ≠ key) = pairs := by
    induction pairs with
    | nil => simp [put]
    | cons pair rest ih =>
        simp only [List.map_cons, List.mem_cons, not_or] at hpairs
        have hne : pair.1 ≠ key := fun h => hpairs.1 h.symm
        rw [put, if_neg hne, List.filter_cons_of_pos (by simpa using hne), ih hpairs.2]
  cases table with
  | mk pairs nodup =>
      simp only [erase, insert, Table.mk.injEq]
      exact hput pairs hnot

/-- How many connections a call may still discard: the one under test, and one for each further
attempt. -/
def Call.discardsLeft (call : Call) : Nat :=
  match call.phase with
  | .probing _ => call.attemptsLeft + 1
  | .redialing _ => call.attemptsLeft

namespace World

variable {w w' : World} {action : Action} {account : Account} {key : Key} {id : PoolId}
  {pool : Pool} {call : Call} {entry : Entry}

/-! ## What a call discards -/

/-- The connection that an action makes the call under a key discard: one whose heartbeat fails. -/
def discard? (w : World) (key : Key) : Action → Option Entry
  | .settle other (.failure _) =>
      if other = key then
        match (w.calls.get? key).map Call.phase with
        | some (.probing entry) => some entry
        | _ => none
      else none
  | _ => none

/-- The connections that calls under a key discard in a run, in order. -/
def discards (w : World) (key : Key) : List Action → List Entry
  | [] => []
  | action :: rest => (w.discard? key action).toList ++ (w.step action).1.discards key rest

theorem discards_append (w : World) (key : Key) (first second : List Action) :
    w.discards key (first ++ second) =
      w.discards key first ++ (w.run first).1.discards key second := by
  induction first generalizing w with
  | nil => rfl
  | cons action rest ih =>
      simp only [List.cons_append, discards, ih, List.append_assoc]
      rfl

theorem discard?_eq_some_iff : w.discard? key action = some entry ↔
    ∃ cause call, action = .settle key (.failure cause) ∧ w.calls.get? key = some call ∧
      call.phase = .probing entry := by
  constructor
  · intro h
    unfold discard? at h
    split at h
    · next other cause =>
        split at h
        · next hkey =>
            split at h
            · next old hphase =>
                obtain ⟨call, hcall, hphase⟩ := Option.map_eq_some_iff.mp hphase
                cases h
                exact ⟨cause, call, by rw [hkey], hcall, hphase⟩
            · cases h
        · cases h
    · cases h
  · rintro ⟨cause, call, rfl, hcall, hphase⟩
    simp [discard?, hcall, hphase]

/-- What is discarded in a run is discarded by one of its steps. -/
theorem exists_of_mem_discards {actions : List Action} (h : entry ∈ w.discards key actions) :
    ∃ before cause after call, actions = before ++ .settle key (.failure cause) :: after ∧
      (w.run before).1.calls.get? key = some call ∧ call.phase = .probing entry := by
  induction actions generalizing w with
  | nil => cases h
  | cons action rest ih =>
      rcases List.mem_append.mp h with h | h
      · obtain ⟨cause, call, rfl, hcall, hphase⟩ :=
          discard?_eq_some_iff.mp (Option.mem_toList.mp h)
        exact ⟨[], cause, rest, call, rfl, hcall, hphase⟩
      · obtain ⟨before, cause, after, call, rfl, hcall, hphase⟩ := ih h
        exact ⟨action :: before, cause, after, call, rfl, hcall, hphase⟩

/-- How a call that goes on has come along in one step. -/
structure Advances (w : World) (key : Key) (action : Action) (call call' : Call) : Prop where
  pool : call'.pool = call.pool
  left : (w.discard? key action).toList.length + call'.discardsLeft = call.discardsLeft
  /-- A call that dials anew has just discarded a connection of the same endpoint, or has already
  been dialing. -/
  redials : ∀ entry, call'.phase = .redialing entry →
    (∃ old, w.discard? key action = some old ∧ old.index = entry.index) ∨
      w.discard? key action = none ∧ call.phase = .redialing entry

theorem Advances.stay (hnone : w.discard? key action = none) : Advances w key action call call where
  pool := rfl
  left := by rw [hnone]; exact Nat.zero_add _
  redials _ hphase := Or.inr ⟨hnone, hphase⟩

/-- An action of another call makes this one discard nothing. -/
theorem discard?_of_ne (hkey : action.call? ≠ some key) : w.discard? key action = none := by
  refine Option.eq_none_iff_forall_ne_some.mpr fun entry h => ?_
  obtain ⟨cause, call, rfl, -, -⟩ := discard?_eq_some_iff.mp h
  exact hkey rfl

/-- A call begins with a test and as many attempts as there are idle connections, or goes on. -/
theorem Effect.advances (h : Effect w action w' account) {call' : Call}
    (hcall' : w'.calls.get? key = some call') :
    (∃ call, w.calls.get? key = some call ∧ Advances w key action call call') ∨
      (w.calls.get? key = none ∧ action = .acquire key call'.pool ∧
        (∃ entry, call'.phase = .probing entry) ∧
        ∃ pool, w.pools[call'.pool]? = some pool ∧
          call'.discardsLeft = max pool.idleConnections 1) := by
  by_cases hkey : action.call? = some key
  · cases h with
    | @start other id pool entry taken hnone hloan hheld hpool htake =>
        -- a call that is new has one discard for each connection that was idle
        cases hkey
        rw [withProbe, Table.get?_insert_self, Option.some.injEq] at hcall'
        subst hcall'
        refine Or.inr ⟨hnone, rfl, ⟨entry, rfl⟩, pool, hpool, ?_⟩
        exact Nat.sub_add_cancel (Nat.le_max_right ..)
    | @dismiss other call pool entry cause hcall hpool hphase =>
        cases hkey
        rw [Table.get?_insert_self, Option.some.injEq] at hcall'
        subst hcall'
        -- the discard that is seen is one of those that were left
        have hdiscard : w.discard? key (.settle key (.failure cause)) = some entry :=
          discard?_eq_some_iff.mpr ⟨cause, call, rfl, hcall, hphase⟩
        refine Or.inl ⟨call, hcall, rfl, ?_, ?_⟩
        · rw [hdiscard]
          simp only [Call.discardsLeft, hphase, Option.toList_some, List.length_singleton]
          exact Nat.add_comm ..
        · rintro fresh ⟨⟩
          exact Or.inl ⟨entry, hdiscard, rfl⟩
    | @retry other call pool entry cause attemptsLeft next taken hcall hpool hphase hleft =>
        cases hkey
        rw [withProbe, Table.get?_insert_self, Option.some.injEq] at hcall'
        subst hcall'
        have hdiscard : w.discard? key (.settle key (.failure cause)) = none := by
          simp [discard?, hcall, hphase]
        refine Or.inl ⟨call, hcall, rfl, ?_, ?_⟩
        · rw [hdiscard]
          simp only [Call.discardsLeft, hphase, hleft, Option.toList_none, List.length_nil]
          exact Nat.zero_add _
        · rintro fresh ⟨⟩
    | startEmpty hnone =>
        cases hkey
        rw [hnone] at hcall'
        cases hcall'
    | pass | replace | giveUp | cancelProbe | cancelFull | cancelRedial =>
        -- the call is over, so it is none of those afterwards
        cases hkey
        simp only [withLoan, setPool] at hcall'
        rw [Table.get?_erase_self] at hcall'
        cases hcall'
    | _ => cases hkey
  · rw [h.calls_of_ne hkey] at hcall'
    exact Or.inl ⟨call', hcall', .stay (discard?_of_ne hkey)⟩

theorem step_advances (hw : w.Linked) {call' : Call}
    (hcall' : (w.step action).1.calls.get? key = some call') :
    (∃ call, w.calls.get? key = some call ∧ Advances w key action call call') ∨
      (w.calls.get? key = none ∧ action = .acquire key call'.pool ∧
        (∃ entry, call'.phase = .probing entry) ∧
        ∃ pool, w.pools[call'.pool]? = some pool ∧
          call'.discardsLeft = max pool.idleConnections 1) := by
  rcases step_cases hw action with
    ⟨hstep, hnone⟩ | ⟨w', account, heff, ⟨hstep, -⟩ | ⟨left, old, -, -, -, hstep⟩⟩
  · -- an action that makes no sense is not the failure of a heartbeat
    rw [hstep] at hcall'
    refine Or.inl ⟨call', hcall', .stay ?_⟩
    refine Option.eq_none_iff_forall_ne_some.mpr fun entry h => ?_
    obtain ⟨cause, call, rfl, hcall, hphase⟩ := discard?_eq_some_iff.mp h
    obtain ⟨pool, hpool⟩ := hw.poolOfCall hcall
    exact hnone _ _ (.dismiss hcall hpool hphase)
  · rw [hstep] at hcall'
    exact heff.advances hcall'
  · rw [hstep] at hcall'
    exact heff.advances hcall'

/-! ## The attempts of a call -/

/-- A call began with as many attempts as there were idle connections, and one if there were none;
it has been under way ever since, and has discarded some connections. -/
inductive Tried (key : Key) (call : Call) (discarded : List Entry) : List Action → Prop where
  | intro {past during pool}
      (hnew : (run {} past).1.calls.get? key = none)
      (hpool : (run {} past).1.pools[call.pool]? = some pool)
      (hsince : ∀ passed, passed <+: during →
        ((run {} (past ++ .acquire key call.pool :: passed)).1.calls.get? key).isSome)
      (hdiscarded : discarded =
        (run {} (past ++ [.acquire key call.pool])).1.discards key during)
      (hleft : discarded.length + call.discardsLeft = max pool.idleConnections 1)
      (hredials : ∀ entry, call.phase = .redialing entry →
        ∃ earlier old, discarded = earlier ++ [old] ∧ old.index = entry.index) :
      Tried key call discarded (past ++ .acquire key call.pool :: during)

theorem Tried.step {discarded : List Entry} {actions : List Action}
    (h : Tried key call discarded actions) {call' : Call}
    (hcall' : (run {} (actions ++ [action])).1.calls.get? key = some call')
    (hadvances : Advances (run {} actions).1 key action call call') :
    Tried key call' (discarded ++ ((run {} actions).1.discard? key action).toList)
      (actions ++ [action]) := by
  cases h with
  | @intro past during pool hnew hpool hsince hdiscarded hleft hredials =>
      have hsplit : past ++ .acquire key call.pool :: during ++ [action] =
          past ++ .acquire key call'.pool :: (during ++ [action]) := by
        rw [hadvances.pool, List.append_assoc, List.cons_append]
      have hstart : (run {} (past ++ [.acquire key call.pool] ++ during)).1 =
          (run {} (past ++ .acquire key call.pool :: during)).1 := by
        rw [List.append_assoc, List.singleton_append]
      rw [hsplit] at hcall' ⊢
      refine .intro hnew (hadvances.pool ▸ hpool) (fun passed hpassed => ?_) ?_ ?_ ?_
      · rcases List.prefix_concat_iff.mp hpassed with rfl | hpassed
        · exact Option.isSome_of_mem hcall'
        · rw [hadvances.pool]
          exact hsince passed hpassed
      · rw [hadvances.pool, discards_append, ← run_append_fst, hstart, ← hdiscarded]
        simp only [discards, List.append_nil]
      · have hadvanced := hadvances.left
        rw [List.length_append]
        omega
      · intro entry hphase
        rcases hadvances.redials entry hphase with ⟨old, hdiscard, hindex⟩ | ⟨hnone, hbefore⟩
        · rw [hdiscard]
          exact ⟨discarded, old, rfl, hindex⟩
        · rw [hnone, Option.toList_none, List.append_nil]
          exact hredials entry hbefore

/-- Every call under way has made its attempts. -/
theorem tried_of_call (actions : List Action)
    (hcall : (run {} actions).1.calls.get? key = some call) :
    ∃ discarded, Tried key call discarded actions := by
  induction actions using List.reverseRecOn generalizing call with
  | nil => cases hcall
  | append_singleton before action ih =>
      have hstepped := hcall
      rw [run_snoc_fst] at hstepped
      rcases step_advances (Orderly.initial.run before).linked hstepped with
        ⟨old, hold, hadvances⟩ | ⟨hnew, rfl, ⟨entry, hphase⟩, pool, hpool, hleft⟩
      · obtain ⟨discarded, htried⟩ := ih hold
        exact ⟨_, htried.step hcall hadvances⟩
      · refine ⟨[], .intro hnew hpool (fun passed hpassed => ?_) rfl ?_ ?_⟩
        · rw [List.prefix_nil.mp hpassed]
          exact Option.isSome_of_mem hcall
        · rw [List.length_nil, Nat.zero_add, hleft]
        · intro fresh hredialing
          rw [hphase] at hredialing
          cases hredialing

/-- The heartbeat of a connection failed in a run, while a call had the connection in hand: there
and then it was closed, and the pool counted one less. -/
inductive Discarded (key : Key) (id : PoolId) (entry : Entry) : List Action → Prop where
  | intro {before cause after pool}
      (hplace : (run {} before).1.whereabouts entry.conn = [.checkout key id])
      (hpool : (run {} before).1.pools[id]? = some pool)
      (huncounted : ((run {} before).1.step (.settle key (.failure cause))).1.pools[id]? =
        some pool.untrack)
      (hlive : pool.untrack.live + 1 = pool.live)
      (hclosed : .close entry.conn ∈
        ((run {} before).1.step (.settle key (.failure cause))).2) :
      Discarded key id entry (before ++ .settle key (.failure cause) :: after)

theorem discarded_of_failure {before after : List Action} {cause : String}
    (hcall : (run {} before).1.calls.get? key = some call) (hphase : call.phase = .probing entry) :
    Discarded key call.pool entry (before ++ .settle key (.failure cause) :: after) := by
  obtain ⟨pool, hpool⟩ := (Orderly.initial.run before).linked.poolOfCall hcall
  have hstep := settle_of_sick hcall hpool hphase cause
  obtain ⟨-, -, hlive, -⟩ := live_after_run before call.pool hpool
  refine .intro ((ledger_of_run before).unique (checkout_mem_whereabouts hcall hphase)).1 hpool ?_
    (hlive key call entry hcall rfl hphase) ?_
  · rw [hstep]
    exact List.getElem?_set_self (List.getElem?_eq_some_iff.mp hpool).1
  · rw [hstep]
    simp

/-- What a call has discarded was closed when its heartbeat failed. -/
theorem Tried.discarded {discarded : List Entry} {actions : List Action}
    (h : Tried key call discarded actions) (hentry : entry ∈ discarded) :
    Discarded key call.pool entry actions := by
  cases h with
  | @intro past during pool hnew hpool hsince hdiscarded hleft hredials =>
      rw [hdiscarded] at hentry
      obtain ⟨before, cause, after, old, rfl, hold, hphase⟩ := exists_of_mem_discards hentry
      rw [← run_append_fst, List.append_assoc, List.singleton_append] at hold
      have hasked : Asked key call.pool (past ++ .acquire key call.pool :: before) := by
        refine .intro ⟨hnew, rfl⟩ fun passed hpassed => hsince passed ?_
        exact hpassed.trans (List.prefix_append ..)
      have hsplit := @discarded_of_failure _ _ _ _ after cause hold hphase
      rwa [(asked_iff hold).mp hasked, List.append_assoc, List.cons_append] at hsplit

theorem Discarded.closed {actions : List Action} (h : Discarded key id entry actions) :
    .close entry.conn ∈ (run {} actions).2 := by
  cases h with
  | intro hplace hpool huncounted hlive hclosed =>
      rw [run_append_snd]
      exact List.mem_append_right _ (List.mem_append_left _ hclosed)

/-! ## The end of a call -/

/-- A call comes to an end, and nothing changes that is not its own or its pool's. -/
structure Forgets (w : World) (key : Key) (id : PoolId) (w' : World) : Prop where
  ended : w'.calls.get? key = none
  calls : ∀ other, other ≠ key → w'.calls.get? other = w.calls.get? other
  pools : ∀ other, other ≠ id → w'.pools[other]? = w.pools[other]?
  loans : w'.loans = w.loans
  creations : w'.creations = w.creations
  dialed : w'.dialed = w.dialed
  held : w'.held = w.held

/-- What is left when a call is given up: a connection under test is at the back of the queue, and a
dial in flight leaves nothing. -/
inductive Leaves (w : World) (pool : Pool) (call : Call) (w' : World) : List Event → Prop where
  | probing {entry : Entry} (hphase : call.phase = .probing entry)
      (hpool : w'.pools[call.pool]? = some (pool.parked entry))
      (hplace : w'.whereabouts entry.conn = [.idle call.pool]) :
      Leaves w pool call w' [.log (.acquireCancelled pool.name (pool.address entry.index))]
  | redialing {entry : Entry} (hphase : call.phase = .redialing entry) (hpools : w'.pools = w.pools)
      (hplace : w'.whereabouts entry.conn = []) : Leaves w pool call w' []

theorem forgets_of_pools {pools : List Pool}
    (hpools : ∀ other, other ≠ id → pools[other]? = w.pools[other]?) :
    Forgets w key id { w with pools := pools, calls := w.calls.erase key } where
  ended := Table.get?_erase_self ..
  calls other hother := by rw [Table.get?_erase, if_neg (Ne.symm hother)]
  pools := hpools
  loans := rfl
  creations := rfl
  dialed := rfl
  held := rfl

/-- What is being dialed has not been delivered. -/
theorem Ledger.nowhere_of_redialing {events : List Event} {conns : List Conn}
    (h : Ledger w events conns) (hcall : w.calls.get? key = some call)
    (hphase : call.phase = .redialing entry) : entry.conn ∉ conns := by
  have hissued := h.issued entry.conn
  have hone : World.issued w.dialed entry.conn ≤ 1 := by
    unfold World.issued
    split <;> omega
  have hawaits : 0 < w.count (Holding.awaits entry.conn) := by
    refine List.countP_pos_iff.mpr ⟨_, holding_mem_of_call hcall, ?_⟩
    simp [Call.holding, hphase, Holding.awaits, Place.isDelivered]
  exact List.count_eq_zero.mp (by omega)

/-- To give up a call, and then to close its pool if nobody has it any more, is all that happens. -/
theorem cancel_forgets {events : List Event} {conns : List Conn} (hw : w.Orderly)
    (hledger : Ledger w events conns) (hcall : w.calls.get? key = some call)
    (hpool : w.pools[call.pool]? = some pool) :
    ∃ w' own, w.step (.cancel key) = Change.andThen (w', own) (fun w => w.reap call.pool) ∧
      Forgets w key call.pool w' ∧ Leaves w pool call w' own := by
  cases hphase : call.phase with
  | probing entry =>
      have hfree := hw.free_of_probing hcall hpool hphase
      have hlength := (List.getElem?_eq_some_iff.mp hpool).1
      have hafter := hledger.effect hw (.cancelProbe hcall hpool hphase hfree)
      have hparked : (w.pools.set call.pool (pool.parked entry))[call.pool]? =
          some (pool.parked entry) := List.getElem?_set_self hlength
      refine ⟨_, _, step_cancel hw hcall hpool hphase,
        forgets_of_pools fun other hother => List.getElem?_set_ne (Ne.symm hother),
        .probing hphase hparked ?_⟩
      have hidle : entry ∈ (pool.parked entry).idle := by simp
      exact (hafter.unique (mem_whereabouts_iff.mpr
        ⟨entry.index, holding_mem_of_idle hparked hidle, rfl⟩)).1
  | redialing entry =>
      have hnone : entry.conn ∉ conns := hledger.nowhere_of_redialing hcall hphase
      have hafter := hledger.effect hw (.cancelRedial hcall hpool hphase)
      refine ⟨{ w with calls := w.calls.erase key }, [], ?_, forgets_of_pools fun _ _ => rfl,
        .redialing hphase rfl ?_⟩
      · simp only [World.step, cancel, hcall, hpool, hphase, Change.andThen, List.nil_append]
      · have hlength := hafter.length_whereabouts_add entry.conn
        simp only [deliveries, List.append_nil, List.count_eq_zero.mpr hnone] at hlength
        exact List.eq_nil_of_length_eq_zero (by omega)

/-- A call that is given up in its first test leaves the queue as it was, but for the connection
that has been idle longest, which is now last. -/
theorem run_acquire_cancel (hw : w.Orderly) (hcall : w.calls.get? key = none)
    (hloan : w.loans.get? key = none) (hheld : id ∈ w.held) (hpool : w.pools[id]? = some pool)
    {rest : List Entry} (hidle : pool.idle = entry :: rest) :
    w.run [.acquire key id, .cancel key] =
      (w.setPool id { pool with idle := pool.idle.rotate 1 },
        [.probe pool.label entry.conn,
          .log (.acquireCancelled pool.name (pool.address entry.index))]) := by
  let taken : Pool := { pool with idle := rest, free := pool.free + 1 }
  let probing : World := w.withProbe key id taken (max pool.idleConnections 1 - 1) entry
  have hacquire : w.step (.acquire key id) = (probing, [.probe pool.label entry.conn]) :=
    acquire_of_cons hcall hloan hheld hpool hidle
  have hlength := (List.getElem?_eq_some_iff.mp hpool).1
  have hprobing : probing.Orderly := by
    have h := hw.step (.acquire key id)
    rwa [hacquire] at h
  have htaken : probing.pools[id]? = some taken := List.getElem?_set_self hlength
  have hcancel := step_cancel hprobing (Table.get?_insert_self ..) htaken rfl
  have hparked : taken.parked entry = { pool with idle := pool.idle.rotate 1 } := by
    simp [taken, Pool.parked, hidle]
  have hafter : { probing.setPool id (taken.parked entry) with calls := probing.calls.erase key } =
      w.setPool id { pool with idle := pool.idle.rotate 1 } := by
    rw [hparked]
    simp [probing, withProbe, setPool, Table.erase_insert_of_absent hcall]
  rw [hafter, Change.andThen, reap_of_held (w := w.setPool id _) hheld] at hcancel
  simp only [World.run, hacquire, Change.andThen, hcancel]
  rfl

/-! ## Every run -/

/-- Whatever has happened before, and at whatever point it is given up, a call leaves this behind.

The connections that it has discarded are as many as attempts are over; they were closed and
uncounted then, and they stay closed.  Nothing but the call itself is forgotten.  During a test the
connection goes to the back of the queue, which is otherwise as it was; it is in no other place, was
not closed, and counts as before.  During a dial the pools stay as they are; what is being dialed is
nowhere, and the connection that it was to replace is the last that the call has discarded.  Only
then is the pool closed, if nobody has it any more.

A call that is given up right after its start rotates the queue by one. -/
theorem cancel_after_run (actions : List Action) :
    (∀ key call, (run {} actions).1.calls.get? key = some call →
      ∃ pool discarded w' events, (run {} actions).1.pools[call.pool]? = some pool ∧
        Tried key call discarded actions ∧
        (∀ entry ∈ discarded, Discarded key call.pool entry actions ∧
          (run {} (actions ++ [.cancel key])).1.whereabouts entry.conn = [] ∧
          (run {} (actions ++ [.cancel key])).2.count (.close entry.conn) = 1) ∧
        (run {} actions).1.step (.cancel key) =
          Change.andThen (w', events) (fun w => w.reap call.pool) ∧
        (w'.isOpen call.pool = true → (run {} actions).1.step (.cancel key) = (w', events)) ∧
        Forgets (run {} actions).1 key call.pool w' ∧
        Leaves (run {} actions).1 pool call w' events ∧
        (∀ entry, call.phase = .probing entry → .close entry.conn ∉ (run {} actions).2 ++ events ∧
          (pool.parked entry).idle = pool.idle ++ [entry] ∧
          (pool.parked entry).live = pool.live) ∧
        ∀ entry, call.phase = .redialing entry →
          ∃ earlier old, discarded = earlier ++ [old] ∧ old.index = entry.index) ∧
    ∀ key id pool entry rest, (run {} actions).1.calls.get? key = none →
      (run {} actions).1.loans.get? key = none → id ∈ (run {} actions).1.held →
      (run {} actions).1.pools[id]? = some pool → pool.idle = entry :: rest →
      (run {} actions).1.run [.acquire key id, .cancel key] =
        ((run {} actions).1.setPool id { pool with idle := pool.idle.rotate 1 },
          [.probe pool.label entry.conn,
            .log (.acquireCancelled pool.name (pool.address entry.index))]) := by
  have hw := Orderly.initial.run actions
  refine ⟨fun key call hcall => ?_, fun key id pool entry rest hcall hloan hheld hpool hidle =>
    run_acquire_cancel hw hcall hloan hheld hpool hidle⟩
  have hledger := ledger_of_run actions
  obtain ⟨pool, hpool⟩ := hw.linked.poolOfCall hcall
  -- what the call has discarded so far is read off its past
  obtain ⟨discarded, htried⟩ := tried_of_call actions hcall
  obtain ⟨w', events, hstep, hforgets, hleaves⟩ := cancel_forgets hw hledger hcall hpool
  refine ⟨pool, discarded, w', events, hpool, htried, fun entry hentry => ?_, hstep,
    fun hopen => ?_, hforgets, hleaves, fun entry hphase => ⟨?_, rfl, rfl⟩, ?_⟩
  · have hdiscarded := htried.discarded hentry
    have hclosed : .close entry.conn ∈ (run {} (actions ++ [.cancel key])).2 := by
      rw [run_append_snd]
      exact List.mem_append_left _ hdiscarded.closed
    exact ⟨hdiscarded, (ledger_of_run _).closed hclosed⟩
  · -- a pool is reaped only when nobody holds it and no call is on it
    rcases reap_cases w' call.pool with ⟨hreap, -⟩ | ⟨old, -, hclosed, -⟩
    · rw [hstep, Change.andThen, hreap, List.append_nil]
    · rw [hopen] at hclosed
      cases hclosed
  · -- the connection is in a place, so it was never closed
    have hplace := checkout_mem_whereabouts hcall hphase
    have hnot := (hledger.unique hplace).2
    cases hleaves with
    | probing => simpa using hnot
    | redialing => simpa using hnot
  · cases htried with
    | intro _ _ _ _ _ hredials => exact hredials

/-- A call is given up in its test: the connection is idle again.  Given up after the test has
failed, it leaves the pool alone, and the connection that it has discarded nowhere.  One that is
given up at once rotates a queue of two. -/
theorem cancel_of_lentAndProbed :
    (∃ w' events, (run {} lentAndProbed).1.step (.cancel 2) = (w', events) ∧
        w'.whereabouts ⟨"a:1", 1⟩ = [.idle 0]) ∧
      (∃ w' events old,
        (run {} (lentAndProbed ++ [.settle 2 (.failure "sick")])).1.step (.cancel 2) =
          (w', events) ∧
        w'.pools = (run {} (lentAndProbed ++ [.settle 2 (.failure "sick")])).1.pools ∧
        Discarded 2 0 old (lentAndProbed ++ [.settle 2 (.failure "sick")])) ∧
      (((run {} twoIdle).1.run [.acquire 1 0, .cancel 1]).1.pools[0]?.map Pool.idle) =
        some [⟨⟨"a:1", 1⟩, 0⟩, ⟨⟨"a:1", 0⟩, 0⟩] := by
  refine ⟨?_, ?_, ?_⟩
  · obtain ⟨pool, discarded, w', events, hpool, -, -, -, hstep, hforgets, hleaves, -⟩ :=
      (cancel_after_run lentAndProbed).1 2 _ rfl
    refine ⟨w', events, hstep (isOpen_of_held (hforgets.held ▸ by decide)), ?_⟩
    cases hleaves with
    | probing hphase hpool hplace =>
        cases hphase
        exact hplace
    | redialing hphase => cases hphase
  · obtain ⟨pool, discarded, w', events, hpool, -, hdiscarded, -, hstep, hforgets, hleaves, -,
      hredials⟩ := (cancel_after_run (lentAndProbed ++ [.settle 2 (.failure "sick")])).1 2 _ rfl
    obtain ⟨earlier, old, rfl, -⟩ := hredials _ rfl
    refine ⟨w', events, old, hstep (isOpen_of_held (hforgets.held ▸ by decide)), ?_,
      (hdiscarded old (by simp)).1⟩
    cases hleaves with
    | probing hphase => cases hphase
    | redialing hphase hpools => exact hpools
  · rw [(cancel_after_run twoIdle).2 1 0 _ _ _ rfl rfl (by decide) rfl rfl]
    rfl

end World

end HeartbeatPool
