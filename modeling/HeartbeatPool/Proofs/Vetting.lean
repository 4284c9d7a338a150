import HeartbeatPool.Proofs.Custody
import HeartbeatPool.Proofs.Counter
import HeartbeatPool.Proofs.History

/-!
# Only vetted connections are lent

A call under way has always vetted what it may be lent.  While it waits for a heartbeat, the last
it has done is to probe that very connection (`Probed`); while it waits for a dial, the last it has
done is to give up a connection of the same endpoint, which was the last it had probed and whose
heartbeat failed, and to dial that endpoint (`Replaced`).  What other calls do in between changes
neither.
-/

namespace HeartbeatPool.World

variable {w w' : World} {action : Action} {account : Account} {key : Key} {call : Call}
  {conn : Conn} {events : List Event} {conns : List Conn} {occurrences : List Occurrence}
  {occurrence : Occurrence}

/-- A call has waited since it asked for something: the call under the key has been the same ever
since, and nothing more was seen of it. -/
inductive Waiting (key : Key) (call : Call) (asked : List Occurrence → Occurrence → Prop) :
    List Occurrence → Prop where
  | intro {before occurrence after} (hasked : asked before occurrence)
      (hsame : ∀ passed, passed <+: after →
        (play {} (before ++ [occurrence] ++ passed)).1.calls.get? key = some call)
      (hsilent : (play {} (before ++ [occurrence])).1.ownHistory key after = []) :
      Waiting key call asked (before ++ [occurrence] ++ after)

/-- What a call has done last is to probe a connection, and it has waited since. -/
def Probed (key : Key) (call : Call) (conn : Conn) : List Occurrence → Prop :=
  Waiting key call fun before occurrence =>
    ∃ label earlier, (play {} before).1.ownEvents key occurrence = earlier ++ [.probe label conn]

/-- The heartbeat of a connection that a call has probed last fails or is overdue.  The call closes
the connection and dials the same endpoint; the entry is what that dial delivers. -/
inductive Redials (key : Key) (call : Call) (entry : Entry) (before : List Occurrence) :
    Occurrence → Prop where
  | intro {outcome cause old pool}
      (hprobed : Probed key { call with phase := .probing ⟨old, entry.index⟩ } old before)
      (hpool : (play {} before).1.pools[call.pool]? = some pool)
      (hfailed : outcome.within pool.settings.heartbeatTimeout = some (.failure cause))
      (hseen : ((play {} before).1.occur (.answered key outcome)).2 =
        [.log (.heartbeatFailed (pool.address entry.index) cause), .close old,
          .dial (pool.endpoint entry.index)])
      (hdial : entry.conn = (play {} before).1.nextConn (pool.endpoint entry.index))
      (hother : entry.conn ≠ old) : Redials key call entry before (.answered key outcome)

/-- What a call has done last is to replace a connection by an entry, and it has waited since. -/
def Replaced (key : Key) (call : Call) (entry : Entry) : List Occurrence → Prop :=
  Waiting key call (Redials key call entry)

/-- What a call may be lent was vetted by it. -/
def Vetted (key : Key) (occurrences : List Occurrence) (call : Call) : Prop :=
  match call.phase with
  | .probing entry => Probed key call entry.conn occurrences
  | .redialing entry => Replaced key call entry occurrences

/-! ## What a call does -/

theorem ownHistory_snoc (w : World) (key : Key) (occurrences : List Occurrence)
    (occurrence : Occurrence) :
    w.ownHistory key (occurrences ++ [occurrence]) =
      w.ownHistory key occurrences ++ (w.play occurrences).1.ownEvents key occurrence := by
  rw [ownHistory_append, ownHistory, ownHistory, List.append_nil]

/-- A call that has just asked for something begins to wait. -/
theorem Waiting.begin {asked : List Occurrence → Occurrence → Prop}
    (hasked : asked occurrences occurrence)
    (hcall : (play {} (occurrences ++ [occurrence])).1.calls.get? key = some call) :
    Waiting key call asked (occurrences ++ [occurrence]) := by
  have h : Waiting key call asked (occurrences ++ [occurrence] ++ []) := by
    refine .intro hasked (fun passed hpassed => ?_) rfl
    rw [List.prefix_nil.mp hpassed, List.append_nil]
    exact hcall
  rwa [List.append_nil] at h

/-- A call goes on waiting as long as it stays and nothing is seen of it. -/
theorem Waiting.skip {asked : List Occurrence → Occurrence → Prop}
    (h : Waiting key call asked occurrences)
    (hcall : (play {} (occurrences ++ [occurrence])).1.calls.get? key = some call)
    (hown : (play {} occurrences).1.ownEvents key occurrence = []) :
    Waiting key call asked (occurrences ++ [occurrence]) := by
  cases h with
  | @intro before first after hasked hsame hsilent =>
      rw [List.append_assoc] at hcall ⊢
      refine .intro hasked (fun passed hpassed => ?_) ?_
      · rcases List.prefix_concat_iff.mp hpassed with rfl | hpassed
        · exact hcall
        · exact hsame passed hpassed
      · rw [play_append_fst] at hown
        rw [ownHistory_snoc, hsilent, hown]
        rfl

/-- What does not concern a call leaves it vetted. -/
theorem Vetted.skip (h : Vetted key occurrences call)
    (hcall : (play {} (occurrences ++ [occurrence])).1.calls.get? key = some call)
    (hown : (play {} occurrences).1.ownEvents key occurrence = []) :
    Vetted key (occurrences ++ [occurrence]) call := by
  unfold Vetted at *
  split at h
  · exact Waiting.skip h hcall hown
  · exact Waiting.skip h hcall hown

/-- A step of a call that goes on probes the connection that it then waits for, or gives up the
connection that it has probed and dials its endpoint. -/
theorem Effect.own_cases (h : Effect w action w' account) (hkey : action.call? = some key)
    {call' : Call} (hcall' : w'.calls.get? key = some call') :
    account.left = none ∧
      ((∃ label earlier entry, call'.phase = .probing entry ∧
          account.events = earlier ++ [.probe label entry.conn]) ∨
        ∃ cause call pool entry, action = .settle key (.failure cause) ∧
          w.calls.get? key = some call ∧ w.pools[call.pool]? = some pool ∧
          call.phase = .probing entry ∧
          call' = { call with
            phase := .redialing ⟨w.nextConn (pool.endpoint entry.index), entry.index⟩ } ∧
          account.events =
            [.log (.heartbeatFailed (pool.address entry.index) cause), .close entry.conn,
              .dial (pool.endpoint entry.index)]) := by
  cases h with
  | @start other id pool entry taken =>
      -- the call begins with a heartbeat
      cases hkey
      rw [withProbe, Table.get?_insert_self, Option.some.injEq] at hcall'
      subst hcall'
      exact ⟨rfl, Or.inl ⟨pool.label, [], entry, rfl, rfl⟩⟩
  | @retry other call pool entry cause attemptsLeft next taken =>
      cases hkey
      rw [withProbe, Table.get?_insert_self, Option.some.injEq] at hcall'
      subst hcall'
      exact ⟨rfl, Or.inl ⟨pool.label, [_], next, rfl, rfl⟩⟩
  | @dismiss other call pool entry cause hcall hpool hphase =>
      cases hkey
      rw [Table.get?_insert_self, Option.some.injEq] at hcall'
      exact ⟨rfl, Or.inr ⟨cause, call, pool, entry, rfl, hcall, hpool, hphase, hcall'.symm, rfl⟩⟩
  | startEmpty hnone =>
      cases hkey
      rw [hnone] at hcall'
      cases hcall'
  | pass | replace | giveUp | cancelProbe | cancelFull | cancelRedial =>
      -- the call ends, so there is none afterwards
      cases hkey
      simp only [withLoan, setPool] at hcall'
      rw [Table.get?_erase_self] at hcall'
      cases hcall'
  | _ => cases hkey

/-- What a call dials anew is not what it had. -/
theorem Ledger.nextConn_ne (h : Ledger w events conns) {place : Place}
    (hplace : place ∈ w.whereabouts conn) (endpoint : Endpoint) : w.nextConn endpoint ≠ conn := by
  rintro rfl
  have hlength := h.length_whereabouts_add (w.nextConn endpoint)
  have hpos := List.length_pos_of_mem hplace
  have hissued := h.issued (w.nextConn endpoint)
  have hzero : World.issued w.dialed (w.nextConn endpoint) = 0 := if_neg (Nat.lt_irrefl _)
  omega

/-! ## Every call under way -/

theorem ledger_play (occurrences : List Occurrence) :
    Ledger (play {} occurrences).1 (play {} occurrences).2
      (delivered {} (actionsOf {} occurrences)) := by
  rw [play_eq_run]
  exact ledger_of_run _

/-- A rule that is a step of a call keeps the call vetted. -/
theorem Vetted.effect (hvetted : ∀ call, (play {} occurrences).1.calls.get? key = some call →
      Vetted key occurrences call)
    (haction : (play {} occurrences).1.actionOf? occurrence = some action)
    (hkey : action.call? = some key) (h : Effect (play {} occurrences).1 action w' account)
    (hstep : account.left = none →
      (play {} occurrences).1.step action = (w', account.events))
    {call' : Call} (hcall' : w'.calls.get? key = some call') :
    Vetted key (occurrences ++ [occurrence]) call' := by
  obtain ⟨hleft, hcases⟩ := h.own_cases hkey hcall'
  have hoccur : (play {} occurrences).1.occur occurrence = (w', account.events) := by
    rw [occur_eq_step haction, hstep hleft]
  have hafter : (play {} (occurrences ++ [occurrence])).1.calls.get? key = some call' := by
    rw [play_snoc_fst, hoccur]
    exact hcall'
  rcases hcases with ⟨label, earlier, entry, hphase, hevents⟩ |
    ⟨cause, call, pool, entry, rfl, hcall, hpool, hphase, rfl, hevents⟩
  · -- the call waits for a heartbeat from now on, whose probe is the last thing that is seen
    have hown : (play {} occurrences).1.ownEvents key occurrence =
        earlier ++ [.probe label entry.conn] := by
      unfold ownEvents
      rw [haction]
      dsimp only
      rw [if_pos hkey, hstep hleft, hevents]
    unfold Vetted
    rw [hphase]
    exact Waiting.begin ⟨label, earlier, hown⟩ hafter
  · -- the heartbeat has failed, and the dial that replaces its connection is begun
    obtain ⟨outcome, other, pool', rfl, hother, hpool', hwithin⟩ := answered_of_settle haction
    rw [hcall, Option.some.injEq] at hother
    subst hother
    rw [hpool, Option.some.injEq] at hpool'
    subst hpool'
    rw [hphase] at hwithin
    have hprobed := hvetted call hcall
    unfold Vetted at hprobed
    rw [hphase] at hprobed
    have hprobing : call = { call with phase := .probing ⟨entry.conn, entry.index⟩ } := by
      rw [← hphase]
    have hbefore : Probed key { call with phase := .probing ⟨entry.conn, entry.index⟩ } entry.conn
        occurrences :=
      hprobing ▸ hprobed
    have hother := (ledger_play occurrences).nextConn_ne (checkout_mem_whereabouts hcall hphase)
      (pool.endpoint entry.index)
    have hseen := congrArg Prod.snd hoccur
    exact Waiting.begin (.intro hbefore hpool hwithin (hseen.trans hevents) rfl hother) hafter

/-- Every call under way has vetted what it may be lent. -/
theorem vetted_of_call (occurrences : List Occurrence) (key : Key) (call : Call)
    (hcall : (play {} occurrences).1.calls.get? key = some call) :
    Vetted key occurrences call := by
  induction occurrences using List.reverseRecOn generalizing call with
  | nil => cases hcall
  | append_singleton earlier occurrence ih =>
      have hw := orderly_play earlier
      -- what is not a step of the call leaves the call and its history alone
      have hskip (hcalls : ((play {} earlier).1.occur occurrence).1.calls.get? key =
            (play {} earlier).1.calls.get? key)
          (hown : (play {} earlier).1.ownEvents key occurrence = []) :
          Vetted key (earlier ++ [occurrence]) call := by
        refine (ih call ?_).skip hcall hown
        rw [← hcalls, ← play_snoc_fst]
        exact hcall
      have hstepped := hcall
      rw [play_snoc_fst] at hstepped
      cases haction : (play {} earlier).1.actionOf? occurrence with
      | none =>
          refine hskip ?_ ?_
          · rw [occur, haction]
          · rw [ownEvents, haction]
      | some action =>
          rw [occur_eq_step haction] at hstepped hskip
          have hnotOwn (hkey : action.call? ≠ some key) :
              (play {} earlier).1.ownEvents key occurrence = [] := by
            rw [ownEvents, haction]
            exact if_neg hkey
          rcases step_cases hw.linked action with
            ⟨hstep, -⟩ | ⟨w', account, heff, ⟨hstep, -⟩ | ⟨left, old, hleft, -, -, hstep⟩⟩
          · -- the action does nothing
            refine hskip (by rw [hstep]) ?_
            rw [ownEvents, haction]
            simp [hstep]
          · by_cases hkey : action.call? = some key
            · rw [hstep] at hstepped
              exact Vetted.effect ih haction hkey heff (fun _ => hstep) hstepped
            · exact hskip (by rw [hstep]; exact heff.calls_of_ne hkey) (hnotOwn hkey)
          · by_cases hkey : action.call? = some key
            · rw [hstep] at hstepped
              -- a step that leaves something behind is not one of the call
              have hnone := (heff.own_cases hkey hstepped).1
              rw [hnone] at hleft
              cases hleft
            · exact hskip (by rw [hstep]; exact heff.calls_of_ne hkey) (hnotOwn hkey)

/-! ## What is lent -/

/-- A failed heartbeat closes its connection, and the pool counts one less, before the endpoint is
dialed again. -/
theorem occur_of_failure {call : Call} {pool : Pool} {entry : Entry} {outcome : Outcome}
    {cause : String} (hcall : w.calls.get? key = some call)
    (hpool : w.pools[call.pool]? = some pool) (hphase : call.phase = .probing entry)
    (hfailed : outcome.within pool.settings.heartbeatTimeout = some (.failure cause)) :
    w.occur (.answered key outcome) =
      Change.andThen (w.dismiss call.pool pool entry cause) fun w =>
        w.redial key call pool entry.index := by
  have hlimit : pool.limit call.phase = pool.settings.heartbeatTimeout := by rw [hphase]; rfl
  rw [← hlimit] at hfailed
  rw [occur_answered hcall hpool hfailed, World.step, settle, hcall]
  simp only [hpool, hphase]

/-! ## Every run -/

/-- Whenever a loan begins, its call was answered with a success in time, and had asked for just
that: either the last it did was to probe the connection of the loan, or it was to dial anew for a
connection of the same endpoint, which was the last it had probed, and whose heartbeat had failed.

Such a failure first closes the connection and makes the pool count one less, and then dials; the
connection is never again in any place. -/
theorem vetting_of_loans (occurrences : List Occurrence) :
    (∀ occurrence key loan, (play {} occurrences).1.loans.get? key = none →
      (play {} (occurrences ++ [occurrence])).1.loans.get? key = some loan →
      ∃ delay call pool, occurrence = .answered key (.settles delay .success) ∧
        (play {} occurrences).1.calls.get? key = some call ∧ call.pool = loan.pool ∧
        (play {} occurrences).1.pools[loan.pool]? = some pool ∧
        ((call.phase = .probing loan.entry ∧ Probed key call loan.entry.conn occurrences ∧
            ∀ limit, pool.settings.heartbeatTimeout = some limit → delay ≤ limit) ∨
          (call.phase = .redialing loan.entry ∧ Replaced key call loan.entry occurrences ∧
            ∀ limit, pool.settings.dialTimeout = some limit → delay ≤ limit))) ∧
      ∀ key call pool entry outcome cause,
        (play {} occurrences).1.calls.get? key = some call →
        (play {} occurrences).1.pools[call.pool]? = some pool → call.phase = .probing entry →
        outcome.within pool.settings.heartbeatTimeout = some (.failure cause) →
        (play {} occurrences).1.occur (.answered key outcome) =
            Change.andThen ((play {} occurrences).1.dismiss call.pool pool entry cause) (fun w =>
              w.redial key call pool entry.index) ∧
          ((play {} occurrences).1.dismiss call.pool pool entry cause).2 =
            [.log (.heartbeatFailed (pool.address entry.index) cause), .close entry.conn] ∧
          (∃ counted,
            ((play {} occurrences).1.dismiss call.pool pool entry cause).1.pools[call.pool]? =
              some counted ∧ counted.live + 1 = pool.live) ∧
          (((play {} occurrences).1.dismiss call.pool pool entry cause).1.redial key call pool
            entry.index).2 = [.dial (pool.endpoint entry.index)] ∧
          ∀ more, (play {} (occurrences ++ .answered key outcome :: more)).1.whereabouts
            entry.conn = [] := by
  have hw := orderly_play occurrences
  constructor
  · intro occurrence key loan hbefore hafter
    rw [play_snoc_fst] at hafter
    cases haction : (play {} occurrences).1.actionOf? occurrence with
    | none =>
        -- nothing happens, so no loan is new
        rw [occur, haction] at hafter
        rw [hbefore] at hafter
        cases hafter
    | some action =>
        rw [occur_eq_step haction] at hafter
        -- only a sound answer to a call brings a loan
        obtain ⟨rfl, call, hcall, hloan, hphase⟩ := step_lent_cases hw.linked hbefore hafter
        obtain ⟨outcome, other, pool, rfl, hother, hpool, hwithin⟩ := answered_of_settle haction
        rw [hcall, Option.some.injEq] at hother
        subst hother
        obtain ⟨delay, rfl, hlimit⟩ := Outcome.within_eq_success_iff.mp hwithin
        have hvetted := vetted_of_call occurrences key call hcall
        unfold Vetted at hvetted
        refine ⟨delay, call, pool, rfl, hcall, hloan, hloan ▸ hpool, ?_⟩
        rcases hphase with hphase | hphase
        · rw [hphase] at hvetted hlimit
          exact Or.inl ⟨hphase, hvetted, hlimit⟩
        · rw [hphase] at hvetted hlimit
          exact Or.inr ⟨hphase, hvetted, hlimit⟩
  · intro key call pool entry outcome cause hcall hpool hphase hfailed
    have hoccur := occur_of_failure hcall hpool hphase hfailed
    have hlength := (List.getElem?_eq_some_iff.mp hpool).1
    -- the connection that is probed is counted, so the count can be lowered
    have hlive := (hw.pool hpool).live_eq hpool
    have hprobing := probing_pos hcall hphase
    refine ⟨hoccur, rfl, ⟨pool.untrack, ?_, Pool.live_untrack (by omega)⟩, rfl, fun more => ?_⟩
    · rw [dismiss, setPool]
      exact List.getElem?_set_self hlength
    · -- it is closed in every longer run, so it is nowhere
      have hledger := ledger_play (occurrences ++ .answered key outcome :: more)
      refine (hledger.closed ?_).1
      rw [play_append_snd, play, hoccur]
      refine List.mem_append_right _ (List.mem_append_left _ (List.mem_append_left _ ?_))
      simp [dismiss]

/-- Two calls that probe the two connections of a pool. -/
def twoProbed : List Occurrence :=
  [.move (.create 0 "echo" "echo" [{ address := "a:1" }]
      { perEndpoint := 2, heartbeatTimeout := some 5 }),
    .move (.dialSlot 0), .move (.dialSlot 0), .dialed 0 0 .immediate, .dialed 0 1 .immediate,
    .move (.finish 0), .move (.acquire 1 0), .move (.acquire 2 0)]

/-- One call is answered at its limit and is lent what it probed, the other is not answered and is
lent a connection that replaces what it probed; that is nowhere from then on. -/
theorem vetting_after_timeout :
    (∃ call loan, (play {} (twoProbed ++ [.answered 1 (.settles 5 .success)])).1.loans.get? 1 =
        some loan ∧ (Probed 1 call loan.entry.conn twoProbed ∨
          Replaced 1 call loan.entry twoProbed)) ∧
      (∃ call loan, (play {} ((twoProbed ++ [.answered 2 .hangs]) ++
          [.answered 2 .immediate])).1.loans.get? 2 = some loan ∧
        (Probed 2 call loan.entry.conn (twoProbed ++ [.answered 2 .hangs]) ∨
          Replaced 2 call loan.entry (twoProbed ++ [.answered 2 .hangs]))) ∧
      (play {} (twoProbed ++ .answered 2 .hangs :: [.answered 2 .immediate])).1.whereabouts
        ⟨"a:1", 1⟩ = [] := by
  refine ⟨?_, ?_, ?_⟩
  · obtain ⟨hlent, -⟩ := vetting_of_loans twoProbed
    obtain ⟨_, call, _, -, -, -, -, h⟩ := hlent (.answered 1 (.settles 5 .success)) 1 _ rfl rfl
    exact ⟨call, _, rfl, h.imp (fun h => h.2.1) (fun h => h.2.1)⟩
  · obtain ⟨hlent, -⟩ := vetting_of_loans (twoProbed ++ [.answered 2 .hangs])
    obtain ⟨_, call, _, -, -, -, -, h⟩ := hlent (.answered 2 .immediate) 2 _ rfl rfl
    exact ⟨call, _, rfl, h.imp (fun h => h.2.1) (fun h => h.2.1)⟩
  · obtain ⟨-, hfailed⟩ := vetting_of_loans twoProbed
    exact (hfailed 2 _ _ _ .hangs _ rfl rfl rfl rfl).2.2.2.2 [.answered 2 .immediate]

end HeartbeatPool.World
