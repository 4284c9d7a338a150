import HeartbeatPool.Channel.Pool
import HeartbeatPool.Proofs.Healing

/-!
# Calls on pools of channels

A call on a pool of channels makes one attempt.  If the connection that it probes fails, the dial
that replaces it succeeds, so after two answers at the latest the call has a loan (`Stage`).  Only a
call that finds the queue empty returns that the pool is exhausted.

Main statement: `channels_heal`, on pools of channels from their creation on.
-/

namespace HeartbeatPool

variable {factory : ChannelFactory} {network : Network}

namespace World

variable {w w' : World} {action : Action} {occurrence : Occurrence} {id : PoolId}
  {pool pool' : Pool} {key : Key}

/-! ## Calls -/

/-- What an acquiring call has returned, if it has: a loan, or the news that the pool is
exhausted. -/
def returned? (w : World) (id : PoolId) (key : Key) : Option (Except Error Loan) :=
  match w.calls.get? key, w.loans.get? key with
  | some _, _ => none
  | none, some loan => some (.ok loan)
  | none, none => some (.error (.poolExhausted (w.pools.getD id default).name))

/-- Whether an occurrence is the answer to a call, or nothing that the caller does. -/
def Occurrence.IsOthers (key : Key) : Occurrence → Prop
  | .move action => action.call? ≠ some key ∧ key ∉ action.loanKeys
  | .dialed .. | .answered .. => True

/-- Whether an occurrence is an answer to a call that comes some time. -/
def Occurrence.answers (key : Key) : Occurrence → Bool
  | .answered other (.settles _ _) => other == key
  | _ => false

theorem Occurrence.eq_of_answers (h : occurrence.answers key = true) :
    ∃ outcome, occurrence = .answered key outcome := by
  cases occurrence with
  | move | dialed => cases h
  | answered other outcome =>
      cases outcome with
      | hangs => cases h
      | settles delay verdict => exact ⟨_, by rw [beq_iff_eq.mp h]⟩

/-- How far a call on a pool has come after some answers. -/
inductive Stage (key : Key) (id : PoolId) (w : World) : Nat → Prop where
  | probing {call entry} (hcall : w.calls.get? key = some call) (hid : call.pool = id)
      (hphase : call.phase = .probing entry) : Stage key id w 0
  | redialing {call entry count} (hcall : w.calls.get? key = some call) (hid : call.pool = id)
      (hphase : call.phase = .redialing entry) (hcount : count ≤ 1) : Stage key id w count
  | lent {loan count} (hcall : w.calls.get? key = none) (hloan : w.loans.get? key = some loan)
      (hid : loan.pool = id) : Stage key id w count

theorem Linked.occur (hw : w.Linked) (occurrence : Occurrence) :
    (w.occur occurrence).1.Linked := by
  unfold World.occur
  split
  · exact hw
  · exact step_linked hw _

/-- What is not an answer to a call leaves the call and its loan alone. -/
theorem occur_of_isOthers (hw : w.Linked) (hothers : occurrence.IsOthers key)
    (hanswer : ∀ outcome, occurrence ≠ .answered key outcome) :
    (w.occur occurrence).1.calls.get? key = w.calls.get? key ∧
      (w.occur occurrence).1.loans.get? key = w.loans.get? key := by
  cases haction : w.actionOf? occurrence with
  | none => simp [World.occur, haction]
  | some action =>
      obtain ⟨hcall, hloan⟩ : action.call? ≠ some key ∧ key ∉ action.loanKeys := by
        cases amountsTo haction with
        | move => exact hothers
        | dialed => simp [Action.call?, Action.loanKeys]
        | @answered other outcome =>
            have hne : key ≠ other := fun heq => hanswer outcome (heq ▸ rfl)
            simpa [Action.call?, Action.loanKeys] using ⟨hne.symm, hne⟩
      rw [occur_eq_step haction]
      exact ⟨step_calls_of_ne hw hcall, step_loans_of_not_mem hw hloan⟩

/-- Without a call there is nothing to answer. -/
theorem occur_answered_of_none (hcall : w.calls.get? key = none) (outcome : Outcome) :
    w.occur (.answered key outcome) = (w, []) := by
  simp [World.occur, actionOf?, hcall]

/-- A caller who was lent nothing stays without a call and a loan. -/
theorem play_of_none (hw : w.Linked) (hcall : w.calls.get? key = none)
    (hloan : w.loans.get? key = none) {occurrences : List Occurrence}
    (hothers : ∀ occurrence ∈ occurrences, occurrence.IsOthers key) :
    (w.play occurrences).1.calls.get? key = none ∧
      (w.play occurrences).1.loans.get? key = none := by
  induction occurrences generalizing w with
  | nil => exact ⟨hcall, hloan⟩
  | cons occurrence rest ih =>
      have hrest (occurrence : Occurrence) (hmem : occurrence ∈ rest) :=
        hothers occurrence (List.mem_cons_of_mem _ hmem)
      obtain ⟨hcalls, hloans⟩ :
          (w.occur occurrence).1.calls.get? key = w.calls.get? key ∧
            (w.occur occurrence).1.loans.get? key = w.loans.get? key := by
        by_cases hanswer : ∃ outcome, occurrence = .answered key outcome
        · obtain ⟨outcome, rfl⟩ := hanswer
          rw [occur_answered_of_none hcall]
          exact ⟨rfl, rfl⟩
        · exact occur_of_isOthers hw (hothers occurrence List.mem_cons_self)
            (not_exists.mp hanswer)
      exact ih (hw.occur occurrence) (hcalls.trans hcall) (hloans.trans hloan) hrest

theorem Stage.congr {count : Nat} (hstage : Stage key id w count)
    (hcalls : w'.calls.get? key = w.calls.get? key)
    (hloans : w'.loans.get? key = w.loans.get? key) : Stage key id w' count := by
  cases hstage with
  | probing hcall hid hphase => exact .probing (hcalls.trans hcall) hid hphase
  | redialing hcall hid hphase hcount => exact .redialing (hcalls.trans hcall) hid hphase hcount
  | lent hcall hloan hid => exact .lent (hcalls.trans hcall) (hloans.trans hloan) hid

/-- An answer takes a call further. -/
theorem Sound.stage_answered (h : w.Sound id pool) (hlazy : factory.isLazy = true)
    {outcome : Outcome} (hsuits : (Occurrence.answered key outcome).Suits factory network id w)
    {count : Nat} (hstage : Stage key id w count) :
    Stage key id (w.occur (.answered key outcome)).1
      (count + if (Occurrence.answered key outcome).answers key then 1 else 0) := by
  obtain ⟨pool', hpool', hsame⟩ := h.ground.same
  cases hstage with
  | lent hcall hloan hid =>
      -- the call is over, and an answer to it is none
      rw [occur_answered_of_none hcall]
      exact .lent hcall hloan hid
  | redialing hcall hid hphase =>
      -- a dial for a good endpoint succeeds
      obtain rfl := h.outcome_eq hlazy hsuits hcall hid hphase
      subst hid
      rw [occur_answered hcall hpool' (Outcome.within_settles_zero ..),
        settle_of_dialed hcall hpool' h.ground.held hphase]
      exact .lent (Table.get?_erase_self ..) (Table.get?_insert_self ..) rfl
  | @probing call entry hcall hid hphase =>
      subst hid
      cases hwithin : outcome.within (pool'.limit call.phase) with
      | none =>
          -- an answer that does not come in time ends nothing: it must be one that hangs
          have hhangs : (Occurrence.answered key outcome).answers key = false := by
            cases outcome with
            | settles delay verdict =>
                have hsome := Outcome.isSome_within_settles (pool'.limit call.phase) delay verdict
                rw [hwithin] at hsome
                cases hsome
            | hangs => rfl
          have hsilent : w.occur (.answered key outcome) = (w, []) := by
            simp [World.occur, actionOf?, hcall, hpool', hwithin]
          rw [hsilent, hhangs]
          exact .probing hcall rfl hphase
      | some verdict =>
          rw [occur_answered hcall hpool' hwithin]
          cases verdict with
          | success =>
              rw [settle_of_sound hcall hpool' h.ground.held hphase]
              exact .lent (Table.get?_erase_self ..) (Table.get?_insert_self ..) rfl
          | failure cause =>
              rw [settle_of_sick hcall hpool' hphase]
              refine .redialing (Table.get?_insert_self ..) rfl rfl ?_
              split <;> omega

/-- A call goes further with its answers, whatever others do. -/
theorem Sound.stage_play (h : w.Sound id pool) (hlazy : factory.isLazy = true)
    {occurrences : List Occurrence} (hsuited : w.Suited factory network id occurrences)
    (hothers : ∀ occurrence ∈ occurrences, occurrence.IsOthers key) {count : Nat}
    (hstage : Stage key id w count) :
    Stage key id (w.play occurrences).1 (count + occurrences.countP (Occurrence.answers key)) := by
  induction occurrences generalizing w count with
  | nil => exact hstage
  | cons occurrence rest ih =>
      have hnext : Stage key id (w.occur occurrence).1
          (count + if occurrence.answers key then 1 else 0) := by
        by_cases hanswer : ∃ outcome, occurrence = .answered key outcome
        · obtain ⟨outcome, rfl⟩ := hanswer
          exact h.stage_answered hlazy hsuited.1 hstage
        · have hnot := not_exists.mp hanswer
          have hnone : occurrence.answers key = false :=
            Bool.eq_false_iff.mpr fun hyes => hanswer (Occurrence.eq_of_answers hyes)
          obtain ⟨hcalls, hloans⟩ := occur_of_isOthers h.ground.orderly.linked
            (hothers occurrence List.mem_cons_self) hnot
          rw [hnone]
          exact hstage.congr hcalls hloans
      have hrest := ih (h.occur hlazy hsuited.1) hsuited.2
        (fun occurrence hmem => hothers occurrence (List.mem_cons_of_mem _ hmem)) hnext
      rw [List.countP_cons, Nat.add_comm (rest.countP _), ← Nat.add_assoc]
      exact hrest

/-- A call that starts on an empty queue returns at once that the pool is exhausted; any other
returns a loan, and its second answer is the last that it waits for. -/
theorem Sound.returned?_play (h : w.Sound id pool) (hlazy : factory.isLazy = true)
    (hcall : w.calls.get? key = none) (hloan : w.loans.get? key = none)
    (hpool : w.pools[id]? = some pool') {occurrences : List Occurrence}
    (hsuited : w.Suited factory network id (.move (.acquire key id) :: occurrences))
    (hothers : ∀ occurrence ∈ occurrences, occurrence.IsOthers key) :
    let after := (w.play (.move (.acquire key id) :: occurrences)).1
    (after.returned? id key = some (.error (.poolExhausted pool.name)) ↔ pool'.idle = []) ∧
      (2 ≤ occurrences.countP (Occurrence.answers key) →
        (after.returned? id key).isSome = true) := by
  intro after
  have hname : (after.pools.getD id default).name = pool.name :=
    Pool.name_eq (h.play hlazy hsuited).identity_getD
  have hnext := h.occur hlazy hsuited.1
  have hfirst : w.occur (.move (.acquire key id)) = w.step (.acquire key id) := rfl
  cases hidle : pool'.idle with
  | nil =>
      have hstep := acquire_of_nil hcall hloan h.ground.held hpool hidle
      rw [← hfirst] at hstep
      -- the call is over at once, and the others do not start it again
      obtain ⟨hcall', hloan'⟩ : after.calls.get? key = none ∧ after.loans.get? key = none := by
        have hgone := @play_of_none _ _ hnext.ground.orderly.linked (by rw [hstep]; exact hcall)
          (by rw [hstep]; exact hloan) _ hothers
        exact hgone
      rw [returned?, hcall', hloan', hname]
      exact ⟨iff_of_true rfl rfl, fun _ => rfl⟩
  | cons entry rest =>
      have hstep := acquire_of_cons hcall hloan h.ground.held hpool hidle
      rw [← hfirst] at hstep
      -- the call waits for a heartbeat at first, then perhaps for a dial, and then it has a loan
      have hstart : Stage key id (w.occur (.move (.acquire key id))).1 0 := by
        rw [hstep]
        exact .probing (Table.get?_insert_self ..) rfl rfl
      have hstage := hnext.stage_play hlazy hsuited.2 hothers hstart
      rw [Nat.zero_add] at hstage
      have hcases : (after.returned? id key = none ∧
          occurrences.countP (Occurrence.answers key) ≤ 1) ∨
          ∃ loan, after.returned? id key = some (.ok loan) := by
        change Stage key id after _ at hstage
        generalize occurrences.countP (Occurrence.answers key) = count at hstage
        cases hstage with
        | probing hcall => exact Or.inl ⟨by rw [returned?, hcall], by omega⟩
        | redialing hcall _ _ hcount => exact Or.inl ⟨by rw [returned?, hcall], hcount⟩
        | lent hcall hloan => exact Or.inr ⟨_, by rw [returned?, hcall, hloan]⟩
      rcases hcases with ⟨hnone, hcount⟩ | ⟨loan, hreturned⟩
      · rw [hnone]
        exact ⟨iff_of_false nofun nofun, fun htwo => by omega⟩
      · rw [hreturned]
        exact ⟨iff_of_false nofun nofun, fun _ => rfl⟩

/-! ## The start -/

/-- A pool whose queue is filled with connections to good endpoints starts in working order. -/
theorem sound_of_founds {past : List Action} (hreached : w = (run {} past).1)
    (hfounds : w.Founds w' (some pool))
    (hgood : ∀ entry ∈ pool.idle, (pool.endpoint entry.index).isGood = true) :
    w'.Sound w.pools.length pool := by
  obtain ⟨actions, hrun⟩ := hfounds.run
  rw [hreached, ← run_append_fst] at hrun
  have hpool : w'.pools[w.pools.length]? = some pool := by simp [hfounds.pools]
  have hheld : w.pools.length ∈ w'.held := by simp [hfounds.held]
  have hlinked : w.Linked := hreached ▸ (Orderly.initial.run past).linked
  refine ⟨grounded_of_run hrun hheld hpool, hrun ▸ Tidy.initial.run .initial _, ?_⟩
  have hidle : (pool.idle.countP fun entry => Holding.isSlot w.pools.length
      (fun index => !(pool.endpoint index).isGood) ⟨.idle w.pools.length, entry⟩) = 0 :=
    List.countP_eq_zero.mpr fun entry hentry => by simp [hgood entry hentry]
  have hcalls : (w'.calls.toList.countP fun pair => (pair.2.holding pair.1).isSlot w.pools.length
      fun index => !(pool.endpoint index).isGood) = 0 := by
    refine List.countP_eq_zero.mpr fun pair hpair hslot => ?_
    rw [hfounds.calls] at hpair
    have hlt := hlinked.call_pool ((w.calls.get?_eq_some_iff pair.1 pair.2).mpr hpair)
    have hne : (pair.2.pool == w.pools.length) = false := beq_false_of_ne (Nat.ne_of_lt hlt)
    cases hphase : pair.2.phase <;> simp [Call.holding, hphase, hne] at hslot
  have hloans : (w'.loans.toList.countP fun pair => (pair.2.holding pair.1).isSlot w.pools.length
      fun index => !(pool.endpoint index).isGood) = 0 := by
    refine List.countP_eq_zero.mpr fun pair hpair hslot => ?_
    rw [hfounds.loans] at hpair
    have hlt := hlinked.loan_pool ((w.loans.get?_eq_some_iff pair.1 pair.2).mpr hpair)
    have hne : (pair.2.pool == w.pools.length) = false := beq_false_of_ne (Nat.ne_of_lt hlt)
    simp [Loan.holding, hne] at hslot
  rw [count_eq hpool fun holding h => by simp_all [Holding.isSlot], hidle, hcalls, hloans]

end World

namespace Prompt

open World (Sound returned?)

variable {σ : Type} {prompt : Prompt σ} {state : σ × World} {id : PoolId} {pool pool' : Pool}
  {key : Key} {call : Call} {entry : Entry}

/-! ## Calls that are answered at once -/

theorem serve_of_none (hcall : state.2.calls.get? key = none) (bound : Nat) :
    prompt.serve state key bound = state := by
  cases bound <;> simp [serve, hcall]

theorem serve_of_call (hcall : state.2.calls.get? key = some call) (bound : Nat) :
    prompt.serve state key (bound + 1) =
      prompt.serve (prompt.answer state key call) key bound := by
  simp [serve, hcall]

/-- An answer takes the call a step further. -/
theorem answer_snd (prompt : Prompt σ) (state : σ × World) (key : Key) (call : Call) :
    (prompt.answer state key call).2 =
      (state.2.step (.settle key
        (match call.phase with
          | .probing entry => (prompt.probe state.1 entry.conn).2
          | .redialing entry =>
              (prompt.dial state.1
                ((state.2.pools.getD call.pool default).endpoint entry.index)).2))).1 := by
  unfold answer
  cases call.phase <;> rfl

section

variable (hlazy : factory.isLazy = true) (hdials : prompt.DialsBy factory network)
include hlazy hdials

/-- A call that waits for a dial is lent what the dial delivers. -/
theorem serve_of_redialing (h : state.2.Sound id pool)
    (hcall : state.2.calls.get? key = some call) (hid : call.pool = id)
    (hphase : call.phase = .redialing entry) (bound : Nat) :
    (prompt.serve state key (bound + 1)).2.returned? id key = some (.ok ⟨id, entry⟩) := by
  subst hid
  obtain ⟨pool', hpool', -⟩ := h.ground.same
  have hverdict : (prompt.dial state.1
      ((state.2.pools.getD call.pool default).endpoint entry.index)).2 = .success :=
    (hdials _ _).trans (h.dial_eq hlazy hcall rfl hphase)
  have hanswer := answer_snd prompt state key call
  simp only [hphase, hverdict] at hanswer
  rw [World.settle_of_dialed hcall hpool' h.ground.held hphase] at hanswer
  have hcall' : (prompt.answer state key call).2.calls.get? key = none := by
    rw [hanswer]
    exact Table.get?_erase_self ..
  have hloan' : (prompt.answer state key call).2.loans.get? key = some ⟨call.pool, entry⟩ := by
    rw [hanswer]
    exact Table.get?_insert_self ..
  rw [serve_of_call hcall, serve_of_none hcall', returned?, hcall', hloan']

/-- A call that waits for a heartbeat is lent the connection, or one that replaces it. -/
theorem serve_of_probing (h : state.2.Sound id pool)
    (hcall : state.2.calls.get? key = some call) (hid : call.pool = id)
    (hphase : call.phase = .probing entry) (bound : Nat) :
    ∃ conn, (prompt.serve state key (bound + 2)).2.returned? id key =
      some (.ok ⟨id, conn, entry.index⟩) := by
  subst hid
  obtain ⟨pool', hpool', -⟩ := h.ground.same
  have hanswer := answer_snd prompt state key call
  simp only [hphase] at hanswer
  rw [serve_of_call hcall]
  cases hverdict : (prompt.probe state.1 entry.conn).2 with
  | success =>
      rw [hverdict, World.settle_of_sound hcall hpool' h.ground.held hphase] at hanswer
      have hcall' : (prompt.answer state key call).2.calls.get? key = none := by
        rw [hanswer]
        exact Table.get?_erase_self ..
      have hloan' : (prompt.answer state key call).2.loans.get? key =
          some ⟨call.pool, entry⟩ := by
        rw [hanswer]
        exact Table.get?_insert_self ..
      exact ⟨entry.conn, by rw [serve_of_none hcall', returned?, hcall', hloan']⟩
  | failure cause =>
      have hnext := h.step (.settle key (.failure cause)) nofun
      rw [hverdict] at hanswer
      rw [← hanswer] at hnext
      rw [World.settle_of_sick hcall hpool' hphase] at hanswer
      have hcall' := (congrArg (·.calls.get? key) hanswer).trans (Table.get?_insert_self ..)
      exact ⟨_, serve_of_redialing hlazy hdials hnext hcall' rfl rfl bound⟩

/-- A call returns at once where every dial and every heartbeat is answered at once. -/
theorem acquire_returns (h : state.2.Sound id pool)
    (hcall : state.2.calls.get? key = none) (hloan : state.2.loans.get? key = none)
    (hpool : state.2.pools[id]? = some pool') :
    (pool'.idle = [] → (prompt.acquire state key id).2.returned? id key =
        some (.error (.poolExhausted pool.name))) ∧
      ∀ entry rest, pool'.idle = entry :: rest →
        ∃ conn, (prompt.acquire state key id).2.returned? id key =
          some (.ok ⟨id, conn, entry.index⟩) := by
  have hnext := h.step (.acquire key id) nofun
  let started := prompt.act state (.acquire key id)
  change started.2.Sound id pool at hnext
  constructor
  · intro hidle
    have hstep : started.2 = state.2 :=
      congrArg Prod.fst (World.acquire_of_nil hcall hloan h.ground.held hpool hidle)
    rw [← hstep] at hcall hloan
    rw [acquire, serve_of_none hcall, returned?, hcall, hloan, Pool.name_eq hnext.identity_getD]
  · intro entry rest hidle
    have hstep : started.2 = _ :=
      congrArg Prod.fst (World.acquire_of_cons hcall hloan h.ground.held hpool hidle)
    have hcall' := (congrArg (·.calls.get? key) hstep).trans (Table.get?_insert_self ..)
    have hbound : ((started.2.calls.get? key).map Call.waitsLeft).getD 0 =
        2 * (max pool'.idleConnections 1 - 1) + 2 := by
      rw [hcall']
      rfl
    have hserved := serve_of_probing hlazy hdials hnext hcall' rfl rfl
      (2 * (max pool'.idleConnections 1 - 1))
    rw [← hbound] at hserved
    exact hserved

end

end Prompt

/-! ## Pools of channels -/

namespace World

variable {σ : Type} {w : World} {id : PoolId} {pool : Pool}

/-- A pool of channels at any time. -/
structure Healthy (prompt : Prompt σ) (factory : ChannelFactory) (network : Network) (id : PoolId)
    (pool : Pool) (w : World) : Prop where
  /-- The pool is there, and is what it was. -/
  present : ∃ pool', w.pools[id]? = some pool' ∧ pool'.identity = pool.identity
  /-- Whatever of the pool is idle, probed, dialed anew or lent belongs to a good endpoint. -/
  positions : ∀ holding ∈ w.holdings, holding.place.pool? = some id →
    ∃ endpoint, pool.endpoints[holding.entry.index]? = some endpoint ∧
      endpoint.isGood = true
  /-- A dial that replaces a connection succeeds, and what it delivers is lent. -/
  redials : ∀ key call entry outcome, w.calls.get? key = some call → call.pool = id →
    call.phase = .redialing entry →
    (Occurrence.answered key outcome).Suits factory network id w →
    outcome = .settles 0 .success ∧
      (w.occur (.answered key outcome)).1.returned? id key = some (.ok ⟨id, entry⟩)
  /-- A call returns that the pool is exhausted exactly if it finds the queue empty, whatever others
  do in the meantime.  It returns with its second answer at the latest. -/
  returns : ∀ key pool' occurrences, w.calls.get? key = none → w.loans.get? key = none →
    w.pools[id]? = some pool' →
    w.Suited factory network id (.move (.acquire key id) :: occurrences) →
    (∀ occurrence ∈ occurrences, occurrence.IsOthers key) →
    let after := (w.play (.move (.acquire key id) :: occurrences)).1
    (after.returned? id key = some (.error (.poolExhausted pool.name)) ↔ pool'.idle = []) ∧
      (2 ≤ occurrences.countP (Occurrence.answers key) →
        (after.returned? id key).isSome = true)
  /-- So does a call that is answered at once; it is lent a connection of the endpoint whose
  connection has been idle longest. -/
  returnsAtOnce : ∀ outside key pool', w.calls.get? key = none → w.loans.get? key = none →
    w.pools[id]? = some pool' →
    (pool'.idle = [] → (prompt.acquire (outside, w) key id).2.returned? id key =
        some (.error (.poolExhausted pool.name))) ∧
      ∀ entry rest, pool'.idle = entry :: rest →
        ∃ conn, (prompt.acquire (outside, w) key id).2.returned? id key =
          some (.ok ⟨id, conn, entry.index⟩)
  /-- The connections and the dials that replace some become fewer by those that are forfeited. -/
  live : ∀ occurrences pool' after, w.Suited factory network id occurrences →
    w.pools[id]? = some pool' → (w.play occurrences).1.pools[id]? = some after →
    after.live + (w.play occurrences).1.redialing id + w.forfeited id occurrences =
      pool'.live + w.redialing id
  /-- Between two moments at which no call is under way on the pool, the connections do. -/
  liveBetween : ∀ occurrences pool' after, w.Suited factory network id occurrences →
    w.pools[id]? = some pool' → (w.play occurrences).1.pools[id]? = some after →
    (∀ key call, w.calls.get? key = some call → call.pool ≠ id) →
    (∀ key call, (w.play occurrences).1.calls.get? key = some call → call.pool ≠ id) →
    after.live + w.forfeited id occurrences = pool'.live

theorem Sound.healthy {prompt : Prompt σ} (h : w.Sound id pool)
    (hlazy : factory.isLazy = true) (hdials : prompt.DialsBy factory network) :
    w.Healthy prompt factory network id pool where
  present := h.ground.same
  positions _ hmem hplace := h.exists_endpoint hmem hplace
  redials key call entry outcome hcall hid hphase hsuits := by
    obtain rfl := h.outcome_eq hlazy hsuits hcall hid hphase
    subst hid
    obtain ⟨pool', hpool', -⟩ := h.ground.same
    refine ⟨rfl, ?_⟩
    rw [occur_answered hcall hpool' (Outcome.within_settles_zero ..),
      settle_of_dialed hcall hpool' h.ground.held hphase]
    have hcall' : (w.withReplacement key call pool' entry).calls.get? key = none :=
      Table.get?_erase_self ..
    have hloan' : (w.withReplacement key call pool' entry).loans.get? key =
        some ⟨call.pool, entry⟩ := Table.get?_insert_self ..
    rw [returned?, hcall', hloan']
  returns _ _ _ hcall hloan hpool hsuited hothers :=
    h.returned?_play hlazy hcall hloan hpool hsuited hothers
  returnsAtOnce outside _ _ hcall hloan hpool :=
    @Prompt.acquire_returns _ _ _ prompt (outside, w) _ _ _ _ hlazy hdials h hcall hloan hpool
  live _ _ _ hsuited hpool hafter := h.live_play hlazy hsuited hpool hafter
  liveBetween occurrences pool' after hsuited hpool hafter hbefore hthen := by
    have hlive := h.live_play hlazy hsuited hpool hafter
    rwa [redialing_eq_zero hbefore, redialing_eq_zero hthen] at hlive

/-- The pool that a creation with admissible parameters comes to over a factory whose channels
connect on first use.  An endpoint that asks for transport security fails, with the words about its
URI if that is not valid either.  The creation fails with `fatal` exactly if no endpoint is good.
Otherwise the pool has all the connections that its good endpoints may have and no others, in the
order of the endpoints, and stays healthy whatever happens to it. -/
theorem channels_heal {prompt : Prompt σ} (hlazy : factory.isLazy = true)
    (hdials : prompt.DialsBy factory network) (state : σ × World) {past : List Action}
    (hreached : state.2 = (run {} past).1) (hkey : state.2.creations.get? key = none)
    (name : String) {endpoints : List Endpoint} {settings : Settings}
    (hblank : ∀ endpoint ∈ endpoints, Text.isBlank endpoint.address = false)
    (hpos : 0 < settings.perEndpoint * endpoints.length)
    (hle : settings.perEndpoint * endpoints.length ≤ maxCapacity) :
    (∀ endpoint : Endpoint, endpoint.tls = true →
      (factory.dial network endpoint).2 =
        .failure
          (if endpoint.hasUri then
            (ChannelFault.noTransportSecurity endpoint.address).message
          else ChannelFault.invalidUri.message)) ∧
      let created := prompt.create state key name endpoints settings
      let id := state.2.pools.length
      (created.2 = .error (.fatal name) ↔
        ∀ endpoint ∈ endpoints, endpoint.isGood = false) ∧
      (created.2 ≠ .error (.fatal name) → created.2 = .ok id ∧
        ∃ pool, created.1.2.pools[id]? = some pool ∧ pool.name = name ∧
          pool.endpoints = endpoints ∧
          pool.idle.map Entry.index = goodPositions settings.perEndpoint endpoints ∧
          pool.live = pool.idle.length ∧
          ∀ occurrences, created.1.2.Suited factory network id occurrences →
            (created.1.2.play occurrences).1.Healthy prompt factory network id pool) := by
  have horderly : state.2.Orderly := hreached ▸ Orderly.initial.run past
  obtain ⟨new, hfounds, hresult, hnone, hsome⟩ := Prompt.create_of_lazy hlazy hdials state
    horderly hkey name (checkParameters_of_admissible hblank hpos hle)
  refine ⟨fun endpoint htls => ?_, ?_, fun hother => ?_⟩
  · -- a lazy factory decides by the URI and by transport security
    rw [ChannelFactory.dial, ChannelFactory.fault?_of_lazy hlazy]
    cases endpoint.hasUri <;> simp [htls]
  · rw [hresult, ← hnone]
    cases new <;> simp
  · cases new with
    | none => exact absurd hresult hother
    | some pool =>
        obtain ⟨hidentity, hindices, hlive⟩ := hsome pool rfl
        have hendpoints : pool.endpoints = endpoints := congrArg (·.2.2.1) hidentity
        -- all indices in the queue are those of good endpoints
        have hgood (entry : Entry) (hentry : entry ∈ pool.idle) :
            (pool.endpoint entry.index).isGood = true := by
          obtain ⟨endpoint, hendpoint, hgood⟩ :=
            exists_of_mem_goodPositions (hindices ▸ List.mem_map_of_mem hentry)
          rw [Pool.endpoint, hendpoints, List.getD_eq_getElem?_getD, hendpoint, Option.getD_some]
          exact hgood
        have hsound := sound_of_founds hreached hfounds hgood
        refine ⟨hresult, pool, by simp [hfounds.pools], congrArg (·.1) hidentity, hendpoints,
          hindices, hlive, fun occurrences hsuited => ?_⟩
        exact (hsound.play hlazy hsuited).healthy hlazy hdials

/-- Five endpoints: the first and the last are good, one asks for transport security, one has a bad
address, and one has both faults. -/
def mixedEndpoints : List Endpoint :=
  [{ address := "a:1" }, { address := "b:2", tls := true }, { address := "no uri" },
    { address := "no uri", tls := true }, { address := "c:3" }]

/-- A factory whose channels connect on first use. -/
def onFirstUse : ChannelFactory := { isLazy := true }

/-- A call replaces the connection whose heartbeat fails, and the new one is dropped. -/
def replacedAndDropped : List Occurrence :=
  [.move (.acquire 1 0), .answered 1 (.settles 5 (.failure "down")),
    .answered 1 (.settles 0 .success), .move (.drop 1)]

/-- Two of the five endpoints are good; the pool starts with two connections to each of these, and
has one less when one was dropped. -/
theorem channels_heal_of_mixed :
    (onFirstUse.dial Network.none { address := "no uri", tls := true }).2 =
        .failure "invalid URI" ∧
      ∃ created, (ChannelPool.prompt onFirstUse).create ({ probes := [] }, {}) 0 "echo"
          mixedEndpoints { perEndpoint := 2 } = created ∧ created.2 = .ok 0 ∧
        ∃ pool after, created.1.2.pools[0]? = some pool ∧
          pool.idle.map Entry.index = [0, 0, 4, 4] ∧
          created.1.2.Suited onFirstUse Network.none 0 replacedAndDropped ∧
          (created.1.2.play replacedAndDropped).1.pools[0]? = some after ∧ after.live = 3 := by
  have hrun : ∀ created, (ChannelPool.prompt onFirstUse).create ({ probes := [] }, {}) 0 "echo"
      mixedEndpoints { perEndpoint := 2 } = created →
        created.1.2.Suited onFirstUse Network.none 0 replacedAndDropped ∧
          created.1.2.redialing 0 = 0 ∧
          (created.1.2.play replacedAndDropped).1.redialing 0 = 0 ∧
          created.1.2.forfeited 0 replacedAndDropped = 1 := by
    rintro created rfl
    decide +kernel
  have hgood : ¬ ∀ endpoint ∈ mixedEndpoints, endpoint.isGood = false := by
    decide +kernel
  have heals := @channels_heal onFirstUse Network.none _ 0 (ChannelPool.prompt onFirstUse) rfl
    (fun _ _ => rfl) ({ probes := [] }, {}) [] rfl rfl "echo" mixedEndpoints { perEndpoint := 2 }
    (by decide +kernel) (by decide) (by decide)
  generalize hcreated : (ChannelPool.prompt onFirstUse).create ({ probes := [] }, {}) 0 "echo"
    mixedEndpoints { perEndpoint := 2 } = created at heals
  obtain ⟨hfaults, hfatal, hpool⟩ := heals
  obtain ⟨hsuited, hbefore, hthen, hforfeited⟩ := hrun created hcreated
  obtain ⟨hid, pool, hpool, -, -, hindices, hlive, hhealthy⟩ :=
    hpool fun herror => hgood (hfatal.mp herror)
  have hpositions : pool.idle.map Entry.index = [0, 0, 4, 4] :=
    hindices.trans (by decide +kernel)
  have hfour : pool.live = 4 := by
    rw [hlive, ← List.length_map Entry.index, hpositions]
    rfl
  obtain ⟨after, hafter, -⟩ := (hhealthy replacedAndDropped hsuited).present
  have hlost : after.live + (created.1.2.play replacedAndDropped).1.redialing 0 +
      created.1.2.forfeited 0 replacedAndDropped = pool.live + created.1.2.redialing 0 :=
    (hhealthy [] trivial).live replacedAndDropped pool after hsuited hpool hafter
  have hfault := hfaults { address := "no uri", tls := true } rfl
  exact ⟨hfault.trans (by decide +kernel), created, rfl, hid, pool, after, hpool, hpositions,
    hsuited, hafter, by omega⟩

end World

end HeartbeatPool
