import HeartbeatPool.Proofs.Dials
import HeartbeatPool.Proofs.History

/-!
# How often a pool dials

A pool dials each slot of its creation once, and once for every heartbeat that fails or is not
answered in time.

```text
steps of the creation, from its beginning to its end      capacity
steps of the calls on the pool                            one for each failed heartbeat
all other steps                                           none
```

The dials of a creation are counted against its slots (`slots_of_occur`,
`exists_spans_of_creation`), and those of the calls against the failures, one occurrence at a time
(`length_ownDials`).
-/

namespace HeartbeatPool

/-- Whether a heartbeat with some outcome fails under a time limit. -/
def Outcome.failsWithin (limit : Option Nat) (outcome : Outcome) : Bool :=
  match outcome.within limit with
  | some (.failure _) => true
  | some .success | none => false

theorem Outcome.failsWithin_eq_true_iff {limit : Option Nat} {outcome : Outcome} :
    outcome.failsWithin limit = true ↔ ∃ cause, outcome.within limit = some (.failure cause) := by
  unfold failsWithin
  split
  · next cause hwithin => simp [hwithin]
  · next hwithin => simp [hwithin]
  · next hwithin => simp [hwithin]

namespace World

/-! ## Who dials -/

/-- The creation that an action is a step of. -/
def Action.creation? : Action → Option Key
  | .create key .. | .dialSlot key | .settleSlot key .. | .finish key | .abandon key => some key
  | _ => none

/-- The pool that an action is about: a call acts for its pool, and a loan is given back to one. -/
def poolOf? (w : World) : Action → Option PoolId
  | .acquire _ id | .release _ id | .letGo id => some id
  | .settle key _ | .cancel key => (w.calls.get? key).map Call.pool
  | .drop key | .refuse key _ => (w.loans.get? key).map Loan.pool
  | _ => none

/-- What an occurrence dials if it is one of those that are counted. -/
def ownDials (mine : World → Action → Bool) (w : World) (occurrence : Occurrence) :
    List Endpoint :=
  match w.actionOf? occurrence with
  | none => []
  | some action => if mine w action then dialsIn (w.step action).2 else []

/-- What is dialed in those of some occurrences that are counted. -/
def dialsWhere (mine : World → Action → Bool) (w : World) : List Occurrence → List Endpoint
  | [] => []
  | occurrence :: rest =>
      w.ownDials mine occurrence ++ dialsWhere mine (w.occur occurrence).1 rest

/-- What is dialed in the steps of a creation. -/
def creationDials (key : Key) : World → List Occurrence → List Endpoint :=
  dialsWhere fun _ action => action.creation? == some key

/-- What is dialed in steps that are about a pool. -/
def poolDials (id : PoolId) : World → List Occurrence → List Endpoint :=
  dialsWhere fun w action => w.poolOf? action == some id

/-- Whether an occurrence is a heartbeat of a pool that fails, or is not answered in time. -/
def failsHeartbeat (w : World) (id : PoolId) : Occurrence → Bool
  | .answered key outcome =>
      match w.calls.get? key, w.pools[id]? with
      | some call, some pool =>
          call.pool == id && call.isProbing && outcome.failsWithin pool.settings.heartbeatTimeout
      | _, _ => false
  | .move _ | .dialed .. => false

/-- How many heartbeats of a pool fail, or are not answered in time. -/
def failedHeartbeats (id : PoolId) (w : World) : List Occurrence → Nat
  | [] => 0
  | occurrence :: rest =>
      (if w.failsHeartbeat id occurrence then 1 else 0) +
        failedHeartbeats id (w.occur occurrence).1 rest

variable {w w' : World} {action : Action} {account : Account} {key : Key} {id : PoolId}
  {pool : Pool} {occurrence : Occurrence} {occurrences : List Occurrence}

theorem dialsWhere_append (mine : World → Action → Bool) (w : World)
    (first second : List Occurrence) :
    dialsWhere mine w (first ++ second) =
      dialsWhere mine w first ++ dialsWhere mine (w.play first).1 second := by
  induction first generalizing w with
  | nil => rfl
  | cons occurrence rest ih =>
      simp only [List.cons_append, dialsWhere, ih, List.append_assoc]
      rfl

/-! ## Failed heartbeats -/

theorem failsHeartbeat_iff : w.failsHeartbeat id occurrence = true ↔
    ∃ key outcome call pool entry cause, occurrence = .answered key outcome ∧
      w.calls.get? key = some call ∧ call.pool = id ∧ w.pools[id]? = some pool ∧
      call.phase = .probing entry ∧
      outcome.within pool.settings.heartbeatTimeout = some (.failure cause) := by
  constructor
  · intro hfails
    unfold failsHeartbeat at hfails
    split at hfails
    · next key outcome =>
        split at hfails
        · next call pool hcall hpool =>
            rw [Bool.and_eq_true, Bool.and_eq_true, beq_iff_eq] at hfails
            obtain ⟨⟨hid, hprobing⟩, hfailed⟩ := hfails
            obtain ⟨cause, hwithin⟩ := Outcome.failsWithin_eq_true_iff.mp hfailed
            cases hphase : call.phase with
            | probing entry =>
                exact ⟨key, outcome, call, pool, entry, cause, rfl, hcall, hid, hpool, hphase,
                  hwithin⟩
            | redialing entry =>
                rw [Call.isProbing, hphase] at hprobing
                cases hprobing
        · cases hfails
    · cases hfails
    · cases hfails
  · rintro ⟨key, outcome, call, pool, entry, cause, rfl, hcall, hid, hpool, hphase, hwithin⟩
    have hfailed := Outcome.failsWithin_eq_true_iff.mpr ⟨cause, hwithin⟩
    simp [failsHeartbeat, hcall, hpool, hid, Call.isProbing, hphase, hfailed]

/-- What a failed heartbeat leads to. -/
theorem occur_failed (hw : w.Orderly) {call : Call} {entry : Entry} {outcome : Outcome}
    {cause : String} (hcall : w.calls.get? key = some call)
    (hpool : w.pools[call.pool]? = some pool) (hphase : call.phase = .probing entry)
    (hwithin : outcome.within pool.settings.heartbeatTimeout = some (.failure cause)) :
    ∃ endpoint, pool.endpoints[entry.index]? = some endpoint ∧
      (w.occur (.answered key outcome)).2 =
        [.log (.heartbeatFailed endpoint.address cause), .close entry.conn, .dial endpoint] ∧
      (w.occur (.answered key outcome)).1.calls.get? key =
        some { call with phase := .redialing ⟨w.nextConn endpoint, entry.index⟩ } := by
  have hlimit : pool.limit call.phase = pool.settings.heartbeatTimeout := by
    rw [hphase]
    rfl
  rw [occur_answered hcall hpool (hlimit ▸ hwithin)]
  exact step_failed hw hcall hpool hphase cause

/-- What is not an answer is a move. -/
theorem move_of_actionOf? (haction : w.actionOf? occurrence = some action)
    (hanswer : action.isAnswer = false) : occurrence = .move action := by
  cases amountsTo haction with
  | move => rfl
  | dialed | answered => cases hanswer

/-- Only a creation dials, and a call whose heartbeat has failed. -/
theorem dialed_cases (hw : w.Orderly) (hdials : dialsIn (w.occur occurrence).2 ≠ []) :
    (∃ key, occurrence = .move (.dialSlot key)) ∨ ∃ id, w.failsHeartbeat id occurrence = true := by
  cases haction : w.actionOf? occurrence with
  | none =>
      rw [occur, haction] at hdials
      exact absurd rfl hdials
  | some action =>
      rw [occur_eq_step haction] at hdials
      obtain ⟨endpoint, hmem⟩ := List.exists_mem_of_ne_nil _ hdials
      rcases dial_cases hw (mem_dialsIn_iff.mp hmem) with
        ⟨key, rfl⟩ | ⟨key, cause, call, pool, entry, rfl, hcall, hpool, hphase, -⟩
      · exact Or.inl ⟨key, move_of_actionOf? haction rfl⟩
      · obtain ⟨outcome, other, otherPool, rfl, hother, hotherPool, hwithin⟩ :=
          answered_of_settle haction
        rw [hcall, Option.some.injEq] at hother
        subst hother
        rw [hpool, Option.some.injEq] at hotherPool
        subst hotherPool
        rw [hphase] at hwithin
        exact Or.inr ⟨call.pool, failsHeartbeat_iff.mpr
          ⟨key, outcome, call, pool, entry, cause, rfl, hcall, rfl, hpool, hphase, hwithin⟩⟩

/-- In one occurrence a pool dials once if a heartbeat of it fails, and otherwise it does not. -/
theorem length_ownDials (hw : w.Orderly) (id : PoolId) (occurrence : Occurrence) :
    (w.ownDials (fun w action => w.poolOf? action == some id) occurrence).length =
      if w.failsHeartbeat id occurrence then 1 else 0 := by
  by_cases hfails : w.failsHeartbeat id occurrence = true
  · obtain ⟨key, outcome, call, pool, entry, cause, rfl, hcall, rfl, hpool, hphase, hwithin⟩ :=
      failsHeartbeat_iff.mp hfails
    have haction : w.actionOf? (.answered key outcome) = some (.settle key (.failure cause)) := by
      simp [actionOf?, hcall, hpool, Pool.limit, hphase, hwithin]
    obtain ⟨endpoint, -, hevents, -⟩ := step_failed hw hcall hpool hphase cause
    rw [if_pos hfails]
    simp [ownDials, haction, poolOf?, hcall, hevents, dialsIn]
  · rw [if_neg hfails, List.length_eq_zero_iff, ownDials]
    split
    · rfl
    · next action haction =>
        split
        · next hmine =>
            -- whatever this dials would be a failed heartbeat of the pool after all
            by_contra hdials
            rw [← occur_eq_step haction] at hdials
            rcases dialed_cases hw hdials with ⟨key, rfl⟩ | ⟨other, hother⟩
            · cases haction
              cases hmine
            · obtain ⟨key, outcome, call, pool, entry, cause, rfl, hcall, rfl, hpool, hphase,
                hwithin⟩ := failsHeartbeat_iff.mp hother
              have hsettle : w.actionOf? (.answered key outcome) =
                  some (.settle key (.failure cause)) := by
                simp [actionOf?, hcall, hpool, Pool.limit, hphase, hwithin]
              rw [hsettle, Option.some.injEq] at haction
              subst haction
              simp only [poolOf?, hcall, Option.map_some, beq_iff_eq, Option.some.injEq] at hmine
              exact hfails (hmine ▸ hother)
        · rfl

/-- The calls on a pool dial as often as its heartbeats fail. -/
theorem length_poolDials (hw : w.Orderly) (id : PoolId) (occurrences : List Occurrence) :
    (w.poolDials id occurrences).length = failedHeartbeats id w occurrences := by
  induction occurrences generalizing w with
  | nil => rfl
  | cons occurrence rest ih =>
      have hrest := ih (orderly_occur hw occurrence)
      rw [poolDials] at hrest ⊢
      rw [dialsWhere, List.length_append, length_ownDials hw, hrest, failedHeartbeats]

/-! ## Creations -/

/-- The slots of a creation are what it has dialed. -/
theorem Effect.slots_cases (h : Effect w action w' account) {creation' : Creation}
    (hcreation' : w'.creations.get? key = some creation') :
    (∃ creation, w.creations.get? key = some creation ∧
        creation'.slots.length = creation.slots.length +
          if action.creation? = some key then (dialsIn account.events).length else 0) ∨
      (w.creations.get? key = none ∧ creation'.slots = [] ∧ dialsIn account.events = []) := by
  -- an action on another creation leaves the slots alone
  have hother {other : Key} (hne : ¬ other = key)
      (hsame : w.creations.get? key = some creation') :
      ∃ creation, w.creations.get? key = some creation ∧
        creation'.slots.length = creation.slots.length +
          if some other = some key then (dialsIn account.events).length else 0 := by
    refine ⟨creation', hsame, ?_⟩
    rw [if_neg fun heq => hne (Option.some.inj heq), Nat.add_zero]
  -- and so does one that is about no creation
  have hnone (hsame : w.creations.get? key = some creation')
      (haction : action.creation? = none) :
      ∃ creation, w.creations.get? key = some creation ∧
        creation'.slots.length = creation.slots.length +
          if action.creation? = some key then (dialsIn account.events).length else 0 :=
    ⟨creation', hsame, by rw [haction]; rfl⟩
  cases h with
  | @create other =>
      rw [Table.get?_insert] at hcreation'
      split at hcreation'
      · next heq =>
          subst heq
          cases hcreation'
          exact Or.inr ⟨by assumption, rfl, rfl⟩
      · next hne => exact Or.inl (hother hne hcreation')
  | @dialSlot other creation hold =>
      rw [Table.get?_insert] at hcreation'
      split at hcreation'
      · next heq =>
          subst heq
          cases hcreation'
          exact Or.inl ⟨creation, hold, by simp [Action.creation?, dialsIn, Creation.push]⟩
      · next hne => exact Or.inl (hother hne hcreation')
  | @establish other _ creation _ hold | @failSlot other _ creation _ _ hold =>
      rw [Table.get?_insert] at hcreation'
      split at hcreation'
      · next heq =>
          subst heq
          cases hcreation'
          exact Or.inl ⟨creation, hold, by
            simp [dialsIn, Creation.establish, Creation.fail]⟩
      · next hne => exact Or.inl (hother hne hcreation')
  | @finishEmpty other | @finish other | @abandon other =>
      rw [Table.get?_erase] at hcreation'
      split at hcreation'
      · cases hcreation'
      · next hne => exact Or.inl (hother hne hcreation')
  | _ => exact Or.inl (hnone hcreation' rfl)

theorem slots_of_step (hw : w.Orderly) (action : Action) {creation' : Creation}
    (hcreation' : (w.step action).1.creations.get? key = some creation') :
    (∃ creation, w.creations.get? key = some creation ∧
        creation'.slots.length = creation.slots.length +
          if action.creation? = some key then (dialsIn (w.step action).2).length else 0) ∨
      (w.creations.get? key = none ∧ creation'.slots = [] ∧ dialsIn (w.step action).2 = []) := by
  rcases step_cases hw.linked action with
    ⟨hstep, -⟩ | ⟨w', account, heff, ⟨hstep, -⟩ | ⟨left, old, -, -, -, hstep⟩⟩
  · rw [hstep] at hcreation' ⊢
    exact Or.inl ⟨creation', hcreation', by split <;> rfl⟩
  · rw [hstep] at hcreation' ⊢
    exact heff.slots_cases hcreation'
  · rw [hstep] at hcreation' ⊢
    rw [dialsIn_append, dialsIn_closeIdle, List.append_nil]
    exact heff.slots_cases hcreation'

/-- The slots of a creation are what it has dialed, one occurrence at a time. -/
theorem slots_of_occur (hw : w.Orderly) {creation' : Creation}
    (hcreation' : (w.occur occurrence).1.creations.get? key = some creation') :
    (∃ creation, w.creations.get? key = some creation ∧
        creation'.slots.length = creation.slots.length +
          (w.ownDials (fun _ action => action.creation? == some key) occurrence).length) ∨
      (w.creations.get? key = none ∧ creation'.slots = [] ∧
        w.ownDials (fun _ action => action.creation? == some key) occurrence = []) := by
  unfold ownDials
  cases haction : w.actionOf? occurrence with
  | none =>
      rw [occur, haction] at hcreation'
      exact Or.inl ⟨creation', hcreation', rfl⟩
  | some action =>
      rw [occur_eq_step haction] at hcreation'
      rcases slots_of_step hw action hcreation' with
        ⟨creation, hcreation, hslots⟩ | ⟨hnone, hslots, hdials⟩
      · refine Or.inl ⟨creation, hcreation, ?_⟩
        rw [hslots]
        by_cases hmine : action.creation? = some key
        · simp [hmine]
        · simp [hmine]
      · exact Or.inr ⟨hnone, hslots, by simp [hdials]⟩

/-- A creation under a key begins with the first of some occurrences and lasts through all of
them. -/
structure Spans (key : Key) (before during : List Occurrence) : Prop where
  absent : (play {} before).1.creations.get? key = none
  present : ∀ passed, passed <+: during → passed ≠ [] →
    ((play {} (before ++ passed)).1.creations.get? key).isSome

theorem Spans.begin {before : List Occurrence}
    (habsent : (play {} before).1.creations.get? key = none)
    (hthere : ((play {} (before ++ [occurrence])).1.creations.get? key).isSome) :
    Spans key before [occurrence] := by
  refine ⟨habsent, fun passed hpassed hne => ?_⟩
  rcases List.prefix_cons_iff.mp hpassed with rfl | ⟨rest, rfl, hrest⟩
  · exact absurd rfl hne
  · rw [List.prefix_nil.mp hrest]
    exact hthere

theorem Spans.snoc {before during : List Occurrence} (h : Spans key before during)
    (hthere : ((play {} (before ++ (during ++ [occurrence]))).1.creations.get? key).isSome) :
    Spans key before (during ++ [occurrence]) := by
  refine ⟨h.absent, fun passed hpassed hne => ?_⟩
  rcases List.prefix_concat_iff.mp hpassed with rfl | hpassed
  · exact hthere
  · exact h.present passed hpassed hne

/-- A creation that is under way has dialed its slots, and nothing else, since it began. -/
theorem exists_spans_of_creation {creation : Creation}
    (hcreation : (play {} occurrences).1.creations.get? key = some creation) :
    ∃ before during, occurrences = before ++ during ∧ Spans key before during ∧
      ((play {} before).1.creationDials key during).length = creation.slots.length := by
  induction occurrences using List.reverseRecOn generalizing creation with
  | nil => cases hcreation
  | append_singleton earlier occurrence ih =>
      have hthere := Option.isSome_of_mem hcreation
      rw [play_snoc_fst] at hcreation
      rcases slots_of_occur (orderly_play earlier) hcreation with
        ⟨old, hold, hslots⟩ | ⟨hnone, hslots, hdials⟩
      · obtain ⟨before, during, rfl, hspans, hlength⟩ := ih hold
        refine ⟨before, during ++ [occurrence], List.append_assoc .., hspans.snoc ?_, ?_⟩
        · rw [← List.append_assoc]
          exact hthere
        · rw [creationDials] at hlength ⊢
          rw [dialsWhere_append, ← play_append_fst, List.length_append, hlength, hslots]
          simp [dialsWhere]
      · refine ⟨earlier, [occurrence], rfl, .begin hnone hthere, ?_⟩
        rw [creationDials, dialsWhere, hdials, hslots]
        rfl

/-! ## Pools -/

/-- A pool comes of a creation, whose last occurrence is followed by the one that ends it. -/
structure Creates (id : PoolId) (key : Key) (before during : List Occurrence) : Prop where
  spans : Spans key before during
  next : (play {} (before ++ during)).1.pools.length = id
  there : ((play {} (before ++ during ++ [.move (.finish key)])).1.pools[id]?).isSome

/-- Among some occurrences is the creation of a pool, with one dial for each of its places. -/
def CreatedWithin (occurrences : List Occurrence) (id : PoolId) (pool : Pool) : Prop :=
  ∃ key before during after, occurrences = before ++ during ++ .move (.finish key) :: after ∧
    Creates id key before during ∧
      ((play {} before).1.creationDials key during).length =
        pool.settings.perEndpoint * pool.endpoints.length

theorem CreatedWithin.snoc {old : Pool} (h : CreatedWithin occurrences id old)
    (hgiven : pool.given = old.given) (occurrence : Occurrence) :
    CreatedWithin (occurrences ++ [occurrence]) id pool := by
  obtain ⟨key, before, during, after, rfl, hcreates, hlength⟩ := h
  obtain ⟨hendpoints, hsettings⟩ := Prod.ext_iff.mp hgiven
  refine ⟨key, before, during, after ++ [occurrence], ?_, hcreates, ?_⟩
  · rw [List.append_assoc _ (_ :: after), List.cons_append]
  · simp only [Pool.given] at hendpoints hsettings
    rw [hlength, hendpoints, hsettings]

/-- A pool has dialed as often as its capacity says by the time it was there. -/
theorem createdWithin_of_pool (hpool : (play {} occurrences).1.pools[id]? = some pool) :
    CreatedWithin occurrences id pool := by
  induction occurrences using List.reverseRecOn generalizing pool with
  | nil => cases hpool
  | append_singleton earlier occurrence ih =>
      have hthere := Option.isSome_of_mem hpool
      rw [play_snoc_fst] at hpool
      cases haction : (play {} earlier).1.actionOf? occurrence with
      | none =>
          rw [occur, haction] at hpool
          exact (ih hpool).snoc rfl occurrence
      | some action =>
          rw [occur_eq_step haction] at hpool
          rcases step_pool_cases (orderly_play earlier) hpool with
            ⟨old, hold, hgiven⟩ | ⟨rfl, key, creation, rfl, hcreation, hsettled, hgiven⟩
          · exact (ih hold).snoc hgiven occurrence
          · -- the pool has just been created: each of its places was dialed for
            obtain ⟨before, during, rfl, hspans, hlength⟩ := exists_spans_of_creation hcreation
            obtain ⟨hendpoints, hsettings⟩ := Prod.ext_iff.mp hgiven
            have hmove := move_of_actionOf? haction rfl
            subst hmove
            refine ⟨key, before, during, [], rfl, ⟨hspans, rfl, hthere⟩, ?_⟩
            simp only [Pool.given] at hendpoints hsettings
            rw [Creation.isSettled, Bool.and_eq_true, beq_iff_eq] at hsettled
            rw [hlength, hsettled.1, Pool.capacity, hendpoints, hsettings]

/-! ## Every run -/

/-- Whatever has happened, a pool has dialed as often as its capacity says while it was created,
and since then once for every heartbeat of it that has failed or was not answered in time.  Each
such heartbeat is followed, in the call that waits for it, by a warning, the closing of what was
probed and a dial of the endpoint at its position, all in one; nothing else dials. -/
theorem dials_after_play (occurrences : List Occurrence) (id : PoolId) (pool : Pool)
    (hpool : (play {} occurrences).1.pools[id]? = some pool) :
    (∃ key before during after, occurrences = before ++ during ++ .move (.finish key) :: after ∧
      Creates id key before during ∧
        ((play {} before).1.creationDials key during).length +
            (poolDials id {} occurrences).length =
          pool.settings.perEndpoint * pool.endpoints.length +
            failedHeartbeats id {} occurrences) ∧
      (∀ key call entry outcome cause, (play {} occurrences).1.calls.get? key = some call →
        call.pool = id → call.phase = .probing entry →
        outcome.within pool.settings.heartbeatTimeout = some (.failure cause) →
        ∃ endpoint, pool.endpoints[entry.index]? = some endpoint ∧
          ((play {} occurrences).1.occur (.answered key outcome)).2 =
            [.log (.heartbeatFailed endpoint.address cause), .close entry.conn,
              .dial endpoint] ∧
          ((play {} occurrences).1.occur (.answered key outcome)).1.calls.get? key =
            some { call with
              phase := .redialing ⟨(play {} occurrences).1.nextConn endpoint, entry.index⟩ }) ∧
      ∀ occurrence, dialsIn ((play {} occurrences).1.occur occurrence).2 ≠ [] →
        (∃ key, occurrence = .move (.dialSlot key)) ∨
          ∃ id, (play {} occurrences).1.failsHeartbeat id occurrence = true := by
  refine ⟨?_, ?_, fun occurrence hdials => dialed_cases (orderly_play occurrences) hdials⟩
  · obtain ⟨key, before, during, after, hsplit, hcreates, hlength⟩ :=
      createdWithin_of_pool hpool
    refine ⟨key, before, during, after, hsplit, hcreates, ?_⟩
    rw [hlength, length_poolDials .initial]
  · rintro key call entry outcome cause hcall rfl hphase hwithin
    exact occur_failed (orderly_play occurrences) hcall hpool hphase hwithin

/-- Creates a pool with one connection to each of two endpoints, whose heartbeats have to be
answered in time; one is refused, one comes too late, and the call that waits for a third is given
up. -/
def refusedAndLate : List Occurrence :=
  [.move (.create 0 "echo" "echo" [{ address := "a:1" }, { address := "b:1" }]
      { perEndpoint := 1, heartbeatTimeout := some 5 }),
    .move (.dialSlot 0), .dialed 0 0 .immediate, .move (.dialSlot 0), .dialed 0 1 .immediate,
    .move (.finish 0), .move (.acquire 1 0), .answered 1 (.settles 2 (.failure "sick")),
    .answered 1 .immediate, .move (.acquire 2 0), .answered 2 (.settles 6 .success),
    .answered 2 .immediate, .move (.release 1 0), .move (.acquire 3 0), .move (.cancel 3),
    .move (.acquire 4 0)]

/-- The pool has dialed twice while it was created and twice since; it would dial anew if the
heartbeat that is waited for failed. -/
theorem dials_of_refusedAndLate :
    (∃ key before during, Creates 0 key before during ∧
        ((play {} before).1.creationDials key during).length +
          (poolDials 0 {} refusedAndLate).length = 1 * 2 + 2) ∧
      ∃ endpoint, ((play {} refusedAndLate).1.occur (.answered 4 .hangs)).2 =
        [.log (.heartbeatFailed endpoint.address deadlineText), .close ⟨"a:1", 1⟩,
          .dial endpoint] := by
  obtain ⟨⟨key, before, during, _, -, hcreates, hcount⟩, hfailed, -⟩ :=
    dials_after_play refusedAndLate 0 _ rfl
  refine ⟨⟨key, before, during, hcreates, ?_⟩, ?_⟩
  · exact hcount
  · obtain ⟨endpoint, -, hevents, -⟩ := hfailed 4 _ ⟨⟨"a:1", 1⟩, 0⟩ .hangs deadlineText rfl rfl
      rfl rfl
    exact ⟨endpoint, hevents⟩

end World

end HeartbeatPool
