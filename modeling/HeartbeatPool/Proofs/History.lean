import HeartbeatPool.Proofs.Occurrences
import HeartbeatPool.Proofs.Orderly
import Mathlib.Data.List.Induction

/-!
# What a state has, and since when

A call, a loan, a creation and a pool each begin with one action of a run and are there from then
on.  `Lasting` tells this from the actions alone, without a look at what the state has written down
about the thing.

* `Asked` and `HandedOut`: the pool that a call was made on, and the pool that a loan comes from.
* `Founding` and `Founded`: the endpoints and settings that a creation was given, and a pool.

In each case the state has written down just what the run tells (`Traced.lasting_iff`).  No step
lemma looks further than one action; the run is dealt with once, for all four.
-/

namespace HeartbeatPool

/-- What a pool was given at its creation. -/
def Pool.given (pool : Pool) : List Endpoint × Settings := (pool.endpoints, pool.settings)

namespace World

variable {w w' : World} {action : Action} {account : Account} {key : Key} {id : PoolId}

/-! ## Lasting things -/

/-- Something began with an action of a run and has been there ever since. -/
inductive Lasting (there : World → Prop) (began : List Action → Action → Prop) :
    List Action → Prop where
  | intro {before action after} (hbegan : began before action)
      (hsince : ∀ passed, passed <+: after → there (run {} (before ++ action :: passed)).1) :
      Lasting there began (before ++ action :: after)

theorem run_snoc_fst (w : World) (actions : List Action) (action : Action) :
    (w.run (actions ++ [action])).1 = ((w.run actions).1.step action).1 :=
  run_append_fst w actions [action]

theorem orderly_occur (hw : w.Orderly) (occurrence : Occurrence) :
    (w.occur occurrence).1.Orderly := by
  unfold occur
  split
  · exact hw
  · next action _ => exact hw.step action

theorem orderly_play (occurrences : List Occurrence) : (play {} occurrences).1.Orderly := by
  rw [play_eq_run]
  exact Orderly.initial.run _

theorem Lasting.begin {there : World → Prop} {began : List Action → Action → Prop}
    {before : List Action} (hbegan : began before action)
    (hthere : there (run {} (before ++ [action])).1) :
    Lasting there began (before ++ [action]) := by
  refine .intro hbegan fun passed hpassed => ?_
  rw [List.prefix_nil.mp hpassed]
  exact hthere

theorem Lasting.snoc {there : World → Prop} {began : List Action → Action → Prop}
    {actions : List Action} (h : Lasting there began actions)
    (hthere : there (run {} (actions ++ [action])).1) :
    Lasting there began (actions ++ [action]) := by
  cases h with
  | @intro before first after hbegan hsince =>
      rw [List.append_assoc] at hthere ⊢
      refine .intro hbegan fun passed hpassed => ?_
      rcases List.prefix_concat_iff.mp hpassed with rfl | hpassed
      · exact hthere
      · exact hsince passed hpassed

/-- Something that states may have: it carries a tag that no step changes, and the action with which
it begins tells the tag. -/
structure Traced {α β : Type} (value : World → Option α) (tag : α → β)
    (first : β → List Action → Action → Prop) : Prop where
  absent : value {} = none
  cases : ∀ {before action a'}, value (run {} (before ++ [action])).1 = some a' →
    (∃ a, value (run {} before).1 = some a ∧ tag a' = tag a) ∨
      (value (run {} before).1 = none ∧ ∀ b, first b before action ↔ tag a' = b)

/-- It was not there, began with such an action, and has been there ever since. -/
def LastingFrom {α : Type} (value : World → Option α) (first : List Action → Action → Prop) :
    List Action → Prop :=
  Lasting (fun w => (value w).isSome) fun before action =>
    value (run {} before).1 = none ∧ first before action

namespace Traced

variable {α β : Type} {value : World → Option α} {tag : α → β}
  {first : β → List Action → Action → Prop} (h : Traced value tag first)
include h

/-- What has lasted since it began still has the tag it began with. -/
theorem tag_eq {b : β} {actions : List Action} (hlasting : LastingFrom value (first b) actions)
    {a : α} (ha : value (run {} actions).1 = some a) : tag a = b := by
  cases hlasting with
  | @intro before action after hbegan hsince =>
      induction after using List.reverseRecOn generalizing a with
      | nil =>
          rcases h.cases ha with ⟨old, hold, -⟩ | ⟨-, hfirst⟩
          · rw [hbegan.1] at hold
            cases hold
          · exact (hfirst b).mp hbegan.2
      | append_singleton passed next ih =>
          have hearlier : ∀ rest, rest <+: passed →
              (value (run {} (before ++ action :: rest)).1).isSome := by
            intro rest hrest
            exact hsince rest (hrest.trans (List.prefix_append passed [next]))
          have hsplit : before ++ action :: (passed ++ [next]) =
              before ++ action :: passed ++ [next] := by
            rw [List.append_assoc, List.cons_append]
          rw [hsplit] at ha
          rcases h.cases ha with ⟨old, hold, htag⟩ | ⟨hnone, -⟩
          · calc tag a = tag old := htag
              _ = b := ih hearlier hold
          · have hthere := hearlier passed (List.prefix_refl _)
            rw [hnone] at hthere
            cases hthere

/-- What a run has led to began at some point of it. -/
theorem lasting {actions : List Action} {a : α} (ha : value (run {} actions).1 = some a) :
    LastingFrom value (first (tag a)) actions := by
  induction actions using List.reverseRecOn generalizing a with
  | nil =>
      have habsent : value (run {} []).1 = none := h.absent
      rw [ha] at habsent
      cases habsent
  | append_singleton before action ih =>
      rcases h.cases ha with ⟨old, hold, htag⟩ | ⟨hnone, hfirst⟩
      · rw [htag]
        exact (ih hold).snoc (Option.isSome_of_mem ha)
      · exact .begin ⟨hnone, (hfirst _).mpr rfl⟩ (Option.isSome_of_mem ha)

/-- The tag that a state has written down is the one that the run tells. -/
theorem lasting_iff {actions : List Action} {a : α} (ha : value (run {} actions).1 = some a)
    (b : β) : LastingFrom value (first b) actions ↔ tag a = b := by
  constructor
  · intro hlasting
    exact h.tag_eq hlasting ha
  · rintro rfl
    exact h.lasting ha

end Traced

/-! ## One step -/

/-- What a step does to creations, calls and loans is what its rule does to them: closing a pool
leaves them alone. -/
theorem step_tables (hw : w.Linked) (action : Action) :
    (w.step action).1 = w ∨ ∃ w' account, Effect w action w' account ∧
      (w.step action).1.creations = w'.creations ∧ (w.step action).1.calls = w'.calls ∧
      (w.step action).1.loans = w'.loans := by
  rcases step_cases hw action with
    ⟨hstep, -⟩ | ⟨w', account, heff, ⟨hstep, -⟩ | ⟨left, old, -, -, -, hstep⟩⟩
  · rw [hstep]
    exact Or.inl rfl
  · rw [hstep]
    exact Or.inr ⟨w', account, heff, rfl, rfl, rfl⟩
  · rw [hstep]
    exact Or.inr ⟨w', account, heff, rfl, rfl, rfl⟩

/-- Only a step of its own changes a call. -/
theorem Effect.calls_of_ne (h : Effect w action w' account) (hkey : action.call? ≠ some key) :
    w'.calls.get? key = w.calls.get? key := by
  cases h with
  | start | pass | dismiss | replace | giveUp | cancelProbe | cancelFull | cancelRedial =>
      have hne (other : Key) (hother : some other ≠ some key) : other ≠ key :=
        fun h => hother (congrArg some h)
      simp only [withProbe, withLoan, setPool, Table.get?_insert, Table.get?_erase]
      rw [if_neg (hne _ hkey)]
  | retry =>
      have hne := fun h => hkey (congrArg some h)
      simp only [withProbe, setPool, Table.get?_insert, Table.get?_erase]
      rw [if_neg hne, if_neg hne]
  | _ => rfl

theorem step_calls_of_ne (hw : w.Linked) (hkey : action.call? ≠ some key) :
    (w.step action).1.calls.get? key = w.calls.get? key := by
  rcases step_tables hw action with hstep | ⟨w', account, heff, -, hcalls, -⟩
  · rw [hstep]
  · rw [hcalls]
    exact heff.calls_of_ne hkey

/-- The keys of the loans that an action may change. -/
def Action.loanKeys : Action → List Key
  | .settle key _ | .release key _ | .refuse key _ | .drop key => [key]
  | .swap first second => [first, second]
  | _ => []

theorem Effect.loans_of_not_mem (h : Effect w action w' account) (hkey : key ∉ action.loanKeys) :
    w'.loans.get? key = w.loans.get? key := by
  cases h with
  | pass | replace | takeBack | takeFull | turnAway | refuse | drop =>
      have hne := fun heq => hkey (List.mem_singleton.mpr (Eq.symm heq))
      simp only [withLoan, withoutLoan, setPool, Table.get?_insert, Table.get?_erase]
      rw [if_neg hne]
  | swap =>
      have hne (other : Key) (hmem : other ∈ Action.loanKeys (.swap _ _)) : other ≠ key :=
        fun heq => hkey (heq ▸ hmem)
      rw [Table.get?_insert, Table.get?_insert, if_neg (hne _ (by simp [Action.loanKeys])),
        if_neg (hne _ (by simp [Action.loanKeys]))]
  | _ => rfl

theorem step_loans_of_not_mem (hw : w.Linked) (hkey : key ∉ action.loanKeys) :
    (w.step action).1.loans.get? key = w.loans.get? key := by
  rcases step_tables hw action with hstep | ⟨w', account, heff, -, -, hloans⟩
  · rw [hstep]
  · rw [hloans]
    exact heff.loans_of_not_mem hkey

/-- A loan begins only with the success of what its call has waited for. -/
theorem Effect.lent_cases (h : Effect w action w' account) {loan : Loan}
    (hbefore : w.loans.get? key = none) (hafter : w'.loans.get? key = some loan) :
    action = .settle key .success ∧ ∃ call, w.calls.get? key = some call ∧
      call.pool = loan.pool ∧
      (call.phase = .probing loan.entry ∨ call.phase = .redialing loan.entry) := by
  have hnone : w.loans.get? key ≠ some loan := by
    rw [hbefore]
    exact nofun
  cases h with
  | @pass other call pool entry hcall _ hphase | @replace other call pool entry hcall _ hphase =>
      -- a call that ends well has a loan from now on, if it is the one in question
      simp only [withLoan, setPool, Table.get?_insert] at hafter
      split at hafter
      · next heq =>
          subst heq
          cases hafter
          exact ⟨rfl, call, hcall, rfl, by simp [hphase]⟩
      · exact absurd hafter hnone
  | takeBack | takeFull | turnAway | refuse | drop =>
      exact absurd (Table.get?_of_erase hafter) hnone
  | @swap first second a b hfirst hsecond =>
      -- both loans were there before
      rw [Table.get?_insert, Table.get?_insert] at hafter
      split at hafter
      · next heq =>
          rw [heq, hbefore] at hsecond
          cases hsecond
      · split at hafter
        · next heq =>
            rw [heq, hbefore] at hfirst
            cases hfirst
        · exact absurd hafter hnone
  | _ => exact absurd hafter hnone

theorem step_lent_cases (hw : w.Linked) {loan : Loan} (hbefore : w.loans.get? key = none)
    (hafter : (w.step action).1.loans.get? key = some loan) :
    action = .settle key .success ∧ ∃ call, w.calls.get? key = some call ∧
      call.pool = loan.pool ∧
      (call.phase = .probing loan.entry ∨ call.phase = .redialing loan.entry) := by
  rcases step_cases hw action with
    ⟨hstep, -⟩ | ⟨w', account, heff, ⟨hstep, -⟩ | ⟨left, old, -, -, -, hstep⟩⟩
  · rw [hstep, hbefore] at hafter
    cases hafter
  · rw [hstep] at hafter
    exact heff.lent_cases hbefore hafter
  · rw [hstep] at hafter
    exact heff.lent_cases hbefore hafter

/-- A call stays on its pool, and it began with a demand on that pool. -/
theorem Effect.call_cases (h : Effect w action w' account) {call' : Call}
    (hcall' : w'.calls.get? key = some call') :
    (∃ call, w.calls.get? key = some call ∧ call'.pool = call.pool) ∨
      (w.calls.get? key = none ∧ action = .acquire key call'.pool) := by
  by_cases hkey : action.call? = some key
  · cases h with
    | start hnone =>
        -- the call is new
        cases hkey
        rw [withProbe, Table.get?_insert_self, Option.some.injEq] at hcall'
        subst hcall'
        exact Or.inr ⟨hnone, rfl⟩
    | dismiss hcall | retry hcall =>
        -- the call goes on where it was
        cases hkey
        simp only [withProbe, Table.get?_insert_self, Option.some.injEq] at hcall'
        subst hcall'
        exact Or.inl ⟨_, hcall, rfl⟩
    | startEmpty => exact Or.inl ⟨call', hcall', rfl⟩
    | pass | replace | giveUp | cancelProbe | cancelFull | cancelRedial =>
        cases hkey
        simp only [withLoan, setPool] at hcall'
        rw [Table.get?_erase_self] at hcall'
        cases hcall'
    | _ => cases hkey
  · rw [h.calls_of_ne hkey] at hcall'
    exact Or.inl ⟨call', hcall', rfl⟩

/-- A loan stays with the pool that it comes from, whatever is exchanged. -/
theorem Effect.loan_pool (hw : w.Linked) (h : Effect w action w' account) {loan loan' : Loan}
    (hloan : w.loans.get? key = some loan) (hloan' : w'.loans.get? key = some loan') :
    loan'.pool = loan.pool := by
  have hsame (h : w.loans.get? key = some loan') : loan'.pool = loan.pool := by
    rw [hloan, Option.some.injEq] at h
    rw [h]
  cases h with
  | @pass other call pool entry hcall | @replace other call pool entry hcall =>
      have hne : other ≠ key := by
        rintro rfl
        rw [hw.not_lent hcall] at hloan
        cases hloan
      rw [withLoan, Table.get?_insert, if_neg hne] at hloan'
      exact hsame hloan'
  | takeBack | takeFull | turnAway | refuse | drop => exact hsame (Table.get?_of_erase hloan')
  | swap hfirst hsecond =>
      rw [Table.get?_insert, Table.get?_insert] at hloan'
      split at hloan'
      · next heq =>
          rw [← heq, hsecond] at hloan
          cases hloan
          cases hloan'
          rfl
      · split at hloan'
        · next heq =>
            rw [← heq, hfirst] at hloan
            cases hloan
            cases hloan'
            rfl
        · exact hsame hloan'
  | _ => exact hsame hloan'

/-! ## Calls and loans -/

/-- A call on a pool was begun under a key and is still under way. -/
def Asked (key : Key) (id : PoolId) : List Action → Prop :=
  LastingFrom (fun w => w.calls.get? key) fun _ action => action = .acquire key id

/-- A call on a pool has ended with a connection, which is still on loan under the key. -/
def HandedOut (key : Key) (id : PoolId) : List Action → Prop :=
  LastingFrom (fun w => w.loans.get? key) fun before action =>
    action = .settle key .success ∧ Asked key id before

theorem step_call_cases (hw : w.Linked) {call' : Call}
    (hcall' : (w.step action).1.calls.get? key = some call') :
    (∃ call, w.calls.get? key = some call ∧ call'.pool = call.pool) ∨
      (w.calls.get? key = none ∧ action = .acquire key call'.pool) := by
  rcases step_tables hw action with hstep | ⟨w', account, heff, -, hcalls, -⟩
  · rw [hstep] at hcall'
    exact Or.inl ⟨call', hcall', rfl⟩
  · rw [hcalls] at hcall'
    exact heff.call_cases hcall'

/-- A loan stays with its pool, and it began with the success of a call on that pool. -/
theorem step_loan_cases (hw : w.Linked) {loan' : Loan}
    (hloan' : (w.step action).1.loans.get? key = some loan') :
    (∃ loan, w.loans.get? key = some loan ∧ loan'.pool = loan.pool) ∨
      (w.loans.get? key = none ∧ action = .settle key .success ∧
        ∃ call, w.calls.get? key = some call ∧ call.pool = loan'.pool) := by
  cases hloan : w.loans.get? key with
  | none =>
      obtain ⟨haction, call, hcall, hpool, -⟩ := step_lent_cases hw hloan hloan'
      exact Or.inr ⟨rfl, haction, call, hcall, hpool⟩
  | some loan =>
      refine Or.inl ⟨loan, rfl, ?_⟩
      rcases step_tables hw action with hstep | ⟨w', account, heff, -, -, hloans⟩
      · rw [hstep, hloan, Option.some.injEq] at hloan'
        rw [hloan']
      · rw [hloans] at hloan'
        exact heff.loan_pool hw hloan hloan'

theorem traced_calls (key : Key) :
    Traced (fun w => w.calls.get? key) Call.pool fun id _ action => action = .acquire key id where
  absent := rfl
  cases {before action call} hcall := by
    rw [run_snoc_fst] at hcall
    refine (step_call_cases (Orderly.initial.run before).linked hcall).imp_right ?_
    rintro ⟨hnone, rfl⟩
    exact ⟨hnone, fun id => by simp⟩

/-- A call is on the pool that it was made on. -/
theorem asked_iff {actions : List Action} {call : Call}
    (hcall : (run {} actions).1.calls.get? key = some call) :
    Asked key id actions ↔ call.pool = id :=
  (traced_calls key).lasting_iff hcall id

theorem traced_loans (key : Key) :
    Traced (fun w => w.loans.get? key) Loan.pool fun id before action =>
      action = .settle key .success ∧ Asked key id before where
  absent := rfl
  cases {before action loan} hloan := by
    rw [run_snoc_fst] at hloan
    refine (step_loan_cases (Orderly.initial.run before).linked hloan).imp_right ?_
    rintro ⟨hnone, rfl, call, hcall, hpool⟩
    exact ⟨hnone, fun id => by simp [asked_iff hcall, hpool]⟩

/-- A loan is from the pool that handed it out. -/
theorem handedOut_iff {actions : List Action} {loan : Loan}
    (hloan : (run {} actions).1.loans.get? key = some loan) :
    HandedOut key id actions ↔ loan.pool = id :=
  (traced_loans key).lasting_iff hloan id

/-! ## Creations and pools -/

/-- A creation keeps what it was given, and it began with being given it. -/
theorem Effect.creation_cases (h : Effect w action w' account) {creation' : Creation}
    (hcreation' : w'.creations.get? key = some creation') :
    (∃ creation, w.creations.get? key = some creation ∧
        creation'.pool.given = creation.pool.given) ∨
      (w.creations.get? key = none ∧ ∃ label name, action =
        .create key label name creation'.pool.endpoints creation'.pool.settings) := by
  have hsame (h : w.creations.get? key = some creation') :
      ∃ creation, w.creations.get? key = some creation ∧
        creation'.pool.given = creation.pool.given :=
    ⟨creation', h, rfl⟩
  cases h with
  | @create other label name =>
      rw [Table.get?_insert] at hcreation'
      split at hcreation'
      · next heq =>
          subst heq
          cases hcreation'
          exact Or.inr ⟨by assumption, label, name, rfl⟩
      · exact Or.inl (hsame hcreation')
  | dialSlot hold | establish hold | failSlot hold =>
      rw [Table.get?_insert] at hcreation'
      split at hcreation'
      · next heq =>
          subst heq
          cases hcreation'
          exact Or.inl ⟨_, hold, rfl⟩
      · exact Or.inl (hsame hcreation')
  | finishEmpty | finish | abandon => exact Or.inl (hsame (Table.get?_of_erase hcreation'))
  | _ => exact Or.inl (hsame hcreation')

/-- A rule makes no pool, or it makes one of a creation. -/
theorem Effect.pools_cases (h : Effect w action w' account) :
    w'.pools.length = w.pools.length ∨ ∃ key creation pool, action = .finish key ∧
      w.creations.get? key = some creation ∧ creation.isSettled ∧ creation.outcome = .ok pool ∧
      w'.pools = w.pools ++ [pool] := by
  cases h with
  | @finish key creation pool hcreation hsettled houtcome =>
      exact Or.inr ⟨key, creation, pool, rfl, hcreation, hsettled, houtcome, rfl⟩
  | _ => exact Or.inl (by simp [withProbe, withLoan, withoutLoan, setPool])

theorem given_of_outcome {creation : Creation} {pool : Pool} (h : creation.Fresh)
    (houtcome : creation.outcome = .ok pool) : pool.given = creation.pool.given := by
  obtain ⟨-, rfl⟩ := h.outcome_eq_ok_iff.mp houtcome
  rw [h.stock_eq]
  rfl

/-- A pool keeps what it was given, and it begins with what its creation was given. -/
theorem Effect.pool_cases (hw : w.Orderly) (h : Effect w action w' account) {pool' : Pool}
    (hpool' : w'.pools[id]? = some pool') :
    (∃ pool, w.pools[id]? = some pool ∧ pool'.given = pool.given) ∨
      (id = w.pools.length ∧ ∃ key creation, action = .finish key ∧
        w.creations.get? key = some creation ∧ creation.isSettled ∧
        pool'.given = creation.pool.given) := by
  rcases h.pools hpool' with ⟨pool, hpool, hkept⟩ | ⟨rfl, -⟩
  · refine Or.inl ⟨pool, hpool, ?_⟩
    rw [Pool.given, Pool.given, hkept.endpoints, hkept.settings]
  · rcases h.pools_cases with hlength |
      ⟨key, creation, pool, haction, hcreation, hsettled, houtcome, hpools⟩
    · rw [List.getElem?_eq_none (Nat.le_of_eq hlength)] at hpool'
      cases hpool'
    · rw [hpools, List.getElem?_concat_length, Option.some.injEq] at hpool'
      subst hpool'
      exact Or.inr ⟨rfl, key, creation, haction, hcreation, hsettled,
        given_of_outcome (hw.fresh hcreation) houtcome⟩

theorem step_pool_cases (hw : w.Orderly) {pool' : Pool}
    (hpool' : (w.step action).1.pools[id]? = some pool') :
    (∃ pool, w.pools[id]? = some pool ∧ pool'.given = pool.given) ∨
      (id = w.pools.length ∧ ∃ key creation, action = .finish key ∧
        w.creations.get? key = some creation ∧ creation.isSettled ∧
        pool'.given = creation.pool.given) := by
  rcases step_cases hw.linked action with
    ⟨hstep, -⟩ | ⟨w', account, heff, ⟨hstep, -⟩ | ⟨left, old, -, hold, -, hstep⟩⟩
  · rw [hstep] at hpool'
    exact Or.inl ⟨pool', hpool', rfl⟩
  · rw [hstep] at hpool'
    exact heff.pool_cases hw hpool'
  · -- closing a pool changes nothing that it was given
    rw [hstep, setPool] at hpool'
    by_cases hid : left = id
    · subst hid
      rw [List.getElem?_set_self (List.getElem?_eq_some_iff.mp hold).1, Option.some.injEq] at hpool'
      subst hpool'
      have hcases := heff.pool_cases hw hold
      exact hcases
    · rw [List.getElem?_set_ne hid] at hpool'
      exact heff.pool_cases hw hpool'

theorem step_creation_cases (hw : w.Linked) {creation' : Creation}
    (hcreation' : (w.step action).1.creations.get? key = some creation') :
    (∃ creation, w.creations.get? key = some creation ∧
        creation'.pool.given = creation.pool.given) ∨
      (w.creations.get? key = none ∧ ∃ label name, action =
        .create key label name creation'.pool.endpoints creation'.pool.settings) := by
  rcases step_tables hw action with hstep | ⟨w', account, heff, hcreations, -, -⟩
  · rw [hstep] at hcreation'
    exact Or.inl ⟨creation', hcreation', rfl⟩
  · rw [hcreations] at hcreation'
    exact heff.creation_cases hcreation'

/-- A creation was begun under a key with some endpoints and settings, and is still under way. -/
def Founding (key : Key) (given : List Endpoint × Settings) : List Action → Prop :=
  LastingFrom (fun w => w.creations.get? key) fun _ action =>
    ∃ label name, action = .create key label name given.1 given.2

/-- A creation with some endpoints and settings has ended with a pool. -/
def Founded (id : PoolId) (given : List Endpoint × Settings) : List Action → Prop :=
  LastingFrom (fun w => w.pools[id]?) fun before action =>
    ∃ key, action = .finish key ∧ Founding key given before

theorem traced_creations (key : Key) :
    Traced (fun w => w.creations.get? key) (fun creation => creation.pool.given)
      fun given _ action => ∃ label name, action = .create key label name given.1 given.2 where
  absent := rfl
  cases {before action creation} hcreation := by
    rw [run_snoc_fst] at hcreation
    refine (step_creation_cases (Orderly.initial.run before).linked hcreation).imp_right ?_
    rintro ⟨hnone, label, name, rfl⟩
    exact ⟨hnone, fun given => by simp [Pool.given, Prod.ext_iff]⟩

/-- A creation has what it was given when it began. -/
theorem founding_iff {actions : List Action} {creation : Creation}
    {given : List Endpoint × Settings}
    (hcreation : (run {} actions).1.creations.get? key = some creation) :
    Founding key given actions ↔ creation.pool.given = given :=
  (traced_creations key).lasting_iff hcreation given

theorem traced_pools (id : PoolId) :
    Traced (fun w => w.pools[id]?) Pool.given fun given before action =>
      ∃ key, action = .finish key ∧ Founding key given before where
  absent := rfl
  cases {before action pool} hpool := by
    rw [run_snoc_fst] at hpool
    refine (step_pool_cases (Orderly.initial.run before) hpool).imp_right ?_
    rintro ⟨rfl, key, creation, rfl, hcreation, -, hgiven⟩
    exact ⟨List.getElem?_eq_none (Nat.le_refl _), fun given => by
      simp [founding_iff hcreation, hgiven]⟩

/-- A pool has what its creation was given. -/
theorem founded_iff {actions : List Action} {pool : Pool} {given : List Endpoint × Settings}
    (hpool : (run {} actions).1.pools[id]? = some pool) :
    Founded id given actions ↔ pool.given = given :=
  (traced_pools id).lasting_iff hpool given

end World

end HeartbeatPool
