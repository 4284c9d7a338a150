import HeartbeatPool.Proofs.Effect

/-!
# Every step follows a rule

`World.step` does what the rules of `Effect` say, and closes the pool that is left alone if nobody
is there any more who could use it.

* `step_follows`: an action that makes sense does what its rule says, and any other action does
  nothing.
* `step_cases`: the same with the closing of the pool told apart.
* `step_induction`, `run_induction`: what every rule keeps and the closing of a pool keeps, every
  step and every run keeps.
-/

namespace HeartbeatPool.World

/-- Closes the pool that an action may have left alone. -/
def reapLeft (w : World) : Option PoolId → Change
  | none => (w, [])
  | some id => w.reap id

/-! ## The function follows the rules -/

/-- What the rules say about an action is what the change is. -/
def Follows (w : World) (action : Action) (change : Change) : Prop :=
  (change = (w, []) ∧ ∀ w' account, ¬ Effect w action w' account) ∨
    ∃ w' account, Effect w action w' account ∧
      change = Change.andThen (w', account.events) fun w => w.reapLeft account.left

theorem Follows.of_effect {w w' : World} {action : Action} {account : Account}
    (h : Effect w action w' account) :
    Follows w action (Change.andThen (w', account.events) fun w => w.reapLeft account.left) :=
  Or.inr ⟨w', account, h, rfl⟩

theorem Follows.of_effect_none {w w' : World} {action : Action} {events : List Event}
    {gone come : List Holding} (h : Effect w action w' ⟨events, gone, come, none⟩) :
    Follows w action (w', events) :=
  Or.inr ⟨w', _, h, by simp [Change.andThen, reapLeft]⟩

theorem create_follows (w : World) (key : Key) (label name : String) (endpoints : List Endpoint)
    (settings : Settings) :
    Follows w (.create key label name endpoints settings)
      (w.create key label name endpoints settings) := by
  unfold World.create
  cases hkey : w.creations.get? key with
  | some creation =>
      refine Or.inl ⟨by simp [Table.contains, hkey], ?_⟩
      rintro w' account ⟨⟩
      simp_all
  | none =>
      cases hok : checkParameters endpoints settings with
      | error reason =>
          refine Or.inl ⟨by simp [Table.contains, hkey], ?_⟩
          rintro w' account ⟨⟩
          simp_all
      | ok capacity =>
          simp only [Table.contains, hkey, Option.isSome_none, Bool.false_eq_true, if_false]
          exact .of_effect_none (.create hkey hok)

theorem dialSlot_follows (w : World) (key : Key) :
    Follows w (.dialSlot key) (w.dialSlot key) := by
  unfold World.dialSlot
  cases hcreation : w.creations.get? key with
  | none => exact Or.inl ⟨rfl, by rintro w' account ⟨⟩; simp_all⟩
  | some creation =>
      dsimp only
      split
      · next hroom => exact .of_effect_none (.dialSlot hcreation hroom)
      · next hfull =>
          refine Or.inl ⟨rfl, ?_⟩
          rintro w' account ⟨⟩
          simp_all only [Option.some.injEq]

theorem settleSlot_follows (w : World) (key : Key) (slot : Nat) (verdict : Verdict) :
    Follows w (.settleSlot key slot verdict) (w.settleSlot key slot verdict) := by
  unfold World.settleSlot
  cases hcreation : w.creations.get? key with
  | none => exact Or.inl ⟨rfl, by rintro w' account ⟨⟩ <;> simp_all⟩
  | some creation =>
      dsimp only
      split
      · next hslot => exact .of_effect_none (.establish hcreation hslot)
      · next hslot => exact .of_effect_none (.failSlot hcreation hslot)
      · next hok hfail => exact Or.inl ⟨rfl, by rintro w' account ⟨⟩ <;> simp_all⟩

theorem finish_follows (w : World) (key : Key) : Follows w (.finish key) (w.finish key) := by
  unfold World.finish
  cases hcreation : w.creations.get? key with
  | none => exact Or.inl ⟨rfl, by rintro w' account ⟨⟩ <;> simp_all⟩
  | some creation =>
      dsimp only
      split
      · next hsettled =>
          cases houtcome : creation.outcome with
          | error error => exact .of_effect_none (.finishEmpty hcreation hsettled houtcome)
          | ok pool => exact .of_effect_none (.finish hcreation hsettled houtcome)
      · exact Or.inl ⟨rfl, by rintro w' account ⟨⟩ <;> simp_all⟩

theorem abandon_follows (w : World) (key : Key) : Follows w (.abandon key) (w.abandon key) := by
  unfold World.abandon
  cases hcreation : w.creations.get? key with
  | none => exact Or.inl ⟨rfl, by rintro w' account ⟨⟩; simp_all⟩
  | some creation => exact .of_effect_none (.abandon hcreation)

theorem acquire_follows {w : World} (hw : w.Linked) (key : Key) (id : PoolId) :
    Follows w (.acquire key id) (w.acquire key id) := by
  unfold World.acquire
  split
  · next hbusy =>
      refine Or.inl ⟨rfl, ?_⟩
      rintro w' account ⟨⟩ <;> simp_all [Table.contains]
  · next hfree =>
      simp only [Table.contains, Bool.or_eq_true, Option.isSome_iff_ne_none, ne_eq,
        Bool.not_eq_eq_eq_not, Bool.not_true, not_or, Decidable.not_not, Bool.not_eq_false,
        List.contains_iff_mem] at hfree
      obtain ⟨⟨hkey, hloan⟩, hheld⟩ := hfree
      obtain ⟨pool, hpool⟩ := hw.poolOfHeld hheld
      obtain ⟨attemptsLeft, hattempts⟩ : ∃ n, max pool.idleConnections 1 = n + 1 :=
        ⟨max pool.idleConnections 1 - 1, by omega⟩
      have hone : attemptsLeft = max pool.idleConnections 1 - 1 := by omega
      simp only [hpool, hattempts, attempt]
      cases htake : pool.takeIdle? with
      | none => exact .of_effect (.startEmpty hkey hloan hheld hpool htake)
      | some taken =>
          subst hone
          exact .of_effect_none (.start hkey hloan hheld hpool htake)

theorem settle_follows {w : World} (hw : w.Linked) (key : Key) (verdict : Verdict) :
    Follows w (.settle key verdict) (w.settle key verdict) := by
  unfold World.settle
  cases hcall : w.calls.get? key with
  | none => exact Or.inl ⟨rfl, by rintro w' account ⟨⟩ <;> simp_all⟩
  | some call =>
      obtain ⟨pool, hpool⟩ := hw.poolOfCall hcall
      simp only [hpool]
      cases hphase : call.phase with
      | probing entry =>
          cases verdict with
          | success => exact .of_effect (.pass hcall hpool hphase)
          | failure cause => exact .of_effect_none (.dismiss hcall hpool hphase)
      | redialing entry =>
          cases verdict with
          | success => exact .of_effect (.replace hcall hpool hphase)
          | failure cause =>
              cases hleft : call.attemptsLeft with
              | zero => exact .of_effect (.giveUp hcall hpool hphase (Or.inl hleft))
              | succ attemptsLeft =>
                  simp only [attempt]
                  cases htake : pool.takeIdle? with
                  | none => exact .of_effect (.giveUp hcall hpool hphase (Or.inr htake))
                  | some taken =>
                      exact .of_effect_none (.retry hcall hpool hphase hleft htake)

theorem cancel_follows {w : World} (hw : w.Linked) (key : Key) :
    Follows w (.cancel key) (w.cancel key) := by
  unfold World.cancel
  cases hcall : w.calls.get? key with
  | none => exact Or.inl ⟨rfl, by rintro w' account ⟨⟩ <;> simp_all⟩
  | some call =>
      obtain ⟨pool, hpool⟩ := hw.poolOfCall hcall
      simp only [hpool]
      cases hphase : call.phase with
      | probing entry =>
          rcases Nat.eq_zero_or_pos pool.free with hfull | hfree
          · simp only [Pool.park_of_full hfull]
            exact .of_effect (.cancelFull hcall hpool hphase hfull)
          · simp only [Pool.park_of_free hfree]
            exact .of_effect (.cancelProbe hcall hpool hphase hfree)
      | redialing entry => exact .of_effect (.cancelRedial hcall hpool hphase)

theorem drop_eq {w : World} {key : Key} {loan : Loan} {pool : Pool}
    (hloan : w.loans.get? key = some loan) (hpool : w.pools[loan.pool]? = some pool) :
    w.drop key = (w.withoutLoan key loan pool, [.close loan.entry.conn]) := by
  simp [World.drop, hloan, hpool, withoutLoan, setPool]

theorem drop_follows {w : World} (hw : w.Linked) (key : Key) :
    Follows w (.drop key) (w.drop key) := by
  cases hloan : w.loans.get? key with
  | none =>
      refine Or.inl ⟨by simp [World.drop, hloan], ?_⟩
      rintro w' account ⟨⟩
      simp_all
  | some loan =>
      obtain ⟨pool, hpool⟩ := hw.poolOfLoan hloan
      rw [drop_eq hloan hpool]
      exact .of_effect_none (.drop hloan hpool)

theorem release_follows {w : World} (hw : w.Linked) (key : Key) (id : PoolId) :
    Follows w (.release key id) (w.release key id) := by
  unfold World.release
  split
  · next hgone =>
      refine Or.inl ⟨rfl, ?_⟩
      rintro w' account ⟨⟩ <;> simp_all
  · next hheld =>
      simp only [Bool.not_eq_eq_eq_not, Bool.not_true, Bool.not_eq_false,
        List.contains_iff_mem] at hheld
      obtain ⟨other, hother⟩ := hw.poolOfHeld hheld
      cases hloan : w.loans.get? key with
      | none =>
          refine Or.inl ⟨by simp, ?_⟩
          rintro w' account ⟨⟩ <;> simp_all
      | some loan =>
          simp only [hother]
          split
          · next heq =>
              subst heq
              rcases Nat.eq_zero_or_pos other.free with hfull | hfree
              · simp only [Pool.park_of_full hfull]
                exact .of_effect_none (.takeFull hloan hheld hother hfull)
              · simp only [Pool.park_of_free hfree]
                exact .of_effect_none (.takeBack hloan hheld hother hfree)
          · next hne =>
              obtain ⟨pool, hpool⟩ := hw.poolOfLoan hloan
              simp only [Change.andThen, drop_eq hloan hpool]
              exact .of_effect_none (.turnAway hloan hheld hne hother hpool)

theorem refuse_follows {w : World} (hw : w.Linked) (key : Key) (service : String) :
    Follows w (.refuse key service) (w.refuse key service) := by
  unfold World.refuse
  cases hloan : w.loans.get? key with
  | none => exact Or.inl ⟨rfl, by rintro w' account ⟨⟩; simp_all⟩
  | some loan =>
      obtain ⟨pool, hpool⟩ := hw.poolOfLoan hloan
      simp only [Change.andThen, reportUnknown, drop_eq hloan hpool]
      exact .of_effect_none (.refuse hloan hpool)

theorem swap_follows (w : World) (first second : Key) :
    Follows w (.swap first second) (w.swap first second) := by
  unfold World.swap
  split
  · next a b hfirst hsecond =>
      split
      · exact Or.inl ⟨rfl, by rintro w' account ⟨⟩; simp_all⟩
      · next hne => exact .of_effect_none (.swap hfirst hsecond hne)
  · next hmissing => exact Or.inl ⟨rfl, by rintro w' account ⟨⟩; simp_all⟩

/-- An action that makes sense does what its rule says, and any other does nothing. -/
theorem step_follows {w : World} (hw : w.Linked) (action : Action) :
    Follows w action (w.step action) := by
  cases action with
  | create key label name endpoints settings =>
      exact create_follows w key label name endpoints settings
  | dialSlot key => exact dialSlot_follows w key
  | settleSlot key slot verdict => exact settleSlot_follows w key slot verdict
  | finish key => exact finish_follows w key
  | abandon key => exact abandon_follows w key
  | acquire key pool => exact acquire_follows hw key pool
  | settle key verdict => exact settle_follows hw key verdict
  | cancel key => exact cancel_follows hw key
  | release key pool => exact release_follows hw key pool
  | refuse key service => exact refuse_follows hw key service
  | reportUnknown service => exact .of_effect_none .reportUnknown
  | drop key => exact drop_follows hw key
  | swap first second => exact swap_follows w first second
  | letGo pool =>
      have h := Follows.of_effect (@Effect.letGo w pool)
      simpa [Change.andThen, reapLeft, step, World.letGo] using h

/-! ## Closing a pool -/

/-- Whether a pool is still there for somebody: it is held, or a call is under way on it. -/
def isOpen (w : World) (id : PoolId) : Bool := w.held.contains id || w.isBusy id

/-- A pool is closed exactly if it exists and nobody is there for it. -/
theorem reap_cases (w : World) (id : PoolId) :
    (w.reap id = (w, []) ∧ (w.isOpen id = true ∨ w.pools[id]? = none)) ∨
      ∃ pool, w.pools[id]? = some pool ∧ w.isOpen id = false ∧
        w.reap id = (w.setPool id pool.closeIdle.1, pool.closeIdle.2) := by
  unfold reap
  split
  · next hopen => exact Or.inl ⟨rfl, Or.inl hopen⟩
  · next hopen =>
      cases hpool : w.pools[id]? with
      | none => exact Or.inl ⟨rfl, Or.inr rfl⟩
      | some pool => exact Or.inr ⟨pool, rfl, by simpa [isOpen] using hopen, rfl⟩

/-- Nothing is closed on a pool that somebody holds. -/
theorem reap_of_held {w : World} {id : PoolId} (hheld : id ∈ w.held) : w.reap id = (w, []) := by
  simp [reap, hheld]

/-- A step does nothing, or what a rule says, or what a rule says and then closes a pool. -/
theorem step_cases {w : World} (hw : w.Linked) (action : Action) :
    (w.step action = (w, []) ∧ ∀ w' account, ¬ Effect w action w' account) ∨
      ∃ w' account, Effect w action w' account ∧
        ((w.step action = (w', account.events) ∧
            ∀ id ∈ account.left, w'.isOpen id = true ∨ w'.pools[id]? = none) ∨
          ∃ id pool, account.left = some id ∧ w'.pools[id]? = some pool ∧
            w'.isOpen id = false ∧
            w.step action =
              (w'.setPool id pool.closeIdle.1, account.events ++ pool.closeIdle.2)) := by
  rcases step_follows hw action with hnone | ⟨w', account, heff, hstep⟩
  · exact Or.inl hnone
  · refine Or.inr ⟨w', account, heff, ?_⟩
    cases hleft : account.left with
    | none => exact Or.inl ⟨by simpa [Change.andThen, reapLeft, hleft] using hstep, by simp⟩
    | some id =>
        rcases reap_cases w' id with ⟨hreap, hopen⟩ | ⟨pool, hpool, hopen, hreap⟩
        · refine Or.inl ⟨by simpa [Change.andThen, reapLeft, hleft, hreap] using hstep, ?_⟩
          intro other hother
          cases hother
          exact hopen
        · refine Or.inr ⟨id, pool, rfl, hpool, hopen, ?_⟩
          simpa [Change.andThen, reapLeft, hleft, hreap] using hstep

/-- What every rule keeps and the closing of a pool keeps, every step of a linked state keeps. -/
theorem step_induction {P : World → Prop} {w : World} (hw : w.Linked) (hP : P w)
    (heffect : ∀ {action w' account}, Effect w action w' account → P w')
    (hclose : ∀ {w' id pool}, P w' → w'.pools[id]? = some pool → w'.isOpen id = false →
      P (w'.setPool id pool.closeIdle.1))
    (action : Action) : P (w.step action).1 := by
  rcases step_cases hw action with
    ⟨hstep, -⟩ | ⟨w', account, heff, ⟨hstep, -⟩ | ⟨id, pool, -, hpool, hopen, hstep⟩⟩
  · rw [hstep]
    exact hP
  · rw [hstep]
    exact heffect heff
  · rw [hstep]
    exact hclose (heffect heff) hpool hopen

theorem step_linked {w : World} (hw : w.Linked) (action : Action) : (w.step action).1.Linked :=
  step_induction hw hw hw.effect (fun hw' _ _ => hw'.setPool ..) action

/-! ## Runs -/

/-- What holds at first and is kept by every step of a linked state holds after every run. -/
theorem run_induction {P : World → Prop}
    (hstep : ∀ {w}, w.Linked → P w → ∀ action, P (w.step action).1) :
    ∀ (actions : List Action) {w : World}, w.Linked → P w → P (w.run actions).1 := by
  intro actions
  induction actions with
  | nil => exact fun _ hP => hP
  | cons action rest ih => exact fun hw hP => ih (step_linked hw action) (hstep hw hP action)

theorem run_append_fst (w : World) (first second : List Action) :
    (w.run (first ++ second)).1 = ((w.run first).1.run second).1 := by
  rw [run_append]
  rfl

theorem run_append_snd (w : World) (first second : List Action) :
    (w.run (first ++ second)).2 = (w.run first).2 ++ ((w.run first).1.run second).2 := by
  rw [run_append]
  rfl

/-- What is seen in a run is seen in one of its steps. -/
theorem exists_of_mem_run {event : Event} {actions : List Action} {w : World}
    (h : event ∈ (w.run actions).2) :
    ∃ before action after, actions = before ++ action :: after ∧
      event ∈ ((w.run before).1.step action).2 := by
  induction actions generalizing w with
  | nil => cases h
  | cons action rest ih =>
      rcases List.mem_append.mp h with h | h
      · exact ⟨[], action, rest, rfl, h⟩
      · obtain ⟨before, other, after, rfl, hevent⟩ := ih h
        exact ⟨action :: before, other, after, rfl, hevent⟩

end HeartbeatPool.World
