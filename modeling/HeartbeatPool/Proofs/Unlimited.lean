import HeartbeatPool.Proofs.History

/-!
# The world does not look at time limits

The settings of a pool say how long a dial and a heartbeat may take.  Whoever waits looks at them;
the world, which only hears of verdicts, never does.  So forgetting all limits commutes with every
action (`step_unlimited`), and what is seen is the same.

`Limited` says that all pools have the same limits, those on their way included; a step keeps it as
long as new pools are given these limits as well (`Limited.step`).
-/

namespace HeartbeatPool

/-! ## Settings and pools -/

/-- The time limits of a pool. -/
structure Limits where
  dial : Option Nat
  heartbeat : Option Nat

/-- The limits that settings set. -/
def Settings.limits (settings : Settings) : Limits :=
  ⟨settings.dialTimeout, settings.heartbeatTimeout⟩

/-- The settings without limits. -/
def Settings.unlimited (settings : Settings) : Settings :=
  { settings with dialTimeout := none, heartbeatTimeout := none }

@[simp] theorem Settings.perEndpoint_unlimited (settings : Settings) :
    settings.unlimited.perEndpoint = settings.perEndpoint := rfl
@[simp] theorem Settings.dialTimeout_unlimited (settings : Settings) :
    settings.unlimited.dialTimeout = none := rfl
@[simp] theorem Settings.heartbeatTimeout_unlimited (settings : Settings) :
    settings.unlimited.heartbeatTimeout = none := rfl

/-- Limits do not matter to which pools can be created. -/
theorem checkParameters_unlimited (endpoints : List Endpoint) (settings : Settings) :
    checkParameters endpoints settings.unlimited = checkParameters endpoints settings := rfl

namespace Pool

/-- The pool without limits. -/
def unlimited (pool : Pool) : Pool := { pool with settings := pool.settings.unlimited }

variable (pool : Pool)

@[simp] theorem settings_unlimited : pool.unlimited.settings = pool.settings.unlimited := rfl
@[simp] theorem name_unlimited : pool.unlimited.name = pool.name := rfl
@[simp] theorem label_unlimited : pool.unlimited.label = pool.label := rfl
@[simp] theorem idle_unlimited : pool.unlimited.idle = pool.idle := rfl
@[simp] theorem free_unlimited : pool.unlimited.free = pool.free := rfl
@[simp] theorem live_unlimited : pool.unlimited.live = pool.live := rfl
@[simp] theorem capacity_unlimited : pool.unlimited.capacity = pool.capacity := rfl
@[simp] theorem idleConnections_unlimited :
    pool.unlimited.idleConnections = pool.idleConnections := rfl
@[simp] theorem endpoint_unlimited : pool.unlimited.endpoint = pool.endpoint := rfl
@[simp] theorem address_unlimited : pool.unlimited.address = pool.address := rfl
@[simp] theorem track_unlimited : pool.unlimited.track = pool.track.unlimited := rfl
@[simp] theorem untrack_unlimited : pool.unlimited.untrack = pool.untrack.unlimited := rfl
@[simp] theorem closeIdle_unlimited :
    pool.unlimited.closeIdle = (pool.closeIdle.1.unlimited, pool.closeIdle.2) := rfl

theorem takeIdle?_unlimited :
    pool.unlimited.takeIdle? = pool.takeIdle?.map fun taken => (taken.1, taken.2.unlimited) := by
  unfold takeIdle?
  rw [idle_unlimited]
  cases pool.idle <;> rfl

theorem park_unlimited (entry : Entry) :
    pool.unlimited.park entry = ((pool.park entry).1.unlimited, (pool.park entry).2) := by
  unfold park
  rw [free_unlimited]
  split <;> rfl

end Pool

namespace Creation

/-- The creation of a pool without limits. -/
def unlimited (creation : Creation) : Creation :=
  { creation with pool := creation.pool.unlimited }

variable (creation : Creation)

@[simp] theorem slots_unlimited : creation.unlimited.slots = creation.slots := rfl
@[simp] theorem pool_unlimited : creation.unlimited.pool = creation.pool.unlimited := rfl
@[simp] theorem endpointOf_unlimited : creation.unlimited.endpointOf = creation.endpointOf := rfl
@[simp] theorem nextEndpoint_unlimited :
    creation.unlimited.nextEndpoint = creation.nextEndpoint := rfl
@[simp] theorem isSettled_unlimited : creation.unlimited.isSettled = creation.isSettled := rfl
@[simp] theorem closing_unlimited : creation.unlimited.closing = creation.closing := rfl
@[simp] theorem push_unlimited (conn : Conn) :
    creation.unlimited.push conn = (creation.push conn).unlimited := rfl
@[simp] theorem establish_unlimited (slot : Nat) (conn : Conn) :
    creation.unlimited.establish slot conn = (creation.establish slot conn).unlimited := rfl
@[simp] theorem fail_unlimited (slot : Nat) (cause : String) :
    creation.unlimited.fail slot cause = (creation.fail slot cause).unlimited := rfl

theorem takeIn_unlimited (pool : Pool) (slot : Nat) (result : Slot) :
    creation.unlimited.takeIn pool.unlimited slot result =
      ((creation.takeIn pool slot result).1.unlimited, (creation.takeIn pool slot result).2) := by
  cases result with
  | dialing conn | failed cause => rfl
  | established conn => exact pool.park_unlimited _

theorem takeInAll_unlimited (pool : Pool) (slot : Nat) (results : List Slot) :
    creation.unlimited.takeInAll pool.unlimited slot results =
      ((creation.takeInAll pool slot results).1.unlimited,
        (creation.takeInAll pool slot results).2) := by
  induction results generalizing pool slot with
  | nil => rfl
  | cons result rest ih => simp only [takeInAll, takeIn_unlimited, ih]

theorem stock_unlimited :
    creation.unlimited.stock = (creation.stock.1.unlimited, creation.stock.2) :=
  creation.takeInAll_unlimited creation.pool 0 creation.slots

@[simp] theorem outcome_unlimited :
    creation.unlimited.outcome = creation.outcome.map Pool.unlimited := by
  unfold outcome
  simp only [stock_unlimited, Pool.live_unlimited]
  split <;> rfl

@[simp] theorem report_unlimited : creation.unlimited.report = creation.report := by
  unfold report
  rw [stock_unlimited]
  rfl

end Creation

/-! ## Tables -/

namespace Table

universe u v

variable {κ : Type u} {α β : Type v}

/-- The table with a function applied to every value. -/
def mapValues (f : α → β) (table : Table κ α) : Table κ β where
  toList := table.toList.map fun pair => (pair.1, f pair.2)
  nodup := by
    rw [List.map_map]
    exact table.nodup

variable [DecidableEq κ] (f : α → β)

private theorem find_map (pairs : List (κ × α)) (key : κ) :
    find (pairs.map fun pair => (pair.1, f pair.2)) key = (find pairs key).map f := by
  induction pairs with
  | nil => rfl
  | cons pair rest ih =>
      rw [List.map_cons, find, find, ih]
      split <;> rfl

private theorem put_map (pairs : List (κ × α)) (key : κ) (value : α) :
    put (pairs.map fun pair => (pair.1, f pair.2)) key (f value) =
      (put pairs key value).map fun pair => (pair.1, f pair.2) := by
  induction pairs with
  | nil => rfl
  | cons pair rest ih =>
      rw [List.map_cons, put, put, ih]
      split <;> rfl

theorem get?_mapValues (table : Table κ α) (key : κ) :
    (table.mapValues f).get? key = (table.get? key).map f :=
  find_map f table.toList key

theorem contains_mapValues (table : Table κ α) (key : κ) :
    (table.mapValues f).contains key = table.contains key := by
  unfold contains
  rw [get?_mapValues, Option.isSome_map]

theorem insert_mapValues (table : Table κ α) (key : κ) (value : α) :
    (table.insert key value).mapValues f = (table.mapValues f).insert key (f value) := by
  unfold insert mapValues
  congr 1
  exact (put_map f table.toList key value).symm

theorem erase_mapValues (table : Table κ α) (key : κ) :
    (table.erase key).mapValues f = (table.mapValues f).erase key := by
  unfold erase mapValues
  congr 1
  rw [List.filter_map]
  rfl

end Table

/-! ## The world -/

namespace World

/-- The world in which no pool has limits. -/
def unlimited (w : World) : World :=
  { w with
    pools := w.pools.map Pool.unlimited
    creations := w.creations.mapValues Creation.unlimited }

/-- The action by which no pool is given limits. -/
def Action.unlimited : Action → Action
  | .create key label name endpoints settings =>
      .create key label name endpoints settings.unlimited
  | action => action

/-- What is seen does not depend on limits. -/
def Change.unlimited (change : Change) : Change := (change.1.unlimited, change.2)

variable (w : World) (key : Key) (id : PoolId)

@[simp] theorem dialed_unlimited : w.unlimited.dialed = w.dialed := rfl
@[simp] theorem held_unlimited : w.unlimited.held = w.held := rfl
@[simp] theorem calls_unlimited : w.unlimited.calls = w.calls := rfl
@[simp] theorem loans_unlimited : w.unlimited.loans = w.loans := rfl
@[simp] theorem isBusy_unlimited : w.unlimited.isBusy = w.isBusy := rfl

@[simp] theorem dial_unlimited (endpoint : Endpoint) :
    w.unlimited.dial endpoint = ((w.dial endpoint).1.unlimited, (w.dial endpoint).2) := rfl

@[simp] theorem getElem?_pools_unlimited :
    w.unlimited.pools[id]? = w.pools[id]?.map Pool.unlimited :=
  List.getElem?_map

theorem name_getD_pools_unlimited :
    (w.unlimited.pools.getD id default).name = (w.pools.getD id default).name := by
  rw [List.getD_eq_getElem?_getD, List.getD_eq_getElem?_getD, getElem?_pools_unlimited]
  cases w.pools[id]? <;> rfl

theorem callResult_unlimited : w.unlimited.callResult key id = w.callResult key id := by
  unfold callResult
  rw [loans_unlimited, name_getD_pools_unlimited]

@[simp] theorem get?_creations_unlimited :
    w.unlimited.creations.get? key = (w.creations.get? key).map Creation.unlimited :=
  Table.get?_mapValues ..

@[simp] theorem contains_creations_unlimited :
    w.unlimited.creations.contains key = w.creations.contains key :=
  Table.contains_mapValues ..

@[simp] theorem setPool_unlimited (pool : Pool) :
    w.unlimited.setPool id pool.unlimited = (w.setPool id pool).unlimited := by
  simp [setPool, unlimited, List.map_set]

theorem insert_creations_unlimited (creation : Creation) :
    w.unlimited.creations.insert key creation.unlimited =
      (w.creations.insert key creation).mapValues Creation.unlimited :=
  (Table.insert_mapValues ..).symm

theorem erase_creations_unlimited :
    w.unlimited.creations.erase key = (w.creations.erase key).mapValues Creation.unlimited :=
  (Table.erase_mapValues ..).symm

theorem andThen_unlimited (change : Change) {next next' : World → Change}
    (hnext : ∀ w : World, next' w.unlimited = (next w).unlimited) :
    change.unlimited.andThen next' = (change.andThen next).unlimited := by
  simp only [Change.andThen, Change.unlimited, hnext]

theorem reap_unlimited : w.unlimited.reap id = (w.reap id).unlimited := by
  unfold reap
  rw [held_unlimited, isBusy_unlimited, getElem?_pools_unlimited]
  split
  · rfl
  · cases w.pools[id]? with
    | none => rfl
    | some pool => simp [Change.unlimited]

/-! ### Creations -/

theorem create_unlimited (label name : String) (endpoints : List Endpoint) (settings : Settings) :
    w.unlimited.create key label name endpoints settings.unlimited =
      (w.create key label name endpoints settings).unlimited := by
  unfold create
  rw [contains_creations_unlimited, checkParameters_unlimited]
  split
  · rfl
  · split
    · rfl
    · have hinsert := w.insert_creations_unlimited key
        { pool := { name := name, label := label, endpoints := endpoints, settings } }
      exact congrArg (fun creations => ({ w.unlimited with creations := creations }, [])) hinsert

theorem dialSlot_unlimited : w.unlimited.dialSlot key = (w.dialSlot key).unlimited := by
  unfold dialSlot
  rw [get?_creations_unlimited]
  cases w.creations.get? key with
  | none => rfl
  | some creation =>
      simp only [Option.map_some, Creation.slots_unlimited, Creation.pool_unlimited,
        Pool.capacity_unlimited, Creation.nextEndpoint_unlimited, Creation.push_unlimited]
      by_cases hroom : creation.slots.length < creation.pool.capacity
      · simp only [hroom, if_true, dial_unlimited, insert_creations_unlimited]
        rfl
      · simp only [hroom, if_false]
        rfl

theorem settleSlot_unlimited (slot : Nat) (verdict : Verdict) :
    w.unlimited.settleSlot key slot verdict = (w.settleSlot key slot verdict).unlimited := by
  unfold settleSlot
  rw [get?_creations_unlimited]
  cases w.creations.get? key with
  | none => rfl
  | some creation =>
      simp only [Option.map_some, Creation.slots_unlimited, Creation.establish_unlimited,
        Creation.fail_unlimited, insert_creations_unlimited]
      split <;> rfl

theorem finish_unlimited : w.unlimited.finish key = (w.finish key).unlimited := by
  unfold finish
  rw [get?_creations_unlimited]
  cases w.creations.get? key with
  | none => rfl
  | some creation =>
      simp only [Option.map_some, Creation.isSettled_unlimited, Creation.outcome_unlimited,
        Creation.report_unlimited]
      split
      · cases creation.outcome with
        | error error =>
            simp only [Except.map, erase_creations_unlimited]
            rfl
        | ok pool => simp [Except.map, Change.unlimited, unlimited, Table.erase_mapValues]
      · rfl

theorem abandon_unlimited : w.unlimited.abandon key = (w.abandon key).unlimited := by
  unfold abandon
  rw [get?_creations_unlimited]
  cases w.creations.get? key with
  | none => rfl
  | some creation =>
      simp only [Option.map_some, erase_creations_unlimited]
      rfl

/-! ### Calls -/

theorem attempt_unlimited (pool : Pool) (attemptsLeft : Nat) :
    w.unlimited.attempt key id pool.unlimited attemptsLeft =
      (w.attempt key id pool attemptsLeft).unlimited := by
  have hexhausted : attempt.exhausted w.unlimited id pool.unlimited =
      (attempt.exhausted w id pool).unlimited :=
    andThen_unlimited (w, _) fun w => w.reap_unlimited id
  cases attemptsLeft with
  | zero => exact hexhausted
  | succ attemptsLeft =>
      unfold attempt
      rw [Pool.takeIdle?_unlimited]
      cases pool.takeIdle? with
      | none => exact hexhausted
      | some taken =>
          simp only [Option.map_some, setPool_unlimited]
          rfl

theorem lend_unlimited (entry : Entry) :
    w.unlimited.lend key id entry = (w.lend key id entry).unlimited :=
  reap_unlimited { w with calls := w.calls.erase key, loans := w.loans.insert key ⟨id, entry⟩ } id

theorem acquire_unlimited : w.unlimited.acquire key id = (w.acquire key id).unlimited := by
  unfold acquire
  rw [calls_unlimited, loans_unlimited, held_unlimited, getElem?_pools_unlimited]
  split
  · rfl
  · cases w.pools[id]? with
    | none => rfl
    | some pool => apply attempt_unlimited

theorem settle_unlimited (verdict : Verdict) :
    w.unlimited.settle key verdict = (w.settle key verdict).unlimited := by
  unfold settle
  rw [calls_unlimited]
  cases w.calls.get? key with
  | none => rfl
  | some call =>
      simp only [getElem?_pools_unlimited]
      cases w.pools[call.pool]? with
      | none => rfl
      | some pool =>
          simp only [Option.map_some]
          cases call.phase with
          | probing entry =>
              cases verdict with
              | success => apply lend_unlimited
              | failure cause =>
                  simp only [dismiss, Pool.untrack_unlimited, setPool_unlimited]
                  apply andThen_unlimited (w.setPool call.pool pool.untrack, _)
                  intro w
                  rfl
          | redialing entry =>
              cases verdict with
              | success =>
                  simp only [Pool.track_unlimited, setPool_unlimited]
                  apply andThen_unlimited (w.setPool call.pool pool.track, _)
                  intro w
                  apply lend_unlimited
              | failure cause =>
                  apply andThen_unlimited ({ w with calls := w.calls.erase key }, _)
                  intro w
                  apply attempt_unlimited

theorem cancel_unlimited : w.unlimited.cancel key = (w.cancel key).unlimited := by
  unfold cancel
  rw [calls_unlimited]
  cases w.calls.get? key with
  | none => rfl
  | some call =>
      simp only [getElem?_pools_unlimited]
      cases w.pools[call.pool]? with
      | none => rfl
      | some pool =>
          simp only [Option.map_some]
          cases call.phase with
          | redialing entry =>
              exact reap_unlimited { w with calls := w.calls.erase key } call.pool
          | probing entry =>
              have hset := setPool_unlimited { w with calls := w.calls.erase key } call.pool
                (pool.park entry).1
              simp only [Pool.park_unlimited]
              refine (congrArg (fun w' => Change.andThen (w', _) fun w => w.reap _) hset).trans ?_
              apply andThen_unlimited (setPool _ _ (pool.park entry).1, _)
              intro w
              apply reap_unlimited

/-! ### Loans -/

theorem drop_unlimited : w.unlimited.drop key = (w.drop key).unlimited := by
  unfold drop
  rw [loans_unlimited]
  cases w.loans.get? key with
  | none => rfl
  | some loan =>
      simp only [getElem?_pools_unlimited]
      cases w.pools[loan.pool]? with
      | none => rfl
      | some pool =>
          apply Prod.ext
          · exact setPool_unlimited { w with loans := w.loans.erase key } loan.pool pool.untrack
          · rfl

theorem release_unlimited : w.unlimited.release key id = (w.release key id).unlimited := by
  unfold release
  rw [held_unlimited, loans_unlimited, getElem?_pools_unlimited]
  split
  · rfl
  · cases w.loans.get? key with
    | none => rfl
    | some loan =>
        cases w.pools[id]? with
        | none => rfl
        | some pool =>
            simp only [Option.map_some]
            split
            · simp only [Pool.park_unlimited, setPool_unlimited]
              rfl
            · apply andThen_unlimited (w, _)
              intro w
              apply drop_unlimited

theorem refuse_unlimited (service : String) :
    w.unlimited.refuse key service = (w.refuse key service).unlimited := by
  unfold refuse
  rw [loans_unlimited]
  cases w.loans.get? key with
  | none => rfl
  | some loan =>
      apply andThen_unlimited (w.reportUnknown service)
      intro w
      apply drop_unlimited

theorem swap_unlimited (first second : Key) :
    w.unlimited.swap first second = (w.swap first second).unlimited := by
  unfold swap
  rw [loans_unlimited]
  split
  · split <;> rfl
  · rfl

/-! ### Every action -/

/-- Forgetting limits commutes with every action, and what is seen is the same. -/
theorem step_unlimited (action : Action) :
    w.unlimited.step action.unlimited = (w.step action).unlimited := by
  cases action with
  | create key label name endpoints settings =>
      exact w.create_unlimited key label name endpoints settings
  | dialSlot key => exact w.dialSlot_unlimited key
  | settleSlot key slot verdict => exact w.settleSlot_unlimited key slot verdict
  | finish key => exact w.finish_unlimited key
  | abandon key => exact w.abandon_unlimited key
  | acquire key id => exact w.acquire_unlimited key id
  | settle key verdict => exact w.settle_unlimited key verdict
  | cancel key => exact w.cancel_unlimited key
  | release key id => exact w.release_unlimited key id
  | refuse key service => exact w.refuse_unlimited key service
  | reportUnknown service => rfl
  | drop key => exact w.drop_unlimited key
  | swap first second => exact w.swap_unlimited first second
  | letGo id => exact reap_unlimited { w with held := w.held.erase id } id

/-! ## One limit for all -/

/-- Whether an action gives new pools some limits. -/
def Action.HasLimits (limits : Limits) : Action → Prop
  | .create _ _ _ _ settings => settings.limits = limits
  | _ => True

/-- All pools have the same limits, and so will those that are being created. -/
structure Limited (limits : Limits) (w : World) : Prop where
  orderly : w.Orderly
  pool : ∀ {id : PoolId} {pool : Pool}, w.pools[id]? = some pool → pool.settings.limits = limits
  creation : ∀ {key} {creation : Creation}, w.creations.get? key = some creation →
    creation.pool.settings.limits = limits

variable {w : World} {limits : Limits} {action : Action}

theorem Limited.initial : Limited limits {} where
  orderly := .initial
  pool h := by cases h
  creation h := by cases h

theorem Limited.step (h : w.Limited limits) (haction : action.HasLimits limits) :
    (w.step action).1.Limited limits where
  orderly := h.orderly.step action
  pool hpool := by
    have hsettings {pool pool' : Pool} (hgiven : pool'.given = pool.given) :
        pool'.settings = pool.settings := congrArg Prod.snd hgiven
    rcases step_pool_cases h.orderly hpool with
      ⟨old, hold, hgiven⟩ | ⟨rfl, key, creation, rfl, hcreation, -, hgiven⟩
    · rw [hsettings hgiven]
      exact h.pool hold
    · rw [hsettings hgiven]
      exact h.creation hcreation
  creation hcreation := by
    rcases step_creation_cases h.orderly.linked hcreation with
      ⟨old, hold, hgiven⟩ | ⟨-, label, name, rfl⟩
    · have hsettings : _ = old.pool.settings := congrArg Prod.snd hgiven
      exact (congrArg Settings.limits hsettings).trans (h.creation hold)
    · exact haction

end World

end HeartbeatPool
