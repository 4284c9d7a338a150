import HeartbeatPool.Proofs.Answers
import HeartbeatPool.Proofs.Creations
import HeartbeatPool.World.Prompt

/-!
# Pools that are created in one move

Where every dial is answered at once, a creation dials its slots one by one, and each slot is
settled before the next one is dialed.  What becomes of a slot is an answer to the dial of its
endpoint (`Opened`).  Of the rest of the world nothing changes but for the pool that comes
(`Leads`).

Main statement: `Prompt.create_cases`.
-/

namespace HeartbeatPool

variable {σ : Type}

/-- What has become of a slot is an answer to the dial of an endpoint. -/
def Slot.IsAnswer (prompt : Prompt σ) (endpoint : Endpoint) : Slot → Prop
  | .dialing _ => False
  | .established _ => ∃ state, (prompt.dial state endpoint).2 = .success
  | .failed cause => ∃ state, (prompt.dial state endpoint).2 = .failure cause

theorem Slot.IsAnswer.isSettled {prompt : Prompt σ} {endpoint : Endpoint} {slot : Slot}
    (h : slot.IsAnswer prompt endpoint) : slot.isSettled = true := by
  cases slot with
  | dialing => exact h.elim
  | established | failed => rfl

/-- A creation that has taken in the answer to the dial of a slot. -/
def Creation.answered (creation : Creation) (slot : Nat) (conn : Conn) : Verdict → Creation
  | .success => creation.establish slot conn
  | .failure cause => creation.fail slot cause

/-- A creation of a pool some slots of which were dialed and answered. -/
structure Opened (prompt : Prompt σ) (pool : Pool) (count : Nat) (creation : Creation) : Prop where
  identity : creation.pool.identity = pool.identity
  length : creation.slots.length = count
  answers : ∀ (slot : Nat) (result : Slot), creation.slots[slot]? = some result →
    result.IsAnswer prompt (pool.endpoint (slot / pool.settings.perEndpoint))

/-- A run that leaves the pools, the calls and the loans of the world as they are. -/
structure World.Leads (w w' : World) : Prop where
  run : ∃ actions, w' = (w.run actions).1
  pools : w'.pools = w.pools
  held : w'.held = w.held
  calls : w'.calls = w.calls
  loans : w'.loans = w.loans

namespace World

variable {w w' w'' : World} {key : Key} {creation : Creation} {action : Action}

theorem Leads.refl (w : World) : Leads w w := ⟨⟨[], rfl⟩, rfl, rfl, rfl, rfl⟩

theorem Leads.trans (h : Leads w w') (h' : Leads w' w'') : Leads w w'' where
  run := by
    obtain ⟨actions, rfl⟩ := h.run
    obtain ⟨actions', rfl⟩ := h'.run
    exact ⟨actions ++ actions', by rw [run_append]; rfl⟩
  pools := h'.pools.trans h.pools
  held := h'.held.trans h.held
  calls := h'.calls.trans h.calls
  loans := h'.loans.trans h.loans

theorem Leads.of_step {dialed : List String} {creations : Table Key Creation}
    (hstep : (w.step action).1 = { w with dialed := dialed, creations := creations }) :
    Leads w (w.step action).1 :=
  ⟨⟨[action], rfl⟩, by rw [hstep], by rw [hstep], by rw [hstep], by rw [hstep]⟩

section Creation

variable (hcreation : w.creations.get? key = some creation)
include hcreation

theorem step_dialSlot (hroom : creation.slots.length < creation.pool.capacity) :
    (w.step (.dialSlot key)).1 =
      { w with
        dialed := creation.nextEndpoint.address :: w.dialed
        creations :=
          w.creations.insert key (creation.push (w.nextConn creation.nextEndpoint)) } := by
  simp [World.step, World.dialSlot, hcreation, hroom, World.dial, nextConn]

theorem step_settleSlot {slot : Nat} {conn : Conn}
    (hslot : creation.slots[slot]? = some (.dialing conn)) (verdict : Verdict) :
    (w.step (.settleSlot key slot verdict)).1 =
      { w with
        creations := w.creations.insert key (creation.answered slot conn verdict) } := by
  cases verdict <;> simp [World.step, World.settleSlot, hcreation, hslot, Creation.answered]

theorem step_finish (hsettled : creation.isSettled = true) :
    (w.step (.finish key)).1 =
      match creation.outcome with
      | .error _ => { w with creations := w.creations.erase key }
      | .ok pool =>
          { w with
            creations := w.creations.erase key
            pools := w.pools ++ [pool]
            held := w.held ++ [w.pools.length] } := by
  cases houtcome : creation.outcome <;>
    simp [World.step, World.finish, hcreation, hsettled, houtcome]

end Creation

end World

namespace Opened

variable {prompt : Prompt σ} {pool : Pool} {count : Nat} {creation : Creation}
  (h : Opened prompt pool count creation)
include h

theorem isSettled (hfull : count = pool.capacity) : creation.isSettled = true := by
  have hall : creation.slots.all Slot.isSettled = true := by
    refine List.all_eq_true.mpr fun result hresult => ?_
    obtain ⟨slot, hslot⟩ := List.mem_iff_getElem?.mp hresult
    exact (h.answers slot result hslot).isSettled
  simp [Creation.isSettled, hall, h.length, hfull, Pool.capacity_eq h.identity]

/-- The answer to the dial of the next slot. -/
theorem settle {conn : Conn} {state : σ} {verdict : Verdict}
    (hverdict : (prompt.dial state (pool.endpoint (count / pool.settings.perEndpoint))).2 =
      verdict) :
    Opened prompt pool (count + 1) ((creation.push conn).answered count conn verdict) := by
  have hanswers {result : Slot} (hresult : result.IsAnswer prompt
      (pool.endpoint (count / pool.settings.perEndpoint))) (slot : Nat) (other : Slot)
      (hother : ((creation.slots ++ [Slot.dialing conn]).set count result)[slot]? = some other) :
      other.IsAnswer prompt (pool.endpoint (slot / pool.settings.perEndpoint)) := by
    rw [← h.length, List.set_append_right _ _ (Nat.le_refl _), Nat.sub_self, List.set_cons_zero]
      at hother
    rcases Nat.lt_or_ge slot creation.slots.length with hlt | hge
    · rw [List.getElem?_append_left hlt] at hother
      exact h.answers slot other hother
    · rw [List.getElem?_append_right hge, List.getElem?_singleton] at hother
      split at hother
      · next hzero =>
          have hslot : slot = count := by
            have hlength := h.length
            omega
          cases hother
          exact hslot ▸ hresult
      · cases hother
  cases verdict with
  | success =>
      exact ⟨h.identity, by simp [Creation.answered, h.length], fun slot other hother =>
        @hanswers (.established conn) ⟨state, hverdict⟩ slot other hother⟩
  | failure cause =>
      exact ⟨h.identity, by simp [Creation.answered, h.length], fun slot other hother =>
        @hanswers (.failed cause) ⟨state, hverdict⟩ slot other hother⟩

end Opened

namespace Prompt

variable {prompt : Prompt σ} {pool : Pool} {key : Key} {slot : Nat} {creation : Creation}

/-- One slot after the other is dialed and answered. -/
theorem openSlots_opened (state : σ × World) (count : Nat)
    (hcreation : state.2.creations.get? key = some creation)
    (hopened : Opened prompt pool slot creation) (hroom : slot + count ≤ pool.capacity) :
    ∃ creation', (prompt.openSlots key pool state slot count).2.creations.get? key =
        some creation' ∧ Opened prompt pool (slot + count) creation' ∧
      state.2.Leads (prompt.openSlots key pool state slot count).2 := by
  induction count generalizing state slot creation with
  | zero => exact ⟨creation, hcreation, hopened, .refl _⟩
  | succ count ih =>
      -- the next slot is still to be dialed
      have hfree : creation.slots.length < creation.pool.capacity := by
        rw [hopened.length, Pool.capacity_eq hopened.identity]
        omega
      have hdial := World.step_dialSlot hcreation hfree
      let dialed := prompt.act state (.dialSlot key)
      let answer := prompt.dial dialed.1 (pool.endpoint (slot / pool.settings.perEndpoint))
      let pushed := creation.push (state.2.nextConn creation.nextEndpoint)
      have hpushed : dialed.2.creations.get? key = some pushed := by
        change (state.2.step (.dialSlot key)).1.creations.get? key = _
        rw [hdial]
        exact Table.get?_insert_self ..
      have hslot : pushed.slots[slot]? =
          some (.dialing (state.2.nextConn creation.nextEndpoint)) := by
        rw [Creation.slots_push, ← hopened.length]
        simp
      -- its dial is answered at once
      have hsettle := World.step_settleSlot hpushed hslot answer.2
      obtain ⟨creation', hcreation', hopened', hleads⟩ := ih
        (prompt.act (answer.1, dialed.2) (.settleSlot key slot answer.2))
        ((congrArg (·.creations.get? key) hsettle).trans (Table.get?_insert_self ..))
        (hopened.settle rfl) (by omega)
      -- the answer to this slot and those to the others are one run
      refine ⟨creation', hcreation', ?_, ?_⟩
      · rwa [Nat.add_right_comm] at hopened'
      · exact ((World.Leads.of_step hdial).trans (.of_step hsettle)).trans hleads

end Prompt

/-- A run that leaves the calls and the loans of the world as they are, and may bring a pool. -/
structure World.Founds (w w' : World) (new : Option Pool) : Prop where
  run : ∃ actions, w' = (w.run actions).1
  pools : w'.pools = w.pools ++ new.toList
  held : w'.held = w.held ++ new.toList.map fun _ => w.pools.length
  calls : w'.calls = w.calls
  loans : w'.loans = w.loans

/-- What a fresh creation comes to. -/
theorem Creation.Fresh.outcome_eq {creation : Creation} (h : creation.Fresh) :
    creation.outcome =
      if creation.entries = [] then .error (.fatal creation.pool.name)
      else .ok creation.stock.1 := by
  split
  · next hnone =>
      have hlive : creation.stock.1.live = 0 := by rw [h.live_stock, hnone, List.length_nil]
      have hname : creation.stock.1.name = creation.pool.name := by rw [h.stock_eq]
      rw [outcome, hlive, hname]
      rfl
  · next hsome => exact h.outcome_eq_ok_iff.mpr ⟨hsome, rfl⟩

/-- The end of a creation whose slots have all been answered. -/
theorem World.Leads.finish {w w' : World} {key : Key} {creation : Creation} (h : w.Leads w')
    (hcreation : w'.creations.get? key = some creation) (hfresh : creation.Fresh)
    (hsettled : creation.isSettled = true) :
    w.Founds (w'.step (.finish key)).1
      (if creation.entries = [] then none else some creation.stock.1) := by
  have hstep := step_finish hcreation hsettled
  have hrun : ∃ actions, (w'.step (.finish key)).1 = (w.run actions).1 := by
    obtain ⟨actions, rfl⟩ := h.run
    exact ⟨actions ++ [.finish key], by rw [run_append]; rfl⟩
  rw [hfresh.outcome_eq] at hstep
  by_cases hentries : creation.entries = []
  · simp only [hentries, if_true] at hstep ⊢
    rw [hstep] at hrun ⊢
    exact ⟨hrun, by simp [h.pools], by simp [h.held], h.calls, h.loans⟩
  · simp only [hentries, if_false] at hstep ⊢
    rw [hstep] at hrun ⊢
    exact ⟨hrun, by simp [h.pools], by simp [h.held, h.pools], h.calls, h.loans⟩

namespace Prompt

variable {prompt : Prompt σ} {key : Key} {name : String} {endpoints : List Endpoint}
  {settings : Settings} {capacity : Nat}

/-- A creation dials all slots of the pool, whatever the answers.  It ends with a pool that holds
what was established in its queue, or fails if nothing was. -/
theorem create_cases (state : σ × World) (horderly : state.2.Orderly)
    (hkey : state.2.creations.get? key = none)
    (hok : checkParameters endpoints settings = .ok capacity) :
    ∃ creation, Opened prompt { name, label := name, endpoints, settings } capacity creation ∧
      creation.Fresh ∧
      state.2.Founds (prompt.create state key name endpoints settings).1.2
        (if creation.entries = [] then none else some creation.stock.1) ∧
      (prompt.create state key name endpoints settings).2 =
        if creation.entries = [] then .error (.fatal name) else .ok state.2.pools.length := by
  let pool : Pool := { name, label := name, endpoints, settings }
  let started := prompt.act state (.create key name name endpoints settings)
  have hstart : (state.2.step (.create key name name endpoints settings)).1 =
      { state.2 with creations := state.2.creations.insert key { pool } } := by
    simp [World.step, World.create, Table.contains, hkey, hok, pool]
  have hcreation : started.2.creations.get? key = some { pool } :=
    (congrArg (·.creations.get? key) hstart).trans (Table.get?_insert_self ..)
  have hcapacity : capacity = pool.capacity := capacity_of_ok hok
  obtain ⟨creation, hopen, hopened, hleads⟩ := openSlots_opened started capacity hcreation
    (⟨rfl, rfl, by simp⟩ : Opened prompt pool 0 { pool }) (by omega)
  rw [Nat.zero_add] at hopened
  have hleads := (World.Leads.of_step hstart).trans hleads
  -- what the slots come to is read off the order of the world
  have horderly' : (prompt.openSlots key pool started 0 capacity).2.Orderly := by
    obtain ⟨actions, hrun⟩ := hleads.run
    exact hrun ▸ horderly.run actions
  have hfresh := horderly'.fresh hopen
  -- the creation ends right after its last answer
  have hcreate : prompt.create state key name endpoints settings =
      (prompt.act (prompt.openSlots key pool started 0 capacity) (.finish key),
        creation.outcome.map fun _ =>
          (prompt.openSlots key pool started 0 capacity).2.pools.length) := by
    simp only [create, hok]
    rw [show (prompt.openSlots key _ (prompt.act state _) 0 capacity).2.creations.get? key = _
      from hopen]
  refine ⟨creation, hopened, hfresh, ?_, ?_⟩
  · rw [hcreate]
    exact hleads.finish hopen hfresh (hopened.isSettled hcapacity)
  · rw [hcreate, hfresh.outcome_eq, hleads.pools, Pool.name_eq hopened.identity]
    split <;> rfl

/-- A creation that succeeds brings its pool, and nothing else. -/
theorem founds_of_create {state state' : σ × World} {id : PoolId} (horderly : state.2.Orderly)
    (hkey : state.2.creations.get? key = none)
    (hcreate : prompt.create state key name endpoints settings = (state', .ok id)) :
    id = state.2.pools.length ∧ ∃ pool, state.2.Founds state'.2 (some pool) := by
  cases hcheck : checkParameters endpoints settings with
  | error reason => simp [create, hcheck] at hcreate
  | ok capacity =>
      obtain ⟨creation, -, -, hfounds, hresult⟩ :=
        @create_cases _ prompt key name endpoints settings capacity state horderly hkey hcheck
      rw [hcreate] at hfounds hresult
      split at hresult
      · cases hresult
      · next hentries =>
          cases hresult
          rw [if_neg hentries] at hfounds
          exact ⟨rfl, _, hfounds⟩

end Prompt

end HeartbeatPool
