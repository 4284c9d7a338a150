import HeartbeatPool.Proofs.Census

/-!
# What is dialed, and when

Only two actions dial: a creation that dials its next slot, and the failure of a heartbeat.
`dialsOf` says which endpoint, and `dialsIn_step` that nothing else is ever dialed.  Either endpoint
stands in the table of its pool at the position that goes with the dial (`getElem?_nextEndpoint`,
`step_failed`), so no look-up ever falls outside the table.
-/

namespace HeartbeatPool

/-- The endpoints that are dialed, in order. -/
def dialsIn (events : List Event) : List Endpoint :=
  events.filterMap fun
    | .dial endpoint => some endpoint
    | .log _ | .probe _ _ | .close _ => none

theorem dialsIn_append (first second : List Event) :
    dialsIn (first ++ second) = dialsIn first ++ dialsIn second :=
  List.filterMap_append

theorem mem_dialsIn_iff {endpoint : Endpoint} {events : List Event} :
    endpoint ∈ dialsIn events ↔ .dial endpoint ∈ events := by
  unfold dialsIn
  rw [List.mem_filterMap]
  constructor
  · rintro ⟨event, hevent, heq⟩
    cases event <;> cases heq
    exact hevent
  · intro hevent
    exact ⟨_, hevent, rfl⟩

theorem dialsIn_eq_nil {events : List Event} (h : ∀ endpoint, .dial endpoint ∉ events) :
    dialsIn events = [] :=
  List.eq_nil_iff_forall_not_mem.mpr fun endpoint hmem => h endpoint (mem_dialsIn_iff.mp hmem)

theorem dialsIn_closeIdle (pool : Pool) : dialsIn pool.closeIdle.2 = [] :=
  dialsIn_eq_nil fun endpoint => by simp [Pool.closeIdle]

/-! ## Positions in the table -/

theorem Pool.getElem?_endpoint {pool : Pool} {index : Nat} (h : index < pool.endpoints.length) :
    pool.endpoints[index]? = some (pool.endpoint index) := by
  rw [Pool.endpoint, List.getD_eq_getElem?_getD, List.getElem?_eq_getElem h, Option.getD_some]

/-- The slot that a creation dials next belongs to an endpoint of its table. -/
theorem Creation.getElem?_nextEndpoint {creation : Creation}
    (hroom : creation.slots.length < creation.pool.capacity) :
    creation.pool.endpoints[creation.endpointOf creation.slots.length]? =
      some creation.nextEndpoint := by
  apply Pool.getElem?_endpoint
  exact Nat.div_lt_of_lt_mul hroom

namespace World

variable {w w' : World} {action : Action} {account : Account} {key : Key} {id : PoolId}
  {pool : Pool}

theorem holding_mem_of_call {call : Call} (hcall : w.calls.get? key = some call) :
    call.holding key ∈ w.holdings := by
  have hmem := (w.calls.get?_eq_some_iff key call).mp hcall
  exact List.mem_append_left _ (List.mem_append_right _ (List.mem_map.mpr ⟨_, hmem, rfl⟩))

theorem holding_mem_of_loan {loan : Loan} (hloan : w.loans.get? key = some loan) :
    loan.holding key ∈ w.holdings := by
  have hmem := (w.loans.get?_eq_some_iff key loan).mp hloan
  exact List.mem_append_right _ (List.mem_map.mpr ⟨_, hmem, rfl⟩)

theorem holding_mem_of_idle (hpool : w.pools[id]? = some pool) {entry : Entry}
    (hentry : entry ∈ pool.idle) : ⟨.idle id, entry⟩ ∈ w.holdings := by
  have hzip : (pool, id) ∈ w.pools.zipIdx := List.mk_mem_zipIdx_iff_getElem?.mpr hpool
  refine List.mem_append_left _ (List.mem_append_left _ (List.mem_append_right _ ?_))
  exact List.mem_flatMap.mpr ⟨_, hzip, List.mem_map.mpr ⟨entry, hentry, rfl⟩⟩

/-- Whatever is held of a pool belongs to an endpoint of its table. -/
theorem OrderlyPool.index_lt (h : w.OrderlyPool id pool) {holding : Holding}
    (hmem : holding ∈ w.holdings) (hplace : holding.place.pool? = some id) :
    holding.entry.index < pool.endpoints.length := by
  by_contra hout
  have hnone := List.countP_eq_zero.mp h.indexed holding hmem
  exact hnone (by simp [Holding.isSlot, hplace, Nat.le_of_not_lt hout])

theorem Orderly.index_lt_of_call (hw : w.Orderly) {call : Call}
    (hcall : w.calls.get? key = some call) (hpool : w.pools[call.pool]? = some pool) :
    call.entry.index < pool.endpoints.length := by
  have hlt := (hw.pool hpool).index_lt (holding_mem_of_call hcall)
  unfold Call.holding Call.entry at *
  cases hphase : call.phase <;> rw [hphase] at hlt <;> exact hlt rfl

/-! ## What an action dials -/

/-- The endpoint that an action dials, if any. -/
def dialsOf (w : World) : Action → List Endpoint
  | .dialSlot key =>
      match w.creations.get? key with
      | none => []
      | some creation =>
          if creation.slots.length < creation.pool.capacity then [creation.nextEndpoint] else []
  | .settle key (.failure _) =>
      match w.calls.get? key with
      | none => []
      | some call =>
          match call.phase with
          | .probing entry => [(w.pools.getD call.pool default).endpoint entry.index]
          | .redialing _ => []
  | _ => []

theorem Effect.dialsIn_events (hw : w.Orderly) (h : Effect w action w' account) :
    dialsIn account.events = w.dialsOf action := by
  cases h with
  | dialSlot hcreation hroom => simp [dialsIn, dialsOf, hcreation, hroom]
  | dismiss hcall hpool hphase =>
      simp [dialsIn, dialsOf, hcall, hphase, List.getD_eq_getElem?_getD, hpool]
  | retry hcall hpool hphase | giveUp hcall hpool hphase =>
      simp [dialsIn, dialsOf, hcall, hphase]
  | finishEmpty hcreation | finish hcreation =>
      refine dialsIn_eq_nil fun endpoint hmem => ?_
      obtain ⟨notice, heq, -⟩ := (hw.fresh hcreation).log_of_mem_report hmem
      cases heq
  | abandon => exact dialsIn_eq_nil fun endpoint => by simp
  | _ => simp [dialsIn, dialsOf]

/-- An action that makes no sense would dial nothing. -/
theorem dialsOf_of_no_effect (hw : w.Linked) (hnone : ∀ w' account, ¬ Effect w action w' account) :
    w.dialsOf action = [] := by
  unfold dialsOf
  split
  · next key =>
      split
      · rfl
      · next creation hcreation =>
          split
          · next hroom => exact absurd (.dialSlot hcreation hroom) (hnone _ _)
          · rfl
  · next key cause =>
      split
      · rfl
      · next call hcall =>
          split
          · next entry hphase =>
              obtain ⟨pool, hpool⟩ := hw.poolOfCall hcall
              exact absurd (.dismiss hcall hpool hphase) (hnone _ _)
          · rfl
  · rfl

/-- A step dials what its action dials, and nothing else. -/
theorem dialsIn_step (hw : w.Orderly) (action : Action) :
    dialsIn (w.step action).2 = w.dialsOf action := by
  rcases step_cases hw.linked action with
    ⟨hstep, hnone⟩ | ⟨w', account, heff, ⟨hstep, -⟩ | ⟨left, old, -, -, -, hstep⟩⟩
  · rw [hstep, dialsOf_of_no_effect hw.linked hnone]
    rfl
  · rw [hstep]
    exact heff.dialsIn_events hw
  · rw [hstep, dialsIn_append, dialsIn_closeIdle, List.append_nil]
    exact heff.dialsIn_events hw

/-- A failed heartbeat: between the warning and the closing on one side and the dial on the other
nothing is seen, and the dial is that of the endpoint at the position of what has failed. -/
theorem step_failed (hw : w.Orderly) {call : Call} {entry : Entry}
    (hcall : w.calls.get? key = some call) (hpool : w.pools[call.pool]? = some pool)
    (hphase : call.phase = .probing entry) (cause : String) :
    ∃ endpoint, pool.endpoints[entry.index]? = some endpoint ∧
      (w.step (.settle key (.failure cause))).2 =
        [.log (.heartbeatFailed endpoint.address cause), .close entry.conn, .dial endpoint] ∧
      (w.step (.settle key (.failure cause))).1.calls.get? key =
        some { call with phase := .redialing ⟨w.nextConn endpoint, entry.index⟩ } := by
  have hlt : entry.index < pool.endpoints.length := by
    have hlt := hw.index_lt_of_call hcall hpool
    rwa [Call.entry, hphase] at hlt
  refine ⟨pool.endpoint entry.index, Pool.getElem?_endpoint hlt, ?_, ?_⟩
  · simp only [World.step, settle, hcall, hpool, hphase]
    rfl
  · simp only [World.step, settle, hcall, hpool, hphase, Change.andThen, redial,
      Table.get?_insert_self]
    rfl

/-- What a step dials belongs to a creation, or else it is the endpoint at the position of what a
call has probed in vain. -/
theorem dial_cases (hw : w.Orderly) {endpoint : Endpoint}
    (hdial : .dial endpoint ∈ (w.step action).2) :
    (∃ key, action = .dialSlot key) ∨
      ∃ key cause call pool entry, action = .settle key (.failure cause) ∧
        w.calls.get? key = some call ∧ w.pools[call.pool]? = some pool ∧
        call.phase = .probing entry ∧ pool.endpoints[entry.index]? = some endpoint := by
  rw [← mem_dialsIn_iff, dialsIn_step hw] at hdial
  unfold dialsOf at hdial
  split at hdial
  · exact Or.inl ⟨_, rfl⟩
  · next key cause =>
      split at hdial
      · cases hdial
      · next call hcall =>
          split at hdial
          · next entry hphase =>
              obtain ⟨pool, hpool⟩ := hw.linked.poolOfCall hcall
              obtain ⟨other, hother, -⟩ := step_failed hw hcall hpool hphase cause
              rw [List.mem_singleton, List.getD_eq_getElem?_getD, hpool, Option.getD_some] at hdial
              subst hdial
              refine Or.inr ⟨key, cause, call, pool, entry, rfl, hcall, hpool, hphase, ?_⟩
              exact Pool.getElem?_endpoint (List.getElem?_eq_some_iff.mp hother).1
          · cases hdial
  · cases hdial

end World

end HeartbeatPool
