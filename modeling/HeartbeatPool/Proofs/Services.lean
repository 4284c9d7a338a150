import HeartbeatPool.Proofs.Desk
import HeartbeatPool.Proofs.Neighbours

/-!
# Requests and the services they concern

Each address has its own outcomes, and no two services share an address (`Sound`).  `Same` compares
two desks as far as one service is concerned.  A request that does not concern the service leaves it
the same (`Sound.same_serve_other`), and one that does concern it has the same reply in both desks
and leaves them the same (`Sound.same_serve`), one lemma for each kind of request.
-/

namespace HeartbeatPool

theorem Table.mem_values {κ α : Type} [DecidableEq κ] {table : Table κ α} {key : κ} {value : α}
    (h : table.get? key = some value) : value ∈ table.values :=
  List.mem_map_of_mem ((table.get?_eq_some_iff key value).mp h)

/-! ## Outcomes for some addresses -/

namespace Session

variable {s s' s'' : Session} {addresses : List String} {call : Call}

/-- Two sessions have the same time and marks, and the same in store for some addresses. -/
structure Tuned (addresses : List String) (s s' : Session) : Prop where
  now : s.now = s'.now
  marks : s.marks = s'.marks
  dials : ∀ address ∈ addresses, s.script.dials.get? address = s'.script.dials.get? address
  probes : ∀ address ∈ addresses, s.script.probes.get? address = s'.script.probes.get? address

namespace Tuned

theorem refl (addresses : List String) (s : Session) : Tuned addresses s s :=
  ⟨rfl, rfl, fun _ _ => rfl, fun _ _ => rfl⟩

theorem symm (h : Tuned addresses s s') : Tuned addresses s' s where
  now := h.now.symm
  marks := h.marks.symm
  dials address haddress := (h.dials address haddress).symm
  probes address haddress := (h.probes address haddress).symm

theorem trans (h : Tuned addresses s s') (h' : Tuned addresses s' s'') : Tuned addresses s s'' where
  now := h.now.trans h'.now
  marks := h.marks.trans h'.marks
  dials address haddress := (h.dials address haddress).trans (h'.dials address haddress)
  probes address haddress := (h.probes address haddress).trans (h'.probes address haddress)

end Tuned

/-- Without outcomes ahead, a dial takes the next outcome for its address. -/
theorem takeDial_of_ahead {script : Script} (hahead : script.ahead = []) (address : String) :
    let taken := ((script.dials.get? address).getD {}).take
    script.takeDial address =
      (taken.1, { script with dials := script.dials.insert address taken.2 }) := by
  unfold Script.takeDial
  rw [hahead]

/-- A wait takes no outcome but one for the address of the call. -/
theorem callWait_leaves (hahead : s.script.ahead = []) (call : Call) :
    (s.callWait call).1.script.ahead = [] ∧
      (call.entry.conn.address ∉ addresses → Tuned addresses s (s.callWait call).1) := by
  have hne {address : String} (haddress : address ∈ addresses)
      (hother : call.entry.conn.address ∉ addresses) : call.entry.conn.address ≠ address :=
    fun heq => hother (heq ▸ haddress)
  unfold callWait
  cases hphase : call.phase with
  | probing entry =>
      rw [Call.entry, hphase] at hne
      dsimp only
      split
      · exact ⟨hahead, fun _ => .refl addresses s⟩
      · refine ⟨hahead, fun hother => ⟨rfl, rfl, fun _ _ => rfl, fun address haddress => ?_⟩⟩
        rw [Call.entry, hphase] at hother
        exact ((Table.get?_insert ..).trans (if_neg (hne haddress hother))).symm
  | redialing entry =>
      rw [Call.entry, hphase] at hne
      simp only [takeDial_of_ahead hahead]
      refine ⟨hahead, fun hother => ⟨rfl, rfl, fun address haddress => ?_, fun _ _ => rfl⟩⟩
      rw [Call.entry, hphase] at hother
      exact ((Table.get?_insert ..).trans (if_neg (hne haddress hother))).symm

/-- The wait for a call is the same in two sessions that have the same in store for its address. -/
theorem Tuned.callWait (h : Tuned addresses s s') (hahead : s.script.ahead = [])
    (hahead' : s'.script.ahead = []) (hpool : s.poolAt call.pool = s'.poolAt call.pool)
    (haddress : call.entry.conn.address ∈ addresses) :
    (s.callWait call).2 = (s'.callWait call).2 ∧
      Tuned addresses (s.callWait call).1 (s'.callWait call).1 := by
  unfold Session.callWait
  cases hphase : call.phase with
  | probing entry =>
      rw [Call.entry, hphase] at haddress
      have hmark : s.mark entry.conn = s'.mark entry.conn := by rw [mark, mark, h.marks]
      simp only [hmark, hpool, h.now]
      split
      · exact ⟨rfl, h⟩
      · have hlane := h.probes _ haddress
        simp only [Script.takeProbe, hlane]
        refine ⟨trivial, rfl, h.marks, h.dials, fun address hother => ?_⟩
        rw [Table.get?_insert, Table.get?_insert]
        split
        · rfl
        · exact h.probes address hother
  | redialing entry =>
      rw [Call.entry, hphase] at haddress
      have hlane := h.dials _ haddress
      simp only [takeDial_of_ahead hahead, takeDial_of_ahead hahead', hpool, h.now, hlane]
      refine ⟨trivial, rfl, h.marks, fun address hother => ?_, h.probes⟩
      rw [Table.get?_insert, Table.get?_insert]
      split
      · rfl
      · exact h.dials address hother

end Session

namespace Desk

variable {registry : Registry} {service : String} {ids : List PoolId} {id pool : PoolId}
  {addresses : List String} {desk desk' desk'' : Desk} {key : Key} {action action' : World.Action}
  {request : Request}

/-! ## Desks that are the same for one service -/

/-- The pools of a desk are separate, and every outcome is that of an address. -/
structure Sound (ids : List PoolId) (id : PoolId) (addresses : List String) (desk : Desk) :
    Prop where
  separate : desk.session.world.Separate ids id addresses
  ahead : desk.session.script.ahead = []

/-- Two desks are the same as far as a pool and some addresses are concerned. -/
structure Same (id : PoolId) (addresses : List String) (desk desk' : Desk) : Prop where
  world : World.Alike id addresses desk.session.world desk'.session.world
  tuned : Session.Tuned addresses desk.session desk'.session
  waits : ∀ key call, call.pool = id → desk.session.world.calls.get? key = some call →
    desk.waits.get? key = desk'.waits.get? key

namespace Same

theorem refl (id : PoolId) (addresses : List String) (desk : Desk) : Same id addresses desk desk :=
  ⟨.refl .., .refl .., fun _ _ _ _ => rfl⟩

theorem symm (h : Same id addresses desk desk') : Same id addresses desk' desk where
  world := h.world.symm
  tuned := h.tuned.symm
  waits key call hpool hcall :=
    (h.waits key call hpool ((h.world.calls key call hpool).mpr hcall)).symm

theorem trans (h : Same id addresses desk desk') (h' : Same id addresses desk' desk'') :
    Same id addresses desk desk'' where
  world := h.world.trans h'.world
  tuned := h.tuned.trans h'.tuned
  waits key call hpool hcall :=
    (h.waits key call hpool hcall).trans
      (h'.waits key call hpool ((h.world.calls key call hpool).mp hcall))

/-- Two actions that do the same for a pool and begin no call leave desks the same. -/
theorem act (h : Same id addresses desk desk') (hlinked : desk.session.world.Linked)
    (hworld : World.Alike id addresses (desk.session.world.step action).1
      (desk'.session.world.step action').1)
    (hcalls : ∀ key pool, action ≠ .acquire key pool) :
    Same id addresses (desk.act action) (desk'.act action') where
  world := hworld
  tuned := ⟨h.tuned.now, h.tuned.marks, h.tuned.dials, h.tuned.probes⟩
  waits key call hpool hcall := by
    rcases World.step_call_cases hlinked hcall with ⟨old, hold, heq⟩ | ⟨-, heq⟩
    · exact h.waits key old (heq ▸ hpool) hold
    · exact absurd heq (hcalls key call.pool)

end Same

namespace Sound

theorem act (h : Sound ids id addresses desk) (hserving : World.Serving ids action) :
    Sound ids id addresses (desk.act action) :=
  ⟨h.separate.step hserving, h.ahead⟩

theorem resume (h : Sound ids id addresses desk) (key : Key) (pool : PoolId) :
    Sound ids id addresses (desk.resume key pool).1 := by
  unfold Desk.resume
  split
  · next call hcall =>
      have hworld := (Session.callWait_frame desk.session call).1
      exact ⟨hworld ▸ h.separate, (@Session.callWait_leaves desk.session addresses h.ahead call).1⟩
  · split <;> exact h

/-- Whatever is asked for, a desk stays sound. -/
theorem serve (h : Sound ids id addresses desk)
    (hids : ∀ key other pool, request = .acquire key other → registry.get? other = some pool →
      pool ∈ ids) : Sound ids id addresses (desk.serve registry request).1 := by
  cases request with
  | pass duration => exact ⟨h.separate, h.ahead⟩
  | acquire key other =>
      simp only [Desk.serve, Desk.acquire]
      split
      · exact h
      · split
        · exact h.act .reportUnknown
        · next pool hpool =>
            exact (h.act (.acquire (hids key other pool rfl hpool))).resume key pool
  | poll key =>
      simp only [Desk.serve, Desk.poll]
      split
      · split
        · exact h
        · exact (h.act .settle).resume key _
      · exact h
  | cancel key =>
      simp only [Desk.serve, Desk.cancel]
      split
      · exact h
      · exact h.act .cancel
  | release key other =>
      simp only [Desk.serve, Desk.release]
      split
      · exact h
      · split
        · exact h.act .refuse
        · exact h.act .release
  | drop key =>
      simp only [Desk.serve, Desk.drop]
      split
      · exact h
      · exact h.act .drop

theorem call_cases (h : Sound ids id addresses desk) {call : Call}
    (hcall : (desk.act action).session.world.calls.get? key = some call) :
    (∃ old, desk.session.world.calls.get? key = some old ∧ call.pool = old.pool) ∨
      (desk.session.world.calls.get? key = none ∧ action = .acquire key call.pool) :=
  World.step_call_cases h.separate.orderly.linked hcall

theorem loan_cases (h : Sound ids id addresses desk) {loan : Loan}
    (hloan : (desk.act action).session.world.loans.get? key = some loan) :
    (∃ old, desk.session.world.loans.get? key = some old ∧ loan.pool = old.pool) ∨
      (desk.session.world.loans.get? key = none ∧ action = .settle key .success ∧
        ∃ call, desk.session.world.calls.get? key = some call ∧ call.pool = loan.pool) :=
  World.step_loan_cases h.separate.orderly.linked hloan

/-! ### Requests that do not concern the service -/

theorem same_act_other (h : Sound ids id addresses desk) (hserving : World.Serving ids action)
    (hother : ¬desk.session.world.About id action) : Same id addresses desk (desk.act action) :=
  ⟨h.separate.alike_step hserving hother, ⟨rfl, rfl, fun _ _ => rfl, fun _ _ => rfl⟩,
    fun _ _ _ _ => rfl⟩

theorem same_resume_other (h : Sound ids id addresses desk)
    (hother : ∀ call, desk.session.world.calls.get? key = some call → call.pool ≠ id) :
    Same id addresses desk (desk.resume key pool).1 := by
  unfold Desk.resume
  split
  · next call hcall =>
      have hworld := (Session.callWait_frame desk.session call).1
      obtain ⟨-, htuned⟩ := @Session.callWait_leaves desk.session addresses h.ahead call
      have hne := hother call hcall
      refine ⟨by rw [hworld]; exact .refl .., htuned fun hmem => hne ?_, ?_⟩
      · exact (h.separate.address_mem_iff hcall).mp hmem
      · intro other call' hpool hcall'
        refine ((Table.get?_insert ..).trans (if_neg ?_)).symm
        rintro rfl
        exact hother call' hcall' hpool
  · split <;> exact .refl ..

theorem same_acquire_other (h : Sound ids id addresses desk) {other : String}
    (hids : ∀ pool, registry.get? other = some pool → pool ∈ ids)
    (hother : desk.isTaken key = false → registry.get? other ≠ some id) :
    Same id addresses desk (desk.acquire registry key other).1 := by
  unfold Desk.acquire
  split
  · exact .refl ..
  · next hfree =>
      rw [Bool.not_eq_true] at hfree
      split
      · exact h.same_act_other .reportUnknown (by simp [World.About])
      · next pool hpool =>
          have hserving : World.Serving ids (.acquire key pool) := .acquire (hids pool hpool)
          have hne : pool ≠ id := fun heq => hother hfree (heq ▸ hpool)
          refine (h.same_act_other hserving hne).trans
            ((h.act hserving).same_resume_other fun call hcall => ?_)
          rcases h.call_cases hcall with ⟨old, hold, -⟩ | ⟨-, heq⟩
          · simp [isTaken, Table.contains, hold] at hfree
          · cases heq
            exact hne

theorem same_poll_other (h : Sound ids id addresses desk)
    (hother : ∀ call, desk.session.world.calls.get? key = some call → call.pool ≠ id) :
    Same id addresses desk (desk.poll key).1 := by
  unfold Desk.poll
  split
  · next call wait hcall hwait =>
      split
      · exact .refl ..
      · next verdict hverdict =>
          have habout : ¬desk.session.world.About id (.settle key verdict) := by
            rintro ⟨old, hold, heq⟩
            exact hother old hold heq
          refine (h.same_act_other .settle habout).trans
            ((h.act .settle).same_resume_other fun call' hcall' => ?_)
          rcases h.call_cases hcall' with ⟨old, hold, heq⟩ | ⟨-, heq⟩
          · exact heq ▸ hother old hold
          · cases heq
  · exact .refl ..

/-- A request that does not concern the service leaves everything about it the same. -/
theorem same_serve_other (h : Sound registry.values id addresses desk)
    (hservice : ∀ other, registry.get? other = some id → other = service)
    (hother : desk.concerns service id request = false) :
    Same id addresses desk (desk.serve registry request).1 := by
  cases request with
  | pass duration => cases hother
  | acquire key other =>
      -- a call on the pool would concern it
      refine h.same_acquire_other (fun pool hpool => Table.mem_values hpool) fun hfree hpool => ?_
      simp [concerns, hservice other hpool, hfree] at hother
  | poll key =>
      refine h.same_poll_other fun call hcall heq => ?_
      simp [concerns, hcall, heq] at hother
  | cancel key =>
      simp only [Desk.serve, Desk.cancel]
      split
      · exact .refl ..
      · refine h.same_act_other .cancel ?_
        rintro ⟨call, hcall, heq⟩
        simp [concerns, hcall, heq] at hother
  | release key other =>
      -- a loan of the pool would concern it
      have habout : ¬∃ loan, desk.session.world.loans.get? key = some loan ∧ loan.pool = id := by
        rintro ⟨loan, hloan, heq⟩
        simp [concerns, hloan, heq] at hother
      simp only [Desk.serve, Desk.release]
      split
      · exact .refl ..
      · split
        · exact h.same_act_other .refuse habout
        · exact h.same_act_other .release habout
  | drop key =>
      simp only [Desk.serve, Desk.drop]
      split
      · exact .refl ..
      · refine h.same_act_other .drop ?_
        rintro ⟨loan, hloan, heq⟩
        simp [concerns, hloan, heq] at hother

end Sound

/-! ### Requests that concern the service -/

theorem poolAt_eq (h : World.Alike id addresses desk.session.world desk'.session.world) :
    desk.session.poolAt id = desk'.session.poolAt id := by
  simp only [Session.poolAt, List.getD_eq_getElem?_getD, h.pool]

theorem viewLoan_eq (h : Session.Tuned addresses desk.session desk'.session) (loan : Loan) :
    desk.session.viewLoan loan = desk'.session.viewLoan loan := by
  simp only [Session.viewLoan, Session.mark, h.marks]

/-- Calls that are the same go on in the same way. -/
theorem Sound.same_resume (h : Sound ids id addresses desk) (halone : Sound [id] id addresses desk')
    (hworld : World.Alike id addresses desk.session.world desk'.session.world)
    (htuned : Session.Tuned addresses desk.session desk'.session)
    (hwaits : ∀ other call, other ≠ key → call.pool = id →
      desk.session.world.calls.get? other = some call →
        desk.waits.get? other = desk'.waits.get? other)
    (hcalls : ∀ call, desk.session.world.calls.get? key = some call → call.pool = id)
    (hloans : ∀ loan, desk.session.world.loans.get? key = some loan → loan.pool = id) :
    Same id addresses (desk.resume key id).1 (desk'.resume key id).1 ∧
      (desk.resume key id).2 = (desk'.resume key id).2 := by
  cases hcall : desk.session.world.calls.get? key with
  | some call =>
      have hpool := hcalls call hcall
      -- the call is the same on both desks, so both wait for the same answer
      have hcall' := (hworld.calls key call hpool).mp hcall
      have hmem := (h.separate.address_mem_iff hcall).mpr hpool
      obtain ⟨hwait, htuned⟩ :=
        htuned.callWait h.ahead halone.ahead (hpool ▸ poolAt_eq hworld) hmem
      have hsame := (Session.callWait_frame desk.session call).1
      have hsame' := (Session.callWait_frame desk'.session call).1
      simp only [Desk.resume, hcall, hcall', and_true]
      refine ⟨?_, htuned, fun other call' hpool' hother => ?_⟩
      · rw [hsame, hsame']
        exact hworld
      · rw [hsame] at hother
        rw [Table.get?_insert, Table.get?_insert, hwait]
        split
        · rfl
        · next hne => exact hwaits other call' (fun heq => hne heq.symm) hpool' hother
  | none =>
      -- the call is over on both desks, with the same loan or with none
      have hcall' := hworld.calls_none halone.separate hcall
      have hsame : Same id addresses desk desk' := by
        refine ⟨hworld, htuned, fun other call hpool hother => ?_⟩
        refine hwaits other call (fun heq => ?_) hpool hother
        rw [heq, hcall] at hother
        cases hother
      cases hloan : desk.session.world.loans.get? key with
      | some loan =>
          have hloan' := (hworld.loans key loan (hloans loan hloan)).mp hloan
          simp only [Desk.resume, hcall, hcall', hloan, hloan', viewLoan_eq htuned loan]
          exact ⟨hsame, trivial⟩
      | none =>
          have hloan' := hworld.loans_none halone.separate hloan
          simp only [Desk.resume, hcall, hcall', hloan, hloan', poolAt_eq hworld]
          exact ⟨hsame, trivial⟩

theorem isTaken_eq_false_iff : desk.isTaken key = false ↔
    desk.session.world.calls.get? key = none ∧ desk.session.world.loans.get? key = none := by
  simp [isTaken, Table.contains]

section

variable (h : Sound ids id addresses desk) (halone : Sound [id] id addresses desk')
  (hsame : Same id addresses desk desk')

include h halone hsame

theorem Sound.same_acquire (hservice : registry.get? service = some id) (hid : id ∈ ids)
    (hfree : desk.isTaken key = false) :
    Same id addresses (desk.acquire registry key service).1
        (desk'.acquire registry key service).1 ∧
      (desk.acquire registry key service).2 = (desk'.acquire registry key service).2 := by
  obtain ⟨hcall, hloan⟩ := isTaken_eq_false_iff.mp hfree
  have hcall' := hsame.world.calls_none halone.separate hcall
  have hloan' := hsame.world.loans_none halone.separate hloan
  have hfree' : desk'.isTaken key = false := isTaken_eq_false_iff.mpr ⟨hcall', hloan'⟩
  have hworld := hsame.world.acquire (h.separate.held id hid)
    (halone.separate.held id (List.mem_singleton_self id)) hcall hloan hcall' hloan'
  simp only [acquire, hfree, hfree', hservice, Bool.false_eq_true, if_false]
  refine (h.act (.acquire hid)).same_resume (halone.act (.acquire (List.mem_singleton_self id)))
    hworld ⟨hsame.tuned.now, hsame.tuned.marks, hsame.tuned.dials, hsame.tuned.probes⟩
    (fun other call hne hpool hother => ?_) (fun call hnew => ?_) (fun loan hnew => ?_)
  · rcases h.call_cases hother with ⟨old, hold, heq⟩ | ⟨-, heq⟩
    · exact hsame.waits other old (heq ▸ hpool) hold
    · cases heq
      exact absurd rfl hne
  · rcases h.call_cases hnew with ⟨old, hold, -⟩ | ⟨-, heq⟩
    · cases hcall.symm.trans hold
    · cases heq
      rfl
  · rcases h.loan_cases hnew with ⟨old, hold, -⟩ | ⟨-, heq, -⟩
    · cases hloan.symm.trans hold
    · cases heq

theorem Sound.same_poll {call : Call} (hcall : desk.session.world.calls.get? key = some call)
    (hpool : call.pool = id) :
    Same id addresses (desk.poll key).1 (desk'.poll key).1 ∧
      (desk.poll key).2 = (desk'.poll key).2 := by
  have hcall' := (hsame.world.calls key call hpool).mp hcall
  have hwait := hsame.waits key call hpool hcall
  have hid : id ∈ ids := hpool ▸ h.separate.called key call hcall
  simp only [poll, hcall, hcall', ← hwait, ← hsame.tuned.now]
  cases desk.waits.get? key with
  | none => exact ⟨hsame, rfl⟩
  | some wait =>
      dsimp only
      cases wait.poll desk.session.now with
      | none => exact ⟨hsame, rfl⟩
      | some verdict =>
          -- a connection that is replaced is dialed at an address of the service in both
          have hworld := hsame.world.settle (h.separate.held id hid)
            (halone.separate.held id (List.mem_singleton_self id)) hcall hpool
            (fun pool hget => (h.separate.endpoint_mem_iff hcall (hpool ▸ hget)).mpr hpool) verdict
          simp only [hpool]
          refine (h.act .settle).same_resume (halone.act .settle) hworld
            ⟨hsame.tuned.now, hsame.tuned.marks, hsame.tuned.dials, hsame.tuned.probes⟩
            (fun other call' hne hpool' hother => ?_) (fun call' hnew => ?_) (fun loan hnew => ?_)
          · -- the other calls of the service wait as before
            rcases h.call_cases hother with ⟨old, hold, heq⟩ | ⟨-, heq⟩
            · exact hsame.waits other old (heq ▸ hpool') hold
            · cases heq
          · -- a call that goes on stays with the service
            rcases h.call_cases hnew with ⟨old, hold, heq⟩ | ⟨-, heq⟩
            · cases hcall.symm.trans hold
              exact heq.trans hpool
            · cases heq
          · -- a loan that is new is that of the call
            rcases h.loan_cases hnew with ⟨old, hold, heq⟩ | ⟨-, -, old, hold, heq⟩
            · rw [h.separate.orderly.linked.not_lent hcall] at hold
              cases hold
            · cases hcall.symm.trans hold
              exact heq ▸ hpool

theorem Sound.same_cancel {call : Call} (hcall : desk.session.world.calls.get? key = some call)
    (hpool : call.pool = id) :
    Same id addresses (desk.cancel key).1 (desk'.cancel key).1 ∧
      (desk.cancel key).2 = (desk'.cancel key).2 := by
  have hcall' := (hsame.world.calls key call hpool).mp hcall
  have hid : id ∈ ids := hpool ▸ h.separate.called key call hcall
  have hworld := hsame.world.cancel (h.separate.held id hid)
    (halone.separate.held id (List.mem_singleton_self id)) hcall hpool
  simp only [cancel, hcall, hcall']
  exact ⟨hsame.act h.separate.orderly.linked hworld (by simp), trivial⟩

omit halone in
theorem Sound.same_drop {loan : Loan} (hloan : desk.session.world.loans.get? key = some loan)
    (hpool : loan.pool = id) :
    Same id addresses (desk.drop key).1 (desk'.drop key).1 ∧
      (desk.drop key).2 = (desk'.drop key).2 := by
  have hloan' := (hsame.world.loans key loan hpool).mp hloan
  have hworld := hsame.world.drop hloan hpool
  simp only [drop, hloan, hloan']
  exact ⟨hsame.act h.separate.orderly.linked hworld (by simp), trivial⟩

theorem Sound.same_release (hservice : registry.get? service = some id) {loan : Loan}
    (hloan : desk.session.world.loans.get? key = some loan) (hpool : loan.pool = id) :
    Same id addresses (desk.release registry key service).1
        (desk'.release registry key service).1 ∧
      (desk.release registry key service).2 = (desk'.release registry key service).2 := by
  have hloan' := (hsame.world.loans key loan hpool).mp hloan
  have hid : id ∈ ids := hpool ▸ h.separate.lent key loan hloan
  have hworld := hsame.world.release (h.separate.held id hid)
    (halone.separate.held id (List.mem_singleton_self id)) hloan hpool
  simp only [release, hloan, hloan', hservice, World.releaseError?]
  refine ⟨hsame.act h.separate.orderly.linked hworld (by simp), ?_⟩
  simp [hpool]

omit halone in
/-- A loan that is handed back elsewhere is dropped. -/
theorem Sound.same_release_other {other : String}
    (hids : ∀ pool, registry.get? other = some pool → pool ∈ ids)
    (hother : registry.get? other ≠ some id) {loan : Loan}
    (hloan : desk.session.world.loans.get? key = some loan) (hpool : loan.pool = id) :
    Same id addresses (desk.release registry key other).1 (desk'.drop key).1 := by
  have hloan' := (hsame.world.loans key loan hpool).mp hloan
  have hdrop := hsame.world.drop hloan hpool
  have hlinked := h.separate.orderly.linked
  simp only [release, drop, hloan, hloan']
  cases hget : registry.get? other with
  | none =>
      refine hsame.act hlinked ?_ (by simp)
      change World.Alike id addresses (desk.session.world.refuse key other).1 _
      rw [World.refuse_fst hloan]
      exact hdrop
  | some pool =>
      refine hsame.act hlinked ?_ (by simp)
      change World.Alike id addresses (desk.session.world.release key pool).1 _
      rw [World.release_fst_of_ne hlinked hloan]
      · exact hdrop
      · rintro rfl
        exact hother (hpool ▸ hget)
      · exact h.separate.held pool (hids pool hget)

end

/-- A request that concerns the service does the same in two desks that are the same for it. -/
theorem Sound.same_serve (h : Sound registry.values id addresses desk)
    (halone : Sound [id] id addresses desk') (hsame : Same id addresses desk desk')
    (hservice : ∀ other, registry.get? other = some id ↔ other = service)
    (hown : desk.concerns service id request = true) :
    Same id addresses (desk.serve registry request).1
        (desk'.serve registry (request.redirect service)).1 ∧
      (request.redirect service = request →
        (desk.serve registry request).2 = (desk'.serve registry request).2) := by
  -- the service is that of the pool
  have hget : registry.get? service = some id := (hservice service).mpr rfl
  cases request with
  | pass duration =>
      refine ⟨⟨hsame.world, ?_, hsame.waits⟩, fun _ => rfl⟩
      exact ⟨congrArg (· + duration) hsame.tuned.now, hsame.tuned.marks, hsame.tuned.dials,
        hsame.tuned.probes⟩
  | acquire key other =>
      obtain ⟨rfl, hfree⟩ : other = service ∧ desk.isTaken key = false := by
        simpa [concerns] using hown
      obtain ⟨hserved, hreply⟩ := h.same_acquire halone hsame hget (Table.mem_values hget) hfree
      exact ⟨hserved, fun _ => hreply⟩
  | poll key =>
      obtain ⟨call, hcall, hpool⟩ : ∃ call, desk.session.world.calls.get? key = some call ∧
          call.pool = id := by simpa [concerns, Option.any_eq_true] using hown
      obtain ⟨hserved, hreply⟩ := h.same_poll halone hsame hcall hpool
      exact ⟨hserved, fun _ => hreply⟩
  | cancel key =>
      obtain ⟨call, hcall, hpool⟩ : ∃ call, desk.session.world.calls.get? key = some call ∧
          call.pool = id := by simpa [concerns, Option.any_eq_true] using hown
      obtain ⟨hserved, hreply⟩ := h.same_cancel halone hsame hcall hpool
      exact ⟨hserved, fun _ => hreply⟩
  | release key other =>
      obtain ⟨loan, hloan, hpool⟩ : ∃ loan, desk.session.world.loans.get? key = some loan ∧
          loan.pool = id := by simpa [concerns, Option.any_eq_true] using hown
      -- a loan of the pool is given back, or it is handed to another service and thus lost
      by_cases hother : other = service
      · subst hother
        obtain ⟨hserved, hreply⟩ := h.same_release halone hsame hget hloan hpool
        rw [Request.redirect, if_pos rfl]
        exact ⟨hserved, fun _ => hreply⟩
      · rw [Request.redirect, if_neg hother]
        refine ⟨?_, by simp⟩
        exact h.same_release_other hsame (fun pool hpool => Table.mem_values hpool)
          (fun heq => hother ((hservice other).mp heq)) hloan hpool
  | drop key =>
      obtain ⟨loan, hloan, hpool⟩ : ∃ loan, desk.session.world.loans.get? key = some loan ∧
          loan.pool = id := by simpa [concerns, Option.any_eq_true] using hown
      obtain ⟨hserved, hreply⟩ := h.same_drop hsame hloan hpool
      exact ⟨hserved, fun _ => hreply⟩

end Desk

end HeartbeatPool
