import HeartbeatPool.Proofs.Lockstep

/-!
# Calls in lockstep

A call waits for a heartbeat or a dial, one after the other.  At every instant it takes in all
answers that have come, so a wait that is left has come to nothing yet; that takes no more answers
than the call can wait for, which become fewer with each (`waitsLeft_lt`).
-/

namespace HeartbeatPool

namespace World

variable {w w' : World} {account : Account} {key : Key} {verdict : Verdict}

/-- The answer that a call waits for always leads on. -/
theorem exists_effect_of_settle (hw : w.Linked) {call : Call}
    (hcall : w.calls.get? key = some call) (verdict : Verdict) :
    ∃ w' account, Effect w (.settle key verdict) w' account := by
  obtain ⟨pool, hpool⟩ := hw.poolOfCall hcall
  cases hphase : call.phase with
  | probing entry =>
      cases verdict with
      | success => exact ⟨_, _, .pass hcall hpool hphase⟩
      | failure cause => exact ⟨_, _, .dismiss hcall hpool hphase⟩
  | redialing entry =>
      cases verdict with
      | success => exact ⟨_, _, .replace hcall hpool hphase⟩
      | failure cause =>
          cases hleft : call.attemptsLeft with
          | zero => exact ⟨_, _, .giveUp hcall hpool hphase (Or.inl hleft)⟩
          | succ attemptsLeft =>
              cases htake : pool.takeIdle? with
              | none => exact ⟨_, _, .giveUp hcall hpool hphase (Or.inr htake)⟩
              | some taken => exact ⟨_, _, .retry hcall hpool hphase hleft htake⟩

theorem Effect.waitsLeft_lt (h : Effect w (.settle key verdict) w' account) {call' : Call}
    (hcall' : w'.calls.get? key = some call') :
    ∃ call, w.calls.get? key = some call ∧ call'.waitsLeft < call.waitsLeft := by
  cases h with
  | @dismiss _ call _ _ _ hcall _ hphase =>
      rw [Table.get?_insert_self, Option.some.injEq] at hcall'
      subst hcall'
      exact ⟨call, hcall, by simp [Call.waitsLeft, hphase]⟩
  | @retry _ call _ _ _ _ _ _ hcall _ hphase hleft =>
      rw [withProbe, Table.get?_insert_self, Option.some.injEq] at hcall'
      subst hcall'
      exact ⟨call, hcall, by simp [Call.waitsLeft, hphase, hleft]; omega⟩
  | pass | replace | giveUp =>
      simp only [withLoan, setPool] at hcall'
      rw [Table.get?_erase_self] at hcall'
      cases hcall'

/-- With every answer a call has fewer left to wait for. -/
theorem waitsLeft_lt (hw : w.Linked) {call' : Call}
    (hcall' : (w.step (.settle key verdict)).1.calls.get? key = some call') :
    ∃ call, w.calls.get? key = some call ∧ call'.waitsLeft < call.waitsLeft := by
  rcases step_cases hw (.settle key verdict) with
    ⟨hstep, hnone⟩ | ⟨w', account, heff, ⟨hstep, -⟩ | ⟨left, old, -, -, -, hstep⟩⟩
  · rw [hstep] at hcall'
    obtain ⟨w', account, heff⟩ := exists_effect_of_settle hw hcall' verdict
    exact absurd heff (hnone w' account)
  · rw [hstep] at hcall'
    exact heff.waitsLeft_lt hcall'
  · rw [hstep] at hcall'
    exact heff.waitsLeft_lt hcall'

end World

theorem Call.waitsLeft_pos (call : Call) : 0 < call.waitsLeft := by
  unfold waitsLeft
  split <;> omega

namespace Session

variable {limits : Limits} {own : List Key} {s s' : Session} {key : Key}

/-- The call without deadlines; that of the caller stays. -/
def Acquiring.unlimited (acquiring : Acquiring) : Acquiring :=
  { acquiring with wait := acquiring.wait.unlimited }

theorem callWait_agrees (h : s.world.Limited limits) {call : Call}
    (hcall : s.world.calls.get? key = some call) :
    Agrees limits [] s Wait.unlimited (fun s' wait => Due wait.timers s')
      (s.callWait call) ((s.truncated limits).callWait call) := by
  obtain ⟨pool, hpool⟩ := h.orderly.linked.poolOfCall hcall
  have hat : s.poolAt call.pool = pool := by
    rw [poolAt, List.getD_eq_getElem?_getD, hpool, Option.getD_some]
  have hlimits : limits = pool.settings.limits := (h.pool hpool).symm
  unfold callWait
  rw [poolAt_truncated, hat, mark_truncated]
  cases call.phase with
  | probing entry =>
      dsimp only
      have hheartbeat : limits.heartbeat = pool.settings.heartbeatTimeout := by
        rw [hlimits]
        rfl
      split
      · refine ⟨?_, .refl h, fun timer => Wait.le_of_mem_timers⟩
        have hstart := Wait.start_truncated s.now pool.settings.heartbeatTimeout
          (.settles 0 (.failure "sick"))
        rw [Outcome.truncated_settles_zero] at hstart
        exact congrArg (s.truncated limits, ·) hstart
      · refine ⟨?_, .withScript h _, fun timer => Wait.le_of_mem_timers⟩
        simp only [script_truncated, Script.takeProbe_truncated, hheartbeat,
          Pool.settings_unlimited, Settings.heartbeatTimeout_unlimited, now_truncated,
          Wait.start_truncated]
        rfl
  | redialing entry =>
      have hdial : limits.dial = pool.settings.dialTimeout := by
        rw [hlimits]
        rfl
      refine ⟨?_, .withScript h _, fun timer => Wait.le_of_mem_timers⟩
      simp only [script_truncated, Script.takeDial_truncated, hdial, Pool.settings_unlimited,
        Settings.dialTimeout_unlimited, now_truncated, Wait.start_truncated]
      rfl

theorem advance_agrees (h : s.world.Limited limits) {call : Call}
    (hcall : s.world.calls.get? key = some call) {wait : Wait} (hdue : Due wait.timers s)
    {bound : Nat} (hbound : call.waitsLeft ≤ bound) :
    Agrees limits [key] s (Option.map Wait.unlimited)
      (fun s' rest => ∀ wait, rest = some wait →
        Ahead wait.timers s' ∧ (s'.world.calls.get? key).isSome)
      (s.advance key wait bound) ((s.truncated limits).advance key wait.unlimited bound) := by
  -- the bound is one on the answers that the call can still wait for, which each answer lowers
  induction bound generalizing s wait call with
  | zero => exact absurd call.waitsLeft_pos (by omega)
  | succ bound ih =>
      unfold advance
      rw [now_truncated, Wait.poll_unlimited hdue]
      cases hpoll : wait.poll s.now with
      | none =>
          refine ⟨rfl, .refl h, ?_⟩
          rintro _ ⟨⟩
          exact ⟨Wait.poll_eq_none_iff.mp hpoll, Option.isSome_of_mem hcall⟩
      | some verdict =>
          have hsettled : Continues limits [key] s (s.act (.settle key verdict)) :=
            .act h (.settle key verdict) trivial (by simp [World.Action.call?])
          -- the answer leaves the call fewer waits
          have hfewer (call' : Call)
              (hcall' : (s.act (.settle key verdict)).world.calls.get? key = some call') :
              call'.waitsLeft < call.waitsLeft := by
            obtain ⟨old, hold, hlt⟩ := World.waitsLeft_lt h.orderly.linked hcall'
            rw [hcall, Option.some.injEq] at hold
            exact hold ▸ hlt
          simp only [act_truncated limits s (.settle key verdict) rfl, world_truncated,
            World.calls_unlimited]
          generalize s.act (.settle key verdict) = s₁ at hsettled hfewer
          cases hcall' : s₁.world.calls.get? key with
          | none => exact ⟨rfl, hsettled, by simp⟩
          | some call' =>
              obtain ⟨heq, hwaited, hdue'⟩ := callWait_agrees hsettled.limited hcall'
              have hlt := hfewer call' hcall'
              -- the wait for the next answer changes the script only
              have hcall'' : (s₁.callWait call').1.world.calls.get? key = some call' := by
                rw [(callWait_frame s₁ call').1]
                exact hcall'
              obtain ⟨heq', hrest, hsound⟩ := ih hwaited.limited hcall'' hdue' (by omega)
              have hwaited' : Continues limits [key] s₁ (s₁.callWait call').1 :=
                hwaited.forget (by simp)
              refine ⟨?_, (hsettled.trans hwaited').trans hrest, hsound⟩
              dsimp only
              rw [heq]
              exact heq'

theorem endAcquire_agrees (h : s.world.Limited limits) (key : Key) (id : PoolId) (name : String) :
    Agrees limits [] s Reply.unlimited (fun _ _ => True) (s.endAcquire key id name)
      ((s.truncated limits).endAcquire key id name) := by
  unfold endAcquire
  simp only [world_truncated, World.callResult_unlimited, keepLoan_truncated, viewLoan_truncated]
  cases s.world.callResult key id with
  | error error => exact ⟨rfl, .refl h, trivial⟩
  | ok loan => exact ⟨rfl, .keepLoan h name key, trivial⟩

/-- What comes after a call has taken in all answers. -/
def concludeAcquire (session : Session) (acquiring : Acquiring) :
    Option Wait → Session × Progress Reply Acquiring
  | none =>
      let ended := session.endAcquire acquiring.key acquiring.pool acquiring.name
      (ended.1, .done ended.2)
  | some wait =>
      if acquiring.deadline ≤ session.now then
        (session.act (.cancel acquiring.key),
          .done (if acquiring.isLimited then .cancelled else .stalled))
      else (session, .waiting { acquiring with wait := wait })

theorem pollAcquire_eq (session : Session) (acquiring : Acquiring) {call : Call}
    (hcall : session.world.calls.get? acquiring.key = some call) :
    session.pollAcquire acquiring =
      concludeAcquire (session.advance acquiring.key acquiring.wait call.waitsLeft).1 acquiring
        (session.advance acquiring.key acquiring.wait call.waitsLeft).2 := by
  simp only [pollAcquire, hcall, Option.map_some, Option.getD_some]
  cases (session.advance acquiring.key acquiring.wait call.waitsLeft).2 <;> rfl

theorem concludeAcquire_agrees (h : s.world.Limited limits) (acquiring : Acquiring)
    (wait : Option Wait) (hwait : ∀ rest, wait = some rest →
      Ahead rest.timers s ∧ (s.world.calls.get? acquiring.key).isSome) :
    Agrees limits [acquiring.key] s (Progress.map Reply.unlimited Acquiring.unlimited)
      (fun s' progress => progress.Leaves fun rest => rest.key = acquiring.key ∧
        Ahead rest.timers s' ∧ (s'.world.calls.get? rest.key).isSome)
      (s.concludeAcquire acquiring wait)
      ((s.truncated limits).concludeAcquire acquiring.unlimited
        (wait.map Wait.unlimited)) := by
  cases wait with
  | none =>
      obtain ⟨heq, hended, -⟩ := endAcquire_agrees h acquiring.key acquiring.pool acquiring.name
      refine ⟨?_, hended.forget nofun, trivial⟩
      exact congrArg (fun ended => (ended.1, Progress.done ended.2)) heq
  | some wait =>
      obtain ⟨hahead, hcall⟩ := hwait wait rfl
      have hdeadline : acquiring.unlimited.deadline = acquiring.deadline := rfl
      simp only [concludeAcquire, Option.map_some, now_truncated, hdeadline]
      by_cases hlate : acquiring.deadline ≤ s.now
      · have hact : (s.truncated limits).act (.cancel acquiring.key) =
            (s.act (.cancel acquiring.key)).truncated limits := act_truncated limits s _ rfl
        rw [if_pos hlate, if_pos hlate]
        refine ⟨Prod.ext hact ?_, ?_, trivial⟩
        · cases hlimited : acquiring.isLimited <;>
            simp [Acquiring.unlimited, hlimited, Progress.map, Reply.unlimited]
        · exact .act h (.cancel acquiring.key) trivial (by simp [World.Action.call?])
      · rw [if_neg hlate, if_neg hlate]
        have hdeadline : Ahead [acquiring.deadline] s := .singleton (Nat.lt_of_not_le hlate)
        exact ⟨rfl, .refl h, rfl, hahead.append hdeadline, hcall⟩

theorem pollAcquire_agrees (h : s.world.Limited limits) (acquiring : Acquiring)
    (hcall : (s.world.calls.get? acquiring.key).isSome) (hdue : Due acquiring.wait.timers s) :
    Agrees limits [acquiring.key] s (Progress.map Reply.unlimited Acquiring.unlimited)
      (fun s' progress => progress.Leaves fun rest => rest.key = acquiring.key ∧
        Ahead rest.timers s' ∧ (s'.world.calls.get? rest.key).isSome)
      (s.pollAcquire acquiring) ((s.truncated limits).pollAcquire acquiring.unlimited) := by
  obtain ⟨call, hcall⟩ := Option.isSome_iff_exists.mp hcall
  obtain ⟨heq, hadvanced, hsound⟩ := advance_agrees h hcall hdue (Nat.le_refl _)
  obtain ⟨heq', hconcluded, hrest⟩ :=
    concludeAcquire_agrees hadvanced.limited acquiring _ hsound
  rw [pollAcquire_eq s acquiring hcall,
    pollAcquire_eq (s.truncated limits) acquiring.unlimited hcall]
  refine ⟨?_, hadvanced.trans hconcluded, hrest⟩
  exact (congrArg (fun advanced => advanced.1.concludeAcquire acquiring.unlimited advanced.2)
    heq).trans heq'

/-- What comes after a call has been asked for: it waits, unless it has ended already. -/
def awaitCall (session : Session) (key : Key) (id : PoolId) (name : String)
    (limit : Option Nat) : Session × Progress Reply Acquiring :=
  match session.world.calls.get? key with
  | none =>
      let ended := session.endAcquire key id name
      (ended.1, .done ended.2)
  | some call =>
      let waited := session.callWait call
      waited.1.pollAcquire
        { key := key
          pool := id
          name := name
          wait := waited.2
          deadline := later waited.1.now (limit.getD stallLimit)
          isLimited := limit.isSome }

theorem beginAcquire_eq (session : Session) (id : PoolId) (name : String) (limit : Option Nat) :
    session.beginAcquire id name limit =
      (session.freshKey.2.act (.acquire session.nextKey id)).awaitCall session.nextKey id name
        limit := rfl

theorem awaitCall_agrees (h : s.world.Limited limits) (key : Key) (id : PoolId) (name : String)
    (limit : Option Nat) :
    Agrees limits [key] s (Progress.map Reply.unlimited Acquiring.unlimited)
      (fun s' progress => progress.Leaves fun rest => rest.key = key ∧
        Ahead rest.timers s' ∧ (s'.world.calls.get? rest.key).isSome)
      (s.awaitCall key id name limit) ((s.truncated limits).awaitCall key id name limit) := by
  unfold awaitCall
  rw [world_truncated, World.calls_unlimited]
  cases hcall : s.world.calls.get? key with
  | none =>
      obtain ⟨heq, hended, -⟩ := endAcquire_agrees h key id name
      refine ⟨?_, hended.forget nofun, trivial⟩
      exact congrArg (fun ended => (ended.1, Progress.done ended.2)) heq
  | some call =>
      obtain ⟨heq, hwaited, hdue⟩ := callWait_agrees h hcall
      have hcall' : ((s.callWait call).1.world.calls.get? key).isSome := by
        rw [(callWait_frame s call).1, hcall]
        rfl
      have hdue' : Due (s.callWait call).2.timers (s.callWait call).1 := hdue
      obtain ⟨heq', hpolled, hrest⟩ := pollAcquire_agrees hwaited.limited
        { key := key
          pool := id
          name := name
          wait := (s.callWait call).2
          deadline := later (s.callWait call).1.now (limit.getD stallLimit)
          isLimited := limit.isSome } hcall' hdue'
      refine ⟨?_, (hwaited.forget nofun).trans hpolled, hrest⟩
      dsimp only
      rw [heq]
      exact heq'

theorem beginAcquire_agrees (h : s.world.Limited limits) (id : PoolId) (name : String)
    (limit : Option Nat) :
    Agrees limits [] s (Progress.map Reply.unlimited Acquiring.unlimited)
      (fun s' progress => progress.Leaves fun rest => rest.key = s.nextKey ∧
        rest.key < s'.nextKey ∧ Ahead rest.timers s' ∧ (s'.world.calls.get? rest.key).isSome)
      (s.beginAcquire id name limit) ((s.truncated limits).beginAcquire id name limit) := by
  have hfresh : Continues limits [s.nextKey] s s.freshKey.2 :=
    .of_eq h rfl rfl (Nat.le_succ _)
  have hasked : Continues limits [s.nextKey] s.freshKey.2
      (s.freshKey.2.act (.acquire s.nextKey id)) :=
    .act hfresh.limited (.acquire s.nextKey id) trivial (by simp [World.Action.call?])
  have hact : (s.truncated limits).freshKey.2.act (.acquire s.nextKey id) =
      (s.freshKey.2.act (.acquire s.nextKey id)).truncated limits :=
    act_truncated limits s.freshKey.2 _ rfl
  obtain ⟨heq, hawaited, hleaves⟩ := awaitCall_agrees hasked.limited s.nextKey id name limit
  rw [← hact] at heq
  have hlt : s.nextKey < (s.beginAcquire id name limit).1.nextKey :=
    Nat.lt_of_lt_of_le (Nat.lt_succ_self s.nextKey) hawaited.nextKey
  refine ⟨heq, ((hfresh.trans hasked).trans hawaited).forget ?_, ?_⟩
  · -- the key was new, so nothing of it needs to be told
    intro key hkey
    exact Or.inr (Nat.le_of_eq (List.mem_singleton.mp hkey).symm)
  · rw [beginAcquire_eq] at hlt ⊢
    cases hprogress : (awaitCall _ s.nextKey id name limit).2 with
    | done reply => exact trivial
    | waiting rest =>
        rw [hprogress] at hleaves
        obtain ⟨hkey, hahead, hcall⟩ := hleaves
        exact ⟨hkey, hkey ▸ hlt, hahead, hcall⟩

end Session

end HeartbeatPool
