import HeartbeatPool.Proofs.Truncation

/-!
# Two sessions in lockstep

A session and its truncation do the same at every instant.  `Agrees` says so of one computation:
both come to the same, but for limits and for what is scripted.  It also says what the next
computation needs to agree in its turn.

* The session has come only as far as it may (`Continues`): no time has passed, all pools have the
  same limits, and calls under other keys are left alone.
* What is left waits for timers that are all still ahead.  Until the first of them is due none can
  be missed, so a wait and the one without a deadline go on to the same answer.
-/

namespace HeartbeatPool

/-- The progress with both results changed. -/
def Progress.map {α α' β β' : Type} (onDone : α → α') (onRest : β → β') :
    Progress α β → Progress α' β'
  | .done result => .done (onDone result)
  | .waiting rest => .waiting (onRest rest)

/-- What is left, if anything, has a property. -/
def Progress.Leaves {α β : Type} (P : β → Prop) : Progress α β → Prop
  | .done _ => True
  | .waiting rest => P rest

namespace Session

variable {limits : Limits} {own : List Key} {s s' s'' : Session} {key : Key}

/-- One session comes from another in no time, by moves that give all new pools the same limits and
leave alone all calls but new ones and those under some keys. -/
structure Continues (limits : Limits) (own : List Key) (s s' : Session) : Prop where
  now : s'.now = s.now
  limited : s'.world.Limited limits
  nextKey : s.nextKey ≤ s'.nextKey
  calls : ∀ key, key < s.nextKey → key ∉ own →
    s'.world.calls.get? key = s.world.calls.get? key

namespace Continues

theorem refl (h : s.world.Limited limits) : Continues limits own s s :=
  ⟨rfl, h, Nat.le_refl _, fun _ _ _ => rfl⟩

theorem trans (h : Continues limits own s s') (h' : Continues limits own s' s'') :
    Continues limits own s s'' where
  now := h'.now.trans h.now
  limited := h'.limited
  nextKey := Nat.le_trans h.nextKey h'.nextKey
  calls key hkey hother :=
    (h'.calls key (Nat.lt_of_lt_of_le hkey h.nextKey) hother).trans (h.calls key hkey hother)

/-- New keys need not be told. -/
theorem forget {own' : List Key} (h : Continues limits own s s')
    (hown : ∀ key ∈ own, key ∈ own' ∨ s.nextKey ≤ key) : Continues limits own' s s' where
  now := h.now
  limited := h.limited
  nextKey := h.nextKey
  calls key hkey hother := by
    refine h.calls key hkey fun hmem => ?_
    rcases hown key hmem with hkept | hnew
    · exact hother hkept
    · exact Nat.not_lt.mpr hnew hkey

/-- What is neither the world nor the clock may change. -/
theorem of_eq (h : s.world.Limited limits) (hnow : s'.now = s.now) (hworld : s'.world = s.world)
    (hkey : s.nextKey ≤ s'.nextKey) : Continues limits own s s' where
  now := hnow
  limited := hworld ▸ h
  nextKey := hkey
  calls key _ _ := by rw [hworld]

theorem withScript (h : s.world.Limited limits) (script : Script) :
    Continues limits own s { s with script := script } :=
  .of_eq h rfl rfl (Nat.le_refl _)

theorem act (h : s.world.Limited limits) (action : World.Action)
    (hlimits : action.HasLimits limits) (hown : ∀ key, action.call? = some key → key ∈ own) :
    Continues limits own s (s.act action) where
  now := rfl
  limited := h.step hlimits
  nextKey := Nat.le_refl _
  calls key _ hother :=
    World.step_calls_of_ne h.orderly.linked fun hcall => hother (hown key hcall)

/-- What is kept under a name takes the place of what was. -/
theorem keepLoan (h : s.world.Limited limits) (name : String) (key : Key) :
    Continues limits own s (s.keepLoan name key) := by
  have hkept : Continues limits own s { s with loans := s.loans.insert name key } :=
    .of_eq h rfl rfl (Nat.le_refl _)
  unfold Session.keepLoan
  cases s.loans.get? name with
  | none => exact hkept
  | some old => exact hkept.trans (.act hkept.limited (.drop old) trivial nofun)

theorem keepPool (h : s.world.Limited limits) (name : String) (id : PoolId) :
    Continues limits own s (s.keepPool name id) := by
  have hkept : Continues limits own s { s with pools := s.pools.insert name id } :=
    .of_eq h rfl rfl (Nat.le_refl _)
  unfold Session.keepPool
  cases s.pools.get? name with
  | none => exact hkept
  | some old => exact hkept.trans (.act hkept.limited (.letGo old) trivial nofun)

theorem letGoAll (h : s.world.Limited limits) (ids : List PoolId) :
    Continues limits own s (ids.foldl (fun session id => session.act (.letGo id)) s) := by
  induction ids generalizing s with
  | nil => exact .refl h
  | cons id rest ih =>
      have hfirst : Continues limits own s (s.act (.letGo id)) := .act h (.letGo id) trivial nofun
      exact hfirst.trans (ih hfirst.limited)

theorem keepRegistry (h : s.world.Limited limits) (name : String) (registry : Registry) :
    Continues limits own s (s.keepRegistry name registry) := by
  have hkept : Continues limits own s { s with registries := s.registries.insert name registry } :=
    .of_eq h rfl rfl (Nat.le_refl _)
  unfold Session.keepRegistry
  cases s.registries.get? name with
  | none => exact hkept
  | some old => exact hkept.trans (.letGoAll hkept.limited old.values)

end Continues

/-- A computation and its counterpart in the truncated session come to the same, and what is left
is sound. -/
structure Agrees {α β : Type} (limits : Limits) (own : List Key) (s : Session) (cut : α → β)
    (sound : Session → α → Prop) (here : Session × α) (there : Session × β) : Prop where
  eq : there = (here.1.truncated limits, cut here.2)
  continues : Continues limits own s here.1
  sound : sound here.1 here.2

theorem Agrees.fst_eq {α β : Type} {cut : α → β} {sound : Session → α → Prop}
    {here : Session × α} {there : Session × β} (h : Agrees limits own s cut sound here there) :
    there.1 = here.1.truncated limits :=
  congrArg Prod.fst h.eq

/-! ## Creating a pool -/

/-- The times at which there may be something new about some slots. -/
def slotTimers (waits : List (Option Wait)) : List Nat :=
  waits.flatMap fun wait => (wait.map Wait.timers).getD []

theorem slotTimers_cons (wait : Option Wait) (waits : List (Option Wait)) :
    slotTimers (wait :: waits) = (wait.map Wait.timers).getD [] ++ slotTimers waits :=
  List.flatMap_cons

/-- The waits without their deadlines. -/
def unlimitedWaits (waits : List (Option Wait)) : List (Option Wait) :=
  waits.map (Option.map Wait.unlimited)

/-- The creation without deadlines. -/
def Creating.unlimited (creating : Creating) : Creating :=
  { creating with waits := unlimitedWaits creating.waits }

/-- All timers are still ahead. -/
def Ahead (timers : List Nat) (s : Session) : Prop := ∀ timer ∈ timers, s.now < timer

/-- No timer was missed. -/
def Due (timers : List Nat) (s : Session) : Prop := ∀ timer ∈ timers, s.now ≤ timer

theorem Ahead.of_continues {timers : List Nat} (h : Ahead timers s)
    (hs : Continues limits own s s') : Ahead timers s' := by
  intro timer htimer
  rw [hs.now]
  exact h timer htimer

theorem Due.of_continues {timers : List Nat} (h : Due timers s)
    (hs : Continues limits own s s') : Due timers s' := by
  intro timer htimer
  rw [hs.now]
  exact h timer htimer

theorem Ahead.singleton {timer : Nat} (h : s.now < timer) : Ahead [timer] s := by
  intro timer' htimer'
  rw [List.mem_singleton.mp htimer']
  exact h

theorem Ahead.append {first second : List Nat} (h : Ahead first s) (h' : Ahead second s) :
    Ahead (first ++ second) s := by
  intro timer htimer
  rcases List.mem_append.mp htimer with hfirst | hsecond
  · exact h timer hfirst
  · exact h' timer hsecond

theorem Due.left {first second : List Nat} (h : Due (first ++ second) s) : Due first s :=
  fun timer htimer => h timer (List.mem_append_left _ htimer)

theorem Due.right {first second : List Nat} (h : Due (first ++ second) s) : Due second s :=
  fun timer htimer => h timer (List.mem_append_right _ htimer)

theorem pollSlot_agrees (h : s.world.Limited limits) {wait : Wait} (hdue : Due wait.timers s)
    (key : Key) (slot : Nat) :
    Agrees limits [] s (Option.map Wait.unlimited)
      (fun s' rest => Ahead ((rest.map Wait.timers).getD []) s')
      (s.pollSlot key slot wait) ((s.truncated limits).pollSlot key slot wait.unlimited) := by
  unfold pollSlot
  rw [now_truncated, Wait.poll_unlimited hdue]
  cases hpoll : wait.poll s.now with
  | none => exact ⟨rfl, .refl h, Wait.poll_eq_none_iff.mp hpoll⟩
  | some verdict =>
      refine ⟨congrArg (·, _) (act_truncated limits s _ rfl), ?_, nofun⟩
      exact .act h (.settleSlot key slot verdict) trivial nofun

theorem pollSlots_agrees (h : s.world.Limited limits) (key : Key) (slot : Nat)
    {waits : List (Option Wait)} (hdue : Due (slotTimers waits) s) :
    Agrees limits [] s unlimitedWaits (fun s' rest => Ahead (slotTimers rest) s')
      (s.pollSlots key slot waits)
      ((s.truncated limits).pollSlots key slot (unlimitedWaits waits)) := by
  induction waits generalizing s slot with
  | nil => exact ⟨rfl, .refl h, nofun⟩
  | cons wait rest ih =>
      cases wait with
      | none =>
          obtain ⟨heq, hcontinues, hahead⟩ := ih h (slot + 1) hdue
          refine ⟨?_, hcontinues, hahead⟩
          simp only [unlimitedWaits, List.map_cons, Option.map_none, pollSlots] at heq ⊢
          rw [heq]
      | some wait =>
          rw [slotTimers_cons] at hdue
          obtain ⟨heq, hfirst, hahead⟩ := pollSlot_agrees h hdue.left key slot
          obtain ⟨heq', hrest, hahead'⟩ :=
            ih hfirst.limited (slot + 1) (hdue.right.of_continues hfirst)
          refine ⟨?_, hfirst.trans hrest, (hahead.of_continues hrest).append hahead'⟩
          simp only [unlimitedWaits, List.map_cons, Option.map_some, pollSlots] at heq' ⊢
          rw [heq]
          dsimp only
          rw [heq']

/-- Dials one slot, and looks at it right after its dial. -/
def openSlot (session : Session) (key : Key) (pool : Pool) (slot : Nat) :
    Session × Option Wait :=
  let session := session.act (.dialSlot key)
  let taken := session.script.takeDial (pool.address (slot / pool.settings.perEndpoint))
  pollSlot { session with script := taken.2 } key slot
    (Wait.start session.now pool.settings.dialTimeout taken.1)

theorem openSlots_succ (session : Session) (key : Key) (pool : Pool) (slot count : Nat) :
    session.openSlots key pool slot (count + 1) =
      ((openSlots (session.openSlot key pool slot).1 key pool (slot + 1) count).1,
        (session.openSlot key pool slot).2 ::
          (openSlots (session.openSlot key pool slot).1 key pool (slot + 1) count).2) := rfl

theorem openSlot_agrees (h : s.world.Limited limits) (key : Key) (pool : Pool)
    (hpool : pool.settings.limits = limits) (slot : Nat) :
    Agrees limits [] s (Option.map Wait.unlimited)
      (fun s' rest => Ahead ((rest.map Wait.timers).getD []) s')
      (s.openSlot key pool slot) ((s.truncated limits).openSlot key pool.unlimited slot) := by
  have hdialed : Continues limits [] s (s.act (.dialSlot key)) :=
    .act h (.dialSlot key) trivial nofun
  have hact : (s.truncated limits).act (.dialSlot key) =
      (s.act (.dialSlot key)).truncated limits := act_truncated limits s _ rfl
  have hdial : limits.dial = pool.settings.dialTimeout := (congrArg Limits.dial hpool).symm
  unfold openSlot
  rw [hact]
  -- from here on only the session after the dial matters: its clock and its script
  generalize s.act (.dialSlot key) = s₁ at hdialed
  simp only [Pool.address_unlimited, Pool.settings_unlimited, Settings.perEndpoint_unlimited,
    Settings.dialTimeout_unlimited, now_truncated, script_truncated,
    Script.takeDial_truncated, hdial, Wait.start_truncated]
  have hdue : Due (Wait.start s₁.now pool.settings.dialTimeout (s₁.script.takeDial
      (pool.address (slot / pool.settings.perEndpoint))).1).timers s₁ :=
    fun timer htimer => Wait.le_of_mem_timers htimer
  obtain ⟨heq, hpolled, hahead⟩ := pollSlot_agrees (s := { s₁ with
    script := (s₁.script.takeDial (pool.address (slot / pool.settings.perEndpoint))).2 })
    hdialed.limited hdue key slot
  exact ⟨heq, hdialed.trans ((Continues.withScript hdialed.limited _).trans hpolled), hahead⟩

theorem openSlots_agrees (h : s.world.Limited limits) (key : Key) (pool : Pool)
    (hpool : pool.settings.limits = limits) (slot count : Nat) :
    Agrees limits [] s unlimitedWaits (fun s' rest => Ahead (slotTimers rest) s')
      (s.openSlots key pool slot count)
      ((s.truncated limits).openSlots key pool.unlimited slot count) := by
  induction count generalizing s slot with
  | zero => exact ⟨rfl, .refl h, nofun⟩
  | succ count ih =>
      obtain ⟨heq, hfirst, hahead⟩ := openSlot_agrees h key pool hpool slot
      obtain ⟨heq', hrest, hahead'⟩ := ih hfirst.limited (slot + 1)
      rw [openSlots_succ, openSlots_succ, heq]
      refine ⟨?_, hfirst.trans hrest, (hahead.of_continues hrest).append hahead'⟩
      rw [heq']
      rfl

theorem concludeCreation_agrees (h : s.world.Limited limits) (creating : Creating)
    (hahead : Ahead creating.timers s) :
    Agrees limits [] s (Progress.map id Creating.unlimited)
      (fun s' progress => progress.Leaves fun rest => Ahead rest.timers s')
      (s.concludeCreation creating)
      ((s.truncated limits).concludeCreation creating.unlimited) := by
  have hany : creating.unlimited.waits.any Option.isSome = creating.waits.any Option.isSome := by
    simp [Creating.unlimited, unlimitedWaits, List.any_map, Function.comp_def]
  have hkey : creating.unlimited.key = creating.key := rfl
  unfold concludeCreation
  rw [hany]
  split
  · exact ⟨rfl, .refl h, hahead⟩
  · simp only [world_truncated, World.get?_creations_unlimited, hkey]
    cases s.world.creations.get? creating.key with
    | none => exact ⟨rfl, .refl h, hahead⟩
    | some creation =>
        have hlength : s.world.unlimited.pools.length = s.world.pools.length :=
          List.length_map ..
        have hact : (s.truncated limits).act (.finish creating.key) =
            (s.act (.finish creating.key)).truncated limits := act_truncated limits s _ rfl
        refine ⟨?_, .act h (.finish creating.key) trivial (by simp [World.Action.call?]), trivial⟩
        simp only [Option.map_some, Creation.outcome_unlimited, hlength]
        refine Prod.ext hact ?_
        cases creation.outcome <;> rfl

theorem beginCreation_agrees (h : s.world.Limited limits) (label name : String)
    (endpoints : List Endpoint) {settings : Settings} (hsettings : settings.limits = limits) :
    Agrees limits [] s (Progress.map id Creating.unlimited)
      (fun s' progress => progress.Leaves fun rest => Ahead rest.timers s')
      (s.beginCreation label name endpoints settings)
      ((s.truncated limits).beginCreation label name endpoints settings.unlimited) := by
  unfold beginCreation
  rw [checkParameters_unlimited]
  cases checkParameters endpoints settings with
  | error reason => exact ⟨rfl, .refl h, trivial⟩
  | ok capacity =>
      let pool : Pool :=
        { name := name, label := label, endpoints := endpoints, settings := settings }
      let action : World.Action := .create s.nextKey label name endpoints settings
      have hfresh : Continues limits [] s s.freshKey.2 := .of_eq h rfl rfl (Nat.le_succ _)
      have hcreated : Continues limits [] s.freshKey.2 (s.freshKey.2.act action) :=
        .act hfresh.limited action hsettings nofun
      have hact := act_create_truncated limits s.freshKey.2 s.nextKey label name endpoints settings
      obtain ⟨heq, hopened, hahead⟩ :=
        openSlots_agrees hcreated.limited s.nextKey pool hsettings 0 capacity
      obtain ⟨heq', hconcluded, hrest⟩ :=
        concludeCreation_agrees hopened.limited ⟨s.nextKey, _⟩ hahead
      refine ⟨?_, ((hfresh.trans hcreated).trans hopened).trans hconcluded, hrest⟩
      rw [← hact] at heq
      exact (congrArg (fun opened => opened.1.concludeCreation ⟨s.nextKey, opened.2⟩) heq).trans
        heq'

theorem pollCreation_agrees (h : s.world.Limited limits) (creating : Creating)
    (hdue : Due creating.timers s) :
    Agrees limits [] s (Progress.map id Creating.unlimited)
      (fun s' progress => progress.Leaves fun rest => Ahead rest.timers s')
      (s.pollCreation creating) ((s.truncated limits).pollCreation creating.unlimited) := by
  obtain ⟨heq, hpolled, hahead⟩ := pollSlots_agrees h creating.key 0 hdue
  obtain ⟨heq', hconcluded, hrest⟩ :=
    concludeCreation_agrees hpolled.limited ⟨creating.key, _⟩ hahead
  refine ⟨?_, hpolled.trans hconcluded, hrest⟩
  exact (congrArg (fun polled => polled.1.concludeCreation ⟨creating.key, polled.2⟩) heq).trans heq'

/-! ## Building a registry -/

/-- The member without deadlines. -/
def Member.unlimited : Member → Member
  | .creating service state => .creating service state.unlimited
  | .ready service pool => .ready service pool

/-- The timers of some members. -/
def memberTimers (members : List Member) : List Nat := members.flatMap Member.timers

theorem memberTimers_append (first second : List Member) :
    memberTimers (first ++ second) = memberTimers first ++ memberTimers second :=
  List.flatMap_append

theorem memberOf_unlimited (service : String)
    (progress : Progress (Except Error PoolId) Creating) :
    memberOf service (progress.map id Creating.unlimited) =
      (memberOf service progress).map Member.unlimited := by
  cases progress with
  | done result => cases result <;> rfl
  | waiting rest => rfl

theorem ahead_of_memberOf {service : String}
    {progress : Progress (Except Error PoolId) Creating} {member : Member}
    (hleaves : progress.Leaves fun rest => Ahead rest.timers s)
    (hmember : memberOf service progress = .ok member) : Ahead member.timers s := by
  cases progress with
  | done result =>
      cases result with
      | error error => cases hmember
      | ok id =>
          cases hmember
          exact nofun
  | waiting rest =>
      cases hmember
      exact hleaves

theorem pollMember_agrees (h : s.world.Limited limits) (member : Member)
    (hdue : Due member.timers s) :
    Agrees limits [] s (Except.map Member.unlimited)
      (fun s' result => ∀ member, result = .ok member → Ahead member.timers s')
      (s.pollMember member) ((s.truncated limits).pollMember member.unlimited) := by
  cases member with
  | ready service id =>
      refine ⟨rfl, .refl h, ?_⟩
      rintro _ ⟨⟩
      exact nofun
  | creating service creating =>
      obtain ⟨heq, hpolled, hleaves⟩ := pollCreation_agrees h creating hdue
      refine ⟨?_, hpolled, fun member hmember => ahead_of_memberOf hleaves hmember⟩
      simp only [pollMember, Member.unlimited, heq, memberOf_unlimited]

theorem discard_truncated (s : Session) (member : Member) :
    (s.truncated limits).discard member.unlimited = (s.discard member).truncated limits := by
  cases member with
  | creating service creating => exact act_truncated limits s (.abandon creating.key) rfl
  | ready service id => exact act_truncated limits s (.letGo id) rfl

theorem discardAll_truncated (s : Session) (members : List Member) :
    (members.map Member.unlimited).foldl discard (s.truncated limits) =
      (members.foldl discard s).truncated limits := by
  induction members generalizing s with
  | nil => rfl
  | cons member rest ih =>
      rw [List.map_cons, List.foldl_cons, List.foldl_cons, discard_truncated, ih]

theorem Continues.discardAll (h : s.world.Limited limits) (members : List Member) :
    Continues limits own s (members.foldl discard s) := by
  induction members generalizing s with
  | nil => exact .refl h
  | cons member rest ih =>
      have hfirst : Continues limits own s (s.discard member) := by
        cases member with
        | creating service creating => exact .act h (.abandon creating.key) trivial nofun
        | ready service id => exact .act h (.letGo id) trivial nofun
      exact hfirst.trans (ih hfirst.limited)

theorem pollMembers_agrees (h : s.world.Limited limits) (before members : List Member)
    (hbefore : Ahead (memberTimers before) s) (hdue : Due (memberTimers members) s) :
    Agrees limits [] s (Except.map (List.map Member.unlimited))
      (fun s' result => ∀ all, result = .ok all → Ahead (memberTimers all) s')
      (s.pollMembers before members)
      ((s.truncated limits).pollMembers (before.map Member.unlimited)
        (members.map Member.unlimited)) := by
  induction members generalizing s before with
  | nil =>
      refine ⟨rfl, .refl h, ?_⟩
      rintro _ ⟨⟩
      exact hbefore
  | cons member rest ih =>
      obtain ⟨heq, hfirst, hahead⟩ := pollMember_agrees h member hdue.left
      simp only [pollMembers, List.map_cons, heq]
      cases hresult : (s.pollMember member).2 with
      | error error =>
          refine ⟨?_, hfirst.trans (.discardAll hfirst.limited _), nofun⟩
          simp only [Except.map, ← List.map_append, discardAll_truncated]
      | ok next =>
          have hall : Ahead (memberTimers (before ++ [next])) (s.pollMember member).1 := by
            rw [memberTimers_append]
            refine (hbefore.of_continues hfirst).append ?_
            rw [memberTimers, List.flatMap_singleton]
            exact hahead next hresult
          obtain ⟨heq', hrest, hahead'⟩ := ih hfirst.limited (before ++ [next]) hall
            (hdue.right.of_continues hfirst)
          refine ⟨?_, hfirst.trans hrest, hahead'⟩
          rw [List.map_append] at heq'
          exact heq'

theorem beginMembers_agrees (h : s.world.Limited limits) {settings : Settings}
    (hsettings : settings.limits = limits) (before : List Member)
    (services : List (String × List Endpoint)) (hbefore : Ahead (memberTimers before) s) :
    Agrees limits [] s (Except.map (List.map Member.unlimited))
      (fun s' result => ∀ all, result = .ok all → Ahead (memberTimers all) s')
      (beginMembers settings s before services)
      (beginMembers settings.unlimited (s.truncated limits) (before.map Member.unlimited)
        services) := by
  induction services generalizing s before with
  | nil =>
      refine ⟨rfl, .refl h, ?_⟩
      rintro _ ⟨⟩
      exact hbefore
  | cons service rest ih =>
      obtain ⟨service, endpoints⟩ := service
      obtain ⟨heq, hfirst, hleaves⟩ := beginCreation_agrees h service service endpoints hsettings
      simp only [beginMembers, heq, memberOf_unlimited]
      cases hresult : memberOf service (s.beginCreation service service endpoints settings).2 with
      | error error =>
          refine ⟨?_, hfirst.trans (.discardAll hfirst.limited _), nofun⟩
          simp only [Except.map, discardAll_truncated]
      | ok member =>
          have hall : Ahead (memberTimers (before ++ [member]))
              (s.beginCreation service service endpoints settings).1 := by
            rw [memberTimers_append]
            refine (hbefore.of_continues hfirst).append ?_
            rw [memberTimers, List.flatMap_singleton]
            exact ahead_of_memberOf hleaves hresult
          obtain ⟨heq', hrest, hahead'⟩ := ih hfirst.limited (before ++ [member]) hall
          refine ⟨?_, hfirst.trans hrest, hahead'⟩
          rw [List.map_append] at heq'
          exact heq'

theorem registryOf?_unlimited (members : List Member) :
    registryOf? (members.map Member.unlimited) = registryOf? members := by
  unfold registryOf?
  rw [List.mapM_map]
  congr 2
  funext member
  cases member <;> rfl

theorem concludeBuild_agrees (h : s.world.Limited limits) (result : Except Error (List Member))
    (hahead : ∀ all, result = .ok all → Ahead (memberTimers all) s) :
    Agrees limits [] s (Progress.map id (List.map Member.unlimited))
      (fun s' progress => progress.Leaves fun rest => Ahead (memberTimers rest) s')
      (s.concludeBuild result)
      ((s.truncated limits).concludeBuild (result.map (List.map Member.unlimited))) := by
  cases result with
  | error error => exact ⟨rfl, .refl h, trivial⟩
  | ok members =>
      simp only [concludeBuild, Except.map, registryOf?_unlimited]
      cases registryOf? members with
      | none => exact ⟨rfl, .refl h, hahead members rfl⟩
      | some registry =>
          refine ⟨?_, .of_eq h rfl rfl (Nat.le_refl _), trivial⟩
          rw [List.length_map]
          rfl

theorem beginBuild_agrees (h : s.world.Limited limits) (services : List (String × List Endpoint))
    (heartbeats : List String) {settings : Settings} (hsettings : settings.limits = limits) :
    Agrees limits [] s (Progress.map id (List.map Member.unlimited))
      (fun s' progress => progress.Leaves fun rest => Ahead (memberTimers rest) s')
      (s.beginBuild services heartbeats settings)
      ((s.truncated limits).beginBuild services heartbeats settings.unlimited) := by
  unfold beginBuild
  split
  · exact ⟨rfl, .refl h, trivial⟩
  · obtain ⟨heq, hbegun, hahead⟩ := beginMembers_agrees h hsettings [] services nofun
    obtain ⟨heq', hconcluded, hleaves⟩ := concludeBuild_agrees hbegun.limited _ hahead
    refine ⟨?_, hbegun.trans hconcluded, hleaves⟩
    exact (congrArg (fun begun => begun.1.concludeBuild begun.2) heq).trans heq'

theorem pollBuild_agrees (h : s.world.Limited limits) (members : List Member)
    (hdue : Due (memberTimers members) s) :
    Agrees limits [] s (Progress.map id (List.map Member.unlimited))
      (fun s' progress => progress.Leaves fun rest => Ahead (memberTimers rest) s')
      (s.pollBuild members) ((s.truncated limits).pollBuild (members.map Member.unlimited)) := by
  obtain ⟨heq, hpolled, hahead⟩ := pollMembers_agrees h [] members nofun hdue
  obtain ⟨heq', hconcluded, hleaves⟩ := concludeBuild_agrees hpolled.limited _ hahead
  refine ⟨?_, hpolled.trans hconcluded, hleaves⟩
  exact (congrArg (fun polled => polled.1.concludeBuild polled.2) heq).trans heq'

end Session

end HeartbeatPool
