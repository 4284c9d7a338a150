import HeartbeatPool.Proofs.LockstepCalls

/-!
# Steps and tasks in lockstep

Truncating a session truncates its steps: what they script is cut off at the limits, and the pools
that they create have none.  Each step begins and goes on as the truncated one does
(`beginStep_agrees`, `pollActivity_agrees`), and so do tasks.

Tasks run side by side, and each of them must leave the calls of the others alone.  `Left` says of
which calls some task waits: they are under way, and were its own or are new.  Two tasks that run
one after the other so keep their calls apart (`Left.append`).
-/

namespace HeartbeatPool

/-! ## Truncated steps -/

mutual

/-- The step with all it scripts cut off at the limits, by which no pool is given any. -/
def Step.truncated (limits : Limits) : Step → Step
  | .setDial address queue usual =>
      .setDial address (queue.map (List.map (Outcome.truncated limits.dial)))
        (usual.map (Outcome.truncated limits.dial))
  | .setProbe address queue usual =>
      .setProbe address (queue.map (List.map (Outcome.truncated limits.heartbeat)))
        (usual.map (Outcome.truncated limits.heartbeat))
  | .setQueue queue => .setQueue (queue.map (Outcome.truncated limits.dial))
  | .create key name endpoints settings => .create key name endpoints settings.unlimited
  | .build registry source heartbeats settings =>
      .build registry source heartbeats settings.unlimited
  | .parallel tasks => .parallel (truncatedGroup limits tasks)
  | step => step

/-- The truncated tasks. -/
def truncatedGroup (limits : Limits) : List (List Step) → List (List Step)
  | [] => []
  | steps :: rest => truncatedSteps limits steps :: truncatedGroup limits rest

/-- The truncated steps. -/
def truncatedSteps (limits : Limits) : List Step → List Step
  | [] => []
  | step :: rest => step.truncated limits :: truncatedSteps limits rest

end

mutual

/-- All pools that a step creates have the same limits. -/
def Step.HasLimits (limits : Limits) : Step → Prop
  | .create _ _ _ settings => settings.limits = limits
  | .build _ _ _ settings => settings.limits = limits
  | .parallel tasks => GroupHasLimits limits tasks
  | _ => True

/-- All pools that some tasks create have the same limits. -/
def GroupHasLimits (limits : Limits) : List (List Step) → Prop
  | [] => True
  | steps :: rest => StepsHaveLimits limits steps ∧ GroupHasLimits limits rest

/-- All pools that some steps create have the same limits. -/
def StepsHaveLimits (limits : Limits) : List Step → Prop
  | [] => True
  | step :: rest => step.HasLimits limits ∧ StepsHaveLimits limits rest

end

mutual

/-- The waiting step without deadlines. -/
def Activity.truncated (limits : Limits) : Activity → Activity
  | .asleep wake => .asleep wake
  | .acquiring acquiring => .acquiring acquiring.unlimited
  | .creating pool creating stall => .creating pool creating.unlimited stall
  | .building registry members stall =>
      .building registry (members.map Session.Member.unlimited) stall
  | .group tasks => .group (truncatedTasks limits tasks)

/-- The task without deadlines, with truncated steps to come. -/
def Task.truncated (limits : Limits) : Task → Task
  | .finished results => .finished (unlimitedResults results)
  | .waiting results activity rest =>
      .waiting (unlimitedResults results) (activity.truncated limits) (truncatedSteps limits rest)

/-- The tasks without deadlines, with truncated steps to come. -/
def truncatedTasks (limits : Limits) : List Task → List Task
  | [] => []
  | task :: rest => task.truncated limits :: truncatedTasks limits rest

end

mutual

/-- All pools that a waiting step is yet to create have the same limits. -/
def Activity.HasLimits (limits : Limits) : Activity → Prop
  | .group tasks => TasksHaveLimits limits tasks
  | _ => True

/-- All pools that a task is yet to create have the same limits. -/
def Task.HasLimits (limits : Limits) : Task → Prop
  | .finished _ => True
  | .waiting _ activity rest => activity.HasLimits limits ∧ StepsHaveLimits limits rest

/-- All pools that some tasks are yet to create have the same limits. -/
def TasksHaveLimits (limits : Limits) : List Task → Prop
  | [] => True
  | task :: rest => task.HasLimits limits ∧ TasksHaveLimits limits rest

end

mutual

/-- The calls that a step waits for. -/
def Activity.keys : Activity → List Key
  | .acquiring acquiring => [acquiring.key]
  | .group tasks => keysOfAll tasks
  | _ => []

/-- The calls that a task waits for. -/
def Task.keys : Task → List Key
  | .finished _ => []
  | .waiting _ activity _ => activity.keys

/-- The calls that some tasks wait for. -/
def keysOfAll : List Task → List Key
  | [] => []
  | task :: rest => task.keys ++ keysOfAll rest

end

theorem unlimitedResults_append (first second : List (Reply × Nat)) :
    unlimitedResults (first ++ second) = unlimitedResults first ++ unlimitedResults second := by
  induction first with
  | nil => rfl
  | cons result rest ih => exact congrArg (_ :: ·) ih

theorem results?_truncated (limits : Limits) (tasks : List Task) :
    results? (truncatedTasks limits tasks) = (results? tasks).map unlimitedGroup := by
  induction tasks with
  | nil => rfl
  | cons task rest ih =>
      cases task with
      | finished results =>
          simp only [truncatedTasks, Task.truncated, results?, ih, Option.map_map]
          rfl
      | waiting results activity steps => rfl

theorem groupProgress_truncated (limits : Limits) (tasks : List Task) :
    groupProgress (truncatedTasks limits tasks) =
      (groupProgress tasks).map Reply.unlimited (Activity.truncated limits) := by
  unfold groupProgress
  rw [results?_truncated]
  cases results? tasks with
  | none => rfl
  | some results => rfl

namespace Session

variable {limits : Limits} {own own' : List Key} {base base' : Key} {s s' s'' : Session}

/-! ## What is left -/

/-- Different calls that are under way. -/
structure UnderWay (keys : List Key) (s : Session) : Prop where
  nodup : keys.Nodup
  old : ∀ key ∈ keys, key < s.nextKey
  call : ∀ key ∈ keys, (s.world.calls.get? key).isSome

theorem UnderWay.nil : UnderWay [] s := ⟨List.nodup_nil, nofun, nofun⟩

theorem UnderWay.singleton {key : Key} (hold : key < s.nextKey)
    (hcall : (s.world.calls.get? key).isSome) : UnderWay [key] s where
  nodup := List.nodup_cons.mpr ⟨List.not_mem_nil, List.nodup_nil⟩
  old := List.forall_mem_singleton.mpr hold
  call := List.forall_mem_singleton.mpr hcall

theorem UnderWay.left {first second : List Key} (h : UnderWay (first ++ second) s) :
    UnderWay first s where
  nodup := (List.nodup_append.mp h.nodup).1
  old key hkey := h.old key (List.mem_append_left second hkey)
  call key hkey := h.call key (List.mem_append_left second hkey)

theorem UnderWay.right {first second : List Key} (h : UnderWay (first ++ second) s) :
    UnderWay second s where
  nodup := (List.nodup_append.mp h.nodup).2.1
  old key hkey := h.old key (List.mem_append_right first hkey)
  call key hkey := h.call key (List.mem_append_right first hkey)

theorem UnderWay.of_continues {keys : List Key} (h : UnderWay keys s)
    (hs : Continues limits own s s') (hapart : ∀ key ∈ keys, key ∉ own) : UnderWay keys s' where
  nodup := h.nodup
  old key hkey := Nat.lt_of_lt_of_le (h.old key hkey) hs.nextKey
  call key hkey := by
    rw [hs.calls key (h.old key hkey) (hapart key hkey)]
    exact h.call key hkey

/-- What is left of something: all its timers are ahead, and all calls that it waits for are under
way, its own or new ones. -/
structure Left (own : List Key) (base : Key) (timers : List Nat) (keys : List Key)
    (s : Session) : Prop where
  ahead : Ahead timers s
  underWay : UnderWay keys s
  known : ∀ key ∈ keys, key ∈ own ∨ base ≤ key

namespace Left

theorem nil : Left own base [] [] s := ⟨nofun, .nil, nofun⟩

theorem of_ahead {timers : List Nat} (h : Ahead timers s) : Left own base timers [] s :=
  ⟨h, .nil, nofun⟩

theorem forget {timers : List Nat} {keys : List Key} (h : Left own base timers keys s)
    (hown : ∀ key ∈ own, key ∈ own' ∨ base' ≤ key) (hbase : base' ≤ base) :
    Left own' base' timers keys s where
  ahead := h.ahead
  underWay := h.underWay
  known key hkey := by
    rcases h.known key hkey with hold | hnew
    · exact hown key hold
    · exact Or.inr (Nat.le_trans hbase hnew)

/-- Two that run one after the other, each on its own calls, keep apart. -/
theorem append {timers timers' : List Nat} {keys keys' : List Key}
    (h : Left own s.nextKey timers keys s') (hs : Continues limits own s s')
    (hs' : Continues limits own' s' s'') (h' : Left own' s'.nextKey timers' keys' s'')
    (hown : UnderWay (own ++ own') s) :
    Left (own ++ own') s.nextKey (timers ++ timers') (keys ++ keys') s'' := by
  obtain ⟨-, -, hdisjoint⟩ := List.nodup_append.mp hown.nodup
  -- what the first waits for is not the second's own: that was neither the first's nor new
  have hapart : ∀ key ∈ keys, key ∉ own' := by
    intro key hkey hmem
    rcases h.known key hkey with hold | hnew
    · exact hdisjoint key hold key hmem rfl
    · exact Nat.not_lt.mpr hnew (hown.old key (List.mem_append_right own hmem))
  have hdifferent : ∀ key ∈ keys, ∀ key' ∈ keys', key ≠ key' := by
    rintro key hkey _ hkey' rfl
    rcases h'.known key hkey' with hold | hnew
    · exact hapart key hkey hold
    · exact Nat.not_lt.mpr hnew (h.underWay.old key hkey)
  have hfirst := h.underWay.of_continues hs' hapart
  refine ⟨(h.ahead.of_continues hs').append h'.ahead, ⟨?_, ?_, ?_⟩, ?_⟩
  · exact List.nodup_append.mpr ⟨hfirst.nodup, h'.underWay.nodup, hdifferent⟩
  · exact List.forall_mem_append.mpr ⟨hfirst.old, h'.underWay.old⟩
  · exact List.forall_mem_append.mpr ⟨hfirst.call, h'.underWay.call⟩
  · refine List.forall_mem_append.mpr ⟨fun key hkey => ?_, fun key hkey => ?_⟩
    · exact (h.known key hkey).imp_left (List.mem_append_left own')
    · rcases h'.known key hkey with hold | hnew
      · exact Or.inl (List.mem_append_right own hold)
      · exact Or.inr (Nat.le_trans hs.nextKey hnew)

end Left

/-- The progress of a step agrees with that of the truncated one. -/
abbrev StepAgrees (limits : Limits) (own : List Key) (s : Session)
    (here there : Session × Progress Reply Activity) : Prop :=
  Agrees limits own s (Progress.map Reply.unlimited (Activity.truncated limits))
    (fun s' progress => progress.Leaves fun rest =>
      rest.HasLimits limits ∧ Left own s.nextKey (timersOf rest) rest.keys s')
    here there

/-- The progress of a task agrees with that of the truncated one. -/
abbrev TaskAgrees (limits : Limits) (own : List Key) (s : Session)
    (here there : Session × Task) : Prop :=
  Agrees limits own s (Task.truncated limits)
    (fun s' task => task.HasLimits limits ∧ Left own s.nextKey (timersOfTask task) task.keys s')
    here there

/-- The progress of some tasks agrees with that of the truncated ones. -/
abbrev TasksAgree (limits : Limits) (own : List Key) (s : Session)
    (here there : Session × List Task) : Prop :=
  Agrees limits own s (truncatedTasks limits)
    (fun s' tasks =>
      TasksHaveLimits limits tasks ∧ Left own s.nextKey (timersOfAll tasks) (keysOfAll tasks) s')
    here there

/-! ## What takes time -/

theorem creationProgress_agrees {here there : Session × Progress (Except Error PoolId) Creating}
    (h : Agrees limits [] s (Progress.map id Creating.unlimited)
      (fun s' progress => progress.Leaves fun rest => Ahead rest.timers s') here there)
    (pool : String) (stall : Nat) :
    StepAgrees limits [] s (creationProgress pool stall here)
      (creationProgress pool stall there) := by
  obtain ⟨rfl, hcontinues, hleaves⟩ := h
  obtain ⟨s', result | creating⟩ := here
  · cases result with
    | error error => exact ⟨rfl, hcontinues, trivial⟩
    | ok id =>
        refine ⟨?_, hcontinues.trans (.keepPool hcontinues.limited pool id), trivial⟩
        exact congrArg (·, _) (keepPool_truncated limits s' pool id)
  · by_cases hstall : stall ≤ s'.now
    · have hact : (s'.truncated limits).act (.abandon creating.key) =
          (s'.act (.abandon creating.key)).truncated limits := act_truncated limits s' _ rfl
      have habandoned : Continues limits [] s' (s'.act (.abandon creating.key)) :=
        .act hcontinues.limited (.abandon creating.key) trivial nofun
      have hstall' : stall ≤ (s'.truncated limits).now := hstall
      simp only [creationProgress, Progress.map]
      rw [if_pos hstall, if_pos hstall']
      exact ⟨Prod.ext hact rfl, hcontinues.trans habandoned, trivial⟩
    · have hstall' : ¬ stall ≤ (s'.truncated limits).now := hstall
      simp only [creationProgress, Progress.map]
      rw [if_neg hstall, if_neg hstall']
      have hbefore : Ahead [stall] s' := .singleton (Nat.lt_of_not_le hstall)
      exact ⟨rfl, hcontinues, trivial, .of_ahead (Ahead.append hleaves hbefore)⟩

theorem buildProgress_agrees {here there : Session × Progress (Except Error Registry) (List Member)}
    (h : Agrees limits [] s (Progress.map id (List.map Member.unlimited))
      (fun s' progress => progress.Leaves fun rest => Ahead (memberTimers rest) s') here there)
    (registry : String) (stall : Nat) :
    StepAgrees limits [] s (buildProgress registry stall here)
      (buildProgress registry stall there) := by
  obtain ⟨rfl, hcontinues, hleaves⟩ := h
  obtain ⟨s', result | members⟩ := here
  · cases result with
    | error error => exact ⟨rfl, hcontinues, trivial⟩
    | ok pools =>
        refine ⟨?_, hcontinues.trans (.keepRegistry hcontinues.limited registry pools), trivial⟩
        exact congrArg (·, _) (keepRegistry_truncated limits s' registry pools)
  · by_cases hstall : stall ≤ s'.now
    · have hstall' : stall ≤ (s'.truncated limits).now := hstall
      simp only [buildProgress, Progress.map]
      rw [if_pos hstall, if_pos hstall']
      refine ⟨Prod.ext (discardAll_truncated s' members) rfl, ?_, trivial⟩
      exact hcontinues.trans (.discardAll hcontinues.limited members)
    · have hstall' : ¬ stall ≤ (s'.truncated limits).now := hstall
      simp only [buildProgress, Progress.map]
      rw [if_neg hstall, if_neg hstall']
      have hbefore : Ahead [stall] s' := .singleton (Nat.lt_of_not_le hstall)
      exact ⟨rfl, hcontinues, trivial, .of_ahead (Ahead.append hleaves hbefore)⟩

theorem acquireProgress_agrees {here there : Session × Progress Reply Acquiring}
    (h : Agrees limits own s (Progress.map Reply.unlimited Acquiring.unlimited)
      (fun s' progress => progress.Leaves fun rest =>
        Left own s.nextKey rest.timers [rest.key] s') here there) :
    StepAgrees limits own s (acquireProgress here) (acquireProgress there) := by
  obtain ⟨rfl, hcontinues, hleaves⟩ := h
  obtain ⟨s', reply | acquiring⟩ := here
  · exact ⟨rfl, hcontinues, trivial⟩
  · exact ⟨rfl, hcontinues, trivial, hleaves⟩

theorem groupProgress_agrees {here there : Session × List Task}
    (h : TasksAgree limits own s here there) :
    StepAgrees limits own s (here.1, groupProgress here.2) (there.1, groupProgress there.2) := by
  obtain ⟨rfl, hcontinues, hlimits, hleft⟩ := h
  refine ⟨congrArg (_, ·) (groupProgress_truncated limits here.2), hcontinues, ?_⟩
  unfold groupProgress
  cases results? here.2 with
  | none => exact ⟨hlimits, hleft⟩
  | some results => exact trivial

/-! ## How steps begin -/

theorem Continues.takeLoan (h : s.world.Limited limits) {name : String} {taken : Key × Session}
    (htaken : s.takeLoan name = some taken) : Continues limits own s taken.2 := by
  obtain ⟨key, -, rfl⟩ := Option.map_eq_some_iff.mp htaken
  exact .of_eq h rfl rfl (Nat.le_refl _)

theorem Continues.dropNamed (h : s.world.Limited limits) (name : String) :
    Continues limits own s (s.dropNamed name) := by
  unfold Session.dropNamed
  cases htaken : s.takeLoan name with
  | none => exact .refl h
  | some taken =>
      have hcontinues : Continues limits own s taken.2 := .takeLoan h htaken
      exact hcontinues.trans (.act hcontinues.limited (.drop taken.1) trivial nofun)

theorem Continues.releaseLoan (h : s.world.Limited limits) (target : Target) (name : String) :
    Continues limits own s (s.releaseLoan target name).1 := by
  unfold Session.releaseLoan
  cases s.resolve target with
  | error what => exact .refl h
  | ok destination =>
      cases htaken : s.takeLoan name with
      | none => exact .refl h
      | some taken =>
          have hcontinues : Continues limits own s taken.2 := .takeLoan h htaken
          cases destination with
          | none => exact hcontinues.trans (.act hcontinues.limited (.refuse _ _) trivial nofun)
          | some id =>
              exact hcontinues.trans (.act hcontinues.limited (.release _ id) trivial nofun)

theorem releaseLoan_reply (session : Session) (target : Target) (name : String) :
    (session.releaseLoan target name).2.unlimited = (session.releaseLoan target name).2 := by
  unfold releaseLoan
  cases session.resolve target with
  | error what => rfl
  | ok destination =>
      rcases session.takeLoan name with _ | ⟨key, session⟩
      · rfl
      · cases destination with
        | none => rfl
        | some id =>
            simp only
            cases session.world.releaseError? key id <;> rfl

theorem Continues.tagLoan (h : s.world.Limited limits) (name : String) (tag : Option String)
    (sick : Option Bool) : Continues limits own s (s.tagLoan name tag sick).1 := by
  unfold Session.tagLoan
  cases s.loanAt name with
  | none => exact .refl h
  | some loan => exact .of_eq h rfl rfl (Nat.le_refl _)

theorem tagLoan_reply (session : Session) (name : String) (tag : Option String)
    (sick : Option Bool) :
    (session.tagLoan name tag sick).2.unlimited = (session.tagLoan name tag sick).2 := by
  unfold tagLoan
  cases session.loanAt name <;> rfl

theorem Continues.swapLoans (h : s.world.Limited limits) (first second : String) :
    Continues limits own s (s.swapLoans first second).1 := by
  have hdropped : Continues limits own s (s.dropNamed first) := .dropNamed h first
  rw [swapLoans_eq]
  split
  · split
    · exact hdropped
    · exact .act h (.swap _ _) trivial nofun
  · exact hdropped.trans (.dropNamed hdropped.limited second)

theorem swapLoans_reply (session : Session) (first second : String) :
    (session.swapLoans first second).2.unlimited = (session.swapLoans first second).2 := by
  rw [swapLoans_eq]
  split
  · split <;> rfl
  · rfl

-- The equations of `beginStep` are worked out here, and not by each lemma about a step anew.
attribute [local simp] beginStep

/-- A step that has ended in no time, with a result that has no limits in it. -/
theorem done_agrees {here there : Session × Reply} (h : Continues limits [] s here.1)
    (hreply : here.2.unlimited = here.2) (hthere : there = (here.1.truncated limits, here.2)) :
    StepAgrees limits [] s (here.1, .done here.2) (there.1, .done there.2) := by
  subst hthere
  exact ⟨congrArg (fun reply => (_, Progress.done reply)) hreply.symm, h, trivial⟩

theorem still_agrees (h : s.world.Limited limits) {reply : Reply}
    (hreply : reply.unlimited = reply) :
    StepAgrees limits [] s (s, .done reply) (s.truncated limits, .done reply) :=
  ⟨congrArg (fun reply => (_, Progress.done reply)) hreply.symm, .refl h, trivial⟩

theorem sleep_agrees (h : s.world.Limited limits) (duration : Nat) :
    StepAgrees limits [] s (s.beginStep (.sleep duration))
      ((s.truncated limits).beginStep (.sleep duration)) := by
  change StepAgrees limits [] s (if duration = 0 then _ else _) (if duration = 0 then _ else _)
  by_cases hzero : duration = 0
  · rw [if_pos hzero, if_pos hzero]
    exact ⟨rfl, .refl h, trivial⟩
  · rw [if_neg hzero, if_neg hzero]
    have hlater : s.now < later s.now duration := by
      unfold later longestDelay
      omega
    exact ⟨rfl, .refl h, trivial, .of_ahead (.singleton hlater)⟩

theorem acquire_agrees (h : s.world.Limited limits) (target : Target) (name : String)
    (limit : Option Nat) :
    StepAgrees limits [] s (s.beginStep (.acquire target name limit))
      ((s.truncated limits).beginStep (.acquire target name limit)) := by
  -- the tables of names are the same in both, so they find the same target
  simp only [beginStep, resolve_truncated]
  cases s.resolve target with
  | error what => exact ⟨rfl, .refl h, trivial⟩
  | ok found =>
      cases found with
      | none =>
          -- the service is unknown to both, and both report it
          have hact : (s.truncated limits).act (.reportUnknown (serviceOf target)) =
              (s.act (.reportUnknown (serviceOf target))).truncated limits :=
            act_truncated limits s _ rfl
          refine ⟨Prod.ext hact rfl, ?_, trivial⟩
          exact .act h (.reportUnknown (serviceOf target)) trivial (by simp [World.Action.call?])
      | some id =>
          -- both begin the call, and it is the only one that is new
          obtain ⟨heq, hbegun, hleaves⟩ := beginAcquire_agrees h id name limit
          refine acquireProgress_agrees ⟨heq, hbegun, ?_⟩
          cases hprogress : (s.beginAcquire id name limit).2 with
          | done reply => exact trivial
          | waiting acquiring =>
              rw [hprogress] at hleaves
              obtain ⟨hkey, hold, hahead, hcall⟩ := hleaves
              refine ⟨hahead, .singleton hold hcall, ?_⟩
              intro key hmem
              rw [List.mem_singleton.mp hmem, hkey]
              exact Or.inr (Nat.le_refl _)

theorem setDial_agrees (h : s.world.Limited limits) (address : String)
    (queue : Option (List Outcome)) (usual : Option Outcome) :
    StepAgrees limits [] s (s.beginStep (.setDial address queue usual))
      ((s.truncated limits).beginStep (Step.truncated limits (.setDial address queue usual))) := by
  refine ⟨?_, .withScript h _, trivial⟩
  have hscript := Script.changeDials_truncated limits s.script address queue usual
  exact congrArg (fun script => ({ s.truncated limits with script := script }, _)) hscript.symm

theorem setProbe_agrees (h : s.world.Limited limits) (address : String)
    (queue : Option (List Outcome)) (usual : Option Outcome) :
    StepAgrees limits [] s (s.beginStep (.setProbe address queue usual))
      ((s.truncated limits).beginStep (Step.truncated limits (.setProbe address queue usual))) := by
  refine ⟨?_, .withScript h _, trivial⟩
  have hscript := Script.changeProbes_truncated limits s.script address queue usual
  exact congrArg (fun script => ({ s.truncated limits with script := script }, _)) hscript.symm

theorem build_agrees (h : s.world.Limited limits) (registry : String) (source : ServiceSource)
    (heartbeats : List String) {settings : Settings} (hsettings : settings.limits = limits) :
    StepAgrees limits [] s (s.beginStep (.build registry source heartbeats settings))
      ((s.truncated limits).beginStep (.build registry source heartbeats settings.unlimited)) := by
  cases source with
  | listed services =>
      simp only [beginStep]
      exact buildProgress_agrees (beginBuild_agrees h services heartbeats hsettings) registry _
  | configuration text =>
      simp only [beginStep]
      cases ClientConfig.ofText text with
      | error error => exact still_agrees h rfl
      | ok config =>
          exact buildProgress_agrees
            (beginBuild_agrees h (config.services .ofFile) heartbeats hsettings) registry _

theorem drop_agrees (h : s.world.Limited limits) (name : String) :
    StepAgrees limits [] s (s.beginStep (.drop name))
      ((s.truncated limits).beginStep (.drop name)) := by
  simp only [beginStep, takeLoan_truncated]
  cases htaken : s.takeLoan name with
  | none => exact still_agrees h rfl
  | some taken =>
      have hcontinues : Continues limits [] s taken.2 := .takeLoan h htaken
      have hact : (taken.2.truncated limits).act (.drop taken.1) =
          (taken.2.act (.drop taken.1)).truncated limits := act_truncated limits taken.2 _ rfl
      refine ⟨Prod.ext hact rfl, ?_, trivial⟩
      exact hcontinues.trans
        (.act hcontinues.limited (.drop taken.1) trivial (by simp [World.Action.call?]))

theorem dropPool_agrees (h : s.world.Limited limits) (key : String) :
    StepAgrees limits [] s (s.beginStep (.dropPool key))
      ((s.truncated limits).beginStep (.dropPool key)) := by
  simp only [beginStep, pools_truncated]
  cases s.pools.get? key with
  | none => exact still_agrees h rfl
  | some id =>
      let erased : Session := { s with pools := s.pools.erase key }
      have hcontinues : Continues limits [] s erased := .of_eq h rfl rfl (Nat.le_refl _)
      have hact : (erased.truncated limits).act (.letGo id) =
          (erased.act (.letGo id)).truncated limits := act_truncated limits erased _ rfl
      refine ⟨Prod.ext hact rfl, ?_, trivial⟩
      exact hcontinues.trans
        (.act hcontinues.limited (.letGo id) trivial (by simp [World.Action.call?]))

theorem look_agrees (h : s.world.Limited limits) (name : String) :
    StepAgrees limits [] s (s.beginStep (.look name))
      ((s.truncated limits).beginStep (.look name)) := by
  simp only [beginStep, loanAt_truncated]
  cases s.loanAt name <;> exact still_agrees h rfl

/-- Only here does a result show limits. -/
theorem observe_agrees (h : s.world.Limited limits) (target : Target) :
    StepAgrees limits [] s (s.beginStep (.observe target))
      ((s.truncated limits).beginStep (.observe target)) := by
  simp only [beginStep, resolve_truncated]
  cases s.resolve target with
  | error what => exact still_agrees h rfl
  | ok found =>
      refine ⟨?_, .refl h, trivial⟩
      cases found with
      | none => rfl
      | some id =>
          simp only [Option.map_some, viewPool_truncated]
          rfl

theorem services_agrees (h : s.world.Limited limits) (registry : String) :
    StepAgrees limits [] s (s.beginStep (.services registry))
      ((s.truncated limits).beginStep (.services registry)) := by
  simp only [beginStep, registries_truncated]
  cases s.registries.get? registry <;> exact still_agrees h rfl

theorem outline_agrees (h : s.world.Limited limits) (subject : Subject) (pretty : Bool) :
    StepAgrees limits [] s (s.beginStep (.outline subject pretty))
      ((s.truncated limits).beginStep (.outline subject pretty)) := by
  simp only [beginStep, outlineOf_truncated]
  cases s.outlineOf subject <;> exact still_agrees h rfl

/-! ## Tasks -/

/-- What comes after a step of a task: the steps that are left, unless it waits. -/
def concludeStep (results : List (Reply × Nat)) (rest : List Step)
    (progress : Session × Progress Reply Activity) : Session × Task :=
  match progress with
  | (session, .done reply) => session.proceed (results ++ [(reply, session.now)]) rest
  | (session, .waiting activity) => (session, .waiting results activity rest)

theorem proceed_cons (session : Session) (results : List (Reply × Nat)) (step : Step)
    (rest : List Step) :
    session.proceed results (step :: rest) =
      concludeStep results rest (session.beginStep step) := by
  rw [proceed]
  rfl

theorem pollTask_waiting (session : Session) (results : List (Reply × Nat)) (activity : Activity)
    (rest : List Step) :
    session.pollTask (.waiting results activity rest) =
      concludeStep results rest (session.pollActivity activity) := by
  rw [pollTask]
  rfl

theorem concludeStep_agrees {here there : Session × Progress Reply Activity}
    (h : StepAgrees limits own s here there) (results : List (Reply × Nat)) {rest : List Step}
    (hrest : StepsHaveLimits limits rest)
    (hproceed : ∀ (s : Session) (results : List (Reply × Nat)), s.world.Limited limits →
      TaskAgrees limits [] s (s.proceed results rest)
        ((s.truncated limits).proceed (unlimitedResults results) (truncatedSteps limits rest))) :
    TaskAgrees limits own s (concludeStep results rest here)
      (concludeStep (unlimitedResults results) (truncatedSteps limits rest) there) := by
  obtain ⟨rfl, hcontinues, hleaves⟩ := h
  obtain ⟨s', reply | activity⟩ := here
  · obtain ⟨heq, hproceeded, hlimits, hleft⟩ :=
      hproceed s' (results ++ [(reply, s'.now)]) hcontinues.limited
    rw [unlimitedResults_append] at heq
    refine ⟨heq, hcontinues.trans (hproceeded.forget nofun), hlimits, ?_⟩
    exact hleft.forget nofun hcontinues.nextKey
  · obtain ⟨hlimits, hleft⟩ := hleaves
    exact ⟨rfl, hcontinues, ⟨hlimits, hrest⟩, hleft⟩

/-- One task runs after the other, each on its own calls. -/
theorem cons_agrees {here there : Session × Task} {here' there' : Session × List Task}
    (h : TaskAgrees limits own s here there) (h' : TasksAgree limits own' here.1 here' there')
    (hown : UnderWay (own ++ own') s) :
    TasksAgree limits (own ++ own') s (here'.1, here.2 :: here'.2)
      (there'.1, there.2 :: there'.2) := by
  obtain ⟨rfl, hfirst, hlimits, hleft⟩ := h
  obtain ⟨rfl, hrest, hlimits', hleft'⟩ := h'
  refine ⟨rfl, ?_, ⟨hlimits, hlimits'⟩, hleft.append hfirst hrest hleft' hown⟩
  refine Continues.trans (hfirst.forget ?_) (hrest.forget ?_)
  · exact fun key hkey => Or.inl (List.mem_append_left own' hkey)
  · exact fun key hkey => Or.inl (List.mem_append_right own hkey)

mutual

/-- A step begins as the truncated one does. -/
theorem beginStep_agrees {s : Session} (h : s.world.Limited limits) (step : Step)
    (hstep : step.HasLimits limits) :
    StepAgrees limits [] s (s.beginStep step)
      ((s.truncated limits).beginStep (step.truncated limits)) := by
  match step, hstep with
  | .setDial address queue usual, _ => exact setDial_agrees h address queue usual
  | .setProbe address queue usual, _ => exact setProbe_agrees h address queue usual
  | .setQueue queue, _ => exact ⟨rfl, .withScript h _, trivial⟩
  | .create key name endpoints settings, hsettings =>
      exact creationProgress_agrees (beginCreation_agrees h key name endpoints hsettings) key _
  | .build registry source heartbeats settings, hsettings =>
      exact build_agrees h registry source heartbeats hsettings
  | .acquire target name limit, _ => exact acquire_agrees h target name limit
  | .release target name, _ =>
      exact done_agrees (.releaseLoan h target name) (releaseLoan_reply s target name)
        (releaseLoan_truncated limits s target name)
  | .drop name, _ => exact drop_agrees h name
  | .dropPool key, _ => exact dropPool_agrees h key
  | .tag name tag sick, _ =>
      exact done_agrees (.tagLoan h name tag sick) (tagLoan_reply s name tag sick)
        (tagLoan_truncated limits s name tag sick)
  | .swap first second, _ =>
      exact done_agrees (.swapLoans h first second) (swapLoans_reply s first second)
        (swapLoans_truncated limits s first second)
  | .look name, _ => exact look_agrees h name
  | .observe target, _ => exact observe_agrees h target
  | .services registry, _ => exact services_agrees h registry
  | .outline subject pretty, _ => exact outline_agrees h subject pretty
  | .sleep duration, _ => exact sleep_agrees h duration
  | .parallel tasks, htasks => exact groupProgress_agrees (beginTasks_agrees h tasks htasks)

/-- Steps are carried out as the truncated ones are. -/
theorem proceed_agrees {s : Session} (h : s.world.Limited limits) (results : List (Reply × Nat))
    (steps : List Step) (hsteps : StepsHaveLimits limits steps) :
    TaskAgrees limits [] s (s.proceed results steps)
      ((s.truncated limits).proceed (unlimitedResults results) (truncatedSteps limits steps)) := by
  match steps, hsteps with
  | [], _ => exact ⟨rfl, .refl h, trivial, .nil⟩
  | step :: rest, ⟨hstep, hrest⟩ =>
      rw [truncatedSteps, proceed_cons, proceed_cons]
      exact concludeStep_agrees (beginStep_agrees h step hstep) results hrest
        fun _ results h => proceed_agrees h results rest hrest

/-- Tasks begin as the truncated ones do. -/
theorem beginTasks_agrees {s : Session} (h : s.world.Limited limits) (tasks : List (List Step))
    (htasks : GroupHasLimits limits tasks) :
    TasksAgree limits [] s (s.beginTasks tasks)
      ((s.truncated limits).beginTasks (truncatedGroup limits tasks)) := by
  match tasks, htasks with
  | [], _ => exact ⟨rfl, .refl h, trivial, .nil⟩
  | steps :: rest, ⟨hsteps, hrest⟩ =>
      have hfirst := proceed_agrees h [] steps hsteps
      have hothers := beginTasks_agrees hfirst.continues.limited rest hrest
      rw [← hfirst.fst_eq] at hothers
      exact cons_agrees hfirst hothers .nil

end

/-! ## How steps go on -/

theorem asleep_agrees (h : s.world.Limited limits) (wake : Nat) :
    StepAgrees limits [] s (s.pollActivity (.asleep wake))
      ((s.truncated limits).pollActivity (.asleep wake)) := by
  have hnow : (s.truncated limits).now = s.now := rfl
  unfold pollActivity
  by_cases hwake : wake ≤ s.now
  · rw [if_pos hwake, if_pos (hnow ▸ hwake)]
    exact ⟨rfl, .refl h, trivial⟩
  · rw [if_neg hwake, if_neg (hnow ▸ hwake)]
    have hlater : s.now < wake := Nat.lt_of_not_le hwake
    exact ⟨rfl, .refl h, trivial, .of_ahead (.singleton hlater)⟩

/-- The call that is left is still the same. -/
theorem pollAcquire_left (h : s.world.Limited limits) {acquiring : Acquiring}
    (hkeys : UnderWay [acquiring.key] s) (hdue : Due acquiring.wait.timers s) :
    Agrees limits [acquiring.key] s (Progress.map Reply.unlimited Acquiring.unlimited)
      (fun s' progress => progress.Leaves fun rest =>
        Left [acquiring.key] s.nextKey rest.timers [rest.key] s')
      (s.pollAcquire acquiring) ((s.truncated limits).pollAcquire acquiring.unlimited) := by
  have hmem : acquiring.key ∈ [acquiring.key] := List.mem_singleton_self _
  obtain ⟨heq, hpolled, hleaves⟩ := pollAcquire_agrees h acquiring (hkeys.call _ hmem) hdue
  refine ⟨heq, hpolled, ?_⟩
  cases hprogress : (s.pollAcquire acquiring).2 with
  | done reply => exact trivial
  | waiting rest =>
      rw [hprogress] at hleaves
      obtain ⟨hkey, hahead, hcall⟩ := hleaves
      have hold : rest.key < (s.pollAcquire acquiring).1.nextKey :=
        hkey ▸ Nat.lt_of_lt_of_le (hkeys.old _ hmem) hpolled.nextKey
      exact ⟨hahead, .singleton hold hcall, fun key hleft => Or.inl (hkey ▸ hleft)⟩

mutual

/-- A step goes on as the truncated one does, if none of its timers was missed. -/
theorem pollActivity_agrees {s : Session} (h : s.world.Limited limits) (activity : Activity)
    (hlimits : activity.HasLimits limits) (hdue : Due (timersOf activity) s)
    (hkeys : UnderWay activity.keys s) :
    StepAgrees limits activity.keys s (s.pollActivity activity)
      ((s.truncated limits).pollActivity (activity.truncated limits)) := by
  match activity with
  | .asleep wake => exact asleep_agrees h wake
  | .acquiring acquiring =>
      exact acquireProgress_agrees (pollAcquire_left h hkeys hdue.left)
  | .creating pool creating stall =>
      exact creationProgress_agrees (pollCreation_agrees h creating hdue.left) pool stall
  | .building registry members stall =>
      exact buildProgress_agrees (pollBuild_agrees h members hdue.left) registry stall
  | .group tasks => exact groupProgress_agrees (pollTasks_agrees h tasks hlimits hdue hkeys)

/-- A task goes on as the truncated one does, if none of its timers was missed. -/
theorem pollTask_agrees {s : Session} (h : s.world.Limited limits) (task : Task)
    (hlimits : task.HasLimits limits) (hdue : Due (timersOfTask task) s)
    (hkeys : UnderWay task.keys s) :
    TaskAgrees limits task.keys s (s.pollTask task)
      ((s.truncated limits).pollTask (task.truncated limits)) := by
  match task with
  | .finished results => exact ⟨rfl, .refl h, trivial, .nil⟩
  | .waiting results activity rest =>
      rw [Task.truncated, pollTask_waiting, pollTask_waiting]
      exact concludeStep_agrees (pollActivity_agrees h activity hlimits.1 hdue hkeys) results
        hlimits.2 fun _ results h => proceed_agrees h results rest hlimits.2

/-- Tasks go on as the truncated ones do, if none of their timers was missed. -/
theorem pollTasks_agrees {s : Session} (h : s.world.Limited limits) (tasks : List Task)
    (hlimits : TasksHaveLimits limits tasks) (hdue : Due (timersOfAll tasks) s)
    (hkeys : UnderWay (keysOfAll tasks) s) :
    TasksAgree limits (keysOfAll tasks) s (s.pollTasks tasks)
      ((s.truncated limits).pollTasks (truncatedTasks limits tasks)) := by
  match tasks with
  | [] => exact ⟨rfl, .refl h, trivial, .nil⟩
  | task :: rest =>
      have hfirst := pollTask_agrees h task hlimits.1 hdue.left hkeys.left
      have hapart : ∀ key ∈ keysOfAll rest, key ∉ task.keys := by
        intro key hkey hmem
        exact (List.nodup_append.mp hkeys.nodup).2.2 key hmem key hkey rfl
      have hothers := pollTasks_agrees hfirst.continues.limited rest hlimits.2
        (hdue.right.of_continues hfirst.continues)
        (hkeys.right.of_continues hfirst.continues hapart)
      rw [← hfirst.fst_eq] at hothers
      exact cons_agrees hfirst hothers hkeys

end

end Session

end HeartbeatPool
