import Mathlib.Data.List.Find
import HeartbeatPool.Proofs.Members

/-!
# How a registry is built

A registry is there once all of its members are ready, and then it has the pools that the plans of
its services say (`Registers`); or one of the plans comes to an error, which is the error of the
whole, and nothing is left (`Concludes`).  From timer to timer this stays so (`Concludes.of_ends`),
and if all dials settle there is an end (`Concludes.exists_ends`).
-/

namespace HeartbeatPool

namespace Table

universe u v

variable {κ : Type u} {α : Type v} [DecidableEq κ]

/-- A new key comes last. -/
theorem put_of_not_mem {pairs : List (κ × α)} {key : κ} (h : key ∉ pairs.map Prod.fst)
    (value : α) : put pairs key value = pairs ++ [(key, value)] := by
  induction pairs with
  | nil => rfl
  | cons pair rest ih =>
      rw [List.map_cons, List.mem_cons, not_or] at h
      rw [put, if_neg fun heq => h.1 heq.symm, ih h.2, List.cons_append]

/-- The table of some pairs with different keys consists of just these pairs. -/
theorem toList_ofList {pairs : List (κ × α)} (h : (pairs.map Prod.fst).Nodup) :
    (Table.ofList pairs).toList = pairs := by
  have hfoldl (table : Table κ α) (h : ((table.toList ++ pairs).map Prod.fst).Nodup) :
      (pairs.foldl (fun table pair => table.insert pair.1 pair.2) table).toList =
        table.toList ++ pairs := by
    clear * - h
    induction pairs generalizing table with
    | nil => simp
    | cons pair rest ih =>
        have hnew : pair.1 ∉ table.toList.map Prod.fst := by
          rw [List.map_append, List.map_cons, List.nodup_append] at h
          exact fun hmem => h.2.2 _ hmem _ (List.mem_cons_self ..) rfl
        have hinsert : (table.insert pair.1 pair.2).toList = table.toList ++ [pair] :=
          put_of_not_mem hnew pair.2
        rw [List.foldl_cons, ih, hinsert, List.append_assoc, List.singleton_append]
        rwa [hinsert, List.append_assoc, List.singleton_append]
  exact hfoldl ∅ h

end Table

namespace Session

variable {s₀ s s' : Session} {plan : Plan} {plans : List Plan} {keys : List Key} {ids : List Nat}
  {member : Member} {time old : Nat}

/-! ## The end of a build -/

/-- The pools of a registry are those of some plans. -/
def Registers (s : Session) (plans : List Plan) (pairs : List (String × PoolId)) : Prop :=
  List.Forall₂ (fun plan pair => pair.1 = plan.pool.name ∧ plan.entries ≠ [] ∧
    s.world.pools[pair.2]? = some plan.stocked) plans pairs

/-- The service of a member that is ready, and its pool. -/
def Member.pair? : Member → Option (String × PoolId)
  | .creating _ _ => none
  | .ready service id => some (service, id)

theorem registryOf?_eq (members : List Member) :
    registryOf? members = (members.mapM Member.pair?).map Table.ofList := by
  unfold registryOf?
  congr 2
  funext member
  cases member <;> rfl

/-- All members are ready, unless some dial is still under way. -/
theorem mapM_members {members : List Member}
    (h : List.Forall₂ (MemberAt · time s ·) plans members) :
    (∃ plan ∈ plans, ∃ dial ∈ plan.dials, plan.isDue time dial = false) ∧
        members.mapM Member.pair? = none ∨
      ∃ pairs, members.mapM Member.pair? = some pairs ∧ s.Registers plans pairs ∧
        keysOf members = [] ∧ pairs.map Prod.snd = idsOf members := by
  induction h with
  | nil => exact Or.inr ⟨[], rfl, .nil, rfl, rfl⟩
  | @cons plan member plans members hmember hrest ih =>
      cases hmember with
      | creating hdialing hsome =>
          exact Or.inl ⟨⟨plan, List.mem_cons_self .., hsome⟩, by simp [Member.pair?]⟩
      | @ready id hpool hne =>
          rcases ih with ⟨⟨other, hother, hsome⟩, hnone⟩ | ⟨pairs, hpairs, hregisters, hkeys, hids⟩
          · exact Or.inl ⟨⟨other, List.mem_cons_of_mem _ hother, hsome⟩,
              by simp [Member.pair?, hnone]⟩
          · exact Or.inr ⟨(plan.pool.name, id) :: pairs, by simp [Member.pair?, hpairs],
              .cons ⟨rfl, hne, hpool⟩ hregisters, hkeys, congrArg _ hids⟩

theorem Registers.map_fst {pairs : List (String × PoolId)} (h : s.Registers plans pairs) :
    pairs.map Prod.fst = plans.map fun plan => plan.pool.name := by
  induction h with
  | nil => rfl
  | cons hpair _ ih => rw [List.map_cons, List.map_cons, hpair.1, ih]

theorem Registers.exists_pair {plans : List Plan} {pairs : List (String × PoolId)}
    (h : s.Registers plans pairs) {plan : Plan} (hplan : plan ∈ plans) :
    ∃ id, (plan.pool.name, id) ∈ pairs ∧ plan.entries ≠ [] ∧
      s.world.pools[id]? = some plan.stocked := by
  induction h with
  | nil => cases hplan
  | @cons first pair plans pairs hfirst hrest ih =>
      rcases List.mem_cons.mp hplan with rfl | hplan
      · exact ⟨pair.2, by rw [← hfirst.1]; exact List.mem_cons_self .., hfirst.2⟩
      · obtain ⟨id, hmem, hrest⟩ := ih hplan
        exact ⟨id, List.mem_cons_of_mem _ hmem, hrest⟩

theorem Registers.exists_plan {pairs : List (String × PoolId)} (h : s.Registers plans pairs)
    {pair : String × PoolId} (hpair : pair ∈ pairs) :
    ∃ plan ∈ plans, pair.1 = plan.pool.name ∧ s.world.pools[pair.2]? = some plan.stocked := by
  induction h with
  | nil => cases hpair
  | @cons plan first plans pairs hfirst hrest ih =>
      rcases List.mem_cons.mp hpair with rfl | hpair
      · exact ⟨plan, List.mem_cons_self .., hfirst.1, hfirst.2.2⟩
      · obtain ⟨other, hother, hrest⟩ := ih hpair
        exact ⟨other, List.mem_cons_of_mem _ hother, hrest⟩

/-- How far the building of a registry has come: some dial is still under way, the registry has the
pools of all plans, or one of the plans comes to an error and nothing is left. -/
inductive Concludes (s₀ : Session) (plans : List Plan) :
    Session × Progress (Except Error Registry) (List Member) → Prop where
  | waiting {after : Session} {members : List Member}
      (hmembers : List.Forall₂ (MemberAt · after.now after ·) plans members)
      (hapart : Apart s₀ after (keysOf members) (idsOf members))
      (hsome : ∃ plan ∈ plans, ∃ dial ∈ plan.dials, plan.isDue after.now dial = false) :
      Concludes s₀ plans (after, .waiting members)
  | ready {before after : Session} {registry : Registry} (hworld : after.world = before.world)
      (hregisters : after.Registers plans registry.toList)
      (hapart : Apart s₀ before [] registry.values) :
      Concludes s₀ plans (after, .done (.ok registry))
  | stopped {after : Session} {plan : Plan} {error : Error} (hplan : plan ∈ plans)
      (herror : plan.result = .error error) (hapart : Apart s₀ after [] []) :
      Concludes s₀ plans (after, .done (.error error))

/-- The plans of different services. -/
def Distinct (plans : List Plan) : Prop := (plans.map fun plan => plan.pool.name).Nodup

theorem concludeBuild_concludes {built : Session × Except Error (List Member)}
    (h : Builds s₀ plans built) (hdistinct : Distinct plans) :
    Concludes s₀ plans (built.1.concludeBuild built.2) := by
  cases h with
  | stopped hplan herror hapart => exact .stopped hplan herror hapart
  | @going after members hmembers hapart =>
      simp only [concludeBuild, registryOf?_eq]
      rcases mapM_members hmembers with ⟨hsome, hnone⟩ | ⟨pairs, hpairs, hregisters, hkeys, hids⟩
      · rw [hnone]
        exact .waiting hmembers hapart hsome
      · have hlist : (Table.ofList pairs).toList = pairs :=
          Table.toList_ofList (hregisters.map_fst ▸ hdistinct)
        rw [hpairs]
        refine .ready (Eq.refl after.world) ?_ ?_
        · rw [hlist]
          exact hregisters
        · rw [Table.values, hlist, hids, ← hkeys]
          exact hapart

/-! ## No time passes -/

/-- No time has passed, and nothing that was seen is forgotten. -/
structure Goes (s s' : Session) : Prop where
  now : s'.now = s.now
  seen : s.seen <+: s'.seen

namespace Goes

variable {s'' : Session}

theorem refl (s : Session) : Goes s s := ⟨rfl, List.prefix_rfl⟩

theorem trans (h : Goes s s') (h' : Goes s' s'') : Goes s s'' :=
  ⟨h'.now.trans h.now, h.seen.trans h'.seen⟩

theorem act (s : Session) (action : World.Action) : Goes s (s.act action) :=
  ⟨rfl, List.prefix_append ..⟩

theorem pollSlots (s : Session) (key : Key) (slot : Nat) (waits : List (Option Wait)) :
    Goes s (s.pollSlots key slot waits).1 := by
  induction waits generalizing s slot with
  | nil => exact .refl s
  | cons wait rest ih =>
      cases wait with
      | none => exact ih s (slot + 1)
      | some wait =>
          have hfirst : Goes s (s.pollSlot key slot wait).1 := by
            unfold pollSlot
            split
            · exact .refl s
            · next verdict _ => exact .act s (.settleSlot key slot verdict)
          exact hfirst.trans (ih _ (slot + 1))

theorem pollCreation (s : Session) (creating : Creating) : Goes s (s.pollCreation creating).1 := by
  refine (Goes.pollSlots s creating.key 0 creating.waits).trans ?_
  unfold Session.pollCreation concludeCreation
  dsimp only
  split
  · exact .refl _
  · split
    · exact .refl _
    · exact .act _ (.finish creating.key)

theorem discardAll (s : Session) (members : List Member) : Goes s (members.foldl discard s) := by
  induction members generalizing s with
  | nil => exact .refl s
  | cons member rest ih =>
      have hfirst : Goes s (s.discard member) := by
        cases member with
        | creating service state => exact .act s (.abandon state.key)
        | ready service id => exact .act s (.letGo id)
      exact hfirst.trans (ih _)

theorem pollMembers (s : Session) (before rest : List Member) :
    Goes s (s.pollMembers before rest).1 := by
  induction rest generalizing s before with
  | nil => exact .refl s
  | cons member rest ih =>
      have hfirst : Goes s (s.pollMember member).1 := by
        cases member with
        | creating service state => exact .pollCreation s state
        | ready service id => exact .refl s
      unfold Session.pollMembers
      dsimp only
      split
      · exact hfirst.trans (.discardAll _ _)
      · exact hfirst.trans (ih _ _)

theorem concludeBuild (s : Session) (result : Except Error (List Member)) :
    Goes s (s.concludeBuild result).1 := by
  unfold Session.concludeBuild
  split
  · exact .refl s
  · split
    · exact .refl s
    · exact ⟨rfl, List.prefix_append ..⟩

theorem pollBuild (s : Session) (members : List Member) : Goes s (s.pollBuild members).1 :=
  (Goes.pollMembers s [] members).trans (.concludeBuild _ _)

end Goes

/-! ## Building from timer to timer -/

variable {members : List Member}

theorem ahead_of_members (h : List.Forall₂ (MemberAt · s.now s ·) plans members) :
    Ahead (members.flatMap Member.timers) s := by
  induction h with
  | nil => exact nofun
  | cons hmember _ ih =>
      rw [List.flatMap_cons]
      refine Ahead.append ?_ ih
      cases hmember with
      | creating hdialing => exact hdialing.ahead
      | ready => exact nofun

/-- A look at the members some time after the one before, if no timer was missed in between. -/
theorem pollBuild_concludes (hlinked : s₀.world.Linked) (horderly : s₀.world.Orderly)
    (hmembers : List.Forall₂ (MemberAt · old s ·) plans members)
    (hapart : Apart s₀ s (keysOf members) (idsOf members)) (hle : old ≤ s.now)
    (hdue : Due (members.flatMap Member.timers) s) (hplans : ∀ plan ∈ plans, plan.Admitted)
    (hdistinct : Distinct plans) : Concludes s₀ plans (s.pollBuild members) := by
  have hdone : List.Forall₂ (MemberAt · s.now s ·) [] [] := .nil
  have hbuilds := pollMembers_builds hlinked horderly hdone hmembers hapart hle hdue hplans
  exact concludeBuild_concludes hbuilds hdistinct

theorem MemberAt.withNow (h : MemberAt plan time s member) (instant : Nat) :
    MemberAt plan time { s with now := instant } member :=
  h.congr (fun _ _ => rfl) fun _ _ h => h

theorem Apart.withNow (h : Apart s₀ s keys ids) (instant : Nat) :
    Apart s₀ { s with now := instant } keys ids :=
  { h with }

/-- The pools of a registry are built, and nothing else goes on. -/
abbrev EndsBuild : Session × Progress (Except Error Registry) (List Member) → Session →
    Except Error Registry → Prop :=
  Ends pollBuild (List.flatMap Member.timers)

variable {progress : Session × Progress (Except Error Registry) (List Member)} {after : Session}
  {result : Except Error Registry}

theorem ne_error_of_ends {registry : Registry} (hends : EndsBuild progress after (.ok registry))
    (error : Error) : progress.2 ≠ .done (.error error) := by
  cases hends <;> nofun

/-- From timer to timer the building of a registry goes on as the plans say. -/
theorem Concludes.jump {instant : Nat} (hlinked : s₀.world.Linked) (horderly : s₀.world.Orderly)
    (h : Concludes s₀ plans (after, .waiting members)) (hplans : ∀ plan ∈ plans, plan.Admitted)
    (hdistinct : Distinct plans)
    (hnext : nextTimer after.now (members.flatMap Member.timers) = some instant) :
    Concludes s₀ plans (pollBuild { after with now := instant } members) := by
  cases h with
  | waiting hmembers hapart hsome =>
      have hmoved := hmembers.imp fun _ _ h => MemberAt.withNow h instant
      exact pollBuild_concludes hlinked horderly hmoved (hapart.withNow instant)
        (Nat.le_of_lt (lt_of_nextTimer hnext).2)
        (due_of_nextTimer hnext (ahead_of_members hmembers)) hplans hdistinct

/-- What a build that has come to its end has come to. -/
theorem Concludes.of_ends (hlinked : s₀.world.Linked) (horderly : s₀.world.Orderly)
    (h : Concludes s₀ plans progress) (hends : EndsBuild progress after result)
    (hplans : ∀ members, progress.2 = .waiting members → ∀ plan ∈ plans, plan.Admitted)
    (hdistinct : Distinct plans) :
    (∃ registry, result = .ok registry ∧ after.Registers plans registry.toList ∧
        ∃ before, after.world = before.world ∧ Apart s₀ before [] registry.values) ∨
      ∃ plan ∈ plans, ∃ error, plan.result = .error error ∧ result = .error error ∧
        Apart s₀ after [] [] := by
  induction hends with
  | done =>
      cases h with
      | ready hworld hregisters hapart =>
          exact Or.inl ⟨_, rfl, hregisters, _, hworld, hapart⟩
      | stopped hplan herror hapart => exact Or.inr ⟨_, hplan, _, herror, rfl, hapart⟩
  | @jump s after members instant result hnext hrest ih =>
      have hadmitted := hplans members rfl
      exact ih (h.jump hlinked horderly hadmitted hdistinct hnext) fun _ _ => hadmitted

/-- The number of dials that have not come to their verdicts yet. -/
def underWay (plans : List Plan) (now : Nat) : Nat := (plans.map fun plan => plan.undue now).sum

theorem underWay_mono {now later : Nat} (hle : now ≤ later) (plans : List Plan) :
    underWay plans later ≤ underWay plans now := by
  induction plans with
  | nil => exact Nat.le_refl _
  | cons plan plans ih =>
      rw [underWay, underWay, List.map_cons, List.map_cons, List.sum_cons, List.sum_cons]
      exact Nat.add_le_add (Plan.undue_mono hle) ih

theorem underWay_lt {now later : Nat} (hle : now ≤ later) (hplan : plan ∈ plans)
    (hlt : plan.undue later < plan.undue now) : underWay plans later < underWay plans now := by
  obtain ⟨first, last, rfl⟩ := List.append_of_mem hplan
  have hfirst := underWay_mono hle first
  have hlast := underWay_mono hle last
  simp only [underWay, List.map_append, List.map_cons, List.sum_append_nat, List.sum_cons] at *
  omega

/-- A timer of the members is one of a dial that has not come to its verdict yet. -/
theorem dial_of_memberTimer (h : List.Forall₂ (MemberAt · time s ·) plans members) {timer : Nat}
    (htimer : timer ∈ members.flatMap Member.timers) :
    ∃ plan ∈ plans, ∃ dial ∈ plan.dials, plan.isDue time dial = false ∧
      plan.isDue timer dial = true := by
  induction h with
  | nil => cases htimer
  | @cons plan member plans members hmember hrest ih =>
      rw [List.flatMap_cons, List.mem_append] at htimer
      rcases htimer with htimer | htimer
      · cases hmember with
        | creating hdialing =>
            exact ⟨plan, List.mem_cons_self .., hdialing.dial_of_timer htimer⟩
        | ready => cases htimer
      · obtain ⟨other, hother, hdial⟩ := ih htimer
        exact ⟨other, List.mem_cons_of_mem _ hother, hdial⟩

/-- A dial that settles and has not come to its verdict yet has a timer. -/
theorem exists_memberTimer (h : List.Forall₂ (MemberAt · time s ·) plans members)
    (hplan : plan ∈ plans) {dial : Dial} (hdial : dial ∈ plan.dials)
    (hlate : plan.isDue time dial = false)
    (hsettles : ∃ verdict, plan.verdict? dial = some verdict) :
    ∃ timer ∈ members.flatMap Member.timers, time < timer := by
  induction h with
  | nil => cases hplan
  | @cons other member plans members hmember hrest ih =>
      rcases List.mem_cons.mp hplan with rfl | hplan
      · cases hmember with
        | creating hdialing =>
            obtain ⟨timer, htimer, hlt⟩ := hdialing.exists_timer hdial hlate hsettles
            exact ⟨timer, List.mem_append_left _ htimer, hlt⟩
        | ready hpool hne hall =>
            rw [hall dial hdial] at hlate
            cases hlate
      · obtain ⟨timer, htimer, hlt⟩ := ih hplan
        exact ⟨timer, List.mem_append_right _ htimer, hlt⟩

/-- A build whose dials all settle comes to its end. -/
theorem Concludes.exists_ends (hlinked : s₀.world.Linked) (horderly : s₀.world.Orderly)
    (h : Concludes s₀ plans progress)
    (hplans : ∀ members, progress.2 = .waiting members → ∀ plan ∈ plans, plan.Admitted)
    (hdistinct : Distinct plans)
    (hsettles : ∀ plan ∈ plans, ∀ dial ∈ plan.dials, ∃ verdict, plan.verdict? dial = some verdict) :
    ∃ after result, EndsBuild progress after result := by
  let Keeps (progress : Session × Progress (Except Error Registry) (List Member)) : Prop :=
    Concludes s₀ plans progress ∧
      ∀ members, progress.2 = .waiting members → ∀ plan ∈ plans, plan.Admitted
  refine @Ends.exists_of_measure _ _ _ _ _ Keeps (underWay plans) ?_ ⟨h, hplans⟩
  rintro after members ⟨hconcludes, hplans⟩
  have hadmitted := hplans members rfl
  cases hconcludes with
  | waiting hmembers hapart hsome =>
      obtain ⟨plan, hplan, dial, hdial, hlate⟩ := hsome
      obtain ⟨timer, htimer, hlt⟩ :=
        exists_memberTimer hmembers hplan hdial hlate (hsettles plan hplan dial hdial)
      obtain ⟨instant, hnext, hinstant, hahead⟩ := exists_nextTimer htimer hlt
      have hjumped := (Concludes.waiting hmembers hapart ⟨plan, hplan, dial, hdial, hlate⟩).jump
        hlinked horderly hadmitted hdistinct hnext
      -- the jump ends at the timer of a dial, which is under way no longer
      obtain ⟨plan', hplan', dial', hdial', hbefore, hafter⟩ :=
        dial_of_memberTimer hmembers hinstant
      refine ⟨instant, hnext, ⟨hjumped, fun _ _ => hadmitted⟩, ?_⟩
      rw [(Goes.pollBuild { after with now := instant } members).now]
      exact underWay_lt (Nat.le_of_lt hahead) hplan'
        (Plan.undue_lt (Nat.le_of_lt hahead) hdial' hbefore hafter)

/-- Nothing that was seen is forgotten until the end. -/
theorem seen_of_ends (hends : EndsBuild progress after result) :
    progress.1.seen <+: after.seen := by
  induction hends with
  | done => exact List.prefix_rfl
  | @jump s after members instant result hnext hrest ih =>
      exact (Goes.pollBuild { s with now := instant } members).seen.trans ih

/-! ## The beginning of a build -/

variable {settings : Settings} {services : List (String × List Endpoint)}
  {heartbeats : List String} {pair : String × List Endpoint}

theorem beginBuild_of_missing (s : Session) (settings : Settings)
    (h : services.find? (fun pair => !heartbeats.contains pair.1) = some pair) :
    s.beginBuild services heartbeats settings = (s, .done (.error (.missingHeartbeat pair.1))) := by
  unfold beginBuild
  split
  · next heq => cases h.symm.trans heq; rfl
  · next heq => cases h.symm.trans heq

theorem exists_missing (h : ¬∀ pair ∈ services, pair.1 ∈ heartbeats) :
    ∃ first, services.find? (fun pair => !heartbeats.contains pair.1) = some first := by
  rw [← Option.isSome_iff_exists, List.find?_isSome]
  simpa using h

theorem beginBuild_of_forall (s : Session) (settings : Settings)
    (h : ∀ pair ∈ services, pair.1 ∈ heartbeats) :
    s.beginBuild services heartbeats settings =
      (beginMembers settings s [] services).1.concludeBuild
        (beginMembers settings s [] services).2 := by
  have hnone : services.find? (fun pair => !heartbeats.contains pair.1) = none := by
    rw [List.find?_eq_none]
    intro pair hpair
    simp [h pair hpair]
  unfold beginBuild
  split
  · next heq => cases hnone.symm.trans heq
  · rfl

/-- Only the heartbeats of the services count. -/
theorem beginBuild_congr (s : Session) (settings : Settings) {others : List String}
    (h : ∀ pair ∈ services, pair.1 ∈ others ↔ pair.1 ∈ heartbeats) :
    s.beginBuild services others settings = s.beginBuild services heartbeats settings := by
  by_cases hheart : ∀ pair ∈ services, pair.1 ∈ heartbeats
  · rw [beginBuild_of_forall s settings hheart,
      beginBuild_of_forall s settings fun pair hpair => (h pair hpair).mpr (hheart pair hpair)]
  · have hsame : services.find? (fun pair => !others.contains pair.1) =
        services.find? (fun pair => !heartbeats.contains pair.1) :=
      List.find?_congr fun pair hpair => by simp [h pair hpair]
    obtain ⟨first, hfind⟩ := exists_missing hheart
    rw [beginBuild_of_missing s settings hfind,
      beginBuild_of_missing s settings (hsame.trans hfind)]

theorem map_name_plansFor (begun : Nat) (dialed : List String) (script : Script) :
    ((plansFor settings begun dialed script services).map fun plan => plan.pool.name) =
      services.map Prod.fst := by
  induction services generalizing dialed script with
  | nil => rfl
  | cons first services ih =>
      rw [plansFor, List.map_cons, List.map_cons, ih]
      rfl

/-- What the beginning of a build comes to if all services have heartbeats. -/
theorem beginBuild_concludes (horderly : s.world.Orderly)
    (hunused : ∀ key, s.nextKey ≤ key → s.world.creations.get? key = none)
    (hdistinct : (services.map Prod.fst).Nodup) (hheart : ∀ pair ∈ services, pair.1 ∈ heartbeats) :
    let plans := plansFor settings s.now s.world.dialed s.script services
    let begun := s.beginBuild services heartbeats settings
    Concludes s plans begun ∧ Distinct plans ∧
      ((∀ error, begun.2 ≠ .done (.error error)) → (∀ plan ∈ plans, plan.Admitted) ∧
        ∀ events, Knows events s → ∀ plan ∈ plans, ∀ dial ∈ plan.dials,
          dialOf (events ++ begun.1.seen) dial.conn = some dial.endpoint) := by
  intro plans
  have hdistinct' : Distinct plans := by
    unfold Distinct
    rw [map_name_plansFor]
    exact hdistinct
  obtain ⟨hbuilds, hends⟩ :=
    @beginMembers_builds s s [] [] settings horderly.linked horderly .nil (.refl hunused) services
  rw [beginBuild_of_forall s settings hheart]
  refine ⟨concludeBuild_concludes hbuilds hdistinct', hdistinct', fun hgoes => ?_⟩
  cases hresult : (beginMembers settings s [] services).2 with
  | error error => exact absurd (by rw [hresult]; rfl) (hgoes error)
  | ok members =>
      obtain ⟨hadmitted, hsources⟩ := hends members hresult
      refine ⟨hadmitted, fun events hknows plan hplan dial hdial => ?_⟩
      obtain ⟨more, hmore⟩ :=
        (Goes.concludeBuild (beginMembers settings s [] services).1 (.ok members)).seen
      rw [← hmore, ← List.append_assoc]
      exact dialOf_append ((hsources events ⟨hknows, nofun⟩).dials plan hplan dial hdial) more

end Session

end HeartbeatPool
