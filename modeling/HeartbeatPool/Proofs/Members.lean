import Mathlib.Data.List.Forall2
import HeartbeatPool.Proofs.Apart

/-!
# The members of a registry being built

Each member is what its plan says of the time at which it was looked at last (`MemberAt`).  A look
at one member changes no other, since every creation has a key of its own; so a look at all of them,
one after the other, leads from one time to another, or one of the creations comes to the error that
its plan says, and everything is given up (`Builds`).
-/

namespace HeartbeatPool.Session

variable {s₀ s s' : Session} {plan : Plan} {key : Key} {keys : List Key} {id : Nat}
  {ids : List Nat}

/-! ## Members -/

/-- The key of a member whose pool is being created. -/
def Member.key? : Member → Option Key
  | .creating _ state => some state.key
  | .ready _ _ => none

/-- The pool of a member that is ready. -/
def Member.id? : Member → Option Nat
  | .creating _ _ => none
  | .ready _ id => some id

/-- The creations under way. -/
def keysOf (members : List Member) : List Key := members.filterMap Member.key?

/-- The pools that are ready. -/
def idsOf (members : List Member) : List Nat := members.filterMap Member.id?

/-- Everything that was built is given up. -/
theorem Apart.discardAll (hlinked : s₀.world.Linked) {members : List Member}
    (h : Apart s₀ s (keysOf members) (idsOf members)) :
    Apart s₀ (members.foldl discard s) [] [] := by
  induction members generalizing s with
  | nil => exact h
  | cons member rest ih =>
      cases member with
      | creating service state => exact ih h.abandon
      | ready service id => exact ih (h.letGo hlinked)

/-- A member is what its plan says of some time. -/
inductive MemberAt (plan : Plan) (time : Nat) (s : Session) : Member → Prop where
  | creating {state : Creating} (hdialing : Dialing plan time s state)
      (hsome : ∃ dial ∈ plan.dials, plan.isDue time dial = false) :
      MemberAt plan time s (.creating plan.pool.name state)
  | ready {id : Nat} (hpool : s.world.pools[id]? = some plan.stocked) (hne : plan.entries ≠ [])
      (hall : ∀ dial ∈ plan.dials, plan.isDue time dial = true) :
      MemberAt plan time s (.ready plan.pool.name id)

variable {time : Nat} {member : Member}

theorem Shows.congr {pool : Pool} {slots : List Slot} (h : s.Shows key pool slots)
    (heq : s'.world.creations.get? key = s.world.creations.get? key) : s'.Shows key pool slots := by
  obtain ⟨creation, hcreation, hrest⟩ := h
  exact ⟨creation, heq.trans hcreation, hrest⟩

/-- A member stays what it is as long as its creation and the pools that there are stay. -/
theorem MemberAt.congr (h : MemberAt plan time s member)
    (hkeys : ∀ key, member.key? = some key →
      s'.world.creations.get? key = s.world.creations.get? key)
    (hpools : ∀ (id : Nat) (pool : Pool), s.world.pools[id]? = some pool →
      s'.world.pools[id]? = some pool) :
    MemberAt plan time s' member := by
  cases h with
  | creating hdialing hsome =>
      exact .creating ⟨hdialing.shows.congr (hkeys _ rfl), hdialing.waits⟩ hsome
  | ready hpool hne hall => exact .ready (hpools _ _ hpool) hne hall

/-- A look at one member leaves all others what they are. -/
theorem MemberAt.comes (h : MemberAt plan time s member) {other : Plan}
    {progress : Session × Progress (Except Error PoolId) Creating}
    (hcomes : Comes other key s progress) (hkey : member.key? ≠ some key) :
    MemberAt plan time progress.1 member := by
  cases hcomes with
  | waiting htends =>
      refine h.congr (fun key' hkey' => htends.creations key' ?_) fun id pool hpool => ?_
      · rintro rfl
        exact hkey hkey'
      · rw [htends.pools]
        exact hpool
  | ready hfinishes | failed hfinishes =>
      refine h.congr (fun key' hkey' => hfinishes.creations key' ?_) fun id pool hpool => ?_
      · rintro rfl
        exact hkey hkey'
      · rw [hfinishes.pools, List.getElem?_append_left (List.getElem?_eq_some_iff.mp hpool).1]
        exact hpool

/-- What a look at one creation makes of the build: a member that is what its plan says, or the
error that its plan says. -/
theorem Apart.comes {progress : Session × Progress (Except Error PoolId) Creating}
    (h : Apart s₀ s (key :: keys) ids) (hcomes : Comes plan key s progress)
    (hplan : plan.Admitted) :
    (∃ member, memberOf plan.pool.name progress.2 = .ok member ∧
        Apart s₀ progress.1 (member.key?.toList ++ keys) (member.id?.toList ++ ids) ∧
        MemberAt plan progress.1.now progress.1 member) ∨
      ∃ error, memberOf plan.pool.name progress.2 = .error error ∧ plan.result = .error error ∧
        Apart s₀ progress.1 keys ids := by
  obtain ⟨capacity, hok⟩ := hplan.admitted
  cases hcomes with
  | waiting htends hdialing hsome =>
      exact Or.inl ⟨_, rfl, h.tends htends, .creating hdialing hsome⟩
  | ready hfinishes hall hne =>
      refine Or.inl ⟨_, rfl, (h.finishes hfinishes).perm (.refl _) List.perm_append_comm, ?_⟩
      exact .ready (by rw [hfinishes.pools, List.getElem?_concat_length]) hne hall
  | failed hfinishes hall hnone =>
      refine Or.inr ⟨_, rfl, ?_, by simpa using h.finishes hfinishes⟩
      rw [Plan.result_of_admitted hok, if_pos hnone]

/-! ## One look at all members -/

/-- What a look at the members comes to: each is what its plan says, or one of the plans comes to an
error and everything is given up. -/
inductive Builds (s₀ : Session) (plans : List Plan) :
    Session × Except Error (List Member) → Prop where
  | going {after : Session} {members : List Member}
      (hmembers : List.Forall₂ (MemberAt · after.now after ·) plans members)
      (hapart : Apart s₀ after (keysOf members) (idsOf members)) :
      Builds s₀ plans (after, .ok members)
  | stopped {after : Session} {plan : Plan} {error : Error} (hplan : plan ∈ plans)
      (herror : plan.result = .error error) (hapart : Apart s₀ after [] []) :
      Builds s₀ plans (after, .error error)

variable {before rest : List Member} {done left : List Plan} {old : Nat}

theorem keysOf_append (before rest : List Member) :
    keysOf (before ++ rest) = keysOf before ++ keysOf rest :=
  List.filterMap_append

theorem idsOf_append (before rest : List Member) :
    idsOf (before ++ rest) = idsOf before ++ idsOf rest :=
  List.filterMap_append

theorem keysOf_cons (member : Member) (rest : List Member) :
    keysOf (member :: rest) = member.key?.toList ++ keysOf rest := by
  cases member <;> rfl

theorem idsOf_cons (member : Member) (rest : List Member) :
    idsOf (member :: rest) = member.id?.toList ++ idsOf rest := by
  cases member <;> rfl

/-- A member may stand anywhere. -/
theorem Apart.perm_middle_iff : Apart s₀ s (keysOf (before ++ member :: rest))
      (idsOf (before ++ member :: rest)) ↔
    Apart s₀ s (member.key?.toList ++ keysOf (before ++ rest))
      (member.id?.toList ++ idsOf (before ++ rest)) := by
  have hkeys : (keysOf (before ++ member :: rest)).Perm
      (member.key?.toList ++ keysOf (before ++ rest)) := by
    simp only [keysOf_append, keysOf_cons]
    exact List.perm_append_comm_assoc ..
  have hids : (idsOf (before ++ member :: rest)).Perm
      (member.id?.toList ++ idsOf (before ++ rest)) := by
    simp only [idsOf_append, idsOf_cons]
    exact List.perm_append_comm_assoc ..
  exact ⟨fun h => h.perm hkeys hids, fun h => h.perm hkeys.symm hids.symm⟩

/-- A look at a creation leaves other members what they are. -/
theorem forall_memberAt_comes {progress : Session × Progress (Except Error PoolId) Creating}
    (h : List.Forall₂ (MemberAt · time s ·) done before) (hcomes : Comes plan key s progress)
    (hkey : key ∉ keysOf before) :
    List.Forall₂ (MemberAt · time progress.1 ·) done before := by
  induction h with
  | nil => exact .nil
  | @cons other member done before hfirst hrest ih =>
      rw [keysOf_cons, List.mem_append, not_or] at hkey
      refine .cons (hfirst.comes hcomes fun heq => hkey.1 ?_) (ih hkey.2)
      rw [heq]
      exact List.mem_singleton_self key

/-- A look at the members one after the other leads from what the plans say of one time to what they
say of another. -/
theorem pollMembers_builds (hlinked : s₀.world.Linked) (horderly : s₀.world.Orderly)
    (hbefore : List.Forall₂ (MemberAt · s.now s ·) done before)
    (hrest : List.Forall₂ (MemberAt · old s ·) left rest)
    (hapart : Apart s₀ s (keysOf (before ++ rest)) (idsOf (before ++ rest))) (hle : old ≤ s.now)
    (hdue : Due (rest.flatMap Member.timers) s) (hplans : ∀ plan ∈ left, plan.Admitted) :
    Builds s₀ (done ++ left) (s.pollMembers before rest) := by
  induction rest generalizing s before done left with
  | nil =>
      cases hrest
      rw [List.append_nil] at hapart ⊢
      exact .going hbefore hapart
  | cons member rest ih =>
      obtain _ | @⟨plan, _, left, _, hmember, hrest⟩ := hrest
      rw [List.flatMap_cons] at hdue
      have hsplit : done ++ plan :: left = done ++ [plan] ++ left := by simp
      have hshift (member : Member) : before ++ member :: rest = before ++ [member] ++ rest := by
        simp
      cases hmember with
      | ready hpool hne hall =>
          rw [hsplit]
          refine ih ?_ hrest (hshift _ ▸ hapart) hle hdue.right fun plan hplan =>
            hplans plan (List.mem_cons_of_mem _ hplan)
          exact List.rel_append hbefore (.cons (.ready hpool hne fun dial hdial =>
            Plan.isDue_mono hle (hall dial hdial)) .nil)
      | @creating state hdialing hsome =>
          have hadmitted := hplans plan (List.mem_cons_self ..)
          have hcomes := pollCreation_comes hdialing hle hdue.left hadmitted.full
            (hapart.runs.orderly horderly)
          have hapart :
              Apart s₀ s (state.key :: keysOf (before ++ rest)) (idsOf (before ++ rest)) :=
            Apart.perm_middle_iff.mp hapart
          obtain ⟨hbeforeKey, hrestKey⟩ : state.key ∉ keysOf before ∧ state.key ∉ keysOf rest := by
            simpa [keysOf_append] using (List.nodup_cons.mp hapart.distinctKeys).1
          -- the other members have keys of their own, so they stay what they are
          have hbefore' := forall_memberAt_comes hbefore hcomes hbeforeKey
          have hrest' := forall_memberAt_comes hrest hcomes hrestKey
          have hnow := hcomes.now
          simp only [pollMembers, pollMember]
          rcases hapart.comes hcomes hadmitted with
            ⟨member, hresult, hapart, hmember⟩ | ⟨error, hresult, herror, hapart⟩
          · rw [hresult, hsplit]
            dsimp only
            generalize (s.pollCreation state).1 = after at *
            refine ih ?_ hrest' ?_ (hnow ▸ hle) (fun timer htimer => hnow ▸ hdue.right timer htimer)
              fun plan hplan => hplans plan (List.mem_cons_of_mem _ hplan)
            · rw [hnow]
              rw [hnow] at hmember
              exact List.rel_append hbefore' (.cons hmember .nil)
            · rw [← hshift]
              exact Apart.perm_middle_iff.mpr hapart
          · rw [hresult]
            exact .stopped (List.mem_append_right _ (List.mem_cons_self ..)) herror
              (hapart.discardAll hlinked)

/-! ## The beginning of a build -/

/-- The pool to be of a service. -/
def poolFor (settings : Settings) (service : String) (endpoints : List Endpoint) : Pool :=
  { name := service, label := service, endpoints := endpoints, settings := settings }

/-- The plans of some services that begin one after the other at one time. -/
def plansFor (settings : Settings) (begun : Nat) (dialed : List String) (script : Script) :
    List (String × List Endpoint) → List Plan
  | [] => []
  | (service, endpoints) :: rest =>
      let pool := poolFor settings service endpoints
      let laid := layOut pool dialed script 0 pool.capacity
      ⟨pool, begun, laid.1⟩ :: plansFor settings begun (addressesOf laid.1 ++ dialed) laid.2 rest

/-- Each connection of some plans is named after a dial of just the endpoint of its slot. -/
structure Sources (events : List Event) (s : Session) (plans : List Plan) : Prop where
  knows : Knows events s
  dials : ∀ plan ∈ plans, ∀ dial ∈ plan.dials,
    dialOf (events ++ s.seen) dial.conn = some dial.endpoint

variable {events : List Event} {plans : List Plan} {settings : Settings}

theorem Sources.runs (h : Sources events s plans) (hruns : Runs s s') :
    Sources events s' plans where
  knows := h.knows.runs hruns
  dials plan hplan dial hdial := hruns.dialOf (h.dials plan hplan dial hdial)

/-- What the beginning of one more creation comes to: another member that is what its plan says, or
the error that the plan says. -/
theorem beginCreation_builds (horderly : s₀.world.Orderly)
    (hbefore : List.Forall₂ (MemberAt · s.now s ·) done before)
    (hapart : Apart s₀ s (keysOf before) (idsOf before)) (service : String)
    {endpoints : List Endpoint} {capacity : Nat}
    (hok : checkParameters endpoints settings = .ok capacity) :
    let plan := s.planOf (poolFor settings service endpoints)
    let begun := s.beginCreation service service endpoints settings
    (∃ member, memberOf service begun.2 = .ok member ∧ plan.Admitted ∧
        List.Forall₂ (MemberAt · begun.1.now begun.1 ·) (done ++ [plan]) (before ++ [member]) ∧
        Apart s₀ begun.1 (keysOf (before ++ [member])) (idsOf (before ++ [member])) ∧
        ∀ events, Sources events s done → Sources events begun.1 (done ++ [plan])) ∨
      ∃ error, memberOf service begun.2 = .error error ∧ plan.result = .error error ∧
        Apart s₀ begun.1 (keysOf before) (idsOf before) := by
  intro plan begun
  obtain ⟨hcomes, -, -, hsources⟩ := beginCreation_comes service service hok
    (hapart.unused _ (Nat.le_refl _)) (hapart.runs.orderly horderly)
  have hadmitted : plan.Admitted := ⟨length_layOut .., capacity, hok⟩
  -- the creation has a key of its own
  have hfresh := hapart.freshKey
  rcases hfresh.comes hcomes hadmitted with
    ⟨member, hresult, hapart, hmember⟩ | ⟨error, hresult, herror, hapart⟩
  · refine Or.inl ⟨member, hresult, hadmitted, List.rel_append ?_ (.cons hmember .nil),
      Apart.perm_middle_iff.mpr (by rwa [List.append_nil]), fun events h => ?_⟩
    · have hnow : begun.1.now = s.now := hcomes.now
      have hbefore' : List.Forall₂ (MemberAt · s.now s.freshKey.2 ·) done before :=
        hbefore.imp fun _ _ h => h.congr (fun _ _ => rfl) fun _ _ h => h
      rw [hnow]
      exact forall_memberAt_comes hbefore' hcomes (List.nodup_cons.mp hfresh.distinctKeys).1
    · have hkept : Sources events begun.1 done :=
        Sources.runs (s := s.freshKey.2) ⟨⟨h.knows.orderly, h.knows.dialed⟩, h.dials⟩ hcomes.runs
      refine ⟨hkept.knows, fun plan' hplan' => ?_⟩
      rcases List.mem_append.mp hplan' with hplan' | hplan'
      · exact hkept.dials plan' hplan'
      · obtain rfl := List.mem_singleton.mp hplan'
        exact hsources events h.knows
  · exact Or.inr ⟨error, hresult, herror, hapart⟩

/-- The pools are begun one after the other, as their plans say. -/
theorem beginMembers_builds (hlinked : s₀.world.Linked) (horderly : s₀.world.Orderly)
    (hbefore : List.Forall₂ (MemberAt · s.now s ·) done before)
    (hapart : Apart s₀ s (keysOf before) (idsOf before))
    (services : List (String × List Endpoint)) :
    let plans := plansFor settings s.now s.world.dialed s.script services
    let begun := beginMembers settings s before services
    Builds s₀ (done ++ plans) begun ∧
      ∀ members, begun.2 = .ok members → (∀ plan ∈ plans, plan.Admitted) ∧
        ∀ events, Sources events s done → Sources events begun.1 (done ++ plans) := by
  induction services generalizing s before done with
  | nil =>
      simp only [plansFor, List.append_nil, beginMembers]
      exact ⟨.going hbefore hapart, fun _ _ => ⟨by simp, fun _ h => h⟩⟩
  | cons pair services ih =>
      obtain ⟨service, endpoints⟩ := pair
      let pool := poolFor settings service endpoints
      let plan := s.planOf pool
      -- the services behind are dialed with what this one leaves of the script
      let others := plansFor settings s.now (addressesOf plan.dials ++ s.world.dialed)
        (layOut pool s.world.dialed s.script 0 pool.capacity).2 services
      have hplans : plansFor settings s.now s.world.dialed s.script
          ((service, endpoints) :: services) = plan :: others := rfl
      have hmem : plan ∈ done ++ plan :: others :=
        List.mem_append_right _ (List.mem_cons_self ..)
      rw [hplans]
      unfold beginMembers
      cases hok : checkParameters endpoints settings with
      | error reason =>
          -- a service that is refused stops the build before anything of it is dialed
          have hrefused : s.beginCreation service service endpoints settings =
              (s, .done (.error (.invalidConfig (reason.describe service)))) := by
            rw [beginCreation, hok]
          rw [hrefused]
          exact ⟨.stopped hmem (Plan.result_of_refused (by exact hok)) (hapart.discardAll hlinked),
            by simp [memberOf]⟩
      | ok capacity =>
          obtain ⟨hcomes, hscript, hdialed, -⟩ := beginCreation_comes service service hok
            (hapart.unused _ (Nat.le_refl _)) (hapart.runs.orderly horderly)
          have hnow : (s.beginCreation service service endpoints settings).1.now = s.now :=
            hcomes.now
          have hstep := beginCreation_builds horderly hbefore hapart service hok
          generalize s.beginCreation service service endpoints settings = progress at *
          rcases hstep with ⟨member, hresult, hadmitted, hmembers, hapart, hsources⟩ |
            ⟨error, hresult, herror, hapart⟩
          · -- its member joins those before, and the rest goes on behind it
            obtain ⟨hbuilds, hends⟩ := ih hmembers hapart
            rw [hscript, hdialed, hnow, List.append_assoc] at hbuilds hends
            simp only [hresult]
            refine ⟨hbuilds, fun members hmembers => ?_⟩
            obtain ⟨hall, hsourced⟩ := hends members hmembers
            refine ⟨fun plan' hplan' => ?_, fun events h => hsourced events (hsources events h)⟩
            rcases List.mem_cons.mp hplan' with rfl | hplan'
            · exact hadmitted
            · exact hall plan' hplan'
          · simp only [hresult]
            exact ⟨.stopped hmem herror (hapart.discardAll hlinked), by simp⟩

end HeartbeatPool.Session
