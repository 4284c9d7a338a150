import HeartbeatPool.Proofs.Builds

/-!
# A registry is built as a whole or not at all

Each service has an outcome for the dial of each of its slots.  Then the plan of a service is the
same whether its pool is created alone or with others, but for the numbers of the connections: a
connection is named after the dials made to its address, so it stands behind those that were made
for other services before it (`mem_plansFor_iff`).

So a build comes to a registry just if each creation alone comes to a pool, and to the error of one
of them if not; and a build that comes to an error has closed all that was established for it
(`build_all_or_nothing`).
-/

namespace HeartbeatPool

/-! ## Behind the dials of others -/

/-- The connection with the number that it has if some other dials are made before. -/
def Conn.behind (earlier : List String) (conn : Conn) : Conn :=
  { conn with serial := earlier.count conn.address + conn.serial }

/-- The entry whose connection stands behind some other dials. -/
def Entry.behind (earlier : List String) (entry : Entry) : Entry :=
  { entry with conn := entry.conn.behind earlier }

/-- The pool whose connections stand behind some other dials. -/
def Pool.behind (earlier : List String) (pool : Pool) : Pool :=
  { pool with idle := pool.idle.map (Entry.behind earlier) }

/-- The dial that stands behind some others. -/
def Dial.behind (earlier : List String) (dial : Dial) : Dial :=
  { dial with conn := dial.conn.behind earlier }

/-- The plan whose dials stand behind some others. -/
def Plan.behind (earlier : List String) (plan : Plan) : Plan :=
  { plan with dials := plan.dials.map (Dial.behind earlier) }

namespace Plan

variable (plan : Plan) (earlier : List String)

theorem entryOf?_behind (dial : Dial) (slot : Nat) :
    (plan.behind earlier).entryOf? (dial.behind earlier, slot) =
      (plan.entryOf? (dial, slot)).map (Entry.behind earlier) := by
  have hsame : (plan.behind earlier).verdict? (dial.behind earlier) = plan.verdict? dial := rfl
  dsimp only [entryOf?]
  rw [hsame]
  split <;> rfl

theorem entries_behind :
    (plan.behind earlier).entries = plan.entries.map (Entry.behind earlier) := by
  have hdials : (plan.behind earlier).dials = plan.dials.map (Dial.behind earlier) := rfl
  rw [entries, hdials, List.zipIdx_map, List.filterMap_map, entries, List.map_filterMap]
  congr 1
  funext pair
  exact entryOf?_behind plan earlier pair.1 pair.2

theorem stocked_behind : (plan.behind earlier).stocked = plan.stocked.behind earlier := by
  unfold stocked Pool.behind
  rw [entries_behind, List.length_map]
  rfl

/-- What a creation comes to does not depend on the dials before it, but for the numbers of the
connections. -/
theorem result_behind : (plan.behind earlier).result = plan.result.map (Pool.behind earlier) := by
  have hentries : (plan.behind earlier).entries = [] ↔ plan.entries = [] := by
    rw [entries_behind, List.map_eq_nil_iff]
  cases hok : checkParameters plan.pool.endpoints plan.pool.settings with
  | error reason =>
      rw [result_of_refused hok, @result_of_refused (plan.behind earlier) reason hok]
      rfl
  | ok capacity =>
      rw [result_of_admitted hok, @result_of_admitted (plan.behind earlier) capacity hok,
        stocked_behind]
      simp only [hentries]
      split <;> rfl

end Plan

/-- The addresses that the slots of a pool are dialed at, in order. -/
def Pool.slotAddresses (pool : Pool) : List String :=
  (List.range pool.capacity).map fun slot => pool.address (slot / pool.settings.perEndpoint)

section

variable {pool : Pool} {dialed dialed' earlier : List String}

/-- The dials that are laid out stand behind those that were made before. -/
theorem layOut_behind (hcount : ∀ address,
      dialed'.count address = earlier.count address + dialed.count address)
    (script : Script) (slot count : Nat) :
    (layOut pool dialed' script slot count).1 =
        (layOut pool dialed script slot count).1.map (Dial.behind earlier) ∧
      (layOut pool dialed' script slot count).2 = (layOut pool dialed script slot count).2 := by
  induction count generalizing dialed dialed' script slot with
  | zero => exact ⟨rfl, rfl⟩
  | succ count ih =>
      have hfirst : (dialAt pool dialed' script slot).1 =
          (dialAt pool dialed script slot).1.behind earlier := by
        simp [dialAt, Dial.behind, Conn.behind, hcount]
      have hscript : (dialAt pool dialed' script slot).2 = (dialAt pool dialed script slot).2 := rfl
      have hnext (address : String) :
          ((dialAt pool dialed' script slot).1.endpoint.address :: dialed').count address =
            earlier.count address +
              ((dialAt pool dialed script slot).1.endpoint.address :: dialed).count address := by
        rw [List.count_cons, List.count_cons, hcount, Nat.add_assoc]
        rfl
      obtain ⟨hdials, hrest⟩ := ih hnext (dialAt pool dialed script slot).2 (slot + 1)
      simp only [layOut, List.map_cons, hfirst, hscript]
      exact ⟨congrArg _ hdials, hrest⟩

/-- Each dial takes its outcome from those that are ahead. -/
theorem layOut_ahead (pool : Pool) (dialed : List String) (script : Script) (slot : Nat)
    (outcomes more : List Outcome) :
    layOut pool dialed { script with ahead := outcomes ++ more } slot outcomes.length =
      ((layOut pool dialed { script with ahead := outcomes } slot outcomes.length).1,
        { script with ahead := more }) := by
  induction outcomes generalizing dialed slot with
  | nil => rfl
  | cons outcome outcomes ih =>
      simp only [layOut, List.length_cons, List.cons_append, dialAt, Script.takeDial, ih]

/-- The dials come out as it was said ahead. -/
theorem map_outcome_layOut (script : Script) (slot : Nat) (outcomes : List Outcome) :
    ((layOut pool dialed { script with ahead := outcomes } slot outcomes.length).1.map
      Dial.outcome) = outcomes := by
  induction outcomes generalizing dialed slot with
  | nil => rfl
  | cons outcome outcomes ih =>
      rw [List.length_cons, layOut, List.map_cons]
      exact congrArg _ (ih (slot + 1))

theorem count_addressesOf_layOut (script : Script) (address : String) :
    (addressesOf (layOut pool dialed script 0 pool.capacity).1).count address =
      pool.slotAddresses.count address := by
  have hdials : ((layOut pool dialed script 0 pool.capacity).1.map
      fun dial => dial.endpoint.address) =
        ((layOut pool dialed script 0 pool.capacity).1.map Dial.endpoint).map Endpoint.address :=
    (List.map_map ..).symm
  rw [addressesOf, List.count_reverse, hdials, map_endpoint_layOut, List.map_map,
    Pool.slotAddresses, List.range_eq_range']
  rfl

end

namespace Session

/-! ## Creations alone and together -/

/-- The session in which the next dials come out in a given way. -/
def scripted (s : Session) (outcomes : List Outcome) : Session :=
  { s with script := { s.script with ahead := outcomes } }

section

variable (settings : Settings) (outcome : String → Nat → Outcome)

/-- The pool to be of a service with its endpoints. -/
def poolOf (pair : String × List Endpoint) : Pool := poolFor settings pair.1 pair.2

/-- The outcomes of the dials for a service, in the order of the slots. -/
def outcomesOf (pair : String × List Endpoint) : List Outcome :=
  (List.range (poolOf settings pair).capacity).map (outcome pair.1)

/-- The session in which the dials for a service come out as given. -/
def aloneFor (s : Session) (pair : String × List Endpoint) : Session :=
  s.scripted (outcomesOf settings outcome pair)

/-- The addresses that are dialed for some services. -/
def addressesFor (services : List (String × List Endpoint)) : List String :=
  services.flatMap fun pair => (poolOf settings pair).slotAddresses

/-- The plan of a service whose pool is created alone. -/
def alonePlan (s : Session) (pair : String × List Endpoint) : Plan :=
  (s.aloneFor settings outcome pair).planOf (poolOf settings pair)

variable {s : Session} {settings outcome}

/-- The plans of services that are begun one after the other are those of the services alone, each
behind the dials for the services before it. -/
theorem mem_plansFor_iff {services : List (String × List Endpoint)} {dialed earlier : List String}
    (hcount : ∀ address,
      dialed.count address = earlier.count address + s.world.dialed.count address) {plan : Plan} :
    plan ∈ plansFor settings s.now dialed
        { s.script with ahead := services.flatMap (outcomesOf settings outcome) } services ↔
      ∃ before pair rest, services = before ++ pair :: rest ∧
        plan =
          (s.alonePlan settings outcome pair).behind (earlier ++ addressesFor settings before) := by
  induction services generalizing dialed earlier with
  | nil => simp [plansFor]
  | cons first services ih =>
      let pool := poolOf settings first
      let own : Script := { s.script with ahead := outcomesOf settings outcome first }
      let others : Script :=
        { s.script with ahead := services.flatMap (outcomesOf settings outcome) }
      let laid := layOut pool dialed own 0 pool.capacity
      have hlength : (outcomesOf settings outcome first).length = pool.capacity := by
        simp [outcomesOf, pool]
      have hlaid := layOut_ahead pool dialed s.script 0
        (outcomesOf settings outcome first) (services.flatMap (outcomesOf settings outcome))
      rw [hlength] at hlaid
      have hfirst : (⟨pool, s.now, laid.1⟩ : Plan) =
          (s.alonePlan settings outcome first).behind earlier :=
        congrArg (Plan.mk pool s.now) (layOut_behind hcount own 0 pool.capacity).1
      -- the first service takes its own outcomes and leaves the others
      have hplans : plansFor settings s.now dialed
          { s.script with ahead := (first :: services).flatMap (outcomesOf settings outcome) }
            (first :: services) =
          (s.alonePlan settings outcome first).behind earlier ::
            plansFor settings s.now (addressesOf laid.1 ++ dialed) others services := by
        rw [← hfirst, List.flatMap_cons, plansFor]
        simp only [pool, poolOf] at hlaid
        rw [hlaid]
        rfl
      -- the dials for the first service stand before those for all others
      have hnext (address : String) :
          (addressesOf laid.1 ++ dialed).count address =
            (earlier ++ pool.slotAddresses).count address + s.world.dialed.count address := by
        rw [List.count_append, count_addressesOf_layOut, hcount, List.count_append]
        omega
      rw [hplans, List.mem_cons, ih hnext]
      constructor
      · rintro (rfl | ⟨before, pair, rest, rfl, rfl⟩)
        · exact ⟨[], first, services, rfl, by simp [addressesFor]⟩
        · exact ⟨first :: before, pair, rest, rfl, by simp [addressesFor, pool]⟩
      · rintro ⟨_ | ⟨other, before⟩, pair, rest, heq, rfl⟩
        · cases heq
          exact Or.inl (by simp [addressesFor])
        · cases heq
          exact Or.inr ⟨before, pair, rest, rfl, by simp [addressesFor, pool]⟩

/-- What the creation of the pool of a service comes to with nothing else going on. -/
inductive Creates (s : Session) (settings : Settings) (pair : String × List Endpoint) :
    Except Error Pool → Prop where
  | ready {after : Session} {id : PoolId} {pool : Pool}
      (hends : EndsAlone (s.beginCreation pair.1 pair.1 pair.2 settings) after (.ok id))
      (hpool : after.world.pools[id]? = some pool) : Creates s settings pair (.ok pool)
  | failed {after : Session} {error : Error}
      (hends : EndsAlone (s.beginCreation pair.1 pair.1 pair.2 settings) after (.error error)) :
      Creates s settings pair (.error error)

variable {pair : String × List Endpoint} {result : Except Error Pool}

theorem Creates.eq_result (hnew : s.world.creations.get? s.nextKey = none)
    (horderly : s.world.Orderly) (h : Creates s settings pair result) :
    (s.planOf (poolOf settings pair)).result = result := by
  cases h with
  | ready hends hpool =>
      obtain ⟨herror, hok⟩ := result_of_endsAlone hnew horderly hends
      cases hresult : (s.planOf (poolOf settings pair)).result with
      | error error => cases herror error hresult
      | ok pool =>
          obtain ⟨id, heq, hpool'⟩ := hok pool hresult
          cases heq
          rw [hpool] at hpool'
          cases hpool'
          rfl
  | failed hends =>
      obtain ⟨herror, hok⟩ := result_of_endsAlone hnew horderly hends
      cases hresult : (s.planOf (poolOf settings pair)).result with
      | error error =>
          cases herror error hresult
          rfl
      | ok pool =>
          obtain ⟨id, heq, -⟩ := hok pool hresult
          cases heq

/-- With nothing else going on the creation of a pool comes to what its plan says. -/
theorem creates_iff (hnew : s.world.creations.get? s.nextKey = none) (horderly : s.world.Orderly)
    (hsettles : ∀ dial ∈ (s.planOf (poolOf settings pair)).dials,
      ∃ verdict, dial.outcome.within settings.dialTimeout = some verdict) :
    Creates s settings pair result ↔ (s.planOf (poolOf settings pair)).result = result := by
  refine ⟨Creates.eq_result hnew horderly, ?_⟩
  rintro rfl
  obtain ⟨after, ended, hends⟩ :
      ∃ after ended, EndsAlone (s.beginCreation pair.1 pair.1 pair.2 settings) after ended := by
    cases hok : checkParameters pair.2 settings with
    | error reason =>
        rw [beginCreation, hok]
        exact ⟨_, _, .done⟩
    | ok capacity =>
        have hcomes := (beginCreation_comes pair.1 pair.1 hok hnew horderly).1
        exact hcomes.exists_ends (length_layOut ..) horderly hsettles
  have hresult := result_of_endsAlone hnew horderly hends
  cases hplan : (s.planOf (poolOf settings pair)).result with
  | error error =>
      cases hresult.1 error hplan
      exact .failed hends
  | ok pool =>
      obtain ⟨id, rfl, hpool⟩ := hresult.2 pool hplan
      exact .ready hends hpool

theorem alonePlan_settles
    (hsettles : ∀ service slot,
      ∃ verdict, (outcome service slot).within settings.dialTimeout = some verdict) :
    ∀ dial ∈ (s.alonePlan settings outcome pair).dials,
      ∃ verdict, dial.outcome.within settings.dialTimeout = some verdict := by
  intro dial hdial
  have hlength : (outcomesOf settings outcome pair).length = (poolOf settings pair).capacity := by
    simp [outcomesOf]
  have hall := @map_outcome_layOut (poolOf settings pair) s.world.dialed s.script 0
    (outcomesOf settings outcome pair)
  rw [hlength] at hall
  have houtcome : dial.outcome ∈ outcomesOf settings outcome pair :=
    hall ▸ List.mem_map_of_mem hdial
  obtain ⟨slot, -, heq⟩ := List.mem_map.mp houtcome
  exact heq ▸ hsettles pair.1 slot

/-! ## The build of a registry -/

/-- One session comes from another, and whatever was established in between is closed. -/
structure LeavesNothing (s after : Session) : Prop where
  runs : Runs s after
  closed : ∀ actions, after.world = (s.world.run actions).1 →
    after.seen = s.seen ++ (s.world.run actions).2 → ∀ conn ∈ s.world.delivered actions,
      .close conn ∈ (s.world.run actions).2 ∧ after.world.whereabouts conn = []

/-- A registry has one pool for each service, and it is the pool that is created for the service
alone, but for the numbers of its connections. -/
structure Comprises (settings : Settings) (outcome : String → Nat → Outcome) (s after : Session)
    (services : List (String × List Endpoint)) (registry : Registry) : Prop where
  keys : registry.keys = services.map Prod.fst
  distinct : registry.values.Nodup
  pools : ∀ before pair rest, services = before ++ pair :: rest → ∃ id pool,
    registry.get? pair.1 = some id ∧
      Creates (s.aloneFor settings outcome pair) settings pair (.ok pool) ∧
      after.world.pools[id]? = some (pool.behind (addressesFor settings before))

variable {services : List (String × List Endpoint)} {heartbeats : List String}

/-- The services of a registry are created as their plans say, each behind the dials for the
services before it. -/
def plansOf (settings : Settings) (outcome : String → Nat → Outcome) (s : Session)
    (services : List (String × List Endpoint)) : List Plan :=
  plansFor settings s.now s.world.dialed
    { s.script with ahead := services.flatMap (outcomesOf settings outcome) } services

theorem mem_plansOf_iff {plan : Plan} :
    plan ∈ plansOf settings outcome s services ↔
      ∃ before pair rest, services = before ++ pair :: rest ∧
        plan = (s.alonePlan settings outcome pair).behind (addressesFor settings before) := by
  have hcount (address : String) : s.world.dialed.count address =
      ([] : List String).count address + s.world.dialed.count address := by simp
  exact mem_plansFor_iff hcount

variable {start after : Session} {past : List World.Action} {registry : Registry}

/-- Every dial for a service comes to a verdict. -/
theorem plansOf_settles
    (hsettles : ∀ service slot,
      ∃ verdict, (outcome service slot).within settings.dialTimeout = some verdict) :
    ∀ plan ∈ plansOf settings outcome s services, ∀ dial ∈ plan.dials,
      ∃ verdict, plan.verdict? dial = some verdict := by
  intro plan hplan dial hdial
  obtain ⟨before, pair, rest, -, rfl⟩ := mem_plansOf_iff.mp hplan
  obtain ⟨own, hown, rfl⟩ := List.mem_map.mp hdial
  exact alonePlan_settles hsettles own hown

/-- The session in which the dials for some services come out as given. -/
def togetherFor (settings : Settings) (outcome : String → Nat → Outcome) (s : Session)
    (services : List (String × List Endpoint)) : Session :=
  s.scripted (services.flatMap (outcomesOf settings outcome))

/-- A build whose services all have heartbeats comes to its end: to a registry with the pools of all
plans, or to the error of one of them. -/
theorem build_ends (horderly : start.world.Orderly)
    (hunused : ∀ key, start.nextKey ≤ key → start.world.creations.get? key = none)
    (hdistinct : (services.map Prod.fst).Nodup) (hheart : ∀ pair ∈ services, pair.1 ∈ heartbeats)
    (hsettles : ∀ service slot,
      ∃ verdict, (outcome service slot).within settings.dialTimeout = some verdict) :
    let together := togetherFor settings outcome start services
    let plans := plansOf settings outcome start services
    ∃ after ended, EndsBuild (together.beginBuild services heartbeats settings) after ended ∧
      ((∃ registry, ended = .ok registry ∧ (∀ plan ∈ plans, plan.Admitted) ∧
          after.Registers plans registry.toList ∧ registry.values.Nodup) ∨
        ∃ plan ∈ plans, ∃ error, plan.result = .error error ∧ ended = .error error ∧
          Apart together after [] []) := by
  intro together plans
  obtain ⟨hconcludes, hnames, hgoes⟩ :=
    @beginBuild_concludes together settings services heartbeats horderly hunused hdistinct hheart
  have hadmitted (members : List Member)
      (hwaiting : (together.beginBuild services heartbeats settings).2 = .waiting members) :=
    (hgoes fun error herror => by cases hwaiting.symm.trans herror).1
  obtain ⟨after, ended, hends⟩ := Concludes.exists_ends (by exact horderly.linked)
    (by exact horderly) hconcludes hadmitted hnames (plansOf_settles hsettles)
  refine ⟨after, ended, hends, ?_⟩
  rcases Concludes.of_ends (by exact horderly.linked) (by exact horderly) hconcludes hends
    hadmitted hnames with ⟨registry, rfl, hregisters, before, -, hapart⟩ | hstopped
  · exact Or.inl ⟨registry, rfl, (hgoes (ne_error_of_ends hends)).1, hregisters,
      hapart.distinctIds⟩
  · exact Or.inr hstopped

theorem createsAlone_iff (horderly : s.world.Orderly)
    (hunused : ∀ key, s.nextKey ≤ key → s.world.creations.get? key = none)
    (hsettles : ∀ service slot,
      ∃ verdict, (outcome service slot).within settings.dialTimeout = some verdict) :
    Creates (s.aloneFor settings outcome pair) settings pair result ↔
      (s.alonePlan settings outcome pair).result = result :=
  creates_iff (hunused _ (Nat.le_refl _)) horderly (alonePlan_settles hsettles)

/-- A registry with the pools of all plans comprises the pools that are created alone. -/
theorem comprises_of_registers (horderly : start.world.Orderly)
    (hunused : ∀ key, start.nextKey ≤ key → start.world.creations.get? key = none)
    (hsettles : ∀ service slot,
      ∃ verdict, (outcome service slot).within settings.dialTimeout = some verdict)
    (hadmitted : ∀ plan ∈ plansOf settings outcome start services, plan.Admitted)
    (hregisters : after.Registers (plansOf settings outcome start services) registry.toList)
    (hvalues : registry.values.Nodup) :
    Comprises settings outcome start after services registry where
  keys := hregisters.map_fst.trans (map_name_plansFor ..)
  distinct := hvalues
  pools before pair rest hsplit := by
    have hplan : (start.alonePlan settings outcome pair).behind (addressesFor settings before) ∈
        plansOf settings outcome start services :=
      mem_plansOf_iff.mpr ⟨before, pair, rest, hsplit, rfl⟩
    obtain ⟨id, hmem, hne, hpool⟩ := hregisters.exists_pair hplan
    obtain ⟨-, capacity, hok⟩ := hadmitted _ hplan
    rw [Plan.entries_behind] at hne
    rw [Plan.stocked_behind] at hpool
    refine ⟨id, (start.alonePlan settings outcome pair).stocked,
      (Table.get?_eq_some_iff ..).mpr hmem, ?_, hpool⟩
    rw [createsAlone_iff horderly hunused hsettles,
      @Plan.result_of_admitted (start.alonePlan settings outcome pair) capacity hok,
      if_neg fun hnone => hne (by rw [hnone]; rfl)]

/-- The error of a plan is one of the service alone. -/
theorem exists_creates_error (horderly : start.world.Orderly)
    (hunused : ∀ key, start.nextKey ≤ key → start.world.creations.get? key = none)
    (hsettles : ∀ service slot,
      ∃ verdict, (outcome service slot).within settings.dialTimeout = some verdict)
    {plan : Plan} (hplan : plan ∈ plansOf settings outcome start services) {error : Error}
    (herror : plan.result = .error error) :
    ∃ pair ∈ services,
      Creates (start.aloneFor settings outcome pair) settings pair (.error error) := by
  obtain ⟨before, pair, rest, rfl, rfl⟩ := mem_plansOf_iff.mp hplan
  refine ⟨pair, by simp, (createsAlone_iff horderly hunused hsettles).mpr ?_⟩
  rw [Plan.result_behind] at herror
  cases hresult : (start.alonePlan settings outcome pair).result with
  | error other => rw [hresult] at herror; cases herror; rfl
  | ok pool => rw [hresult] at herror; cases herror

/-- After everything was given up nothing is left of what was established in the meantime. -/
theorem Apart.leavesNothing (hstart : start.world = (World.run {} past).1)
    (h : Apart start after [] []) : LeavesNothing start after where
  runs := h.runs
  closed _ hworld _ _ hconn := h.closed_of_delivered hstart hworld hconn

/-- A registry is built as a whole or not at all.  The services are taken in any order, and each
dial for a service comes out as given, after as long as given.  If some service has no heartbeat
nothing happens.  Otherwise there is a registry just if each service alone comes to a pool, and it
comprises these pools; and if not, the error is one of a service alone, and nothing is left.  The
heartbeats of other services do not matter. -/
theorem build_all_or_nothing (hstart : start.world = (World.run {} past).1)
    (hunused : ∀ key, start.nextKey ≤ key → start.world.creations.get? key = none)
    (hdistinct : (services.map Prod.fst).Nodup)
    (hsettles : ∀ service slot,
      ∃ verdict, (outcome service slot).within settings.dialTimeout = some verdict) :
    let together := togetherFor settings outcome start services
    (∃ after ended, EndsBuild (together.beginBuild services heartbeats settings) after ended ∧
      ((∃ pair ∈ services, pair.1 ∉ heartbeats) → after = together ∧
        ∃ pair ∈ services, pair.1 ∉ heartbeats ∧ ended = .error (.missingHeartbeat pair.1)) ∧
      ((∀ pair ∈ services, pair.1 ∈ heartbeats) →
        ((∃ registry, ended = .ok registry) ↔ ∀ pair ∈ services, ∃ pool,
          Creates (start.aloneFor settings outcome pair) settings pair (.ok pool)) ∧
        (∀ registry, ended = .ok registry →
          Comprises settings outcome start after services registry) ∧
        ∀ error, ended = .error error → LeavesNothing together after ∧ ∃ pair ∈ services,
          Creates (start.aloneFor settings outcome pair) settings pair (.error error))) ∧
    ∀ others, (∀ pair ∈ services, pair.1 ∈ others ↔ pair.1 ∈ heartbeats) →
      together.beginBuild services others settings =
        together.beginBuild services heartbeats settings := by
  intro together
  refine ⟨?_, fun others hothers => beginBuild_congr together settings hothers⟩
  have horderly : start.world.Orderly := hstart ▸ World.Orderly.initial.run past
  by_cases hheart : ∀ pair ∈ services, pair.1 ∈ heartbeats
  · obtain ⟨after, ended, hends, hended⟩ :=
      build_ends horderly hunused hdistinct hheart hsettles
    refine ⟨after, ended, hends, fun ⟨pair, hpair, hmissing⟩ => absurd (hheart pair hpair) hmissing,
      fun _ => ?_⟩
    rcases hended with ⟨registry, rfl, hadmitted, hregisters, hvalues⟩ |
      ⟨plan, hplan, error, herror, rfl, hapart⟩
    · -- all members are ready, so each creation succeeds alone
      have hcomprises :=
        comprises_of_registers horderly hunused hsettles hadmitted hregisters hvalues
      refine ⟨⟨fun _ pair hpair => ?_, fun _ => ⟨registry, rfl⟩⟩, fun _ heq => ?_, nofun⟩
      · obtain ⟨before, rest, hsplit⟩ := List.append_of_mem hpair
        obtain ⟨id, pool, -, hcreates, -⟩ := hcomprises.pools before pair rest hsplit
        exact ⟨pool, hcreates⟩
      · cases heq
        exact hcomprises
    · -- the plan that fails is that of one of the services, which fails alone as well
      obtain ⟨pair, hpair, hcreates⟩ :=
        exists_creates_error horderly hunused hsettles hplan herror
      refine ⟨⟨nofun, fun hall => ?_⟩, nofun, fun other heq => ?_⟩
      · obtain ⟨pool, hpool⟩ := hall pair hpair
        rw [createsAlone_iff horderly hunused hsettles] at hcreates hpool
        cases hcreates.symm.trans hpool
      · cases heq
        exact ⟨Apart.leavesNothing (by exact hstart) hapart, pair, hpair, hcreates⟩
  · -- a service without a heartbeat is found before anything is dialed
    obtain ⟨first, hfind⟩ := exists_missing hheart
    rw [beginBuild_of_missing together settings hfind]
    refine ⟨together, _, .done, fun _ => ⟨rfl, first, List.mem_of_find?_eq_some hfind, ?_, rfl⟩,
      fun hall => absurd hall hheart⟩
    simpa using List.find?_some hfind

/-- Two services with one endpoint each. -/
def twoServices : List (String × List Endpoint) :=
  [("mail", [{ address := "mail:1" }]), ("news", [{ address := "news:1" }])]

/-- The dials for one of the services come to a connection, those for the other do not. -/
def newsRefused (service : String) (_ : Nat) : Outcome :=
  if service = "mail" then .settles 1 .success else .settles 3 (.failure "refused")

/-- The pool that is ready is closed again when the dial for the other one fails. -/
theorem build_twoServices :
    ∃ after, EndsBuild ((togetherFor {} newsRefused {} twoServices).beginBuild twoServices
        ["news", "mail"] {}) after (.error (.fatal "news")) ∧
      LeavesNothing (togetherFor {} newsRefused {} twoServices) after := by
  have hmail :
      (({} : Session).alonePlan {} newsRefused ("mail", [{ address := "mail:1" }])).result =
      .ok { poolFor {} "mail" [{ address := "mail:1" }] with
        idle := [⟨⟨"mail:1", 0⟩, 0⟩], free := 0, counter := 1 } := by decide +kernel
  have hnews :
      (({} : Session).alonePlan {} newsRefused ("news", [{ address := "news:1" }])).result =
      .error (.fatal "news") := by decide +kernel
  have hsettles (service : String) (slot : Nat) :
      ∃ verdict, (newsRefused service slot).within ({} : Settings).dialTimeout = some verdict := by
    unfold newsRefused
    split <;> exact ⟨_, rfl⟩
  have halone (pair : String × List Endpoint) (result : Except Error Pool) :
      Creates (({} : Session).aloneFor {} newsRefused pair) {} pair result ↔
        (({} : Session).alonePlan {} newsRefused pair).result = result :=
    createsAlone_iff .initial (fun _ _ => rfl) hsettles
  obtain ⟨⟨after, ended, hends, -, hheart⟩, -⟩ :=
    @build_all_or_nothing {} newsRefused twoServices ["news", "mail"] {} [] rfl (fun _ _ => rfl)
      (by decide) hsettles
  obtain ⟨hiff, -, herror⟩ := hheart (by decide)
  cases ended with
  | ok registry =>
      obtain ⟨pool, hpool⟩ :=
        hiff.mp ⟨registry, rfl⟩ ("news", [{ address := "news:1" }]) (by decide)
      rw [halone, hnews] at hpool
      cases hpool
  | error error =>
      obtain ⟨hleaves, pair, hpair, hcreates⟩ := herror error rfl
      rw [halone] at hcreates
      rcases List.mem_cons.mp hpair with rfl | hpair
      · cases hmail.symm.trans hcreates
      · obtain rfl := List.mem_singleton.mp hpair
        cases hnews.symm.trans hcreates
        exact ⟨after, hends, hleaves⟩

end

end Session

end HeartbeatPool
