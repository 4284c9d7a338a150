import HeartbeatPool.Demo.Client
import HeartbeatPool.Proofs.Crew
import HeartbeatPool.Proofs.Grouping
import HeartbeatPool.Proofs.Prompting

/-!
# How the workers start

The client starts its workers with the registry that it has built, and the dials of the build are
answered at once or in their time (`Starts`).  Only the service of the workers has a heartbeat, so
a configuration from which a registry can be built names no other service, and the registry has a
pool of it or is empty.  Nobody has a call or a loan at the start (`Built`), so the workers are
manned from the beginning (`Built.manned`).

Main statement: `Starts.built`.
-/

namespace HeartbeatPool.Demo

/-- The workers of a client that has built a registry from its configuration. -/
inductive Starts (settings : ClientSettings) (config : ClientConfig) : Crew → Prop where
  /-- Each dial was answered at once. -/
  | prompt {outside : Outside} {order : ServiceOrder} {built : Outside × World}
      {registry : Registry}
      (hbuilt : buildRegistry outside order settings config = (built, .ok registry)) :
      Starts settings config (startCrew settings built.2 registry)
  /-- Each dial was answered in its time, or never. -/
  | timed {start after : Session} {order : ServiceOrder} {registry : Registry}
      (hstart : start.world = {})
      (hends : Session.EndsBuild (start.fromConfig order config [serviceName] settings.pools) after
        (.ok registry)) :
      Starts settings config (startCrew settings after.world registry)

/-- The workers at the start, with the pool of their service if it is configured. -/
structure Built (config : ClientConfig) (settings : ClientSettings) (crew : Crew) : Prop where
  reached : ∃ actions, crew.world = (World.run {} actions).1
  calls : crew.world.calls = ∅
  loans : crew.world.loans = ∅
  held : ∀ id, crew.pool = some id → id ∈ crew.world.held
  unconfigured : crew.pool = none ↔ config.endpointsByService.get? serviceName = none
  start : crew = startCrew settings crew.world crew.registry

section

variable {config : ClientConfig} {settings : ClientSettings} {order : ServiceOrder}
  {registry : Registry} {crew : Crew}

/-! ## Both ways to a registry -/

/-- The services of a registry are those of the configuration. -/
theorem get?_eq_none_iff_of_keys (hkeys : registry.keys = (config.services order).map Prod.fst) :
    registry.get? serviceName = none ↔ config.endpointsByService.get? serviceName = none := by
  have horder : (config.services order).Perm config.endpointsByService.toList := order.perm _
  rw [Table.get?_eq_none_iff, Table.get?_eq_none_iff, hkeys, (horder.map Prod.fst).mem_iff]
  rfl

theorem nodup_services (config : ClientConfig) (order : ServiceOrder) :
    ((config.services order).map Prod.fst).Nodup :=
  ((order.perm _).map Prod.fst).nodup_iff.mpr config.endpointsByService.nodup

/-- If all services are that of the workers, there is at most one. -/
theorem services_cases {services : List (String × List Endpoint)}
    (hdistinct : (services.map Prod.fst).Nodup)
    (hheart : ∀ pair ∈ services, pair.1 ∈ [serviceName]) :
    services = [] ∨ ∃ endpoints, services = [(serviceName, endpoints)] := by
  match services with
  | [] => exact Or.inl rfl
  | [(service, endpoints)] =>
      obtain rfl : service = serviceName := List.mem_singleton.mp (hheart _ List.mem_cons_self)
      exact Or.inr ⟨endpoints, rfl⟩
  | first :: second :: rest =>
      have hfirst := List.mem_singleton.mp (hheart first List.mem_cons_self)
      have hsecond := List.mem_singleton.mp
        (hheart second (List.mem_cons_of_mem _ List.mem_cons_self))
      simp [hfirst, hsecond] at hdistinct

/-- A registry that is built while each dial is answered at once. -/
theorem built_of_prompt {outside : Outside} {built : Outside × World}
    (hbuilt : buildRegistry outside order settings config = (built, .ok registry)) :
    Built config settings (startCrew settings built.2 registry) := by
  unfold buildRegistry Prompt.fromConfig Prompt.build at hbuilt
  have hdistinct := nodup_services config order
  have hkeys := @get?_eq_none_iff_of_keys config order registry
  generalize config.services order = services at hbuilt hdistinct hkeys
  split at hbuilt
  · cases hbuilt
  · next hnone =>
      have hheart : ∀ pair ∈ services, pair.1 ∈ [serviceName] := by
        simpa using List.find?_eq_none.mp hnone
      -- the only service with a heartbeat is that of the workers
      rcases services_cases hdistinct hheart with rfl | ⟨endpoints, rfl⟩
      · cases hbuilt
        exact ⟨⟨[], rfl⟩, rfl, rfl, nofun, hkeys rfl, rfl⟩
      · obtain ⟨state, result, hcreate⟩ : ∃ state result,
            Outside.prompt.create (outside, {}) 0 serviceName endpoints settings.pools =
              (state, result) := ⟨_, _, rfl⟩
        simp only [Prompt.createAll, List.length_nil, hcreate] at hbuilt
        cases result with
        | error error => cases hbuilt
        | ok id =>
            cases hbuilt
            obtain ⟨rfl, pool, hfounds⟩ :=
              Prompt.founds_of_create World.Orderly.initial rfl hcreate
            have hheld : state.2.held = [0] := hfounds.held
            refine ⟨hfounds.run, hfounds.calls, hfounds.loans, fun id hid => ?_, hkeys rfl, rfl⟩
            change id ∈ state.2.held
            rw [hheld]
            cases hid
            exact List.mem_cons_self

/-- A registry that is built while each dial is answered in its time. -/
theorem built_of_timed {start after : Session} (hstart : start.world = {})
    (hends : Session.EndsBuild (start.fromConfig order config [serviceName] settings.pools) after
      (.ok registry)) :
    Built config settings (startCrew settings after.world registry) := by
  have horderly : start.world.Orderly := hstart ▸ World.Orderly.initial
  have hunused (key : Key) (_ : start.nextKey ≤ key) : start.world.creations.get? key = none := by
    rw [hstart]
    rfl
  have hdistinct := nodup_services config order
  have hkeys := @get?_eq_none_iff_of_keys config order registry
  unfold Session.fromConfig at hends
  generalize config.services order = services at hends hdistinct hkeys
  by_cases hheart : ∀ pair ∈ services, pair.1 ∈ [serviceName]
  · obtain ⟨hconcludes, hnames, hgoes⟩ :=
      @Session.beginBuild_concludes start settings.pools services _ horderly hunused hdistinct
        hheart
    have hadmitted (members : List Session.Member)
        (hwaiting : (start.beginBuild services [serviceName] settings.pools).2 =
          .waiting members) :=
      (hgoes fun error herror => by cases hwaiting.symm.trans herror).1
    -- the build ends with a pool for each service, or with the error of one of them
    rcases hconcludes.of_ends horderly.linked horderly hends hadmitted hnames with
      ⟨_, hresult, hregisters, before, hworld, hapart⟩ | ⟨plan, -, error, -, hresult, -⟩
    · cases hresult
      obtain ⟨actions, hrun, -⟩ := hapart.runs
      rw [hstart] at hrun
      refine ⟨⟨actions, hworld.trans hrun⟩, ?_, ?_, fun id hid => ?_, hkeys ?_, rfl⟩
      · exact (congrArg World.calls hworld).trans (hapart.calls.trans (congrArg World.calls hstart))
      · exact (congrArg World.loans hworld).trans (hapart.loans.trans (congrArg World.loans hstart))
      · change id ∈ after.world.held
        rw [hworld, hapart.held.mem_iff, hstart]
        exact List.mem_map.mpr ⟨_, (Table.get?_eq_some_iff ..).mp hid, rfl⟩
      · exact hregisters.map_fst.trans (Session.map_name_plansFor ..)
    · cases hresult
  · -- a service without a heartbeat is refused at once
    obtain ⟨first, hfirst⟩ := Session.exists_missing hheart
    rw [Session.beginBuild_of_missing start settings.pools hfirst] at hends
    cases hends

theorem Starts.built (h : Starts settings config crew) : Built config settings crew := by
  cases h with
  | prompt hbuilt => exact built_of_prompt hbuilt
  | timed hstart hends => exact built_of_timed hstart hends

end

/-! ## At the start -/

namespace Built

variable {config : ClientConfig} {settings : ClientSettings} {crew : Crew} {id : PoolId}
  {index : Nat} {worker : Worker} (h : Built config settings crew)
include h

theorem workers_eq :
    crew.workers = (List.range settings.workers).map fun i => { number := i + 1 } :=
  congrArg Crew.workers h.start

theorem requests_eq : crew.requests = settings.requests := congrArg Crew.requests h.start

theorem length_workers : crew.workers.length = settings.workers := by simp [h.workers_eq]

theorem worker_eq (hworker : crew.workers[index]? = some worker) :
    worker = { number := index + 1 } := by
  rw [h.workers_eq, List.getElem?_map] at hworker
  obtain ⟨i, hi, rfl⟩ := Option.map_eq_some_iff.mp hworker
  rw [List.getElem?_eq_some_iff] at hi
  obtain ⟨hlt, rfl⟩ := hi
  simp

/-- Nobody has done anything yet. -/
theorem eq_of_mem (hmem : worker ∈ crew.workers) : worker = { number := worker.number } := by
  obtain ⟨index, hworker⟩ := List.mem_iff_getElem?.mp hmem
  rw [h.worker_eq hworker]

theorem ready (hmem : worker ∈ crew.workers) : worker.phase = .ready := by rw [h.eq_of_mem hmem]

theorem manned (hid : crew.pool = some id) : ∃ pool, crew.world.pools[id]? = some pool ∧
    crew.Manned id pool := by
  obtain ⟨actions, hreached⟩ := h.reached
  have hheld := h.held id hid
  have horderly : crew.world.Orderly := hreached ▸ World.Orderly.initial.run actions
  obtain ⟨pool, hpool⟩ := horderly.linked.poolOfHeld hheld
  have hnothing (key : Key) : crew.world.calls.get? key = none ∧
      crew.world.loans.get? key = none := by
    rw [h.calls, h.loans]
    exact ⟨rfl, rfl⟩
  refine ⟨pool, hpool, World.grounded_of_run hreached hheld hpool, hid,
    fun index worker hworker => ?_, fun worker hmem => ?_, fun worker hmem => ?_,
    fun key _ => hnothing key⟩
  · rw [h.worker_eq hworker]
  · rw [h.eq_of_mem hmem]
    exact hnothing _
  · rw [h.eq_of_mem hmem]
    exact Nat.zero_le _

end Built

end HeartbeatPool.Demo
