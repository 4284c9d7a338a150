import Mathlib.Algebra.GroupWithZero.Nat
import HeartbeatPool.Config.Basic
import HeartbeatPool.Proofs.Builds

/-!
# From the order of a file to the order of a pool

A configuration is a list of entries in which the services may be mixed up in any way.  Grouping
goes through it once, and each entry adds its endpoint to those of its service; so a service ends up
with the endpoints of just its own entries, in their order (`get?_endpointsByService`).

The order is kept by the creation of a pool: slot after slot is dialed for the endpoint that the
position stands for (`map_endpoint_layOut`), and a connection keeps the position of its endpoint.
So the positions in the pools of a registry are positions among the entries of the services
(`build_follows`).

Main statement: `order_of_file`.
-/

namespace HeartbeatPool

/-! ## Entries -/

/-- An endpoint is as an entry says: it has its address, and whatever else is set in it. -/
structure ClientEntry.Describes (entry : ClientEntry) (endpoint : Endpoint) : Prop where
  address : endpoint.address = entry.address
  tls : endpoint.tls = entry.tls
  caCertificate : endpoint.caCertificate = entry.caCertificate
  hostOverride : endpoint.hostOverride = entry.hostOverride

theorem ClientEntry.describes_toEndpoint (entry : ClientEntry) :
    entry.Describes entry.toEndpoint :=
  ⟨rfl, rfl, rfl, rfl⟩

theorem ClientEntry.describes_map_toEndpoint (entries : List ClientEntry) :
    List.Forall₂ ClientEntry.Describes entries (entries.map ClientEntry.toEndpoint) :=
  List.forall₂_map_right_iff.mpr (List.forall₂_same.mpr fun entry _ => entry.describes_toEndpoint)

/-! ## Grouping -/

namespace ClientConfig

/-- What some more entries add to the endpoints of a service. -/
theorem get?_foldl_addEndpoint (entries : List ClientEntry) (table : Table String (List Endpoint))
    (service : String) :
    (entries.foldl addEndpoint table).get? service =
      if (entries.filter fun entry => entry.service == service) = [] then table.get? service
      else some ((table.get? service).getD [] ++
        (entries.filter fun entry => entry.service == service).map ClientEntry.toEndpoint) := by
  induction entries generalizing table with
  | nil => rfl
  | cons entry entries ih =>
      rw [List.foldl_cons, ih, addEndpoint, Table.get?_insert]
      by_cases heq : entry.service = service
      · subst heq
        by_cases hrest : (entries.filter fun other => other.service == entry.service) = []
        · simp [hrest]
        · simp [hrest]
      · simp [heq]

variable (config : ClientConfig) (service : String)

/-- A service has the endpoints of its entries, in the order of the file. -/
theorem get?_endpointsByService :
    config.endpointsByService.get? service =
      if config.entriesFor service = [] then none
      else some ((config.entriesFor service).map ClientEntry.toEndpoint) :=
  get?_foldl_addEndpoint config.entries ∅ service

theorem get?_endpointsByService_eq_some_iff {endpoints : List Endpoint} :
    config.endpointsByService.get? service = some endpoints ↔
      endpoints = (config.entriesFor service).map ClientEntry.toEndpoint ∧ endpoints ≠ [] := by
  rw [get?_endpointsByService]
  split
  · next hnone => simp [hnone]
  · next hsome =>
      constructor
      · rintro ⟨⟩
        exact ⟨rfl, by simpa using hsome⟩
      · rintro ⟨rfl, -⟩
        rfl

/-- The services that are grouped are those of the entries. -/
theorem mem_keys_endpointsByService_iff :
    service ∈ config.endpointsByService.keys ↔
      ∃ entry ∈ config.entries, entry.service = service := by
  rw [← not_iff_not, ← Table.get?_eq_none_iff, get?_endpointsByService]
  simp [entriesFor]

/-- Each entry adds one endpoint. -/
theorem total_foldl_addEndpoint (entries : List ClientEntry)
    (table : Table String (List Endpoint)) :
    (entries.foldl addEndpoint table).total (fun _ endpoints => endpoints.length) =
      table.total (fun _ endpoints => endpoints.length) + entries.length := by
  induction entries generalizing table with
  | nil => rfl
  | cons entry entries ih =>
      have hstep : (addEndpoint table entry).total (fun _ endpoints => endpoints.length) =
          table.total (fun _ endpoints => endpoints.length) + 1 := by
        unfold addEndpoint
        cases hget : table.get? entry.service with
        | none => exact Table.total_insert_new _ hget _
        | some old =>
            have htotal := Table.total_insert_old (fun _ endpoints => endpoints.length) hget
              (old ++ [entry.toEndpoint])
            rw [List.length_append, List.length_singleton] at htotal
            rw [Option.getD_some]
            omega
      rw [List.foldl_cons, ih, hstep, List.length_cons]
      omega

/-- No entry is lost. -/
theorem sum_length_endpointsByService :
    (config.endpointsByService.values.map List.length).sum = config.entries.length := by
  have htotal := total_foldl_addEndpoint config.entries ∅
  rw [Table.total] at htotal
  rw [Table.values, List.map_map]
  exact htotal.trans (Nat.zero_add _)

/-- A table has the endpoints of each service that a configuration names, in the order of its
entries, and nothing else. -/
structure Groups (table : Table String (List Endpoint)) : Prop where
  distinct : table.keys.Nodup
  services : ∀ service, service ∈ table.keys ↔ ∃ entry ∈ config.entries, entry.service = service
  endpoints : ∀ service endpoints, table.get? service = some endpoints →
    endpoints = (config.entriesFor service).map ClientEntry.toEndpoint ∧ endpoints ≠ []
  /-- Endpoint by endpoint, all fields are carried over. -/
  carried : ∀ service endpoints, table.get? service = some endpoints →
    List.Forall₂ ClientEntry.Describes (config.entriesFor service) endpoints
  entries : (table.values.map List.length).sum = config.entries.length

theorem groups_endpointsByService : config.Groups config.endpointsByService where
  distinct := config.endpointsByService.nodup
  services := config.mem_keys_endpointsByService_iff
  endpoints service _ := (config.get?_endpointsByService_eq_some_iff service).mp
  carried service endpoints hget := by
    rw [((config.get?_endpointsByService_eq_some_iff service).mp hget).1]
    exact ClientEntry.describes_map_toEndpoint _
  entries := config.sum_length_endpointsByService

end ClientConfig

/-! ## Reasons -/

namespace Inadmissible

/-- The letter that the words for a reason begin with. -/
def initial : Inadmissible → Char
  | .noEndpoints => 'n'
  | .noConnections => 'c'
  | .blankAddress => 'b'
  | .tooLarge => 'p'

theorem head?_append_append {first : Char} {text : String} (h : text.toList.head? = some first)
    (second third : String) : (text ++ second ++ third).toList.head? = some first := by
  rw [String.toList_append, String.toList_append, List.head?_append, List.head?_append, h]
  rfl

theorem head?_describe (reason : Inadmissible) (name : String) :
    (reason.describe name).toList.head? = some reason.initial := by
  cases reason with
  | noEndpoints | noConnections | blankAddress | tooLarge =>
      exact head?_append_append (by simp [initial]) name _

/-- The words tell whether there were no endpoints. -/
theorem eq_noEndpoints {reason : Inadmissible} {name other : String}
    (h : reason.describe name = noEndpoints.describe other) : reason = .noEndpoints := by
  have hinitial := congrArg (fun text => text.toList.head?) h
  simp only [head?_describe, Option.some.injEq] at hinitial
  cases reason with
  | noEndpoints => rfl
  | noConnections | blankAddress | tooLarge => exact absurd hinitial (by decide)

end Inadmissible

/-- A pool with endpoints is not refused for having none. -/
theorem Plan.result_ne_noEndpoints {plan : Plan} (h : plan.pool.endpoints ≠ []) (service : String) :
    plan.result ≠ .error (.invalidConfig (Inadmissible.noEndpoints.describe service)) := by
  intro heq
  cases hok : checkParameters plan.pool.endpoints plan.pool.settings with
  | error reason =>
      rw [result_of_refused hok] at heq
      obtain rfl := Inadmissible.eq_noEndpoints (Error.invalidConfig.inj (Except.error.inj heq))
      rw [checkParameters_eq] at hok
      grind
  | ok capacity =>
      rw [result_of_admitted hok] at heq
      split at heq <;> cases heq

/-! ## Positions -/

/-- A connection has the position of the endpoint that it was dialed for. -/
theorem exists_dial_of_mem_entries {pool : Pool} {begun : Nat} {dialed : List String}
    {script : Script} {entry : Entry}
    (h : entry ∈ (Plan.mk pool begun (layOut pool dialed script 0 pool.capacity).1).entries) :
    ∃ dial ∈ (layOut pool dialed script 0 pool.capacity).1,
      entry.conn = dial.conn ∧ pool.endpoints[entry.index]? = some dial.endpoint := by
  obtain ⟨⟨dial, slot⟩, hmem, hentry⟩ := List.mem_filterMap.mp h
  have hdial := List.mk_mem_zipIdx_iff_getElem?.mp hmem
  have hendpoint := congrArg (Option.map Dial.endpoint) hdial
  rw [← List.getElem?_map, map_endpoint_layOut, List.getElem?_map] at hendpoint
  unfold Plan.entryOf? at hentry
  split at hentry
  · cases hentry
    have hslot : slot < pool.capacity := by
      have hlt := (List.getElem?_eq_some_iff.mp hdial).1
      rwa [length_layOut] at hlt
    have hindex : slot / pool.settings.perEndpoint < pool.endpoints.length :=
      Nat.div_lt_of_lt_mul hslot
    rw [List.getElem?_range' hslot, Option.map_some, Option.map_some, Nat.zero_add, Nat.one_mul]
      at hendpoint
    refine ⟨dial, List.mem_of_getElem? hdial, rfl, ?_⟩
    rw [← hendpoint, Pool.endpoint, List.getD_eq_getElem?_getD, List.getElem?_eq_getElem hindex]
    rfl
  · cases hentry

namespace Session

theorem exists_of_mem_plansFor {settings : Settings} {begun : Nat} {dialed : List String}
    {script : Script} {services : List (String × List Endpoint)} {plan : Plan}
    (h : plan ∈ plansFor settings begun dialed script services) :
    ∃ pair ∈ services, ∃ dialed' script', plan = ⟨poolFor settings pair.1 pair.2, begun,
      (layOut (poolFor settings pair.1 pair.2) dialed' script' 0
        (poolFor settings pair.1 pair.2).capacity).1⟩ := by
  induction services generalizing dialed script with
  | nil => cases h
  | cons first services ih =>
      rcases List.mem_cons.mp h with rfl | h
      · exact ⟨first, List.mem_cons_self .., dialed, script, rfl⟩
      · obtain ⟨pair, hpair, hplan⟩ := ih h
        exact ⟨pair, List.mem_cons_of_mem _ hpair, hplan⟩

/-! ## Registries from configurations -/

/-- The pools of a registry follow the entries of a configuration. -/
structure Follows (config : ClientConfig) (settings : Settings) (events : List Event) (s : Session)
    (registry : Registry) : Prop where
  services : ∀ service, service ∈ registry.keys ↔ ∃ entry ∈ config.entries, entry.service = service
  pools : ∀ service id, registry.get? service = some id → ∃ pool, s.world.pools[id]? = some pool ∧
    pool.endpoints = (config.entriesFor service).map ClientEntry.toEndpoint ∧
    List.Forall₂ ClientEntry.Describes (config.entriesFor service) pool.endpoints ∧
    pool.capacity = settings.perEndpoint * (config.entriesFor service).length ∧
    ∀ entry ∈ pool.idle, ∃ line, (config.entriesFor service)[entry.index]? = some line ∧
      dialOf (events ++ s.seen) entry.conn = some line.toEndpoint

variable {config : ClientConfig} {start after : Session} {past : List World.Action}
  {events : List Event} {services : List (String × List Endpoint)} {heartbeats : List String}
  {settings : Settings} {ended : Except Error Registry}

theorem knows_of_run (hpast : World.run {} past = (start.world, events ++ start.seen)) :
    Knows events start := by
  have hinitial : Knows [] {} := ⟨.initial, rfl⟩
  have hruns : Runs {} { world := start.world, seen := events ++ start.seen } :=
    ⟨past, congrArg Prod.fst hpast.symm, congrArg Prod.snd hpast.symm⟩
  have hknows := hinitial.runs hruns
  exact ⟨hknows.orderly, hknows.dialed⟩

theorem endpoints_of_mem (horder : services.Perm config.endpointsByService.toList)
    {pair : String × List Endpoint} (hpair : pair ∈ services) :
    pair.2 = (config.entriesFor pair.1).map ClientEntry.toEndpoint ∧ pair.2 ≠ [] :=
  (config.get?_endpointsByService_eq_some_iff pair.1).mp
    ((Table.get?_eq_some_iff ..).mpr (horder.mem_iff.mp hpair))

/-- The pools that are created as the plans of the services say follow the configuration. -/
theorem follows_of_registers {dialed : List String} {script : Script} {begun : Nat}
    {registry : Registry} (horder : services.Perm config.endpointsByService.toList)
    (hregisters : after.Registers (plansFor settings begun dialed script services) registry.toList)
    (hsources : ∀ plan ∈ plansFor settings begun dialed script services, ∀ dial ∈ plan.dials,
      dialOf (events ++ after.seen) dial.conn = some dial.endpoint) :
    Follows config settings events after registry where
  services service := by
    have hkeys : registry.keys = services.map Prod.fst :=
      hregisters.map_fst.trans (map_name_plansFor ..)
    rw [hkeys, (horder.map Prod.fst).mem_iff]
    exact config.mem_keys_endpointsByService_iff service
  pools service id hget := by
    obtain ⟨plan, hplan, rfl, hpool⟩ :=
      hregisters.exists_plan ((Table.get?_eq_some_iff ..).mp hget)
    obtain ⟨pair, hpair, dialed', script', rfl⟩ := exists_of_mem_plansFor hplan
    obtain ⟨hendpoints, -⟩ := endpoints_of_mem horder hpair
    refine ⟨_, hpool, hendpoints, ?_, ?_, fun entry hentry => ?_⟩
    · change List.Forall₂ _ _ pair.2
      rw [hendpoints]
      exact ClientEntry.describes_map_toEndpoint _
    · change settings.perEndpoint * pair.2.length = _
      rw [hendpoints, List.length_map]
      rfl
    · obtain ⟨dial, hdial, hconn, hindex⟩ := exists_dial_of_mem_entries hentry
      change pair.2[entry.index]? = _ at hindex
      rw [hendpoints, List.getElem?_map, Option.map_eq_some_iff] at hindex
      obtain ⟨line, hline, hendpoint⟩ := hindex
      exact ⟨line, hline, by rw [hconn, hsources _ hplan dial hdial, hendpoint]⟩

/-- A registry that is built from a configuration follows its entries, and the build never fails
because a service has no endpoints. -/
theorem build_follows (order : ServiceOrder)
    (hpast : World.run {} past = (start.world, events ++ start.seen))
    (hunused : ∀ key, start.nextKey ≤ key → start.world.creations.get? key = none)
    (hends : EndsBuild (start.fromConfig order config heartbeats settings) after ended) :
    (∀ registry, ended = .ok registry → Follows config settings events after registry) ∧
      ∀ service, ended ≠ .error (.invalidConfig (Inadmissible.noEndpoints.describe service)) := by
  have hknows := knows_of_run hpast
  have horder : (config.services order).Perm config.endpointsByService.toList := order.perm _
  unfold fromConfig at hends
  generalize config.services order = services at hends horder
  have hdistinct : (services.map Prod.fst).Nodup :=
    (horder.map Prod.fst).nodup_iff.mpr config.endpointsByService.nodup
  by_cases hheart : ∀ pair ∈ services, pair.1 ∈ heartbeats
  · obtain ⟨hconcludes, hnames, hgoes⟩ :=
      @beginBuild_concludes start settings services heartbeats hknows.orderly hunused hdistinct
        hheart
    -- what was seen when the build began is still seen at its end
    have hseen := seen_of_ends hends
    have hadmitted (members : List Member)
        (hwaiting : (start.beginBuild services heartbeats settings).2 = .waiting members) :=
      (hgoes fun error herror => by cases hwaiting.symm.trans herror).1
    rcases hconcludes.of_ends hknows.orderly.linked hknows.orderly hends hadmitted hnames with
      ⟨registry, rfl, hregisters, -⟩ | ⟨plan, hplan, error, herror, rfl, -⟩
    · refine ⟨fun _ heq => ?_, nofun⟩
      cases heq
      obtain ⟨more, hmore⟩ := hseen
      refine follows_of_registers horder hregisters fun plan hplan dial hdial => ?_
      rw [← hmore, ← List.append_assoc]
      exact
        dialOf_append ((hgoes (ne_error_of_ends hends)).2 events hknows plan hplan dial hdial) more
    · refine ⟨nofun, fun service heq => ?_⟩
      cases heq
      -- the plan that fails is that of a service, which has endpoints
      obtain ⟨pair, hpair, dialed, script, rfl⟩ := exists_of_mem_plansFor hplan
      exact Plan.result_ne_noEndpoints (endpoints_of_mem horder hpair).2 service herror
  · obtain ⟨first, hfirst⟩ := exists_missing hheart
    rw [beginBuild_of_missing start settings hfirst] at hends
    cases hends
    exact ⟨nofun, nofun⟩

/-- The endpoints of a configuration are grouped by their services in the order of the file, with
all that the entries say of them, and any registry that is built from the configuration, whatever
the order in which the services are gone through, follows the file. -/
theorem order_of_file (config : ClientConfig) :
    config.Groups config.endpointsByService ∧
      ∀ (order : ServiceOrder) (past : List World.Action) (events : List Event)
        (start after : Session) (heartbeats : List String) (settings : Settings)
        (ended : Except Error Registry),
        World.run {} past = (start.world, events ++ start.seen) →
        (∀ key, start.nextKey ≤ key → start.world.creations.get? key = none) →
        EndsBuild (start.fromConfig order config heartbeats settings) after ended →
        (∀ registry, ended = .ok registry → Follows config settings events after registry) ∧
          ∀ service, ended ≠ .error (.invalidConfig (Inadmissible.noEndpoints.describe service)) :=
  ⟨config.groups_endpointsByService, fun order _ _ _ _ _ _ _ hpast hunused hends =>
    build_follows order hpast hunused hends⟩

/-- Two services that are mixed up in a file. -/
def mixedEntries : ClientConfig where
  entries := [{ service := "mail", address := "mail:1", tls := true },
    { service := "news", address := "news:1", hostOverride := some "news" },
    { service := "mail", address := "mail:2", caCertificate := some "ca.pem" }]

/-- The services from the last to the first. -/
def lastFirst : ServiceOrder := ⟨List.reverse, List.reverse_perm⟩

theorem order_of_mixedEntries :
    let begun := ({} : Session).fromConfig lastFirst mixedEntries ["mail", "news"]
      { perEndpoint := 2 }
    mixedEntries.services lastFirst =
        [("news", [{ address := "news:1", hostOverride := some "news" }]),
          ("mail", [{ address := "mail:1", tls := true },
            { address := "mail:2", caCertificate := some "ca.pem" }])] ∧
      ∃ registry, EndsBuild begun begun.1 (.ok registry) ∧
        Follows mixedEntries { perEndpoint := 2 } [] begun.1 registry := by
  intro begun
  have hready : (match begun.2 with | .done (.ok _) => true | _ => false) = true := by
    decide +kernel
  obtain ⟨registry, hregistry⟩ : ∃ registry, begun.2 = .done (.ok registry) := by
    split at hready
    · next registry heq => exact ⟨registry, heq⟩
    · cases hready
  have hends : EndsBuild begun begun.1 (.ok registry) := by
    have hpair : begun = (begun.1, .done (.ok registry)) := Prod.ext rfl hregistry
    rw [hpair]
    exact .done
  exact ⟨by decide +kernel, registry, hends,
    ((order_of_file mixedEntries).2 lastFirst [] [] {} _ _ _ _ rfl (fun _ _ => rfl) hends).1
      registry rfl⟩

end Session

end HeartbeatPool
