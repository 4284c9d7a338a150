import HeartbeatPool.Channel.Factory
import HeartbeatPool.Proofs.Prompting

/-!
# Pools of channels that connect on first use

A factory whose channels connect on first use does not look at the network, so it answers every
dial of an endpoint alike: with a channel if the endpoint is good, and otherwise with the first
thing that is wrong with it (`fault?_of_lazy`).  A pool of such channels therefore starts with all
connections that its good endpoints may have, and with no others.

Main statement: `Prompt.create_of_lazy`.
-/

namespace HeartbeatPool

/-! ## Good endpoints -/

namespace Endpoint

variable (endpoint : Endpoint)

/-- Whether the URI that is dialed for an endpoint is valid. -/
def hasUri : Bool := Uri.isValid endpoint.uri

/-- Whether there can be a channel to an endpoint: it asks for no transport security, and its URI is
valid. -/
def isGood : Bool := !endpoint.tls && endpoint.hasUri

end Endpoint

namespace ChannelFactory

variable {factory : ChannelFactory} (hlazy : factory.isLazy = true) (network : Network)
  (endpoint : Endpoint)
include hlazy

/-- What is wrong with an endpoint: first its URI, then that it asks for transport security. -/
theorem fault?_of_lazy : factory.fault? network endpoint =
    if endpoint.hasUri = false then some .invalidUri
    else if endpoint.tls then some (.noTransportSecurity endpoint.address)
    else none := by
  unfold fault? Endpoint.hasUri
  cases Uri.isValid endpoint.uri <;> simp [hlazy]

theorem fault?_eq_none_iff :
    factory.fault? network endpoint = none ↔ endpoint.isGood = true := by
  rw [fault?_of_lazy hlazy, Endpoint.isGood]
  cases endpoint.hasUri <;> cases endpoint.tls <;> simp

theorem dial_eq_success_iff :
    (factory.dial network endpoint).2 = .success ↔ endpoint.isGood = true := by
  rw [← fault?_eq_none_iff hlazy, dial]
  cases factory.fault? network endpoint <;> simp

end ChannelFactory

/-! ## The positions of good endpoints -/

/-- The positions of the connections to some endpoints, so many to each that is good, in the order
of the endpoints. -/
def goodPositions (perEndpoint : Nat) (endpoints : List Endpoint) : List Nat :=
  endpoints.zipIdx.flatMap fun (endpoint, index) =>
    if endpoint.isGood then List.replicate perEndpoint index else []

/-- The slots in a row belong to one endpoint after the other. -/
theorem map_div_range {perEndpoint : Nat} (hpos : 0 < perEndpoint) (length : Nat) :
    (List.range (perEndpoint * length)).map (· / perEndpoint) =
      (List.range length).flatMap (List.replicate perEndpoint) := by
  induction length with
  | zero => rfl
  | succ length ih =>
      have hlast : (List.range perEndpoint).map
          (fun slot => (perEndpoint * length + slot) / perEndpoint) =
            List.replicate perEndpoint length := by
        refine List.eq_replicate_iff.mpr ⟨by simp, fun index hindex => ?_⟩
        obtain ⟨slot, hslot, rfl⟩ := List.mem_map.mp hindex
        rw [Nat.mul_add_div hpos, Nat.div_eq_of_lt (List.mem_range.mp hslot), Nat.add_zero]
      rw [Nat.mul_succ, List.range_add, List.map_append, List.map_map, List.range_succ,
        List.flatMap_append, List.flatMap_singleton, ih]
      exact congrArg _ hlast

/-- The slots of good endpoints, in a row. -/
theorem filterMap_good (pool : Pool) (hpos : 0 < pool.settings.perEndpoint) :
    ((List.range pool.capacity).filterMap fun slot =>
        if (pool.endpoint (slot / pool.settings.perEndpoint)).isGood then
          some (slot / pool.settings.perEndpoint)
        else none) =
      goodPositions pool.settings.perEndpoint pool.endpoints := by
  let position (index : Nat) : Option Nat :=
    if (pool.endpoint index).isGood then some index else none
  have hplace (index : Nat) :
      (List.replicate pool.settings.perEndpoint index).filterMap position =
        if (pool.endpoint index).isGood then
          List.replicate pool.settings.perEndpoint index
        else [] := by
    by_cases hgood : (pool.endpoint index).isGood = true <;>
      simp [position, hgood]
  calc (List.range pool.capacity).filterMap (position ∘ (· / pool.settings.perEndpoint))
      = ((List.range pool.capacity).map (· / pool.settings.perEndpoint)).filterMap position :=
        List.filterMap_map.symm
    _ = (List.range pool.endpoints.length).flatMap fun index =>
          if (pool.endpoint index).isGood then
            List.replicate pool.settings.perEndpoint index
          else [] := by
        rw [Pool.capacity, map_div_range hpos, List.filterMap_flatMap]
        exact List.flatMap_congr fun index _ => hplace index
    _ = goodPositions pool.settings.perEndpoint pool.endpoints := by
        rw [goodPositions, List.range_eq_range', ← List.zipIdx_map_snd, List.flatMap_map]
        refine List.flatMap_congr fun pair hpair => ?_
        obtain ⟨endpoint, index⟩ := pair
        have hendpoint := List.mk_mem_zipIdx_iff_getElem?.mp hpair
        simp [Pool.endpoint, List.getD_eq_getElem?_getD, hendpoint]

theorem exists_of_mem_goodPositions {perEndpoint index : Nat} {endpoints : List Endpoint}
    (hindex : index ∈ goodPositions perEndpoint endpoints) :
    ∃ endpoint, endpoints[index]? = some endpoint ∧ endpoint.isGood = true := by
  obtain ⟨⟨endpoint, position⟩, hmem, hplace⟩ := List.mem_flatMap.mp hindex
  by_cases hgood : endpoint.isGood = true
  · obtain rfl : index = position := by simpa [hgood] using (List.mem_replicate.mp
      (by simpa [hgood] using hplace)).2
    exact ⟨endpoint, List.mk_mem_zipIdx_iff_getElem?.mp hmem, hgood⟩
  · simp [hgood] at hplace

theorem goodPositions_eq_nil_iff {perEndpoint : Nat} (hpos : 0 < perEndpoint)
    (endpoints : List Endpoint) : goodPositions perEndpoint endpoints = [] ↔
      ∀ endpoint ∈ endpoints, endpoint.isGood = false := by
  rw [goodPositions, List.flatMap_eq_nil_iff]
  constructor
  · intro hnone endpoint hendpoint
    obtain ⟨index, hindex⟩ := List.mem_iff_getElem?.mp hendpoint
    have hempty := hnone (endpoint, index) (List.mk_mem_zipIdx_iff_getElem?.mpr hindex)
    by_contra hgood
    simp [hgood, Nat.ne_of_gt hpos] at hempty
  · rintro hbad ⟨endpoint, index⟩ hmem
    have hendpoint := List.mem_of_getElem? (List.mk_mem_zipIdx_iff_getElem?.mp hmem)
    simp [hbad endpoint hendpoint]

/-! ## Creations -/

variable {σ : Type} {prompt : Prompt σ} {factory : ChannelFactory} {network : Network}

/-- The outside world answers every dial as a factory does. -/
def Prompt.DialsBy (prompt : Prompt σ) (factory : ChannelFactory) (network : Network) : Prop :=
  ∀ state endpoint, (prompt.dial state endpoint).2 = (factory.dial network endpoint).2

section Lazy

variable (hlazy : factory.isLazy = true) (hdials : prompt.DialsBy factory network)
include hlazy hdials

/-- A slot is established exactly if its endpoint is good. -/
theorem Slot.IsAnswer.isGood_iff {endpoint : Endpoint} {slot : Slot}
    (h : slot.IsAnswer prompt endpoint) :
    endpoint.isGood = true ↔ ∃ conn, slot = .established conn := by
  rw [← ChannelFactory.dial_eq_success_iff hlazy]
  cases slot with
  | dialing => exact h.elim
  | established conn =>
      obtain ⟨state, hanswer⟩ := h
      exact iff_of_true ((hdials state endpoint).symm.trans hanswer) ⟨conn, rfl⟩
  | failed cause =>
      obtain ⟨state, hanswer⟩ := h
      rw [← hdials state endpoint, hanswer]
      exact iff_of_false nofun nofun

/-- What a creation establishes is what its good endpoints may have. -/
theorem Opened.map_index {pool : Pool} {creation : Creation}
    (h : Opened prompt pool pool.capacity creation) (hpos : 0 < pool.settings.perEndpoint) :
    creation.entries.map Entry.index =
      goodPositions pool.settings.perEndpoint pool.endpoints := by
  have hsettings := Pool.settings_eq h.identity
  rw [← filterMap_good pool hpos, Creation.entries, List.map_filterMap,
    List.range_eq_range', ← h.length, ← List.zipIdx_map_snd, List.filterMap_map]
  refine List.filterMap_congr fun pair hpair => ?_
  obtain ⟨result, slot⟩ := pair
  have hanswer := h.answers slot result (List.mk_mem_zipIdx_iff_getElem?.mp hpair)
  have hgood := hanswer.isGood_iff hlazy hdials
  cases result with
  | dialing => exact hanswer.elim
  | established conn => simp [Creation.entryOf?, Creation.endpointOf, hsettings, hgood]
  | failed cause => simp [Creation.entryOf?, hgood]

end Lazy

/-- Parameters with which a pool can be created. -/
theorem checkParameters_of_admissible {endpoints : List Endpoint} {settings : Settings}
    (hblank : ∀ endpoint ∈ endpoints, Text.isBlank endpoint.address = false)
    (hpos : 0 < settings.perEndpoint * endpoints.length)
    (hle : settings.perEndpoint * endpoints.length ≤ maxCapacity) :
    checkParameters endpoints settings = .ok (settings.perEndpoint * endpoints.length) := by
  have hsome : endpoints.isEmpty = false := by
    cases endpoints with
    | nil => exact absurd hpos (Nat.lt_irrefl 0)
    | cons endpoint rest => rfl
  have hconnections : settings.perEndpoint ≠ 0 := fun hzero => by
    rw [hzero, Nat.zero_mul] at hpos
    exact Nat.lt_irrefl 0 hpos
  have hwritten : (endpoints.any fun endpoint => Text.isBlank endpoint.address) = false :=
    List.any_eq_false.mpr fun endpoint hendpoint => by simp [hblank endpoint hendpoint]
  simp [checkParameters_eq, hsome, hconnections, hwritten, Nat.not_lt.mpr hle]

namespace Prompt

variable {key : Key} {endpoints : List Endpoint} {settings : Settings}

/-- A creation with admissible parameters comes to a pool with all connections that its good
endpoints may have, in order, and fails if none of the endpoints is good. -/
theorem create_of_lazy (hlazy : factory.isLazy = true) (hdials : prompt.DialsBy factory network)
    (state : σ × World) (horderly : state.2.Orderly) (hkey : state.2.creations.get? key = none)
    (name : String) {capacity : Nat} (hok : checkParameters endpoints settings = .ok capacity) :
    ∃ new : Option Pool,
      state.2.Founds (prompt.create state key name endpoints settings).1.2 new ∧
      (prompt.create state key name endpoints settings).2 =
        new.elim (.error (.fatal name)) (fun _ => .ok state.2.pools.length) ∧
      (new = none ↔ ∀ endpoint ∈ endpoints, endpoint.isGood = false) ∧
      ∀ pool ∈ new, pool.identity = (name, name, endpoints, settings) ∧
        pool.idle.map Entry.index = goodPositions settings.perEndpoint endpoints ∧
        pool.live = pool.idle.length := by
  obtain ⟨creation, hopened, hfresh, hfounds, hresult⟩ :=
    @create_cases _ prompt _ name _ _ _ state horderly hkey hok
  obtain rfl := capacity_of_ok hok
  have hpos := hfresh.positive
  rw [Pool.settings_eq hopened.identity] at hpos
  -- the indices of what was established are those of the good endpoints
  have hindex := hopened.map_index hlazy hdials hpos
  refine ⟨_, hfounds, ?_, ?_, ?_⟩
  · rw [hresult]
    split <;> rfl
  · -- there is no pool exactly if nothing was established
    rw [← goodPositions_eq_nil_iff hpos endpoints, ← hindex, List.map_eq_nil_iff]
    split <;> simp_all
  · intro pool hpool
    by_cases hnone : creation.entries = []
    · simp [hnone] at hpool
    · obtain rfl : creation.stock.1 = pool := by simpa [hnone] using hpool
      have hidle : creation.stock.1.idle = creation.entries := by rw [hfresh.stock_eq]
      refine ⟨?_, ?_, ?_⟩
      · rw [hfresh.stock_eq]
        exact hopened.identity
      · rw [hidle]
        exact hindex
      · rw [hfresh.live_stock, hidle]

end Prompt

end HeartbeatPool
