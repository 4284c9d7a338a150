import HeartbeatPool.Proofs.Completion
import HeartbeatPool.Proofs.History
import Mathlib.Algebra.Group.Nat.Defs

/-!
# Which parameters are admitted

Four reasons speak against a pool, and several of them may apply at once.  What is told is the
first of them (`Inadmissible.IsFirst`), before anything is dialed or logged.  If none applies, the
creation goes on and is never refused later, and the pool that it comes to has as many places as its
endpoints may have connections.

Capacities are products of machine words, and one that wraps around into the range of admissible
capacities is refused like any other that is too large: `capacityOf?` has no capacity for it.

## Strategy

`checkParameters_cases` looks at the reasons in their order: before each of them no reason applies
(`NoneBefore`), or an earlier one would have been told.  Everything about the beginning of a
creation is read off it.  Later a creation only gets to `concludeCreation`, which refuses nothing,
so an induction over the jumps in time (`refused_of_ends`) leads back to the beginning.  That the
places of a queue can be subtracted from each other is the invariant of all pools.

Main statement: `admission_of_parameters`.
-/

namespace HeartbeatPool

/-! ## Reasons -/

namespace Text

/-- The code points with the property `White_Space`, in ranges. -/
def whiteSpace : List (Nat × Nat) :=
  [(0x09, 0x0d), (0x20, 0x20), (0x85, 0x85), (0xa0, 0xa0), (0x1680, 0x1680), (0x2000, 0x200a),
    (0x2028, 0x2029), (0x202f, 0x202f), (0x205f, 0x205f), (0x3000, 0x3000)]

/-- Whether a text holds nothing but white space. -/
def IsWhiteSpace (text : String) : Prop :=
  ∀ c ∈ text.toList, ∃ range ∈ whiteSpace, range.1 ≤ c.toNat ∧ c.toNat ≤ range.2

theorem isBlankChar_iff (c : Char) :
    isBlankChar c = true ↔ ∃ range ∈ whiteSpace, range.1 ≤ c.toNat ∧ c.toNat ≤ range.2 := by
  simp only [isBlankChar, whiteSpace, Bool.or_eq_true, Bool.and_eq_true, decide_eq_true_eq,
    beq_iff_eq, List.mem_cons, List.not_mem_nil, or_false, exists_eq_or_imp, ↓existsAndEq, true_and]
  omega

theorem isBlank_iff (text : String) : isBlank text = true ↔ IsWhiteSpace text := by
  rw [isBlank, List.all_eq_true]
  exact forall₂_congr fun c _ => isBlankChar_iff c

end Text

namespace Inadmissible

variable {endpoints : List Endpoint} {perEndpoint : Nat} {reason : Inadmissible}

/-- Whether a reason speaks against a pool with so many connections to each of some endpoints. -/
def Applies (endpoints : List Endpoint) (perEndpoint : Nat) : Inadmissible → Prop
  | .noEndpoints => endpoints = []
  | .noConnections => perEndpoint = 0
  | .blankAddress => ∃ endpoint ∈ endpoints, Text.IsWhiteSpace endpoint.address
  | .tooLarge => 2 ^ 61 - 1 < perEndpoint * endpoints.length

/-- The place of a reason in the order in which they are told. -/
def rank : Inadmissible → Nat
  | .noEndpoints => 0
  | .noConnections => 1
  | .blankAddress => 2
  | .tooLarge => 3

theorem eq_of_rank {other : Inadmissible} (h : reason.rank = other.rank) : reason = other := by
  cases reason <;> cases other <;> simp_all [rank]

/-- Of the reasons that apply this one is told. -/
structure IsFirst (endpoints : List Endpoint) (perEndpoint : Nat) (reason : Inadmissible) :
    Prop where
  applies : reason.Applies endpoints perEndpoint
  first : ∀ other : Inadmissible, other.Applies endpoints perEndpoint → reason.rank ≤ other.rank

theorem IsFirst.unique {other : Inadmissible} (h : reason.IsFirst endpoints perEndpoint)
    (h' : other.IsFirst endpoints perEndpoint) : reason = other :=
  eq_of_rank (Nat.le_antisymm (h.first other h'.applies) (h'.first reason h.applies))

/-- No reason before a place in the order applies. -/
def NoneBefore (endpoints : List Endpoint) (perEndpoint : Nat) (place : Nat) : Prop :=
  ∀ other : Inadmissible, other.rank < place → ¬ other.Applies endpoints perEndpoint

theorem NoneBefore.zero (endpoints : List Endpoint) (perEndpoint : Nat) :
    NoneBefore endpoints perEndpoint 0 :=
  fun _ hlt => absurd hlt (Nat.not_lt_zero _)

theorem NoneBefore.isFirst (h : NoneBefore endpoints perEndpoint reason.rank)
    (happlies : reason.Applies endpoints perEndpoint) : reason.IsFirst endpoints perEndpoint where
  applies := happlies
  first other hother := Nat.le_of_not_lt fun hlt => h other hlt hother

theorem NoneBefore.succ (h : NoneBefore endpoints perEndpoint reason.rank)
    (hnot : ¬ reason.Applies endpoints perEndpoint) :
    NoneBefore endpoints perEndpoint (reason.rank + 1) := by
  intro other hlt
  rcases Nat.lt_or_eq_of_le (Nat.le_of_lt_succ hlt) with hlt | heq
  · exact h other hlt
  · rwa [eq_of_rank heq]

theorem NoneBefore.none_applies (h : NoneBefore endpoints perEndpoint (tooLarge.rank + 1))
    (reason : Inadmissible) : ¬ reason.Applies endpoints perEndpoint := by
  apply h
  cases reason <;> decide

end Inadmissible

section Parameters

variable {endpoints : List Endpoint} {settings : Settings}

theorem any_isBlank_iff : (endpoints.any fun endpoint => Text.isBlank endpoint.address) = true ↔
    Inadmissible.blankAddress.Applies endpoints settings.perEndpoint := by
  simp [Inadmissible.Applies, Text.isBlank_iff]

/-- Either the first of the reasons that apply is told, or none applies. -/
theorem checkParameters_cases (endpoints : List Endpoint) (settings : Settings) :
    (∃ reason : Inadmissible, reason.IsFirst endpoints settings.perEndpoint ∧
        checkParameters endpoints settings = .error reason) ∨
      ((∀ reason : Inadmissible, ¬ reason.Applies endpoints settings.perEndpoint) ∧
        checkParameters endpoints settings = .ok (settings.perEndpoint * endpoints.length)) := by
  have hbefore : Inadmissible.NoneBefore endpoints settings.perEndpoint
      Inadmissible.noEndpoints.rank := .zero endpoints settings.perEndpoint
  rw [checkParameters_eq]
  split
  · next hempty => exact Or.inl ⟨.noEndpoints, hbefore.isFirst (List.isEmpty_iff.mp hempty), rfl⟩
  next hsome =>
  replace hbefore : Inadmissible.NoneBefore _ _ Inadmissible.noConnections.rank :=
    hbefore.succ fun hempty => hsome (List.isEmpty_iff.mpr hempty)
  split
  · next hzero => exact Or.inl ⟨.noConnections, hbefore.isFirst hzero, rfl⟩
  next hpos =>
  replace hbefore : Inadmissible.NoneBefore _ _ Inadmissible.blankAddress.rank := hbefore.succ hpos
  split
  · next hblank =>
      exact Or.inl ⟨.blankAddress, hbefore.isFirst (any_isBlank_iff.mp hblank), rfl⟩
  next hwritten =>
  replace hbefore : Inadmissible.NoneBefore _ _ Inadmissible.tooLarge.rank :=
    hbefore.succ fun hblank => hwritten (any_isBlank_iff.mpr hblank)
  split
  · next hlarge => exact Or.inl ⟨.tooLarge, hbefore.isFirst hlarge, rfl⟩
  · next hfits => exact Or.inr ⟨(hbefore.succ hfits).none_applies, rfl⟩

theorem checkParameters_eq_error_iff {reason : Inadmissible} :
    checkParameters endpoints settings = .error reason ↔
      reason.IsFirst endpoints settings.perEndpoint := by
  rcases checkParameters_cases endpoints settings with ⟨first, hfirst, heq⟩ | ⟨hnone, heq⟩
  · rw [heq, Except.error.injEq]
    constructor
    · rintro rfl
      exact hfirst
    · exact hfirst.unique
  · rw [heq]
    exact iff_of_false nofun fun hfirst => hnone reason hfirst.applies

theorem checkParameters_eq_ok_iff {capacity : Nat} :
    checkParameters endpoints settings = .ok capacity ↔
      (∀ reason : Inadmissible, ¬ reason.Applies endpoints settings.perEndpoint) ∧
        capacity = settings.perEndpoint * endpoints.length := by
  rcases checkParameters_cases endpoints settings with ⟨first, hfirst, heq⟩ | ⟨hnone, heq⟩
  · rw [heq]
    exact iff_of_false nofun fun h => h.1 first hfirst.applies
  · rw [heq, Except.ok.injEq, and_iff_right hnone]
    exact eq_comm

/-- If any reason applies, one is told. -/
theorem Inadmissible.exists_isFirst_iff {perEndpoint : Nat} :
    (∃ reason : Inadmissible, reason.IsFirst endpoints perEndpoint) ↔
      ∃ reason : Inadmissible, reason.Applies endpoints perEndpoint := by
  refine ⟨fun ⟨reason, hfirst⟩ => ⟨reason, hfirst.applies⟩, fun ⟨reason, happlies⟩ => ?_⟩
  rcases checkParameters_cases endpoints { perEndpoint } with ⟨first, hfirst, -⟩ | ⟨hnone, -⟩
  · exact ⟨first, hfirst⟩
  · exact absurd happlies (hnone reason)

end Parameters

/-! ## Creations -/

/-- A creation with slots may fail, but it is not refused. -/
theorem Creation.outcome_ne (creation : Creation) (detail : String) :
    creation.outcome ≠ .error (.invalidConfig detail) := by
  show (if creation.stock.1.live = 0 then .error (.fatal creation.stock.1.name)
    else .ok creation.stock.1) ≠ (.error (.invalidConfig detail) : Except Error Pool)
  split
  · exact fun h => Error.noConfusion (Except.error.inj h)
  · exact nofun

namespace Session

variable {session after : Session} {label name detail : String} {endpoints : List Endpoint}
  {settings : Settings} {progress : Session × Progress (Except Error PoolId) Creating}
  {result : Except Error PoolId}

theorem concludeCreation_ne (session : Session) (creating : Creating) (detail : String) :
    (session.concludeCreation creating).2 ≠ .done (.error (.invalidConfig detail)) := by
  unfold concludeCreation
  split
  · exact nofun
  · split
    · exact nofun
    · next creation _ =>
        intro h
        injection h with h
        cases houtcome : creation.outcome with
        | error error =>
            rw [houtcome] at h
            obtain rfl := Except.error.inj h
            exact creation.outcome_ne detail houtcome
        | ok pool =>
            rw [houtcome] at h
            cases h

theorem pollCreation_ne (session : Session) (creating : Creating) (detail : String) :
    (session.pollCreation creating).2 ≠ .done (.error (.invalidConfig detail)) :=
  concludeCreation_ne _ _ detail

theorem beginCreation_of_isFirst {reason : Inadmissible}
    (h : reason.IsFirst endpoints settings.perEndpoint) (session : Session) (label name : String) :
    session.beginCreation label name endpoints settings =
      (session, .done (.error (.invalidConfig (reason.describe name)))) := by
  rw [beginCreation, checkParameters_eq_error_iff.mpr h]

/-- A creation is refused at once, for the first of the reasons that apply, or not at once. -/
theorem beginCreation_eq_iff : (session.beginCreation label name endpoints settings).2 =
      .done (.error (.invalidConfig detail)) ↔
    ∃ reason : Inadmissible, reason.IsFirst endpoints settings.perEndpoint ∧
      detail = reason.describe name := by
  rcases checkParameters_cases endpoints settings with ⟨first, hfirst, -⟩ | ⟨hnone, hok⟩
  · rw [beginCreation_of_isFirst hfirst]
    constructor
    · intro h
      cases h
      exact ⟨first, hfirst, rfl⟩
    · rintro ⟨reason, hreason, rfl⟩
      rw [hfirst.unique hreason]
  · refine iff_of_false ?_ fun ⟨reason, hreason, _⟩ => hnone reason hreason.applies
    rw [beginCreation, hok]
    exact concludeCreation_ne _ _ detail

/-- What is refused in the end was refused at once. -/
theorem refused_of_ends (h : EndsAlone progress after result) :
    result = .error (.invalidConfig detail) ↔
      progress.2 = .done (.error (.invalidConfig detail)) := by
  induction h with
  | done =>
      constructor
      · rintro rfl
        rfl
      · intro h
        injection h
  | jump hnext hrest ih =>
      rw [ih]
      exact iff_of_false (pollCreation_ne _ _ detail) nofun

theorem Comes.orderly_of_ends {plan : Plan} {key : Key} (h : Comes plan key session progress)
    (hends : EndsAlone progress after result) (hfull : plan.dials.length = plan.pool.capacity)
    (horderly : session.world.Orderly) : after.world.Orderly := by
  induction hends generalizing session key with
  | done => exact h.runs.orderly horderly
  | jump hnext hrest ih =>
      obtain ⟨horderly', hcomes⟩ := h.jump hfull horderly hnext
      exact ih hcomes horderly'

/-- A pool that a creation comes to has what the creation was given. -/
theorem exists_pool_of_ends (hnew : session.world.creations.get? session.nextKey = none)
    (horderly : session.world.Orderly) {id : PoolId}
    (hends : EndsAlone (session.beginCreation label name endpoints settings) after (.ok id)) :
    ∃ pool, after.world.pools[id]? = some pool ∧ pool.given = (endpoints, settings) ∧
      pool.Sized := by
  cases hok : checkParameters endpoints settings with
  | error reason =>
      rw [beginCreation, hok] at hends
      cases hends
  | ok capacity =>
      have hcomes := (beginCreation_comes label name hok hnew horderly).1
      have horderly' := hcomes.orderly_of_ends hends (length_layOut ..) horderly
      rcases hcomes.of_ends hends (length_layOut ..) horderly with
        ⟨-, hfailed⟩ | ⟨-, _, heq, hpool⟩
      · cases hfailed
      · cases heq
        exact ⟨_, hpool, rfl, (horderly'.pool hpool).sized⟩

end Session

/-! ## Pools -/

/-- What the numbers of a pool are, with so many connections to each of so many endpoints.  The
capacity is the product, computed in machine words without an overflow, and a bounded queue can have
it; from it the free places can be subtracted without going below zero. -/
structure Pool.Measured (count length : UInt64) (pool : Pool) : Prop where
  admitted : capacityOf? count length = some (UInt64.ofNat pool.capacity)
  product : pool.capacity = count.toNat * length.toNat
  positive : 1 ≤ pool.capacity
  bounded : pool.capacity ≤ 2 ^ 61 - 1
  free_le : pool.free ≤ pool.capacity
  difference : (UInt64.ofNat pool.capacity - UInt64.ofNat pool.free).toNat = pool.idleConnections
  idle : pool.idleConnections = pool.idle.length

/-- Machine words are subtracted like numbers if the difference is not below zero. -/
theorem toNat_word_sub {a b : Nat} (hle : b ≤ a) (hlt : a < 2 ^ 64) :
    (UInt64.ofNat a - UInt64.ofNat b).toNat = a - b := by
  have ha : (UInt64.ofNat a).toNat = a := UInt64.toNat_ofNat_of_lt' hlt
  have hb : (UInt64.ofNat b).toNat = b := UInt64.toNat_ofNat_of_lt' (Nat.lt_of_le_of_lt hle hlt)
  rw [UInt64.toNat_sub_of_le, ha, hb]
  rwa [UInt64.le_iff_toNat_le, ha, hb]

section Measured

variable {endpoints : List Endpoint} {settings : Settings} {count length : UInt64}
  (hcount : settings.perEndpoint = count.toNat) (hlength : endpoints.length = length.toNat)
include hcount hlength

/-- There is no capacity in machine words exactly if the product is too large, also where it wraps
around. -/
theorem capacityOf?_eq_none_iff : capacityOf? count length = none ↔
    Inadmissible.tooLarge.Applies endpoints settings.perEndpoint := by
  show _ ↔ maxCapacity < settings.perEndpoint * endpoints.length
  rw [hcount, hlength]
  constructor
  · intro hnone
    by_contra hle
    have hlt : count.toNat * length.toNat < UInt64.size :=
      Nat.lt_of_le_of_lt (Nat.le_of_not_lt hle) maxCapacity_lt
    have hproduct := UInt64.toNat_ofNat_of_lt' hlt
    have hsome : capacityOf? count length = some (UInt64.ofNat (count.toNat * length.toNat)) := by
      rw [capacityOf?_eq_some_iff, hproduct]
      exact ⟨rfl, Nat.le_of_not_lt hle⟩
    rw [hnone] at hsome
    cases hsome
  · intro hlarge
    rw [Option.eq_none_iff_forall_ne_some]
    intro capacity hsome
    obtain ⟨hproduct, hle⟩ := capacityOf?_eq_some_iff.mp hsome
    omega

variable (hnone : ∀ reason : Inadmissible, ¬ reason.Applies endpoints settings.perEndpoint)
include hnone

/-- What is admitted has a capacity in machine words, which a bounded queue can have. -/
theorem exists_capacity : ∃ capacity, capacityOf? count length = some capacity ∧
    capacity.toNat = count.toNat * length.toNat ∧ 1 ≤ capacity.toNat ∧
    capacity.toNat ≤ 2 ^ 61 - 1 := by
  cases hcapacity : capacityOf? count length with
  | none => exact absurd ((capacityOf?_eq_none_iff hcount hlength).mp hcapacity) (hnone .tooLarge)
  | some capacity =>
      obtain ⟨hproduct, hle⟩ := capacityOf?_eq_some_iff.mp hcapacity
      refine ⟨capacity, rfl, hproduct, ?_, hle⟩
      have hper : 0 < settings.perEndpoint := Nat.pos_of_ne_zero (hnone .noConnections)
      have hsome : 0 < endpoints.length := List.length_pos_iff.mpr (hnone .noEndpoints)
      rw [hproduct, ← hcount, ← hlength]
      exact Nat.mul_pos hper hsome

theorem Pool.measured_of_sized {pool : Pool} (hgiven : pool.given = (endpoints, settings))
    (hsized : pool.Sized) : pool.Measured count length := by
  obtain ⟨capacity, hadmitted, hproduct, hpositive, hbounded⟩ :=
    exists_capacity hcount hlength hnone
  have hendpoints : pool.endpoints = endpoints := congrArg Prod.fst hgiven
  have hsettings : pool.settings = settings := congrArg Prod.snd hgiven
  have hcapacity : pool.capacity = capacity.toNat := by
    rw [Pool.capacity, hendpoints, hsettings, hcount, hlength, hproduct]
  exact
    { admitted := by rw [hcapacity, UInt64.ofNat_toNat, hadmitted]
      product := hcapacity.trans hproduct
      positive := hcapacity ▸ hpositive
      bounded := hcapacity ▸ hbounded
      free_le := hsized.free_le
      difference := toNat_word_sub hsized.free_le (hcapacity ▸ capacity.toNat_lt)
      idle := hsized.idleConnections_eq }

theorem Pool.measured_of_founded {actions : List World.Action} {id : PoolId} {pool : Pool}
    (hpool : (World.run {} actions).1.pools[id]? = some pool)
    (hfounded : World.Founded id (endpoints, settings) actions) : pool.Measured count length :=
  measured_of_sized hcount hlength hnone ((World.founded_iff hpool).mp hfounded)
    ((World.Orderly.initial.run actions).pool hpool).sized

end Measured

namespace Session

variable {session after : Session} {label name : String} {endpoints : List Endpoint}
  {settings : Settings} {result : Except Error PoolId}

/-- What creations do with parameters that are admitted. -/
structure Admits (endpoints : List Endpoint) (settings : Settings) (count length : UInt64) :
    Prop where
  /-- The capacity is computed without an overflow, and a bounded queue can have it. -/
  capacity : ∃ capacity, capacityOf? count length = some capacity ∧
    capacity.toNat = count.toNat * length.toNat ∧ 1 ≤ capacity.toNat ∧
    capacity.toNat ≤ 2 ^ 61 - 1
  begun : ∀ (session : Session) (label name detail : String),
    (session.beginCreation label name endpoints settings).2 ≠
      .done (.error (.invalidConfig detail))
  polled : ∀ (session : Session) (creating : Creating) (detail : String),
    (session.pollCreation creating).2 ≠ .done (.error (.invalidConfig detail))
  /-- Whenever a pool with these parameters is looked at, its numbers are as they should be. -/
  measured : ∀ (actions : List World.Action) (id : PoolId) (pool : Pool),
    (World.run {} actions).1.pools[id]? = some pool →
    World.Founded id (endpoints, settings) actions → pool.Measured count length

/-- What a creation that runs alone has come to in the end. -/
structure Decides (endpoints : List Endpoint) (settings : Settings) (count length : UInt64)
    (name : String) (after : Session) (result : Except Error PoolId) : Prop where
  refused : ∀ detail, result = .error (.invalidConfig detail) ↔
    ∃ reason : Inadmissible, reason.IsFirst endpoints settings.perEndpoint ∧
      detail = reason.describe name
  created : ∀ id, result = .ok id → ∃ pool, after.world.pools[id]? = some pool ∧
    pool.given = (endpoints, settings) ∧ pool.Measured count length

section

variable {count length : UInt64} (hcount : settings.perEndpoint = count.toNat)
  (hlength : endpoints.length = length.toNat)
include hcount hlength

theorem admits_of_none
    (hnone : ∀ reason : Inadmissible, ¬ reason.Applies endpoints settings.perEndpoint) :
    Admits endpoints settings count length where
  capacity := exists_capacity hcount hlength hnone
  begun session label name detail hrefused := by
    obtain ⟨reason, hfirst, -⟩ := beginCreation_eq_iff.mp hrefused
    exact hnone reason hfirst.applies
  polled := pollCreation_ne
  measured _ _ _ := Pool.measured_of_founded hcount hlength hnone

theorem decides_of_ends (hnew : session.world.creations.get? session.nextKey = none)
    (horderly : session.world.Orderly)
    (hends : EndsAlone (session.beginCreation label name endpoints settings) after result) :
    Decides endpoints settings count length name after result where
  refused detail := (refused_of_ends hends).trans beginCreation_eq_iff
  created := by
    rintro id rfl
    have hnone : ∀ reason : Inadmissible, ¬ reason.Applies endpoints settings.perEndpoint := by
      intro reason happlies
      obtain ⟨first, hfirst⟩ := Inadmissible.exists_isFirst_iff.mpr ⟨reason, happlies⟩
      -- a creation that was refused has no pool
      rw [beginCreation_of_isFirst hfirst] at hends
      cases hends
    obtain ⟨pool, hpool, hgiven, hsized⟩ := exists_pool_of_ends hnew horderly hends
    exact ⟨pool, hpool, hgiven, Pool.measured_of_sized hcount hlength hnone hgiven hsized⟩

end

/-- Parameters are admitted exactly if no reason speaks against them; otherwise the first reason is
told, and the session is left as it was, with nothing dialed and nothing logged.  The product is too
large for machine words exactly if it is too large as a number.  All this holds for all numbers of
connections and of endpoints that are machine words. -/
theorem admission_of_parameters (endpoints : List Endpoint) (settings : Settings)
    (count length : UInt64) (hcount : settings.perEndpoint = count.toNat)
    (hlength : endpoints.length = length.toNat) :
    ((∃ reason : Inadmissible, reason.IsFirst endpoints settings.perEndpoint) ↔
        ∃ reason : Inadmissible, reason.Applies endpoints settings.perEndpoint) ∧
      (capacityOf? count length = none ↔
        Inadmissible.tooLarge.Applies endpoints settings.perEndpoint) ∧
      (∀ reason : Inadmissible, reason.IsFirst endpoints settings.perEndpoint →
        ∀ (session : Session) (label name : String),
          session.beginCreation label name endpoints settings =
            (session, .done (.error (.invalidConfig (reason.describe name))))) ∧
      ((∀ reason : Inadmissible, ¬ reason.Applies endpoints settings.perEndpoint) →
        Admits endpoints settings count length) ∧
      ∀ (actions : List World.Action) (start after : Session) (label name : String)
        (result : Except Error PoolId), start.world = (World.run {} actions).1 →
        start.world.creations.get? start.nextKey = none →
        EndsAlone (start.beginCreation label name endpoints settings) after result →
          Decides endpoints settings count length name after result := by
  refine ⟨Inadmissible.exists_isFirst_iff, capacityOf?_eq_none_iff hcount hlength,
    fun reason => beginCreation_of_isFirst, admits_of_none hcount hlength, ?_⟩
  intro actions start after label name result hstart hnew hends
  have horderly : start.world.Orderly := hstart ▸ World.Orderly.initial.run actions
  exact decides_of_ends hcount hlength hnew horderly hends

/-- So many connections to each endpoint that the product for two endpoints wraps around to two. -/
def halfwayRound : UInt64 := 0x8000000000000001

/-- Two endpoints, one of them written with some white space. -/
def eastAndWest : List Endpoint := [{ address := "east:1" }, { address := "\u2003west:1 " }]

/-- A pool with two connections to each is created, and the third of its four dials fails. -/
def threeOfFour : List World.Action :=
  [.create 0 "p" "p" eastAndWest { perEndpoint := 2 }, .dialSlot 0, .dialSlot 0, .dialSlot 0,
    .dialSlot 0, .settleSlot 0 0 .success, .settleSlot 0 1 .success,
    .settleSlot 0 2 (.failure "refused"), .settleSlot 0 3 .success, .finish 0]

/-- The product that wraps around to two is refused; two connections to each endpoint are admitted,
and with three of them idle the free place is subtracted from the capacity. -/
theorem admission_of_halfwayRound :
    halfwayRound * 2 = 2 ∧ capacityOf? halfwayRound 2 = none ∧
      ({} : Session).beginCreation "p" "p" eastAndWest { perEndpoint := halfwayRound.toNat } =
        ({}, .done (.error (.invalidConfig "pool capacity overflows for `p`"))) ∧
      ∃ pool : Pool, (World.run {} threeOfFour).1.pools[0]? = some pool ∧ pool.Measured 2 2 ∧
        pool.capacity = 4 ∧ pool.idleConnections = 3 := by
  obtain ⟨-, hnowhere, hrefuses, -⟩ := admission_of_parameters eastAndWest
    { perEndpoint := halfwayRound.toNat } halfwayRound 2 rfl rfl
  have hlarge : checkParameters eastAndWest { perEndpoint := halfwayRound.toNat } =
      .error .tooLarge := by decide +kernel
  obtain ⟨-, -, -, hadmits, -⟩ :=
    admission_of_parameters eastAndWest { perEndpoint := 2 } 2 2 rfl rfl
  have hok : checkParameters eastAndWest { perEndpoint := 2 } = .ok 4 := by decide
  obtain ⟨pool, hpool, hidle⟩ : ∃ pool : Pool,
      (World.run {} threeOfFour).1.pools[0]? = some pool ∧ pool.idleConnections = 3 :=
    ⟨_, rfl, rfl⟩
  have hfirst := checkParameters_eq_error_iff.mp hlarge
  refine ⟨by decide +kernel, hnowhere.mpr hfirst.applies,
    hrefuses .tooLarge hfirst {} "p" "p", pool, hpool, ?_⟩
  have hpool' := (hadmits (checkParameters_eq_ok_iff.mp hok).1).measured threeOfFour 0 pool hpool
    ((World.founded_iff hpool).mpr (by cases hpool; rfl))
  exact ⟨hpool', hpool'.product, hidle⟩

end Session

end HeartbeatPool
