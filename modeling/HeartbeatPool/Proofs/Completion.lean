import HeartbeatPool.Proofs.Creations

/-!
# How a creation ends that runs alone

Time jumps from timer to timer until what is under way has come to its end (`Ends`).  With nothing
else under way a creation comes to what its plan says (`Plan.result`), and it does come to its end
if all its dials settle: each jump ends at a timer of some dial, which has come to its verdict then.
-/

namespace HeartbeatPool

namespace Session

/-! ## From timer to timer -/

/-- Something under way is looked at again whenever one of its timers is due, until it has come to
its end. -/
inductive Ends {α β : Type} (poll : Session → β → Session × Progress α β) (timers : β → List Nat) :
    Session × Progress α β → Session → α → Prop where
  | done {s : Session} {result : α} : Ends poll timers (s, .done result) s result
  | jump {s after : Session} {rest : β} {instant : Nat} {result : α}
      (hnext : nextTimer s.now (timers rest) = some instant)
      (hrest : Ends poll timers (poll { s with now := instant } rest) after result) :
      Ends poll timers (s, .waiting rest) after result

section

variable {α β : Type} {poll : Session → β → Session × Progress α β} {timers : β → List Nat}
  {s after after' : Session} {progress : Session × Progress α β} {result result' : α}

/-- There is no more than one end. -/
theorem Ends.unique (h : Ends poll timers progress after result)
    (h' : Ends poll timers progress after' result') : after = after' ∧ result = result' := by
  induction h with
  | done =>
      cases h'
      exact ⟨rfl, rfl⟩
  | jump hnext hrest ih =>
      cases h' with
      | jump hnext' hrest' =>
          obtain rfl := Option.some.inj (hnext.symm.trans hnext')
          exact ih hrest'

/-- As long as some timer is ahead there is a next one. -/
theorem exists_nextTimer {now timer : Nat} {timers : List Nat} (hmem : timer ∈ timers)
    (hlt : now < timer) :
    ∃ instant, nextTimer now timers = some instant ∧ instant ∈ timers ∧ now < instant := by
  have hne : timers.filter (now < ·) ≠ [] :=
    List.ne_nil_of_mem (List.mem_filter.mpr ⟨hmem, decide_eq_true hlt⟩)
  obtain ⟨instant, hinstant⟩ := Option.isSome_iff_exists.mp (List.isSome_min?_of_ne_nil hne)
  obtain ⟨hmem, -⟩ := List.min?_eq_some_iff.mp hinstant
  obtain ⟨hmem, hahead⟩ := List.mem_filter.mp hmem
  exact ⟨instant, hinstant, hmem, of_decide_eq_true hahead⟩

/-- Something under way comes to its end if a number that depends on the time gets smaller with each
jump. -/
theorem Ends.exists_of_measure {Keeps : Session × Progress α β → Prop} (measure : Nat → Nat)
    (hjump : ∀ s rest, Keeps (s, .waiting rest) →
      ∃ instant, nextTimer s.now (timers rest) = some instant ∧
        Keeps (poll { s with now := instant } rest) ∧
        measure (poll { s with now := instant } rest).1.now < measure s.now)
    (h : Keeps progress) : ∃ after result, Ends poll timers progress after result := by
  induction hcount : measure progress.1.now using Nat.strongRecOn generalizing progress with
  | _ count ih =>
    obtain ⟨s, state⟩ := progress
    cases state with
    | done result => exact ⟨_, _, .done⟩
    | waiting rest =>
        obtain ⟨instant, hnext, hkeeps, hless⟩ := hjump s rest h
        obtain ⟨after, result, hends⟩ := ih _ (hcount ▸ hless) hkeeps rfl
        exact ⟨after, result, .jump hnext hends⟩

theorem lt_of_nextTimer {now instant : Nat} {timers : List Nat}
    (h : nextTimer now timers = some instant) : instant ∈ timers ∧ now < instant := by
  obtain ⟨hmem, -⟩ := List.min?_eq_some_iff.mp h
  obtain ⟨hmem, hahead⟩ := List.mem_filter.mp hmem
  exact ⟨hmem, of_decide_eq_true hahead⟩

end

end Session

/-! ## Dials that are still under way -/

namespace Plan

variable {plan : Plan} {now later : Nat}

/-- The number of dials that have not come to their verdicts yet. -/
def undue (plan : Plan) (now : Nat) : Nat := plan.dials.countP fun dial => !plan.isDue now dial

theorem countP_undue_mono (plan : Plan) (hle : now ≤ later) (dials : List Dial) :
    (dials.countP fun dial => !plan.isDue later dial) ≤
      dials.countP fun dial => !plan.isDue now dial := by
  refine List.countP_mono_left fun dial _ hlate => ?_
  cases hdue : plan.isDue now dial with
  | false => rfl
  | true =>
      rw [isDue_mono hle hdue] at hlate
      cases hlate

theorem undue_mono (hle : now ≤ later) : plan.undue later ≤ plan.undue now :=
  plan.countP_undue_mono hle plan.dials

/-- With every dial that comes to its verdict there are fewer. -/
theorem undue_lt (hle : now ≤ later) {dial : Dial} (hdial : dial ∈ plan.dials)
    (hbefore : plan.isDue now dial = false) (hafter : plan.isDue later dial = true) :
    plan.undue later < plan.undue now := by
  obtain ⟨before, after, hsplit⟩ := List.append_of_mem hdial
  have hfirst := plan.countP_undue_mono hle before
  have hlast := plan.countP_undue_mono hle after
  simp only [undue, hsplit, List.countP_append, List.countP_cons, hbefore, hafter]
  simp
  omega

/-- The parameters of a plan are admissible, and it has a dial for each slot. -/
structure Admitted (plan : Plan) : Prop where
  full : plan.dials.length = plan.pool.capacity
  admitted : ∃ capacity, checkParameters plan.pool.endpoints plan.pool.settings = .ok capacity

/-- What a creation comes to: the pool that the plan says, or an error. -/
def result (plan : Plan) : Except Error Pool :=
  match checkParameters plan.pool.endpoints plan.pool.settings with
  | .error reason => .error (.invalidConfig (reason.describe plan.pool.name))
  | .ok _ => if plan.entries = [] then .error (.fatal plan.pool.name) else .ok plan.stocked

theorem result_of_refused {reason : Inadmissible}
    (h : checkParameters plan.pool.endpoints plan.pool.settings = .error reason) :
    plan.result = .error (.invalidConfig (reason.describe plan.pool.name)) := by
  rw [result, h]

theorem result_of_admitted {capacity : Nat}
    (h : checkParameters plan.pool.endpoints plan.pool.settings = .ok capacity) :
    plan.result =
      if plan.entries = [] then .error (.fatal plan.pool.name) else .ok plan.stocked := by
  rw [result, h]

end Plan

namespace Session

variable {s after : Session} {plan : Plan} {key : Key} {creating : Creating} {time : Nat}
  {events : List Event}

/-! ## Timers of a creation -/

/-- What is waited for is ahead. -/
theorem Dialing.ahead (h : Dialing plan s.now s creating) : Ahead creating.timers s := by
  intro timer htimer
  rw [Creating.timers, h.waits, List.mem_flatMap] at htimer
  obtain ⟨wait, hwait, htimer⟩ := htimer
  obtain ⟨dial, hdial, rfl⟩ := List.mem_map.mp hwait
  unfold Plan.wait? at htimer
  split at htimer
  · cases htimer
  · next hlate =>
      by_contra hle
      exact hlate (Plan.isDue_iff.mpr ⟨timer, htimer, Nat.le_of_not_lt hle⟩)

/-- A timer of a creation is one of a dial that has not come to its verdict yet. -/
theorem Dialing.dial_of_timer (h : Dialing plan time s creating) {timer : Nat}
    (htimer : timer ∈ creating.timers) :
    ∃ dial ∈ plan.dials, plan.isDue time dial = false ∧ plan.isDue timer dial = true := by
  rw [Creating.timers, h.waits, List.mem_flatMap] at htimer
  obtain ⟨wait, hwait, htimer⟩ := htimer
  obtain ⟨dial, hdial, rfl⟩ := List.mem_map.mp hwait
  unfold Plan.wait? at htimer
  split at htimer
  · cases htimer
  · next hlate =>
      exact ⟨dial, hdial, Bool.eq_false_iff.mpr hlate,
        Plan.isDue_iff.mpr ⟨timer, htimer, Nat.le_refl _⟩⟩

/-- A dial that settles and has not come to its verdict yet has a timer. -/
theorem Dialing.exists_timer (h : Dialing plan time s creating) {dial : Dial}
    (hdial : dial ∈ plan.dials) (hlate : plan.isDue time dial = false)
    (hsettles : ∃ verdict, plan.verdict? dial = some verdict) :
    ∃ timer ∈ creating.timers, time < timer := by
  obtain ⟨timer, htimer⟩ := Plan.exists_timer_iff.mpr hsettles
  have hwait : plan.wait? time dial = some (plan.wait dial) := by simp [Plan.wait?, hlate]
  refine ⟨timer, ?_, ?_⟩
  · rw [Creating.timers, h.waits, List.mem_flatMap]
    exact ⟨_, List.mem_map.mpr ⟨dial, hdial, hwait⟩, htimer⟩
  · by_contra hle
    rw [Plan.isDue_iff.mpr ⟨timer, htimer, Nat.le_of_not_lt hle⟩] at hlate
    cases hlate

/-! ## A creation alone -/

variable {progress : Session × Progress (Except Error PoolId) Creating}
  {result : Except Error PoolId}

/-- A creation runs alone. -/
abbrev EndsAlone : Session × Progress (Except Error PoolId) Creating → Session →
    Except Error PoolId → Prop :=
  Ends pollCreation Creating.timers

/-- From timer to timer a creation goes on as its plan says. -/
theorem Comes.jump {rest : Creating} {instant : Nat} (h : Comes plan key s (after, .waiting rest))
    (hfull : plan.dials.length = plan.pool.capacity) (horderly : s.world.Orderly)
    (hnext : nextTimer after.now rest.timers = some instant) :
    after.world.Orderly ∧
      Comes plan rest.key { after with now := instant }
        (pollCreation { after with now := instant } rest) := by
  cases h with
  | waiting htends hdialing hsome =>
      have horderly' := htends.runs.orderly horderly
      have hmoved : Dialing plan after.now { after with now := instant } _ :=
        ⟨hdialing.shows, hdialing.waits⟩
      exact ⟨horderly', pollCreation_comes hmoved (Nat.le_of_lt (lt_of_nextTimer hnext).2)
        (due_of_nextTimer hnext hdialing.ahead) hfull horderly'⟩

/-- What a creation that has come to its end has come to. -/
theorem Comes.of_ends (h : Comes plan key s progress) (hends : EndsAlone progress after result)
    (hfull : plan.dials.length = plan.pool.capacity) (horderly : s.world.Orderly) :
    (plan.entries = [] ∧ result = .error (.fatal plan.pool.name)) ∨
      (plan.entries ≠ [] ∧ ∃ id, result = .ok id ∧ after.world.pools[id]? = some plan.stocked) := by
  induction hends generalizing s key with
  | done =>
      cases h with
      | ready hfinishes hall hne =>
          exact Or.inr ⟨hne, _, rfl, by rw [hfinishes.pools, List.getElem?_concat_length]⟩
      | failed hfinishes hall hnone => exact Or.inl ⟨hnone, rfl⟩
  | jump hnext hrest ih =>
      obtain ⟨horderly', hcomes⟩ := h.jump hfull horderly hnext
      exact ih hcomes horderly'

/-- A creation whose dials all settle comes to its end. -/
theorem Comes.exists_ends (h : Comes plan key s progress)
    (hfull : plan.dials.length = plan.pool.capacity) (horderly : s.world.Orderly)
    (hsettles : ∀ dial ∈ plan.dials, ∃ verdict, plan.verdict? dial = some verdict) :
    ∃ after result, EndsAlone progress after result := by
  let Keeps (progress : Session × Progress (Except Error PoolId) Creating) : Prop :=
    ∃ key s, Comes plan key s progress ∧ s.world.Orderly
  refine @Ends.exists_of_measure _ _ _ _ _ Keeps plan.undue ?_ ⟨key, s, h, horderly⟩
  rintro after rest ⟨key, s, hcomes, horderly⟩
  cases hcomes with
  | waiting htends hdialing hsome =>
      obtain ⟨dial, hdial, hlate⟩ := hsome
      obtain ⟨timer, htimer, hlt⟩ := hdialing.exists_timer hdial hlate (hsettles dial hdial)
      obtain ⟨instant, hnext, hinstant, hahead⟩ := exists_nextTimer htimer hlt
      obtain ⟨horderly', hcomes⟩ :=
        (Comes.waiting htends hdialing ⟨dial, hdial, hlate⟩).jump hfull horderly hnext
      -- the jump ends at the timer of a dial, which is under way no longer
      obtain ⟨dial', hdial', hbefore, hafter⟩ := hdialing.dial_of_timer hinstant
      refine ⟨instant, hnext, ⟨_, _, hcomes, horderly'⟩, ?_⟩
      rw [hcomes.now]
      exact Plan.undue_lt (Nat.le_of_lt hahead) hdial' hbefore hafter

/-- What a creation comes to that runs alone. -/
theorem result_of_endsAlone {label name : String} {endpoints : List Endpoint} {settings : Settings}
    (hnew : s.world.creations.get? s.nextKey = none) (horderly : s.world.Orderly)
    (hends : EndsAlone (s.beginCreation label name endpoints settings) after result) :
    (∀ error, (s.planOf { name, label, endpoints, settings }).result = .error error →
        result = .error error) ∧
      ∀ pool, (s.planOf { name, label, endpoints, settings }).result = .ok pool →
        ∃ id, result = .ok id ∧ after.world.pools[id]? = some pool := by
  cases hok : checkParameters endpoints settings with
  | error reason =>
      rw [Plan.result_of_refused (by exact hok)]
      unfold beginCreation at hends
      rw [hok] at hends
      cases hends
      exact ⟨fun error herror => by cases herror; rfl, nofun⟩
  | ok capacity =>
      have hcomes := (beginCreation_comes label name hok hnew horderly).1
      rw [Plan.result_of_admitted (by exact hok)]
      rcases hcomes.of_ends hends (length_layOut ..) horderly with
        ⟨hnone, rfl⟩ | ⟨hne, id, rfl, hpool⟩
      · rw [if_pos hnone]
        exact ⟨fun error herror => by cases herror; rfl, nofun⟩
      · rw [if_neg hne]
        refine ⟨nofun, fun pool heq => ?_⟩
        cases heq
        exact ⟨id, rfl, hpool⟩

end Session

end HeartbeatPool
