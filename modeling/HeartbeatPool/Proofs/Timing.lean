import Mathlib.Data.Finset.Max
import HeartbeatPool.Proofs.AllOrNothing
import HeartbeatPool.Proofs.Channels

/-!
# When and with what the creation of a pool ends

Each slot of a pool to be has an outcome that comes after some time, the limit of the dials being
worked into both.  The slots are dialed in the beginning, and then the creation waits for the last
of them.  What it comes to depends on how the dials come out, but not on when
(`creation_after_run`).

A look at the creation under way shows nothing but connections that are established (`Issues`), and
the time jumps to no instant behind the last outcome (`Closing.soonest`).  So there is a last look,
at which everything is settled, and all that is told of failures is told then.
-/

namespace HeartbeatPool

/-! ## Dials that settle after some time -/

section

variable {plan : Plan} {dial : Dial} {now latency : Nat} {verdict : Verdict}

theorem Outcome.within_of_truncated {limit : Option Nat} {outcome : Outcome}
    (h : outcome.truncated limit = .settles latency verdict) :
    outcome.within limit = some verdict := by
  rcases limit with _ | limit <;> rcases outcome with ⟨delay, verdict'⟩ | _
  · cases h
    rfl
  · cases h
  · simp only [truncated] at h
    split at h
    · next hle =>
        cases h
        exact if_pos hle
    · next hlate =>
        cases h
        exact if_neg hlate
  · cases h
    rfl

/-- A dial has come to its verdict once its time is over. -/
theorem Plan.isDue_iff_of_truncated
    (h : dial.outcome.truncated plan.pool.settings.dialTimeout = .settles latency verdict) :
    plan.isDue now dial = true ↔ plan.begun + latency ≤ now := by
  rw [isDue_iff]
  unfold wait Wait.start Wait.timers
  generalize plan.pool.settings.dialTimeout = limit at h ⊢
  generalize dial.outcome = outcome at h ⊢
  rcases limit with _ | limit <;> rcases outcome with ⟨delay, verdict'⟩ | _
  · cases h
    simp
  · cases h
  · simp only [Outcome.truncated] at h
    split at h
    · cases h
      simp
      omega
    · cases h
      simp
      omega
  · cases h
    simp

end

/-! ## Slots and how they come out -/

namespace Pool

variable (pool : Pool) (dialed : List String) (verdict : Nat → Verdict)

/-- The address that a slot is dialed at. -/
def slotAddress (slot : Nat) : String := pool.address (slot / pool.settings.perEndpoint)

/-- The connection that the dial of a slot may deliver.  Its number is that of the dials made to its
address before, for earlier slots too. -/
def slotConn (slot : Nat) : Conn :=
  ⟨pool.slotAddress slot,
    dialed.count (pool.slotAddress slot) +
      ((List.range slot).map pool.slotAddress).count (pool.slotAddress slot)⟩

/-- The slots whose dials succeed, in order. -/
def goodSlots : List Nat := (List.range pool.capacity).filter fun slot => verdict slot = .success

/-- The connections of the slots whose dials succeed, each with the position of its endpoint. -/
def goodEntries : List Entry :=
  (pool.goodSlots verdict).map fun slot =>
    ⟨pool.slotConn dialed slot, slot / pool.settings.perEndpoint⟩

/-- The pool with the connections of the slots whose dials succeed. -/
def made : Pool :=
  { pool with
    idle := pool.goodEntries dialed verdict
    free := pool.capacity - (pool.goodSlots verdict).length
    counter := UInt64.ofNat (pool.goodSlots verdict).length }

/-- The warnings about the slots whose dials fail, in order. -/
def skipped : List Event :=
  (List.range pool.capacity).filterMap fun slot =>
    match verdict slot with
    | .success => none
    | .failure cause => some (.log (.slotSkipped (pool.slotAddress slot) cause pool.name))

/-- What is seen once all dials have settled: the warnings, and how the creation comes out. -/
def closingReport : List Event :=
  pool.skipped verdict ++
    if pool.goodSlots verdict = [] then [.log (.creationFailed pool.name)]
    else [.log (.created pool.name (pool.goodSlots verdict).length pool.capacity)]

theorem length_goodSlots_le : (pool.goodSlots verdict).length ≤ pool.capacity :=
  (List.length_filter_le _ _).trans (Nat.le_of_eq List.length_range)

theorem goodEntries_eq_nil_iff :
    pool.goodEntries dialed verdict = [] ↔ pool.goodSlots verdict = [] :=
  List.map_eq_nil_iff

theorem idleConnections_made :
    (pool.made dialed verdict).idleConnections = (pool.goodSlots verdict).length :=
  Nat.sub_sub_self (pool.length_goodSlots_le verdict)

theorem live_made (hbounded : pool.capacity ≤ maxCapacity) :
    (pool.made dialed verdict).live = (pool.goodSlots verdict).length := by
  have hle := pool.length_goodSlots_le verdict
  have hmax : maxCapacity < 2 ^ 64 := by decide
  exact (UInt64.toNat_ofNat' ..).trans (Nat.mod_eq_of_lt (by omega))

end Pool

section

variable {pool : Pool} {dialed : List String} {script : Script} {outcome : Nat → Outcome}

/-- The dial of a slot, with its outcome. -/
def slotDial (pool : Pool) (dialed : List String) (outcome : Nat → Outcome) (slot : Nat) : Dial :=
  ⟨pool.endpoint (slot / pool.settings.perEndpoint), pool.slotConn dialed slot, outcome slot⟩

/-- Slots are laid out one by one, each behind those before it. -/
theorem layOut_eq_map {dialed' : List String} {first count : Nat}
    (hcount : ∀ address, dialed'.count address =
      dialed.count address + ((List.range first).map pool.slotAddress).count address) :
    (layOut pool dialed' { script with ahead := (List.range' first count).map outcome } first
        count).1 =
      (List.range' first count).map (slotDial pool dialed outcome) := by
  induction count generalizing dialed' first with
  | zero => rfl
  | succ count ih =>
      have hnext (address : String) : (pool.slotAddress first :: dialed').count address =
          dialed.count address + ((List.range (first + 1)).map pool.slotAddress).count address := by
        rw [List.count_cons, hcount, List.range_succ, List.map_append, List.count_append,
          List.map_singleton, List.count_singleton, Nat.add_assoc]
      have hfirst : (dialAt pool dialed'
          { script with ahead := (List.range' first (count + 1)).map outcome } first).1 =
            slotDial pool dialed outcome first :=
        congrArg (fun serial => (⟨pool.endpoint (first / pool.settings.perEndpoint),
          ⟨pool.slotAddress first, serial⟩, outcome first⟩ : Dial)) (hcount _)
      rw [layOut, hfirst, List.range'_succ, List.map_cons, List.map_cons]
      exact congrArg (List.cons _) (ih hnext)

/-- The plan of a creation whose dials come out in a given way. -/
def planFor (pool : Pool) (begun : Nat) (dialed : List String) (outcome : Nat → Outcome) : Plan :=
  ⟨pool, begun, (List.range pool.capacity).map (slotDial pool dialed outcome)⟩

theorem dials_planFor (begun : Nat) : (planFor pool begun dialed outcome).dials =
    (List.range pool.capacity).map (slotDial pool dialed outcome) := rfl

theorem length_planFor (begun : Nat) :
    (planFor pool begun dialed outcome).dials.length = pool.capacity := by
  rw [dials_planFor, List.length_map, List.length_range]

theorem zipIdx_map_range {α : Type} (f : Nat → α) (length : Nat) :
    ((List.range length).map f).zipIdx = (List.range length).map fun i => (f i, i) := by
  refine List.ext_getElem (by simp) fun i _ _ => ?_
  simp

/-- Each slot is dialed for the endpoint that it belongs to: one endpoint after the other. -/
theorem map_endpoint_planFor (hpos : 0 < pool.settings.perEndpoint) (begun : Nat) :
    (planFor pool begun dialed outcome).dials.map Dial.endpoint =
      pool.endpoints.flatMap (List.replicate pool.settings.perEndpoint) := by
  have hendpoints : (List.range pool.endpoints.length).map pool.endpoint = pool.endpoints := by
    refine List.ext_getElem (by simp) fun i _ hi => ?_
    simp [Pool.endpoint, List.getD_eq_getElem?_getD, hi]
  calc (planFor pool begun dialed outcome).dials.map Dial.endpoint
      = ((List.range pool.capacity).map (· / pool.settings.perEndpoint)).map pool.endpoint := by
        rw [planFor, List.map_map, List.map_map]
        rfl
    _ = (List.range pool.endpoints.length).flatMap fun index =>
          List.replicate pool.settings.perEndpoint (pool.endpoint index) := by
        rw [Pool.capacity, map_div_range hpos, List.map_flatMap]
        simp only [List.map_replicate]
    _ = pool.endpoints.flatMap (List.replicate pool.settings.perEndpoint) := by
        conv_rhs => rw [← hendpoints, List.flatMap_map]

variable {latency : Nat → Nat} {verdict : Nat → Verdict} {begun now : Nat}

/-- Each slot of a pool settles after some time in some way. -/
def Settles (pool : Pool) (outcome : Nat → Outcome) (latency : Nat → Nat)
    (verdict : Nat → Verdict) : Prop :=
  ∀ slot < pool.capacity,
    (outcome slot).truncated pool.settings.dialTimeout = .settles (latency slot) (verdict slot)

section

variable (h : Settles pool outcome latency verdict)
include h

theorem Settles.verdict?_eq {slot : Nat} (hslot : slot < pool.capacity) :
    (planFor pool begun dialed outcome).verdict? (slotDial pool dialed outcome slot) =
      some (verdict slot) :=
  Outcome.within_of_truncated (h slot hslot)

/-- All dials have come to their verdicts once the time of each slot is over. -/
theorem Settles.all_due_iff :
    (∀ dial ∈ (planFor pool begun dialed outcome).dials,
      (planFor pool begun dialed outcome).isDue now dial = true) ↔
        ∀ slot < pool.capacity, begun + latency slot ≤ now := by
  rw [dials_planFor, List.forall_mem_map]
  refine forall_congr' fun slot => ?_
  rw [List.mem_range]
  exact forall_congr' fun hslot => Plan.isDue_iff_of_truncated (h slot hslot)

theorem Settles.entries_eq :
    (planFor pool begun dialed outcome).entries = pool.goodEntries dialed verdict := by
  have hentries : pool.goodEntries dialed verdict = (List.range pool.capacity).filterMap fun slot =>
      if verdict slot = .success then
        some ⟨pool.slotConn dialed slot, slot / pool.settings.perEndpoint⟩
      else none := by
    rw [Pool.goodEntries, Pool.goodSlots, ← List.filterMap_eq_filter, List.map_filterMap]
    refine List.filterMap_congr fun slot _ => ?_
    by_cases hgood : verdict slot = .success <;> simp [hgood, Option.guard]
  rw [Plan.entries, dials_planFor, zipIdx_map_range, List.filterMap_map, hentries]
  refine List.filterMap_congr fun slot hslot => ?_
  have hverdict : (planFor pool begun dialed outcome).verdict? (slotDial pool dialed outcome slot) =
      some (verdict slot) := h.verdict?_eq (List.mem_range.mp hslot)
  simp only [Function.comp_apply, Plan.entryOf?, hverdict, Option.some.injEq]
  rfl

theorem Settles.stocked_eq :
    (planFor pool begun dialed outcome).stocked = pool.made dialed verdict := by
  have hlength : (pool.goodEntries dialed verdict).length = (pool.goodSlots verdict).length :=
    List.length_map ..
  rw [Plan.stocked, h.entries_eq, hlength]
  rfl

/-- The failures of the dials are told in the order of the slots. -/
theorem Settles.warnings_eq {creation : Creation}
    (hslots : creation.slots = (planFor pool begun dialed outcome).dials.map
      ((planFor pool begun dialed outcome).slot now))
    {counter : UInt64} (hpool : creation.pool = { pool with counter := counter })
    (hall : ∀ dial ∈ (planFor pool begun dialed outcome).dials,
      (planFor pool begun dialed outcome).isDue now dial = true) :
    creation.warnings = pool.skipped verdict := by
  rw [Creation.warnings, hslots, dials_planFor, List.map_map, zipIdx_map_range, List.filterMap_map,
    Pool.skipped]
  refine List.filterMap_congr fun slot hslot => ?_
  have hverdict : (planFor pool begun dialed outcome).verdict? (slotDial pool dialed outcome slot) =
      some (verdict slot) := h.verdict?_eq (List.mem_range.mp hslot)
  have hdue := hall _ (List.mem_map_of_mem hslot)
  simp only [Function.comp_apply, Plan.slot, hdue, if_true, hverdict]
  cases verdict slot with
  | success => rfl
  | failure cause =>
      simp only [Slot.of, Creation.warning?, Creation.endpointOf, hpool]
      rfl

end

end

/-! ## What is seen of a creation under way -/

/-- What a creation under way shows: dials, and connections that are established. -/
inductive Event.OfDialing : Event → Prop where
  | dial (endpoint : Endpoint) : OfDialing (.dial endpoint)
  | established (address : String) : OfDialing (.log (.established address))

namespace Session

variable {s s' s'' after : Session} {key : Key}

/-- One session comes from another, and in between some endpoints were dialed, in order, and maybe
connections were established, but nothing else was seen. -/
def Issues (s s' : Session) (endpoints : List Endpoint) : Prop :=
  ∃ events, s'.seen = s.seen ++ events ∧ dialsIn events = endpoints ∧
    ∀ event ∈ events, event.OfDialing

namespace Issues

variable {endpoints more : List Endpoint}

theorem refl (s : Session) : Issues s s [] :=
  ⟨[], (List.append_nil _).symm, rfl, List.forall_mem_nil _⟩

theorem trans (h : Issues s s' endpoints) (h' : Issues s' s'' more) :
    Issues s s'' (endpoints ++ more) := by
  obtain ⟨first, hseen, hdials, hfirst⟩ := h
  obtain ⟨second, hseen', hdials', hsecond⟩ := h'
  refine ⟨first ++ second, ?_, ?_, ?_⟩
  · rw [hseen', hseen, List.append_assoc]
  · rw [dialsIn_append, hdials, hdials']
  · exact fun event hevent => (List.mem_append.mp hevent).elim (hfirst event) (hsecond event)

end Issues

/-- The answer to a dial shows at most that a connection is established. -/
theorem settleSlot_issues (s : Session) (key : Key) (slot : Nat) (verdict : Verdict) :
    Issues s (s.act (.settleSlot key slot verdict)) [] := by
  have hnone {events : List Event} (hevents : events = []) :
      dialsIn events = [] ∧ ∀ event ∈ events, event.OfDialing := by
    rw [hevents]
    exact ⟨rfl, List.forall_mem_nil _⟩
  refine ⟨(s.world.settleSlot key slot verdict).2, rfl, ?_⟩
  unfold World.settleSlot
  split
  · exact hnone rfl
  · split
    · exact ⟨rfl, fun event hevent => List.mem_singleton.mp hevent ▸ .established _⟩
    · exact hnone rfl
    · exact hnone rfl

theorem pollSlot_issues (s : Session) (key : Key) (slot : Nat) (wait : Wait) :
    Issues s (s.pollSlot key slot wait).1 [] := by
  unfold pollSlot
  split
  · exact .refl s
  · exact settleSlot_issues s key slot _

theorem pollSlots_issues (s : Session) (key : Key) (slot : Nat) (waits : List (Option Wait)) :
    Issues s (s.pollSlots key slot waits).1 [] := by
  induction waits generalizing s slot with
  | nil => exact .refl s
  | cons wait waits ih =>
      cases wait with
      | none => exact ih s (slot + 1)
      | some wait => exact (pollSlot_issues s key slot wait).trans (ih _ (slot + 1))

variable {plan : Plan}

theorem openSlot_issues {pool : Pool} {slots : List Slot} (h : s.Shows key pool slots)
    (hroom : slots.length < pool.capacity) :
    Issues s (s.openSlot key pool slots.length).1
      [pool.endpoint (slots.length / pool.settings.perEndpoint)] := by
  obtain ⟨-, -, -, hseen⟩ := act_dialSlot h hroom
  have hdial : Issues s (s.act (.dialSlot key))
      [pool.endpoint (slots.length / pool.settings.perEndpoint)] :=
    ⟨_, hseen, rfl, fun event hevent => List.mem_singleton.mp hevent ▸ .dial _⟩
  exact hdial.trans (pollSlot_issues _ key slots.length _)

/-- While the slots are opened, each of them is dialed once, in their order. -/
theorem openSlots_issues {before : List Dial} {count : Nat}
    (h : s.Shows key plan.pool (before.map (plan.slot s.now))) (hbegun : plan.begun = s.now)
    (hroom : before.length + count ≤ plan.pool.capacity) :
    Issues s (s.openSlots key plan.pool before.length count).1
      ((layOut plan.pool s.world.dialed s.script before.length count).1.map Dial.endpoint) := by
  induction count generalizing s before with
  | zero => exact .refl s
  | succ count ih =>
      obtain ⟨hshows, -, htends, hscript, hdialed, -⟩ := openSlot_shows h hbegun (by omega)
      have hfirst := openSlot_issues h (by rw [List.length_map]; omega)
      rw [List.length_map] at hfirst
      rw [← htends.now] at hshows
      have hrest := ih hshows (hbegun.trans htends.now.symm) (by simp; omega)
      rw [hscript, hdialed, List.length_append, List.length_singleton] at hrest
      rw [openSlots_succ, layOut, List.map_cons]
      exact hfirst.trans hrest

/-- A creation that is admitted dials all its slots as they are laid out, before anything else. -/
theorem beginCreation_opens {start : Session} (label name : String) {endpoints : List Endpoint}
    {settings : Settings} {capacity : Nat} (hok : checkParameters endpoints settings = .ok capacity)
    (hnew : start.world.creations.get? start.nextKey = none) :
    let plan := start.planOf { name, label, endpoints, settings }
    ∃ opened creating, start.beginCreation label name endpoints settings =
        opened.concludeCreation creating ∧
      Dialing plan opened.now opened creating ∧ Tends creating.key start.freshKey.2 opened ∧
      Issues start opened (plan.dials.map Dial.endpoint) := by
  intro plan
  let created := start.freshKey.2.act (.create start.nextKey label name endpoints settings)
  obtain ⟨hshows, hcreated, hdialed, hseen⟩ :=
    @create_shows start.freshKey.2 start.nextKey label name endpoints settings capacity hok hnew
  change created.Shows start.nextKey plan.pool (([] : List Dial).map (plan.slot created.now))
    at hshows
  have hroom : ([] : List Dial).length + plan.pool.capacity ≤ plan.pool.capacity :=
    Nat.le_of_eq (Nat.zero_add _)
  obtain ⟨hopened, hwaits, htends, -⟩ := openSlots_shows hshows rfl hroom
  have hissues := openSlots_issues hshows rfl hroom
  have hplan : layOut plan.pool created.world.dialed created.script 0 plan.pool.capacity =
      layOut plan.pool start.world.dialed start.script 0 plan.pool.capacity :=
    congrArg (fun dialed => layOut plan.pool dialed start.script 0 plan.pool.capacity) hdialed
  simp only [List.length_nil, List.nil_append] at hopened hwaits htends hissues
  rw [hplan] at hopened hwaits hissues
  rw [← htends.now] at hopened hwaits
  have hstart : Issues start created [] :=
    ⟨[], hseen.trans (List.append_nil _).symm, rfl, List.forall_mem_nil _⟩
  exact ⟨_, _, beginCreation_eq label name hok, ⟨hopened, hwaits⟩, hcreated.trans htends,
    hstart.trans hissues⟩

/-! ## The last look at a creation -/

/-- One session comes from another, and in the meantime nothing has happened but the dials of a
creation.  Now all of them have come to their verdicts, for the first time. -/
structure Closing (plan : Plan) (key : Key) (s last : Session) : Prop where
  issues : Issues s last []
  pools : last.world.pools = s.world.pools
  orderly : last.world.Orderly
  dialing : ∃ waits, Dialing plan last.now last ⟨key, waits⟩
  due : ∀ dial ∈ plan.dials, plan.isDue last.now dial = true
  soonest : ∀ time, s.now ≤ time → (∀ dial ∈ plan.dials, plan.isDue time dial = true) →
    last.now ≤ time

/-- The next instant is not behind the time at which a dial has come to its verdict. -/
theorem Dialing.instant_le {creating : Creating} (h : Dialing plan s.now s creating) {dial : Dial}
    (hdial : dial ∈ plan.dials) (hlate : plan.isDue s.now dial = false) {time instant : Nat}
    (hdue : plan.isDue time dial = true)
    (hnext : nextTimer s.now creating.timers = some instant) : instant ≤ time := by
  obtain ⟨timer, htimer, hle⟩ := Plan.isDue_iff.mp hdue
  have hwait : plan.wait? s.now dial = some (plan.wait dial) := by simp [Plan.wait?, hlate]
  have hmem : timer ∈ creating.timers := by
    rw [Creating.timers, h.waits, List.mem_flatMap]
    exact ⟨_, List.mem_map.mpr ⟨dial, hdial, hwait⟩, htimer⟩
  obtain ⟨-, hleast⟩ := List.min?_eq_some_iff.mp hnext
  have hahead : timer ∈ creating.timers.filter (s.now < ·) :=
    List.mem_filter.mpr ⟨hmem, decide_eq_true (h.ahead timer hmem)⟩
  exact Nat.le_trans (hleast timer hahead) hle

/-- A creation that has come to its end was finished at its last look. -/
theorem exists_closing {creating : Creating} {result : Except Error PoolId}
    (h : Dialing plan s.now s creating) (hfull : plan.dials.length = plan.pool.capacity)
    (horderly : s.world.Orderly) (hends : EndsAlone (s.concludeCreation creating) after result) :
    ∃ last, Closing plan creating.key s last ∧ after = last.act (.finish creating.key) ∧
      result =
        if plan.entries = [] then .error (.fatal plan.pool.name)
        else .ok last.world.pools.length := by
  generalize hprogress : s.concludeCreation creating = progress at hends
  induction hends generalizing s creating with
  | done =>
      -- the creation is over, so no dial is under way any more
      have hall (dial : Dial) (hdial : dial ∈ plan.dials) : plan.isDue s.now dial = true := by
        cases hdue : plan.isDue s.now dial with
        | true => rfl
        | false =>
            rw [concludeCreation_of_late h hdial hdue] at hprogress
            cases hprogress
      rw [concludeCreation_of_due h hfull horderly hall] at hprogress
      cases hprogress
      exact ⟨s, ⟨.refl s, rfl, horderly, ⟨creating.waits, h⟩, hall, fun _ hle _ => hle⟩, rfl, rfl⟩
  | @jump s' _ rest instant _ hnext hrest ih =>
      obtain ⟨dial, hdial, hlate⟩ : ∃ dial ∈ plan.dials, plan.isDue s.now dial = false := by
        by_contra hnone
        have hall : ∀ dial ∈ plan.dials, plan.isDue s.now dial = true := by simpa using hnone
        rw [concludeCreation_of_due h hfull horderly hall] at hprogress
        cases hprogress
      rw [concludeCreation_of_late h hdial hlate] at hprogress
      obtain ⟨rfl, rfl⟩ : s = s' ∧ creating = rest := by
        cases hprogress
        exact ⟨rfl, rfl⟩
      have hle : s.now ≤ instant := Nat.le_of_lt (lt_of_nextTimer hnext).2
      obtain ⟨hdialing, htends⟩ := pollSlots_dialing (s := { s with now := instant })
        ⟨h.shows, h.waits⟩ hle (due_of_nextTimer hnext h.ahead)
      have hissues := pollSlots_issues { s with now := instant } creating.key 0 creating.waits
      obtain ⟨last, hclosing, hafter, hresult⟩ :=
        ih hdialing (htends.runs.orderly horderly) rfl
      refine ⟨last, ⟨?_, hclosing.pools.trans htends.pools, hclosing.orderly, hclosing.dialing,
        hclosing.due, fun time htime hdue => ?_⟩, hafter, hresult⟩
      · exact Issues.trans hissues hclosing.issues
      · -- the jump is to the timer of a dial under way, or to an earlier one
        refine hclosing.soonest time ?_ hdue
        rw [htends.now]
        exact h.instant_le hdial hlate (hdue dial hdial) hnext

/-! ## A creation from its beginning to its end -/

variable {pool : Pool} {outcome : Nat → Outcome} {latency : Nat → Nat} {verdict : Nat → Verdict}
  {start begun : Session} {result : Except Error PoolId}

/-- How the creation of a pool goes if its slots settle after some times in some ways.

All slots are dialed in the beginning, in their order, and none is dialed later.  The creation takes
as long as the last of the dials.  Only then, when all of them have settled, the failures are told,
and then how it came out.  There is a pool if any dial succeeds, and its queue has the connections
of all that do, in the order of the slots. -/
structure Unfolds (pool : Pool) (latency : Nat → Nat) (verdict : Nat → Verdict)
    (start begun after : Session) (result : Except Error PoolId) : Prop where
  instant : begun.now = start.now
  dialed : ∃ events, begun.seen = start.seen ++ events ∧
    dialsIn events = pool.endpoints.flatMap (List.replicate pool.settings.perEndpoint)
  undialed : ∃ events, after.seen = begun.seen ++ events ∧ dialsIn events = []
  duration : ∃ slowest < pool.capacity, after.now = start.now + latency slowest ∧
    ∀ slot < pool.capacity, latency slot ≤ latency slowest
  told : ∃ (last : Session) (key : Key) (creation : Creation) (during : List Event),
    last.world.creations.get? key = some creation ∧ creation.isSettled = true ∧
      after = last.act (.finish key) ∧ last.seen = start.seen ++ during ∧
      (∀ event ∈ during, event.OfDialing) ∧ after.seen = last.seen ++ pool.closingReport verdict
  failed : pool.goodSlots verdict = [] →
    result = .error (.fatal pool.name) ∧ after.world.pools = start.world.pools
  ready : pool.goodSlots verdict ≠ [] →
    let made := pool.made start.world.dialed verdict
    result = .ok start.world.pools.length ∧ after.world.pools = start.world.pools ++ [made] ∧
      made.capacity = pool.capacity ∧ made.idle = pool.goodEntries start.world.dialed verdict ∧
      made.live = (pool.goodSlots verdict).length ∧
      made.idleConnections = (pool.goodSlots verdict).length

theorem planOf_scripted (start : Session) (pool : Pool) (outcome : Nat → Outcome) {count : Nat}
    (hcount : count = pool.capacity) :
    (start.scripted ((List.range count).map outcome)).planOf pool =
      planFor pool start.now start.world.dialed outcome := by
  subst hcount
  have hlaid := @layOut_eq_map pool start.world.dialed start.script outcome start.world.dialed 0
    pool.capacity fun _ => rfl
  rw [← List.range_eq_range'] at hlaid
  exact congrArg (Plan.mk pool start.now) hlaid

/-- When the last dial has settled all is told and the pool is there, if there is one. -/
theorem Closing.finish {last : Session} (hsettles : Settles pool outcome latency verdict)
    (h : Closing (planFor pool start.now start.world.dialed outcome) key s last) :
    (∃ creation, last.world.creations.get? key = some creation ∧ creation.isSettled = true) ∧
      (last.world.step (.finish key)).2 = pool.closingReport verdict ∧
      (last.act (.finish key)).world.pools = last.world.pools ++
        if pool.goodSlots verdict = [] then [] else [pool.made start.world.dialed verdict] := by
  have hfull : (planFor pool start.now start.world.dialed outcome).dials.length = pool.capacity :=
    length_planFor _
  obtain ⟨waits, hdialing⟩ := h.dialing
  obtain ⟨hfinishes, -⟩ := act_finish hdialing hfull h.orderly h.due
  obtain ⟨⟨creation, hcreation, hslots, counter, hpool⟩, -⟩ := hdialing
  have hsettled : creation.isSettled = true :=
    isSettled_of_due hslots (hfull.trans (by rw [hpool]; rfl)) h.due
  have hentries : creation.entries = pool.goodEntries start.world.dialed verdict :=
    (entries_of_settled hslots (by rw [hpool]) h.due).trans hsettles.entries_eq
  have hreport : creation.report = pool.closingReport verdict := by
    rw [(h.orderly.fresh hcreation).report_eq, hsettles.warnings_eq hslots hpool h.due, hentries,
      hpool]
    simp only [Pool.goodEntries_eq_nil_iff]
    rw [Pool.goodEntries, List.length_map]
    rfl
  refine ⟨⟨creation, hcreation, hsettled⟩, ?_, ?_⟩
  · simp only [World.step, World.finish, hcreation, hsettled, if_true]
    split <;> exact hreport
  · rw [hfinishes.pools, hsettles.entries_eq, hsettles.stocked_eq]
    simp only [Pool.goodEntries_eq_nil_iff]

/-- A creation that is begun is under way, or has come to its end already. -/
theorem concludeCreation_cases {creating : Creating}
    (hends : EndsAlone (s.concludeCreation creating) after result) :
    (s.concludeCreation creating).1.now = s.now ∧
      ((s.concludeCreation creating).1 = s ∨ (s.concludeCreation creating).1 = after) := by
  generalize hprogress : s.concludeCreation creating = progress at hends ⊢
  unfold concludeCreation at hprogress
  split at hprogress
  · cases hprogress
    exact ⟨rfl, Or.inl rfl⟩
  · split at hprogress
    · cases hprogress
      exact ⟨rfl, Or.inl rfl⟩
    · cases hprogress
      cases hends
      exact ⟨rfl, Or.inr rfl⟩

/-- Once all slots are dialed the creation goes on as it is laid out. -/
theorem unfolds_of_dialing {opened : Session} {creating : Creating}
    (hsettles : Settles pool outcome latency verdict) (hpos : 0 < pool.capacity)
    (hbounded : pool.capacity ≤ maxCapacity) (horderly : opened.world.Orderly)
    (hdialing : Dialing (planFor pool start.now start.world.dialed outcome) opened.now opened
      creating)
    (hnow : opened.now = start.now) (hpools : opened.world.pools = start.world.pools)
    (hissues : Issues start opened
      (pool.endpoints.flatMap (List.replicate pool.settings.perEndpoint)))
    (hends : EndsAlone (opened.concludeCreation creating) after result) :
    Unfolds pool latency verdict start (opened.concludeCreation creating).1 after result := by
  obtain ⟨last, hclosing, rfl, rfl⟩ :=
    exists_closing hdialing (length_planFor _) horderly hends
  obtain ⟨⟨creation, hcreation, hsettled⟩, hreport, hmade⟩ := hclosing.finish hsettles
  -- the last look at the creation only adds its report
  have hseen : (last.act (.finish creating.key)).seen =
      last.seen ++ pool.closingReport verdict := by rw [← hreport]; rfl
  have hquiet : dialsIn (pool.closingReport verdict) = [] := by
    rw [← hreport]
    exact World.dialsIn_step hclosing.orderly _
  obtain ⟨first, hfirst, hdials, hfirst'⟩ := hissues
  obtain ⟨more, hmore, hnone, hmore'⟩ := hclosing.issues
  -- the creation waits for its slowest dial and no longer
  obtain ⟨slowest, hslowest, hlongest⟩ :=
    Finset.exists_max_image (Finset.range pool.capacity) latency ⟨0, Finset.mem_range.mpr hpos⟩
  rw [Finset.mem_range] at hslowest
  have hlongest (slot : Nat) (hslot : slot < pool.capacity) : latency slot ≤ latency slowest :=
    hlongest slot (Finset.mem_range.mpr hslot)
  have hduration : last.now = start.now + latency slowest := by
    refine Nat.le_antisymm (hclosing.soonest _ (hnow ▸ Nat.le_add_right _ _) ?_) ?_
    · exact hsettles.all_due_iff.mpr fun slot hslot => Nat.add_le_add_left (hlongest slot hslot) _
    · exact hsettles.all_due_iff.mp hclosing.due slowest hslowest
  have hlater : (last.act (.finish creating.key)).seen =
      opened.seen ++ (more ++ pool.closingReport verdict) := by
    rw [hseen, hmore, List.append_assoc]
  have hnodial : dialsIn (more ++ pool.closingReport verdict) = [] := by
    rw [dialsIn_append, hnone, hquiet]
    rfl
  -- either the creation is over at once or nothing has been reported yet
  obtain ⟨hinstant, hbegun⟩ := concludeCreation_cases hends
  refine
    { instant := hinstant.trans hnow
      dialed := ?_
      undialed := ?_
      duration := ⟨slowest, hslowest, hduration, hlongest⟩
      told := ⟨last, creating.key, creation, first ++ more, hcreation, hsettled, rfl, ?_, ?_, hseen⟩
      failed := fun hgood => ?_
      ready := fun hgood => ?_ }
  · rcases hbegun with heq | heq
    · rw [heq]
      exact ⟨first, hfirst, hdials⟩
    · refine ⟨first ++ (more ++ pool.closingReport verdict), ?_, ?_⟩
      · rw [heq, hlater, hfirst, List.append_assoc]
      · rw [dialsIn_append, hdials, hnodial, List.append_nil]
  · rcases hbegun with heq | heq
    · rw [heq]
      exact ⟨_, hlater, hnodial⟩
    · exact ⟨[], by rw [heq, List.append_nil], rfl⟩
  · rw [hmore, hfirst, List.append_assoc]
  · exact fun event hevent => (List.mem_append.mp hevent).elim (hfirst' event) (hmore' event)
  · rw [hsettles.entries_eq, if_pos ((pool.goodEntries_eq_nil_iff _ verdict).mpr hgood), hmade,
      if_pos hgood, hclosing.pools, hpools, List.append_nil]
    exact ⟨rfl, rfl⟩
  · have hne : pool.goodEntries start.world.dialed verdict ≠ [] := fun hnil =>
      hgood ((pool.goodEntries_eq_nil_iff _ verdict).mp hnil)
    rw [hsettles.entries_eq, if_neg hne, hmade, if_neg hgood, hclosing.pools, hpools]
    exact ⟨rfl, rfl, rfl, rfl, pool.live_made _ verdict hbounded,
      pool.idleConnections_made _ verdict⟩

/-- What is admitted has a slot, and not too many. -/
theorem bounds_of_ok {endpoints : List Endpoint} {settings : Settings} {capacity : Nat}
    (hok : checkParameters endpoints settings = .ok capacity) :
    0 < settings.perEndpoint ∧ 0 < capacity ∧ capacity ≤ maxCapacity := by
  have hcapacity := capacity_of_ok hok
  have hadmitted : settings.perEndpoint ≠ 0 ∧ endpoints.isEmpty = false ∧
      settings.perEndpoint * endpoints.length ≤ maxCapacity := by
    rw [checkParameters_eq] at hok
    grind
  obtain ⟨hper, hsome, hbounded⟩ := hadmitted
  have hlength : 0 < endpoints.length :=
    List.length_pos_iff.mpr (List.isEmpty_eq_false_iff.mp hsome)
  rw [hcapacity]
  exact ⟨Nat.pos_of_ne_zero hper, Nat.mul_pos (Nat.pos_of_ne_zero hper) hlength, hbounded⟩

/-- A creation begins whose slots come out in given ways. -/
def beginScripted (start : Session) (label name : String) (endpoints : List Endpoint)
    (settings : Settings) (outcome : Nat → Outcome) :
    Session × Progress (Except Error PoolId) Creating :=
  (start.scripted
    ((List.range (settings.perEndpoint * endpoints.length)).map outcome)).beginCreation label name
      endpoints settings

section

variable {label name : String} {endpoints : List Endpoint} {settings : Settings} {capacity : Nat}
  (hok : checkParameters endpoints settings = .ok capacity)
  (hnew : start.world.creations.get? start.nextKey = none) (horderly : start.world.Orderly)
  (hsettles : Settles { name, label, endpoints, settings } outcome latency verdict)
include hok hnew horderly hsettles

theorem unfolds_of_ends
    (hends : EndsAlone (start.beginScripted label name endpoints settings outcome) after result) :
    Unfolds { name, label, endpoints, settings } latency verdict start
      (start.beginScripted label name endpoints settings outcome).1 after result := by
  obtain ⟨hper, hpos, hbounded⟩ := bounds_of_ok hok
  rw [capacity_of_ok hok] at hpos hbounded
  have hplan := @planOf_scripted start { name, label, endpoints, settings } outcome
    (settings.perEndpoint * endpoints.length) rfl
  obtain ⟨opened, creating, hbegin, hdialing, htends, hissues⟩ :=
    @beginCreation_opens (start.scripted
      ((List.range (settings.perEndpoint * endpoints.length)).map outcome)) label name endpoints
        settings capacity hok hnew
  change start.beginScripted label name endpoints settings outcome = _ at hbegin
  rw [hplan] at hdialing hissues
  rw [map_endpoint_planFor hper] at hissues
  rw [hbegin] at hends ⊢
  exact unfolds_of_dialing hsettles hpos hbounded (htends.runs.orderly horderly) hdialing htends.now
    htends.pools hissues hends

theorem exists_endsAlone :
    ∃ after result, EndsAlone (start.beginScripted label name endpoints settings outcome) after
      result := by
  have hcomes := (@beginCreation_comes (start.scripted
    ((List.range (settings.perEndpoint * endpoints.length)).map outcome)) label name endpoints
      settings capacity hok hnew horderly).1
  have hplan := @planOf_scripted start { name, label, endpoints, settings } outcome
    (settings.perEndpoint * endpoints.length) rfl
  rw [hplan] at hcomes
  refine hcomes.exists_ends (length_planFor _) horderly fun dial hdial => ?_
  obtain ⟨slot, hslot, rfl⟩ := List.mem_map.mp hdial
  exact ⟨_, hsettles.verdict?_eq (List.mem_range.mp hslot)⟩

end

/-- A creation does not depend on timing.  Its slots settle in any order, after any times, each in
some way, and it goes as `Unfolds` says.  If they settle in the same ways after other times, it
comes to the same, with the same pool. -/
theorem creation_after_run (past : List World.Action) (start : Session)
    (hstart : start.world = (World.run {} past).1)
    (hnew : start.world.creations.get? start.nextKey = none) (label name : String)
    (endpoints : List Endpoint) (settings : Settings) (capacity : Nat)
    (hok : checkParameters endpoints settings = .ok capacity) :
    let pool : Pool := { name, label, endpoints, settings }
    pool.capacity = capacity ∧ capacity = settings.perEndpoint * endpoints.length ∧
      (∀ outcome latency verdict, Settles pool outcome latency verdict →
        ∃ after result,
          EndsAlone (start.beginScripted label name endpoints settings outcome) after result ∧
          Unfolds pool latency verdict start
            (start.beginScripted label name endpoints settings outcome).1 after result) ∧
      ∀ outcome latency outcome' latency' verdict, Settles pool outcome latency verdict →
        Settles pool outcome' latency' verdict → ∀ after result after' result',
          EndsAlone (start.beginScripted label name endpoints settings outcome) after result →
          EndsAlone (start.beginScripted label name endpoints settings outcome') after' result' →
            result' = result ∧ after'.world.pools = after.world.pools := by
  intro pool
  have horderly : start.world.Orderly := hstart ▸ World.Orderly.initial.run past
  have hcapacity := capacity_of_ok hok
  refine ⟨hcapacity.symm, hcapacity, fun outcome latency verdict hsettles => ?_, ?_⟩
  · obtain ⟨after, result, hends⟩ := exists_endsAlone hok hnew horderly hsettles
    exact ⟨after, result, hends, unfolds_of_ends hok hnew horderly hsettles hends⟩
  · intro outcome latency outcome' latency' verdict hsettles hsettles' after result after' result'
      hends hends'
    have hunfolds := unfolds_of_ends hok hnew horderly hsettles hends
    have hunfolds' := unfolds_of_ends hok hnew horderly hsettles' hends'
    -- both come to what the verdicts say, which are the same
    by_cases hgood : pool.goodSlots verdict = []
    · obtain ⟨rfl, hpools⟩ := hunfolds.failed hgood
      obtain ⟨rfl, hpools'⟩ := hunfolds'.failed hgood
      exact ⟨rfl, hpools'.trans hpools.symm⟩
    · obtain ⟨rfl, hpools, -⟩ := hunfolds.ready hgood
      obtain ⟨rfl, hpools', -⟩ := hunfolds'.ready hgood
      exact ⟨rfl, hpools'.trans hpools.symm⟩

/-- Two endpoints. -/
def twoEndpoints : List Endpoint := [{ address := "a:1" }, { address := "b:1" }]

/-- Two connections to each endpoint, and a time limit for the dials. -/
def twoEach : Settings := { perEndpoint := 2, dialTimeout := some 5 }

/-- Of the four dials one succeeds, one hangs until the time limit, one is refused at once, and one
succeeds just in time. -/
def fourOutcomes (slot : Nat) : Outcome :=
  [.settles 3 .success, .hangs, .settles 0 (.failure "refused")].getD slot (.settles 5 .success)

/-- After the time limit there is a pool with a connection to each endpoint. -/
theorem creation_of_fourOutcomes :
    checkParameters twoEndpoints twoEach = .ok 4 ∧
      ∃ after, EndsAlone (beginScripted {} "p" "p" twoEndpoints twoEach fourOutcomes) after
          (.ok 0) ∧
        after.now = 5 ∧
        after.world.pools.map Pool.idle = [[⟨⟨"a:1", 0⟩, 0⟩, ⟨⟨"b:1", 1⟩, 1⟩]] := by
  have hok : checkParameters twoEndpoints twoEach = .ok 4 := by decide
  obtain ⟨-, -, hcreates, -⟩ :=
    creation_after_run [] {} rfl rfl "p" "p" twoEndpoints twoEach 4 hok
  have hsettles : ∀ slot < 4, (fourOutcomes slot).truncated (some 5) =
      .settles ([3, 5, 0].getD slot 5)
        ([.success, .failure deadlineText, .failure "refused"].getD slot .success) := by decide
  obtain ⟨after, result, hends, hunfolds⟩ := hcreates fourOutcomes _ _ hsettles
  obtain ⟨rfl, hpools, -⟩ := hunfolds.ready (by decide)
  refine ⟨hok, after, hends, ?_, ?_⟩
  · -- the second slot takes longest
    obtain ⟨slowest, hslowest, hduration, hlongest⟩ := hunfolds.duration
    have hleast : ∀ slot < 4, [3, 5, 0].getD slot 5 ≤ 5 := by decide
    rw [hduration, Nat.le_antisymm (hleast slowest hslowest) (hlongest 1 (by decide))]
  · rw [hpools]
    decide

end Session

end HeartbeatPool
