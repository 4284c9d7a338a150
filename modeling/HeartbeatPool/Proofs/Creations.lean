import HeartbeatPool.Proofs.Deadlines
import HeartbeatPool.Proofs.Provenance

/-!
# What the creation of a pool comes to

A creation dials all its slots at once and then waits.  What it does is fixed by its plan: the
endpoint of each slot, the connection that the dial may deliver, and how the dial comes out.  At any
time each slot is what its dial has come to by then (`Plan.slot`), in whatever order the dials come
out, and once the last of them has, the pool has what was established in its queue, in the order of
the slots (`Plan.stocked`).

A session looks at a creation when one of its timers is due.  One look leads from what the plan says
of one time to what it says of the next, or to the end (`Plan.Comes`).  `Tends` says what the looks
at one creation leave alone, so creations can be under way side by side.
-/

namespace HeartbeatPool

/-! ## Plans -/

/-- The dial of a slot: the connection that it may deliver, and how it comes out. -/
structure Dial where
  endpoint : Endpoint
  conn : Conn
  outcome : Outcome
  deriving DecidableEq, Repr

/-- What becomes of a slot whose dial has come to a verdict, or has not yet. -/
def Slot.of (conn : Conn) : Option Verdict → Slot
  | none => .dialing conn
  | some .success => .established conn
  | some (.failure cause) => .failed cause

/-- A creation as it is laid out: the pool to be, without connections yet, the time at which its
slots are dialed, and their dials. -/
structure Plan where
  pool : Pool
  begun : Nat
  dials : List Dial

namespace Plan

variable (plan : Plan) (now : Nat) (dial : Dial)

/-- The wait for a dial. -/
def wait : Wait := Wait.start plan.begun plan.pool.settings.dialTimeout dial.outcome

/-- What a dial is worth under the time limit. -/
def verdict? : Option Verdict := dial.outcome.within plan.pool.settings.dialTimeout

/-- Whether a dial has come to its verdict by some time. -/
def isDue : Bool := (plan.wait dial).timers.any fun timer => decide (timer ≤ now)

/-- The wait for a dial as long as it goes on. -/
def wait? : Option Wait := if plan.isDue now dial then none else some (plan.wait dial)

/-- The slot of a dial at some time. -/
def slot : Slot := .of dial.conn (if plan.isDue now dial then plan.verdict? dial else none)

/-- The connection of a slot, if its dial succeeds. -/
def entryOf? (pair : Dial × Nat) : Option Entry :=
  if plan.verdict? pair.1 = some .success then
    some ⟨pair.1.conn, pair.2 / plan.pool.settings.perEndpoint⟩
  else none

/-- The connections that are established, in the order of the slots. -/
def entries : List Entry := plan.dials.zipIdx.filterMap plan.entryOf?

/-- The pool with all that is established in its queue. -/
def stocked : Pool :=
  { plan.pool with
    idle := plan.entries
    free := plan.pool.capacity - plan.entries.length
    counter := UInt64.ofNat plan.entries.length }

variable {plan now dial}

theorem isDue_iff :
    plan.isDue now dial = true ↔ ∃ timer ∈ (plan.wait dial).timers, timer ≤ now := by
  simp [isDue]

theorem isDue_mono {later : Nat} (hle : now ≤ later) (h : plan.isDue now dial = true) :
    plan.isDue later dial = true := by
  obtain ⟨timer, htimer, hdue⟩ := isDue_iff.mp h
  exact isDue_iff.mpr ⟨timer, htimer, Nat.le_trans hdue hle⟩

/-- A dial with a timer has a verdict, and the other way round. -/
theorem exists_timer_iff :
    (∃ timer, timer ∈ (plan.wait dial).timers) ↔ ∃ verdict, plan.verdict? dial = some verdict := by
  unfold verdict? wait Wait.start Wait.timers Outcome.within
  cases plan.pool.settings.dialTimeout <;> cases dial.outcome <;> simp
  split <;> simp

theorem exists_verdict_of_isDue (h : plan.isDue now dial = true) :
    ∃ verdict, plan.verdict? dial = some verdict := by
  obtain ⟨timer, htimer, -⟩ := isDue_iff.mp h
  exact exists_timer_iff.mp ⟨timer, htimer⟩

/-- As long as no timer was missed, a look at the wait shows what the plan says. -/
theorem poll_wait (h : ∀ timer ∈ (plan.wait dial).timers, now ≤ timer) :
    (plan.wait dial).poll now = if plan.isDue now dial then plan.verdict? dial else none := by
  have hdue : plan.isDue now dial = true ↔ now ∈ (plan.wait dial).timers := by
    rw [isDue_iff]
    constructor
    · rintro ⟨timer, htimer, hle⟩
      rwa [Nat.le_antisymm (h timer htimer) hle]
    · exact fun hmem => ⟨now, hmem, Nat.le_refl _⟩
  rw [wait, Wait.poll_start _ _ _ h]
  exact if_congr hdue.symm rfl rfl

end Plan

/-- The dial of one slot of a pool, with the outcome that a script has for it, and what is left of
the script. -/
def dialAt (pool : Pool) (dialed : List String) (script : Script) (slot : Nat) : Dial × Script :=
  let endpoint := pool.endpoint (slot / pool.settings.perEndpoint)
  let taken := script.takeDial endpoint.address
  (⟨endpoint, ⟨endpoint.address, dialed.count endpoint.address⟩, taken.1⟩, taken.2)

/-- The dials of some slots from a given one on. -/
def layOut (pool : Pool) (dialed : List String) (script : Script) (slot : Nat) :
    Nat → List Dial × Script
  | 0 => ([], script)
  | count + 1 =>
      let first := dialAt pool dialed script slot
      let rest := layOut pool (first.1.endpoint.address :: dialed) first.2 (slot + 1) count
      (first.1 :: rest.1, rest.2)

theorem length_layOut (pool : Pool) (dialed : List String) (script : Script) (slot count : Nat) :
    (layOut pool dialed script slot count).1.length = count := by
  induction count generalizing dialed script slot with
  | zero => rfl
  | succ count ih => simp [layOut, ih]

/-- Each slot is dialed for the endpoint that it belongs to. -/
theorem map_endpoint_layOut (pool : Pool) (dialed : List String) (script : Script)
    (slot count : Nat) :
    (layOut pool dialed script slot count).1.map Dial.endpoint =
      (List.range' slot count).map fun slot =>
        pool.endpoint (slot / pool.settings.perEndpoint) := by
  induction count generalizing dialed script slot with
  | zero => rfl
  | succ count ih =>
      rw [layOut, List.map_cons, ih, List.range'_succ, List.map_cons]
      rfl

/-- The capacity that was admitted is that of the pool. -/
theorem capacity_of_ok {endpoints : List Endpoint} {settings : Settings} {capacity : Nat}
    (hok : checkParameters endpoints settings = .ok capacity) :
    capacity = settings.perEndpoint * endpoints.length := by
  rw [checkParameters_eq] at hok
  grind

/-- The addresses of some dials, the latest first. -/
def addressesOf (dials : List Dial) : List String :=
  (dials.map fun dial => dial.endpoint.address).reverse

@[simp] theorem addressesOf_nil : addressesOf [] = [] := rfl

@[simp] theorem addressesOf_cons (dial : Dial) (dials : List Dial) :
    addressesOf (dial :: dials) = addressesOf dials ++ [dial.endpoint.address] :=
  List.reverse_cons

/-- A step notes down what it dials. -/
theorem World.dialed_step {w : World} (hw : w.Orderly) (action : World.Action) :
    (w.step action).1.dialed =
      ((dialsIn (w.step action).2).map Endpoint.address).reverse ++ w.dialed := by
  rcases World.step_cases hw.linked action with
    ⟨hstep, -⟩ | ⟨w', account, heff, ⟨hstep, -⟩ | ⟨left, old, -, -, -, hstep⟩⟩
  · rw [hstep]
    rfl
  · rw [hstep]
    exact heff.dialed_eq hw
  · rw [hstep, dialsIn_append, dialsIn_closeIdle, List.append_nil]
    change w'.dialed = _
    exact heff.dialed_eq hw

namespace Session

variable {s s' s'' : Session} {key : Key}

/-! ## What a creation leaves alone -/

/-- One session comes from another by actions of the world, and has seen what they show. -/
def Runs (s s' : Session) : Prop :=
  ∃ actions, s'.world = (s.world.run actions).1 ∧ s'.seen = s.seen ++ (s.world.run actions).2

theorem Runs.refl (s : Session) : Runs s s := ⟨[], rfl, (List.append_nil _).symm⟩

theorem Runs.trans (h : Runs s s') (h' : Runs s' s'') : Runs s s'' := by
  obtain ⟨first, hworld, hseen⟩ := h
  obtain ⟨second, hworld', hseen'⟩ := h'
  refine ⟨first ++ second, ?_, ?_⟩
  · rw [World.run_append_fst, hworld', hworld]
  · rw [World.run_append_snd, hseen', hseen, hworld, List.append_assoc]

theorem Runs.act (s : Session) (action : World.Action) : Runs s (s.act action) :=
  ⟨[action], rfl, by simp [Session.act, World.run, World.Change.andThen]⟩

/-- One session comes from another in no time, by moves of the creation under a key that does not
come to its end. -/
structure Tends (key : Key) (s s' : Session) : Prop where
  now : s'.now = s.now
  nextKey : s'.nextKey = s.nextKey
  creations : ∀ other, other ≠ key →
    s'.world.creations.get? other = s.world.creations.get? other
  pools : s'.world.pools = s.world.pools
  held : s'.world.held = s.world.held
  calls : s'.world.calls = s.world.calls
  loans : s'.world.loans = s.world.loans
  runs : Runs s s'

theorem Runs.orderly (h : Runs s s') (horderly : s.world.Orderly) : s'.world.Orderly := by
  obtain ⟨actions, hworld, -⟩ := h
  rw [hworld]
  exact horderly.run actions

theorem Tends.refl (key : Key) (s : Session) : Tends key s s :=
  ⟨rfl, rfl, fun _ _ => rfl, rfl, rfl, rfl, rfl, .refl s⟩

theorem Tends.trans (h : Tends key s s') (h' : Tends key s' s'') : Tends key s s'' where
  now := h'.now.trans h.now
  nextKey := h'.nextKey.trans h.nextKey
  creations other hother := (h'.creations other hother).trans (h.creations other hother)
  pools := h'.pools.trans h.pools
  held := h'.held.trans h.held
  calls := h'.calls.trans h.calls
  loans := h'.loans.trans h.loans
  runs := h.runs.trans h'.runs

theorem Tends.withScript (key : Key) (s : Session) (script : Script) :
    Tends key s { s with script := script } :=
  ⟨rfl, rfl, fun _ _ => rfl, rfl, rfl, rfl, rfl, .refl s⟩

/-- A step that changes no more than the creation under a key. -/
theorem Tends.of_act {action : World.Action} {dialed : List String} {creation : Creation}
    {events : List Event}
    (h : s.world.step action = ({ s.world with
      dialed := dialed
      creations := s.world.creations.insert key creation }, events)) :
    Tends key s (s.act action) where
  now := rfl
  nextKey := rfl
  creations other hother := by
    rw [act, h]
    exact (Table.get?_insert ..).trans (if_neg fun heq => hother heq.symm)
  pools := by rw [act, h]
  held := by rw [act, h]
  calls := by rw [act, h]
  loans := by rw [act, h]
  runs := .act s action

/-- Some events, and after them those that a session has seen, tell of every dial. -/
structure Knows (events : List Event) (s : Session) : Prop where
  orderly : s.world.Orderly
  dialed : s.world.dialed = ((dialsIn (events ++ s.seen)).map Endpoint.address).reverse

variable {events : List Event}

theorem Knows.runs (h : Knows events s) (hruns : Runs s s') : Knows events s' := by
  obtain ⟨actions, hworld, hseen⟩ := hruns
  induction actions generalizing s with
  | nil =>
      obtain ⟨horderly, hdialed⟩ := h
      simp only [World.run, List.append_nil] at hworld hseen
      exact ⟨hworld ▸ horderly, by rw [hworld, hseen]; exact hdialed⟩
  | cons action rest ih =>
      have hfirst : Knows events (s.act action) := by
        refine ⟨h.orderly.step action, ?_⟩
        rw [act, World.dialed_step h.orderly, h.dialed]
        simp [dialsIn_append]
      refine ih hfirst hworld ?_
      rw [hseen, act, List.append_assoc]
      rfl

/-- A connection goes on being named after the dial that it was named after. -/
theorem Runs.dialOf {conn : Conn} {endpoint : Endpoint} (h : Runs s s')
    (hdial : dialOf (events ++ s.seen) conn = some endpoint) :
    dialOf (events ++ s'.seen) conn = some endpoint := by
  obtain ⟨actions, -, hseen⟩ := h
  rw [hseen, ← List.append_assoc]
  exact dialOf_append hdial _

/-- What a creation shows: its pool, but for the counter, and its slots. -/
def Shows (s : Session) (key : Key) (pool : Pool) (slots : List Slot) : Prop :=
  ∃ creation, s.world.creations.get? key = some creation ∧ creation.slots = slots ∧
    ∃ counter, creation.pool = { pool with counter := counter }

variable {pool : Pool} {slots : List Slot}

/-- The answer to a dial decides its slot. -/
theorem act_settleSlot (h : s.Shows key pool slots) {slot : Nat} {conn : Conn}
    (hslot : slots[slot]? = some (.dialing conn)) (verdict : Verdict) :
    (s.act (.settleSlot key slot verdict)).Shows key pool
        (slots.set slot (.of conn (some verdict))) ∧
      Tends key s (s.act (.settleSlot key slot verdict)) ∧
      (s.act (.settleSlot key slot verdict)).world.dialed = s.world.dialed := by
  obtain ⟨creation, hcreation, rfl, counter, hpool⟩ := h
  cases verdict with
  | success =>
      have hstep : s.world.step (.settleSlot key slot .success) =
          ({ s.world with
              creations := s.world.creations.insert key (creation.establish slot conn) },
            [.log (.established (creation.pool.address (creation.endpointOf slot)))]) := by
        simp [World.step, World.settleSlot, hcreation, hslot]
      refine ⟨⟨creation.establish slot conn, ?_, rfl, counter + 1, ?_⟩, .of_act hstep, ?_⟩
      · rw [act, hstep]
        exact Table.get?_insert_self ..
      · rw [Creation.establish, hpool]
        rfl
      · rw [act, hstep]
  | failure cause =>
      have hstep : s.world.step (.settleSlot key slot (.failure cause)) =
          ({ s.world with
              creations := s.world.creations.insert key (creation.fail slot cause) }, []) := by
        simp [World.step, World.settleSlot, hcreation, hslot]
      refine ⟨⟨creation.fail slot cause, ?_, rfl, counter, hpool⟩, .of_act hstep, ?_⟩
      · rw [act, hstep]
        exact Table.get?_insert_self ..
      · rw [act, hstep]

/-- The next slot is dialed for the endpoint that it belongs to. -/
theorem act_dialSlot (h : s.Shows key pool slots) (hroom : slots.length < pool.capacity) :
    let endpoint := pool.endpoint (slots.length / pool.settings.perEndpoint)
    (s.act (.dialSlot key)).Shows key pool (slots ++ [.dialing (s.world.nextConn endpoint)]) ∧
      Tends key s (s.act (.dialSlot key)) ∧
      (s.act (.dialSlot key)).world.dialed = endpoint.address :: s.world.dialed ∧
      (s.act (.dialSlot key)).seen = s.seen ++ [.dial endpoint] := by
  obtain ⟨creation, hcreation, rfl, counter, hpool⟩ := h
  have hcapacity : creation.pool.capacity = pool.capacity := by rw [hpool]; rfl
  have hendpoint : creation.nextEndpoint =
      pool.endpoint (creation.slots.length / pool.settings.perEndpoint) := by
    rw [Creation.nextEndpoint, Creation.endpointOf, hpool]
    rfl
  have hstep : s.world.step (.dialSlot key) =
      ({ s.world with
          dialed := creation.nextEndpoint.address :: s.world.dialed
          creations := s.world.creations.insert key
            (creation.push (s.world.nextConn creation.nextEndpoint)) },
        [.dial creation.nextEndpoint]) := by
    simp [World.step, World.dialSlot, hcreation, hcapacity, hroom, World.dial, World.nextConn]
  rw [← hendpoint]
  refine ⟨⟨creation.push (s.world.nextConn creation.nextEndpoint), ?_, rfl, counter, hpool⟩,
    .of_act hstep, ?_, ?_⟩
  · rw [act, hstep]
    exact Table.get?_insert_self ..
  · rw [act, hstep]
  · rw [act, hstep]

variable {plan : Plan} {dial : Dial} {old : Nat} {waits : List (Option Wait)}

/-- A look at a dial under way decides its slot if the dial has come to its verdict. -/
theorem pollSlot_shows (h : s.Shows key plan.pool slots) {slot : Nat}
    (hslot : slots[slot]? = some (.dialing dial.conn)) (hdue : Due (plan.wait dial).timers s) :
    let polled := s.pollSlot key slot (plan.wait dial)
    polled.1.Shows key plan.pool (slots.set slot (plan.slot s.now dial)) ∧
      polled.2 = plan.wait? s.now dial ∧ Tends key s polled.1 ∧
      polled.1.script = s.script ∧ polled.1.world.dialed = s.world.dialed := by
  have hpoll := Plan.poll_wait hdue
  cases hcome : plan.isDue s.now dial with
  | false =>
      have hsame : slots.set slot (.dialing dial.conn) = slots := by
        obtain ⟨hlt, hget⟩ := List.getElem?_eq_some_iff.mp hslot
        rw [← hget, List.set_getElem_self]
      simp only [pollSlot, hpoll, Plan.slot, Plan.wait?, hcome, Bool.false_eq_true, if_false,
        Slot.of, hsame]
      exact ⟨h, trivial, .refl key s, trivial, trivial⟩
  | true =>
      obtain ⟨verdict, hverdict⟩ := Plan.exists_verdict_of_isDue hcome
      obtain ⟨hshows, htends, hdialed⟩ := act_settleSlot h hslot verdict
      simp only [pollSlot, hpoll, Plan.slot, Plan.wait?, hcome, if_true, hverdict]
      exact ⟨hshows, trivial, htends, rfl, hdialed⟩

/-- A look at all slots leads from what the plan says of one time to what it says of another, if no
timer was missed in between. -/
theorem pollSlots_shows {before after : List Dial}
    (h : s.Shows key plan.pool (before.map (plan.slot s.now) ++ after.map (plan.slot old)))
    (hle : old ≤ s.now) (hdue : Due (slotTimers (after.map (plan.wait? old))) s) :
    let polled := s.pollSlots key before.length (after.map (plan.wait? old))
    polled.1.Shows key plan.pool ((before ++ after).map (plan.slot s.now)) ∧
      polled.2 = after.map (plan.wait? s.now) ∧ Tends key s polled.1 := by
  induction after generalizing s before with
  | nil => exact ⟨by simpa [pollSlots] using h, rfl, .refl key s⟩
  | cons dial after ih =>
      rw [List.map_cons, slotTimers_cons] at hdue
      have hassoc : before ++ dial :: after = (before ++ [dial]) ++ after := by simp
      have hlength : (before ++ [dial]).length = before.length + 1 := by simp
      cases hold : plan.isDue old dial with
      | true =>
          -- the slot was settled before, so it is passed over
          have hnow := Plan.isDue_mono hle hold
          have hslot : plan.slot old dial = plan.slot s.now dial := by
            simp [Plan.slot, hold, hnow]
          have hmoved : s.Shows key plan.pool ((before ++ [dial]).map (plan.slot s.now) ++
              after.map (plan.slot old)) := by simpa [hslot] using h
          obtain ⟨hshows, hwaits, htends⟩ := ih hmoved hle hdue.right
          rw [hlength] at hshows hwaits htends
          simp only [List.map_cons, Plan.wait?, hold, hnow, if_true, pollSlots, hassoc]
          exact ⟨hshows, congrArg _ hwaits, htends⟩
      | false =>
          -- the slot is still waited for, so it is looked at now
          have hwait : plan.wait? old dial = some (plan.wait dial) := by
            simp [Plan.wait?, hold]
          have hslot : (before.map (plan.slot s.now) ++ (dial :: after).map (plan.slot old))[
              before.length]? = some (.dialing dial.conn) := by
            simp [Plan.slot, hold, Slot.of]
          rw [hwait] at hdue
          obtain ⟨hshows, hwait', hfirst, -, -⟩ := pollSlot_shows h hslot hdue.left
          rw [List.map_cons, hwait, pollSlots]
          generalize s.pollSlot key before.length (plan.wait dial) = polled
            at hshows hwait' hfirst ⊢
          -- after the look it is as the plan says for this instant
          have hset : (before.map (plan.slot s.now) ++ (dial :: after).map (plan.slot old)).set
              before.length (plan.slot s.now dial) =
                (before ++ [dial]).map (plan.slot polled.1.now) ++ after.map (plan.slot old) := by
            simp [hfirst.now]
          rw [hset] at hshows
          obtain ⟨hshows, hwaits, hrest⟩ :=
            ih hshows (hfirst.now ▸ hle) fun timer htimer => hfirst.now ▸ hdue.right timer htimer
          rw [hlength] at hshows hwaits hrest
          rw [hfirst.now] at hshows hwaits
          rw [hassoc, List.map_cons, ← hwait', ← hwaits]
          exact ⟨hshows, rfl, hfirst.trans hrest⟩

/-- A slot is dialed as it is laid out, and looked at right away. -/
theorem openSlot_shows {before : List Dial}
    (h : s.Shows key plan.pool (before.map (plan.slot s.now))) (hbegun : plan.begun = s.now)
    (hroom : before.length < plan.pool.capacity) :
    let first := dialAt plan.pool s.world.dialed s.script before.length
    let opened := s.openSlot key plan.pool before.length
    opened.1.Shows key plan.pool ((before ++ [first.1]).map (plan.slot s.now)) ∧
      opened.2 = plan.wait? s.now first.1 ∧ Tends key s opened.1 ∧ opened.1.script = first.2 ∧
      opened.1.world.dialed = first.1.endpoint.address :: s.world.dialed ∧
      ∀ events, Knows events s → dialOf (events ++ opened.1.seen) first.1.conn =
        some first.1.endpoint := by
  intro first
  obtain ⟨hshows, hdial, hdialed, hseen⟩ := act_dialSlot h (by rwa [List.length_map])
  rw [List.length_map] at hshows hdialed hseen
  let dialed : Session := { s.act (.dialSlot key) with script := first.2 }
  have hslot : (before.map (plan.slot s.now) ++ [Slot.dialing first.1.conn])[before.length]? =
      some (.dialing first.1.conn) := by simp
  -- the wait has only just begun, so no timer of it can have been missed
  have hdue : Due (plan.wait first.1).timers dialed := by
    intro timer htimer
    have hle := Wait.le_of_mem_timers htimer
    rwa [hbegun] at hle
  have hset : (before.map (plan.slot s.now) ++ [Slot.dialing first.1.conn]).set before.length
      (plan.slot s.now first.1) = (before ++ [first.1]).map (plan.slot s.now) := by simp
  obtain ⟨hopened, hwait, hpoll, hscript, hsame⟩ := pollSlot_shows (s := dialed) hshows hslot hdue
  have hopen : s.openSlot key plan.pool before.length =
      dialed.pollSlot key before.length (plan.wait first.1) := by
    rw [Plan.wait, hbegun]
    rfl
  have hsource (events : List Event) (hknows : Knows events s) :
      dialOf (events ++ dialed.seen) first.1.conn = some first.1.endpoint := by
    change dialOf (events ++ (s.act (.dialSlot key)).seen) first.1.conn = some first.1.endpoint
    rw [hseen, ← List.append_assoc]
    exact World.dialOf_nextConn hknows.dialed rfl
  rw [hopen]
  exact ⟨hset ▸ hopened, hwait, hdial.trans ((Tends.withScript key _ _).trans hpoll), hscript,
    hsame.trans hdialed, fun events hknows => hpoll.runs.dialOf (hsource events hknows)⟩

/-- The slots are dialed as they are laid out, and each dial is looked at right away. -/
theorem openSlots_shows {before : List Dial} {count : Nat}
    (h : s.Shows key plan.pool (before.map (plan.slot s.now))) (hbegun : plan.begun = s.now)
    (hroom : before.length + count ≤ plan.pool.capacity) :
    let laid := layOut plan.pool s.world.dialed s.script before.length count
    let opened := s.openSlots key plan.pool before.length count
    opened.1.Shows key plan.pool ((before ++ laid.1).map (plan.slot s.now)) ∧
      opened.2 = laid.1.map (plan.wait? s.now) ∧ Tends key s opened.1 ∧
      opened.1.script = laid.2 ∧ opened.1.world.dialed = addressesOf laid.1 ++ s.world.dialed ∧
      ∀ events, Knows events s → ∀ dial ∈ laid.1,
        dialOf (events ++ opened.1.seen) dial.conn = some dial.endpoint := by
  induction count generalizing s before with
  | zero =>
      refine ⟨?_, rfl, .refl key s, rfl, rfl, fun _ _ => nofun⟩
      simpa [layOut, openSlots] using h
  | succ count ih =>
      -- the first slot is dialed, and the others find what it has left
      obtain ⟨hshows, hwait, hfirst, hscript, hdialed, hsource⟩ :=
        openSlot_shows h hbegun (by omega)
      rw [openSlots_succ, layOut]
      generalize s.openSlot key plan.pool before.length = opened
        at hshows hwait hfirst hscript hdialed hsource ⊢
      generalize dialAt plan.pool s.world.dialed s.script before.length = first
        at hshows hwait hscript hdialed hsource ⊢
      have hlength : (before ++ [first.1]).length = before.length + 1 := by simp
      rw [← hfirst.now] at hshows
      obtain ⟨hshows, hwaits, hrest, hscript', hdialed', hsources⟩ :=
        ih hshows (hbegun.trans hfirst.now.symm) (by omega)
      rw [hlength] at hshows hwaits hrest hscript' hdialed' hsources
      rw [hscript, hdialed] at hshows hwaits hscript' hdialed' hsources
      rw [hfirst.now] at hshows hwaits
      refine ⟨by simpa using hshows, ?_, hfirst.trans hrest, hscript', ?_, ?_⟩
      · rw [List.map_cons, ← hwait, ← hwaits]
      · rw [hdialed', addressesOf_cons, List.append_assoc, List.singleton_append]
      · intro events hknows dial hdial
        rcases List.mem_cons.mp hdial with rfl | hdial
        · exact hrest.runs.dialOf (hsource events hknows)
        · exact hsources events (hknows.runs hfirst.runs) dial hdial

/-! ## One look at a creation -/

/-- One session comes from another in no time, by moves of the creation under a key up to its end,
with the pools that it leads to. -/
structure Finishes (key : Key) (new : List Pool) (s s' : Session) : Prop where
  now : s'.now = s.now
  nextKey : s'.nextKey = s.nextKey
  creations : ∀ other, other ≠ key →
    s'.world.creations.get? other = s.world.creations.get? other
  gone : s'.world.creations.get? key = none
  pools : s'.world.pools = s.world.pools ++ new
  held : s'.world.held = s.world.held ++ List.range' s.world.pools.length new.length
  calls : s'.world.calls = s.world.calls
  loans : s'.world.loans = s.world.loans
  runs : Runs s s'

theorem Tends.finishes {new : List Pool} (h : Tends key s s') (h' : Finishes key new s' s'') :
    Finishes key new s s'' where
  now := h'.now.trans h.now
  nextKey := h'.nextKey.trans h.nextKey
  creations other hother := (h'.creations other hother).trans (h.creations other hother)
  gone := h'.gone
  pools := by rw [h'.pools, h.pools]
  held := by rw [h'.held, h.held, h.pools]
  calls := h'.calls.trans h.calls
  loans := h'.loans.trans h.loans
  runs := h.runs.trans h'.runs

/-- A step that ends the creation under a key. -/
theorem Finishes.of_act {action : World.Action} {new : List Pool} {events : List Event}
    (h : s.world.step action = ({ s.world with
      creations := s.world.creations.erase key
      pools := s.world.pools ++ new
      held := s.world.held ++ List.range' s.world.pools.length new.length }, events)) :
    Finishes key new s (s.act action) where
  now := rfl
  nextKey := rfl
  creations other hother := by
    rw [act, h]
    exact (Table.get?_erase ..).trans (if_neg fun heq => hother heq.symm)
  gone := by
    rw [act, h]
    exact Table.get?_erase_self ..
  pools := by rw [act, h]
  held := by rw [act, h]
  calls := by rw [act, h]
  loans := by rw [act, h]
  runs := .act s action

/-- A creation under way: each slot is, and is waited for, as the plan says of some time. -/
structure Dialing (plan : Plan) (time : Nat) (s : Session) (creating : Creating) : Prop where
  shows : s.Shows creating.key plan.pool (plan.dials.map (plan.slot time))
  waits : creating.waits = plan.dials.map (plan.wait? time)

/-- What a look at a creation comes to. -/
inductive Comes (plan : Plan) (key : Key) (s : Session) :
    Session × Progress (Except Error PoolId) Creating → Prop where
  | waiting {after : Session} {waits : List (Option Wait)} (htends : Tends key s after)
      (hdialing : Dialing plan after.now after ⟨key, waits⟩)
      (hsome : ∃ dial ∈ plan.dials, plan.isDue after.now dial = false) :
      Comes plan key s (after, .waiting ⟨key, waits⟩)
  | ready {after : Session} (hfinishes : Finishes key [plan.stocked] s after)
      (hall : ∀ dial ∈ plan.dials, plan.isDue after.now dial = true) (hne : plan.entries ≠ []) :
      Comes plan key s (after, .done (.ok s.world.pools.length))
  | failed {after : Session} (hfinishes : Finishes key [] s after)
      (hall : ∀ dial ∈ plan.dials, plan.isDue after.now dial = true) (hnone : plan.entries = []) :
      Comes plan key s (after, .done (.error (.fatal plan.pool.name)))

theorem Tends.comes {progress : Session × Progress (Except Error PoolId) Creating}
    (h : Tends key s s') (hcomes : Comes plan key s' progress) : Comes plan key s progress := by
  cases hcomes with
  | waiting htends hdialing hsome => exact .waiting (h.trans htends) hdialing hsome
  | ready hfinishes hall hne =>
      rw [h.pools]
      exact .ready (h.finishes hfinishes) hall hne
  | failed hfinishes hall hnone => exact .failed (h.finishes hfinishes) hall hnone

theorem Comes.now {progress : Session × Progress (Except Error PoolId) Creating}
    (h : Comes plan key s progress) : progress.1.now = s.now := by
  cases h with
  | waiting htends => exact htends.now
  | ready hfinishes => exact hfinishes.now
  | failed hfinishes => exact hfinishes.now

theorem Comes.runs {progress : Session × Progress (Except Error PoolId) Creating}
    (h : Comes plan key s progress) : Runs s progress.1 := by
  cases h with
  | waiting htends => exact htends.runs
  | ready hfinishes => exact hfinishes.runs
  | failed hfinishes => exact hfinishes.runs

/-- Once all dials have come to their verdicts, what was established is what the plan says. -/
theorem entries_of_settled {creation : Creation} {now : Nat}
    (hslots : creation.slots = plan.dials.map (plan.slot now))
    (hper : creation.pool.settings.perEndpoint = plan.pool.settings.perEndpoint)
    (hall : ∀ dial ∈ plan.dials, plan.isDue now dial = true) :
    creation.entries = plan.entries := by
  rw [Creation.entries, Plan.entries, hslots, List.zipIdx_map, List.filterMap_map]
  refine List.filterMap_congr fun pair hpair => ?_
  obtain ⟨dial, slot⟩ := pair
  have hdue := hall dial (List.fst_mem_of_mem_zipIdx hpair)
  obtain ⟨verdict, hverdict⟩ := Plan.exists_verdict_of_isDue hdue
  cases verdict <;>
    simp [Plan.slot, Plan.entryOf?, hdue, hverdict, Slot.of, Creation.entryOf?, Creation.endpointOf,
      hper]

/-- A creation whose dials have all come to their verdicts ends with the pool that the plan says. -/
theorem stock_of_settled {creation : Creation} {counter : UInt64} (hfresh : creation.Fresh)
    (hpool : creation.pool = { plan.pool with counter := counter })
    (hentries : creation.entries = plan.entries) : creation.stock.1 = plan.stocked := by
  have hcounter : counter = UInt64.ofNat plan.entries.length := by
    rw [← hentries, ← hfresh.counter, hpool]
  rw [hfresh.stock_eq, hentries, hpool, hcounter]
  rfl

/-- What a creation comes to whose dials have all come to their verdicts. -/
theorem outcome_of_settled {creation : Creation} {counter : UInt64} (hfresh : creation.Fresh)
    (hpool : creation.pool = { plan.pool with counter := counter })
    (hentries : creation.entries = plan.entries) :
    creation.outcome =
      if plan.entries = [] then .error (.fatal plan.pool.name) else .ok plan.stocked := by
  have hstock := stock_of_settled hfresh hpool hentries
  by_cases hnone : plan.entries = []
  · have hlive : creation.stock.1.live = 0 := by
      rw [hfresh.live_stock, hentries, hnone]
      rfl
    rw [hstock] at hlive
    simp only [Creation.outcome, hstock, hlive, hnone, if_true]
    rfl
  · rw [if_neg hnone]
    exact hfresh.outcome_eq_ok_iff.mpr ⟨hentries ▸ hnone, hstock.symm⟩

theorem isSettled_of_due {creation : Creation} {now : Nat}
    (hslots : creation.slots = plan.dials.map (plan.slot now))
    (hlength : plan.dials.length = creation.pool.capacity)
    (hall : ∀ dial ∈ plan.dials, plan.isDue now dial = true) : creation.isSettled = true := by
  have hslot : ∀ slot ∈ creation.slots, slot.isSettled = true := by
    intro slot hslot
    rw [hslots] at hslot
    obtain ⟨dial, hdial, rfl⟩ := List.mem_map.mp hslot
    obtain ⟨verdict, hverdict⟩ := Plan.exists_verdict_of_isDue (hall dial hdial)
    cases verdict <;> simp [Plan.slot, hall dial hdial, hverdict, Slot.of, Slot.isSettled]
  have hlength : creation.slots.length = creation.pool.capacity := by
    rw [hslots, List.length_map, hlength]
  simpa [Creation.isSettled, hlength] using hslot

/-- A creation whose dials have all come to their verdicts is finished. -/
theorem act_finish (h : Dialing plan s.now s ⟨key, waits⟩)
    (hfull : plan.dials.length = plan.pool.capacity) (horderly : s.world.Orderly)
    (hall : ∀ dial ∈ plan.dials, plan.isDue s.now dial = true) :
    Finishes key (if plan.entries = [] then [] else [plan.stocked]) s (s.act (.finish key)) ∧
      ∃ creation, s.world.creations.get? key = some creation ∧
        creation.outcome =
          if plan.entries = [] then .error (.fatal plan.pool.name) else .ok plan.stocked := by
  obtain ⟨⟨creation, hcreation, hslots, counter, hpool⟩, -⟩ := h
  have hfresh := horderly.fresh hcreation
  have hentries := entries_of_settled hslots (by rw [hpool]) hall
  have houtcome := outcome_of_settled hfresh hpool hentries
  have hsettled : creation.isSettled = true :=
    isSettled_of_due hslots (by rw [hfull, hpool]; rfl) hall
  refine ⟨@Finishes.of_act s key (.finish key) _ creation.report ?_, creation, hcreation, houtcome⟩
  by_cases hnone : plan.entries = []
  · rw [if_pos hnone] at houtcome
    simp [World.step, World.finish, hcreation, hsettled, houtcome, hnone]
  · rw [if_neg hnone] at houtcome
    simp [World.step, World.finish, hcreation, hsettled, houtcome, hnone]

/-- As long as some dial has not come to its verdict, nothing happens. -/
theorem concludeCreation_of_late {creating : Creating} (h : Dialing plan s.now s creating)
    (hdial : dial ∈ plan.dials) (hlate : plan.isDue s.now dial = false) :
    s.concludeCreation creating = (s, .waiting creating) := by
  have hsome : creating.waits.any Option.isSome = true := by
    rw [h.waits, List.any_map, List.any_eq_true]
    exact ⟨dial, hdial, by simp [Plan.wait?, hlate]⟩
  rw [concludeCreation, if_pos hsome]

/-- Once all dials have come to their verdicts, the creation is finished. -/
theorem concludeCreation_of_due {creating : Creating} (h : Dialing plan s.now s creating)
    (hfull : plan.dials.length = plan.pool.capacity) (horderly : s.world.Orderly)
    (hall : ∀ dial ∈ plan.dials, plan.isDue s.now dial = true) :
    s.concludeCreation creating =
      (s.act (.finish creating.key),
        .done (if plan.entries = [] then .error (.fatal plan.pool.name)
          else .ok s.world.pools.length)) := by
  have hnone : creating.waits.any Option.isSome = false := by
    rw [h.waits, List.any_map, List.any_eq_false]
    intro dial hdial
    simp [Plan.wait?, hall dial hdial]
  obtain ⟨-, creation, hcreation, houtcome⟩ := act_finish h hfull horderly hall
  simp only [concludeCreation, hnone, Bool.false_eq_true, if_false, hcreation, houtcome]
  split <;> rfl

theorem concludeCreation_comes (h : Dialing plan s.now s ⟨key, waits⟩)
    (hfull : plan.dials.length = plan.pool.capacity) (horderly : s.world.Orderly) :
    Comes plan key s (s.concludeCreation ⟨key, waits⟩) := by
  by_cases hall : ∀ dial ∈ plan.dials, plan.isDue s.now dial = true
  · have hfinishes := (act_finish h hfull horderly hall).1
    rw [concludeCreation_of_due h hfull horderly hall]
    by_cases hentries : plan.entries = []
    · rw [if_pos hentries] at hfinishes ⊢
      exact .failed hfinishes (fun dial hdial => hfinishes.now ▸ hall dial hdial) hentries
    · rw [if_neg hentries] at hfinishes ⊢
      exact .ready hfinishes (fun dial hdial => hfinishes.now ▸ hall dial hdial) hentries
  · obtain ⟨dial, hdial, hlate⟩ : ∃ dial ∈ plan.dials, plan.isDue s.now dial = false := by
      simpa using hall
    rw [concludeCreation_of_late h hdial hlate]
    exact .waiting (.refl key s) h ⟨dial, hdial, hlate⟩

theorem dialed_concludeCreation (creating : Creating) :
    (s.concludeCreation creating).1.script = s.script ∧
      (s.concludeCreation creating).1.world.dialed = s.world.dialed := by
  unfold concludeCreation
  split
  · exact ⟨rfl, rfl⟩
  · split
    · exact ⟨rfl, rfl⟩
    · next creation hcreation =>
        refine ⟨rfl, ?_⟩
        simp only [act, World.step, World.finish, hcreation]
        split
        · split <;> rfl
        · rfl

/-- A look at the slots some time after the one before, if no timer was missed in between. -/
theorem pollSlots_dialing {creating : Creating} (h : Dialing plan old s creating)
    (hle : old ≤ s.now) (hdue : Due creating.timers s) :
    let polled := s.pollSlots creating.key 0 creating.waits
    Dialing plan polled.1.now polled.1 ⟨creating.key, polled.2⟩ ∧
      Tends creating.key s polled.1 := by
  obtain ⟨key, waits⟩ := creating
  obtain ⟨hshows, rfl⟩ := h
  have hstart : s.Shows key plan.pool
      (([] : List Dial).map (plan.slot s.now) ++ plan.dials.map (plan.slot old)) := hshows
  obtain ⟨hshows, hwaits, htends⟩ := pollSlots_shows hstart hle hdue
  rw [← htends.now] at hshows hwaits
  exact ⟨⟨hshows, hwaits⟩, htends⟩

/-- A look at a creation some time after the one before, if no timer was missed in between. -/
theorem pollCreation_comes {creating : Creating} (h : Dialing plan old s creating)
    (hle : old ≤ s.now) (hdue : Due creating.timers s)
    (hfull : plan.dials.length = plan.pool.capacity) (horderly : s.world.Orderly) :
    Comes plan creating.key s (s.pollCreation creating) := by
  obtain ⟨hdialing, htends⟩ := pollSlots_dialing h hle hdue
  exact htends.comes (concludeCreation_comes hdialing hfull (htends.runs.orderly horderly))

/-- The plan of a creation that begins now. -/
def planOf (s : Session) (pool : Pool) : Plan :=
  ⟨pool, s.now, (layOut pool s.world.dialed s.script 0 pool.capacity).1⟩

/-- A creation that is admitted begins without a slot. -/
theorem create_shows (label name : String) {endpoints : List Endpoint} {settings : Settings}
    {capacity : Nat} (hok : checkParameters endpoints settings = .ok capacity)
    (hnew : s.world.creations.get? key = none) :
    let created := s.act (.create key label name endpoints settings)
    created.Shows key { name, label, endpoints, settings } [] ∧ Tends key s created ∧
      created.world.dialed = s.world.dialed ∧ created.seen = s.seen := by
  have hstep : s.world.step (.create key label name endpoints settings) =
      ({ s.world with
          creations :=
            s.world.creations.insert key { pool := { name, label, endpoints, settings } } },
        []) := by
    simp [World.step, World.create, Table.contains, hnew, hok]
  refine ⟨⟨{ pool := { name, label, endpoints, settings } }, ?_, rfl, 0, rfl⟩, .of_act hstep,
    ?_, ?_⟩
  · rw [act, hstep]
    exact Table.get?_insert_self ..
  · rw [act, hstep]
  · rw [act, hstep]
    exact List.append_nil _

theorem beginCreation_eq (label name : String) {endpoints : List Endpoint} {settings : Settings}
    {capacity : Nat} (hok : checkParameters endpoints settings = .ok capacity) :
    let pool : Pool := { name, label, endpoints, settings }
    let created := s.freshKey.2.act (.create s.nextKey label name endpoints settings)
    let opened := created.openSlots s.nextKey pool 0 pool.capacity
    s.beginCreation label name endpoints settings =
      opened.1.concludeCreation ⟨s.nextKey, opened.2⟩ := by
  unfold beginCreation
  rw [hok, capacity_of_ok hok]
  rfl

theorem beginCreation_comes (label name : String) {endpoints : List Endpoint}
    {settings : Settings} {capacity : Nat} (hok : checkParameters endpoints settings = .ok capacity)
    (hnew : s.world.creations.get? s.nextKey = none) (horderly : s.world.Orderly) :
    let pool : Pool := { name, label, endpoints, settings }
    let plan := s.planOf pool
    let begun := s.beginCreation label name endpoints settings
    Comes plan s.nextKey s.freshKey.2 begun ∧
      begun.1.script = (layOut pool s.world.dialed s.script 0 pool.capacity).2 ∧
      begun.1.world.dialed = addressesOf plan.dials ++ s.world.dialed ∧
      ∀ events, Knows events s → ∀ dial ∈ plan.dials,
        dialOf (events ++ begun.1.seen) dial.conn = some dial.endpoint := by
  intro pool plan
  let key := s.nextKey
  let created := s.freshKey.2.act (.create key label name endpoints settings)
  obtain ⟨hshows, hcreated, hdialed, -⟩ := create_shows (s := s.freshKey.2) label name hok hnew
  change created.Shows key plan.pool (([] : List Dial).map (plan.slot created.now)) at hshows
  change created.world.dialed = s.world.dialed at hdialed
  -- all slots are dialed one after the other, as they are laid out
  have horderly' : created.world.Orderly := hcreated.runs.orderly horderly
  obtain ⟨hopened, hwaits, htends, hscript, hdials, hsources⟩ :=
    openSlots_shows hshows rfl (Nat.le_of_eq (Nat.zero_add pool.capacity))
  have hplan : layOut plan.pool created.world.dialed created.script 0 pool.capacity =
      layOut pool s.world.dialed s.script 0 pool.capacity := by rw [hdialed]; rfl
  simp only [List.length_nil, List.nil_append] at hopened hwaits htends hscript hdials hsources
  rw [hplan] at hopened hwaits hscript hdials hsources
  have hbegin : s.beginCreation label name endpoints settings =
      (created.openSlots key plan.pool 0 pool.capacity).1.concludeCreation
        ⟨key, (created.openSlots key plan.pool 0 pool.capacity).2⟩ :=
    beginCreation_eq label name hok
  rw [hbegin]
  generalize created.openSlots key plan.pool 0 pool.capacity = opened
    at hopened hwaits htends hscript hdials hsources ⊢
  -- the first look at the slots dials nothing more
  obtain ⟨hscript', hdials'⟩ := opened.1.dialed_concludeCreation ⟨key, opened.2⟩
  have hcomes : Comes plan key opened.1 (opened.1.concludeCreation ⟨key, opened.2⟩) := by
    refine concludeCreation_comes ⟨?_, ?_⟩ (length_layOut ..) (htends.runs.orderly horderly')
    · rw [htends.now]
      exact hopened
    · rw [htends.now]
      exact hwaits
  refine ⟨hcreated.comes (htends.comes hcomes), hscript'.trans hscript, ?_,
    fun events hknows dial hdial => ?_⟩
  · rw [hdials', hdials, hdialed]
    rfl
  · have hknows' : Knows events s.freshKey.2 := ⟨hknows.orderly, hknows.dialed⟩
    exact hcomes.runs.dialOf (hsources events (hknows'.runs hcreated.runs) dial hdial)

end Session

end HeartbeatPool
