import HeartbeatPool.Pool.Basic
import HeartbeatPool.Proofs.Totals

/-!
# The idle queue of a pool

What the operations on one pool do with its queue, its places and its counter, and what a creation
makes of the results of its slots.

* `Sized`: the free places and the connections in the queue make up the capacity, so that the number
  of idle connections, which is computed from the places, is the length of the queue.
* `Fresh`: a pool on its way has an empty queue, all places, and a counter that says how many
  connections were established.
* `stock_eq`: a fresh creation comes to a pool with exactly the established connections in its
  queue, in the order of the slots; the queue is never found full.
-/

namespace HeartbeatPool

namespace Pool

/-! ## Parameters -/

variable (pool : Pool) (entry : Entry)

@[simp] theorem idle_closeIdle : pool.closeIdle.1.idle = [] := rfl

/-- The pool after a connection has been put at the back of its queue. -/
def parked : Pool := { pool with idle := pool.idle ++ [entry], free := pool.free - 1 }

@[simp] theorem settings_parked : (pool.parked entry).settings = pool.settings := rfl
@[simp] theorem endpoints_parked : (pool.parked entry).endpoints = pool.endpoints := rfl
@[simp] theorem idle_parked : (pool.parked entry).idle = pool.idle ++ [entry] := rfl
@[simp] theorem free_parked : (pool.parked entry).free = pool.free - 1 := rfl

/-! ## Places -/

/-- Free places and idle connections make up the capacity. -/
def Sized : Prop := pool.free + pool.idle.length = pool.capacity

variable {pool entry}

theorem Sized.free_le (h : pool.Sized) : pool.free ≤ pool.capacity := by
  unfold Sized at h
  omega

/-- The number computed from the free places is the length of the queue. -/
theorem Sized.idleConnections_eq (h : pool.Sized) : pool.idleConnections = pool.idle.length := by
  unfold Sized at h
  unfold idleConnections
  omega

theorem takeIdle?_eq_some_iff {taken : Pool} :
    pool.takeIdle? = some (entry, taken) ↔
      ∃ rest, pool.idle = entry :: rest ∧
        taken = { pool with idle := rest, free := pool.free + 1 } := by
  unfold takeIdle?
  split
  · simp_all
  · next first rest hidle =>
      rw [hidle, Option.some.injEq, Prod.mk.injEq]
      constructor
      · rintro ⟨rfl, rfl⟩
        exact ⟨rest, rfl, rfl⟩
      · rintro ⟨_, heq, rfl⟩
        cases heq
        exact ⟨rfl, rfl⟩

theorem park_of_free (h : 0 < pool.free) (entry : Entry) :
    pool.park entry = (pool.parked entry, []) :=
  if_pos h

theorem park_of_full (h : pool.free = 0) (entry : Entry) :
    pool.park entry =
      (pool.untrack, [.log (.queueFull pool.name (pool.address entry.index)), .close entry.conn]) :=
  if_neg (by omega)

theorem Sized.takeIdle {taken : Pool} (hsized : pool.Sized)
    (h : pool.takeIdle? = some (entry, taken)) : taken.Sized := by
  obtain ⟨rest, hidle, rfl⟩ := takeIdle?_eq_some_iff.mp h
  unfold Sized capacity at *
  simp only [hidle, List.length_cons] at hsized ⊢
  omega

theorem Sized.parked (hsized : pool.Sized) (hfree : 0 < pool.free) :
    (pool.parked entry).Sized := by
  unfold Sized capacity at *
  rw [idle_parked, free_parked, List.length_append, List.length_singleton]
  simp only [settings_parked, endpoints_parked]
  omega

theorem Sized.closeIdle (hsized : pool.Sized) : pool.closeIdle.1.Sized := by
  unfold Sized at *
  exact hsized

end Pool

/-! ## Creations -/

namespace Creation

/-- A pool on its way: nothing is in its queue yet, and its counter says how much was established.
The last two clauses come from the admission of its parameters. -/
structure Fresh (creation : Creation) : Prop where
  idle : creation.pool.idle = []
  free : creation.pool.free = creation.pool.capacity
  counter : creation.pool.counter = UInt64.ofNat creation.entries.length
  room : creation.slots.length ≤ creation.pool.capacity
  positive : 0 < creation.pool.settings.perEndpoint
  bounded : creation.pool.capacity ≤ maxCapacity

variable {creation : Creation}

theorem length_entries_le (creation : Creation) :
    creation.entries.length ≤ creation.slots.length := by
  simpa [entries] using List.length_filterMap_le creation.entryOf? creation.slots.zipIdx

/-- Taking in results appends what was established to the queue and warns about all else, as long
as there is a free place for each connection. -/
theorem takeInAll_eq (creation : Creation) (pool : Pool) (hpool : pool.name = creation.pool.name)
    (hendpoints : pool.endpoints = creation.pool.endpoints) (slot : Nat) (results : List Slot)
    (hfree : ((results.zipIdx slot).filterMap creation.entryOf?).length ≤ pool.free) :
    creation.takeInAll pool slot results =
      ({ pool with
          idle := pool.idle ++ (results.zipIdx slot).filterMap creation.entryOf?
          free := pool.free - ((results.zipIdx slot).filterMap creation.entryOf?).length },
        (results.zipIdx slot).filterMap creation.warning?) := by
  induction results generalizing pool slot with
  | nil => simp [takeInAll]
  | cons result rest ih =>
      rw [List.zipIdx_cons] at hfree
      rw [takeInAll, List.zipIdx_cons]
      cases result with
      | dialing conn =>
          have hrest := ih pool hpool hendpoints (slot + 1) hfree
          simp [takeIn, hrest, List.filterMap_cons, entryOf?, warning?]
      | failed cause =>
          -- the warning names the endpoint, and the queue stays
          have hrest := ih pool hpool hendpoints (slot + 1) hfree
          simp [takeIn, hrest, List.filterMap_cons, entryOf?, warning?, hpool, hendpoints,
            Pool.address, Pool.endpoint]
      | established conn =>
          -- there is room for the connection, since what is established fits into the pool
          simp only [List.filterMap_cons, entryOf?, List.length_cons] at hfree
          have hpos : 0 < pool.free := by omega
          have hparked := Pool.park_of_free hpos ⟨conn, creation.endpointOf slot⟩
          have hrest := ih (pool.park ⟨conn, creation.endpointOf slot⟩).1
            (by rw [hparked]; exact hpool)
            (by rw [hparked]; exact hendpoints) (slot + 1)
            (by rw [hparked, Pool.free_parked]; omega)
          simp only [takeIn, hrest]
          simp [hparked, Pool.parked, List.filterMap_cons, entryOf?, warning?, Nat.sub_sub,
            Nat.add_comm]

/-- A fresh creation comes to a pool with exactly what was established in its queue. -/
theorem Fresh.stock_eq (h : creation.Fresh) :
    creation.stock =
      ({ creation.pool with
          idle := creation.entries
          free := creation.pool.capacity - creation.entries.length },
        creation.warnings) := by
  have hlength : creation.entries.length ≤ creation.pool.free := by
    have := length_entries_le creation
    have := h.room
    have := h.free
    omega
  rw [stock, takeInAll_eq creation creation.pool rfl rfl 0 creation.slots hlength, h.idle, h.free]
  rfl

theorem Fresh.live_stock (h : creation.Fresh) :
    creation.stock.1.live = creation.entries.length := by
  have hlength := length_entries_le creation
  have hroom := h.room
  have hbounded : creation.pool.capacity < 2 ^ 64 :=
    Nat.lt_of_le_of_lt h.bounded (by decide)
  rw [h.stock_eq, Pool.live, h.counter, UInt64.toNat_ofNat']
  exact Nat.mod_eq_of_lt (by omega)

theorem Fresh.outcome_eq_ok_iff (h : creation.Fresh) {pool : Pool} :
    creation.outcome = .ok pool ↔ creation.entries ≠ [] ∧ pool = creation.stock.1 := by
  have hlive := h.live_stock
  unfold outcome
  dsimp only
  split
  · next hzero => simp [List.eq_nil_of_length_eq_zero (hlive ▸ hzero)]
  · next hpos =>
      have hne : creation.entries ≠ [] := fun e => hpos (by rw [hlive, e]; rfl)
      simp [hne, eq_comm]

theorem Fresh.entries_of_error (h : creation.Fresh) {error : Error}
    (houtcome : creation.outcome = .error error) : creation.entries = [] := by
  refine Decidable.byContradiction fun hne => ?_
  rw [h.outcome_eq_ok_iff.mpr ⟨hne, rfl⟩] at houtcome
  cases houtcome

/-- What is seen of a fresh creation that has settled: its warnings, and how it came out. -/
theorem Fresh.report_eq (h : creation.Fresh) :
    creation.report = creation.warnings ++
      if creation.entries = [] then [.log (.creationFailed creation.pool.name)]
      else [.log (.created creation.pool.name creation.entries.length creation.pool.capacity)] := by
  have hlive := h.live_stock
  have hzero : creation.entries.length = 0 ↔ creation.entries = [] := List.length_eq_zero_iff
  unfold report
  rw [h.stock_eq] at hlive ⊢
  dsimp only
  rw [hlive]
  simp only [hzero]
  rfl

/-- The report about a fresh creation consists of lines of the log, none of which tells of a full
queue. -/
theorem Fresh.log_of_mem_report (h : creation.Fresh) {event : Event}
    (hevent : event ∈ creation.report) :
    ∃ notice, event = .log notice ∧ ∀ name address, notice ≠ .queueFull name address := by
  rw [h.report_eq] at hevent
  rcases List.mem_append.mp hevent with hwarning | hresult
  · obtain ⟨⟨result, slot⟩, -, hwarning⟩ := List.mem_filterMap.mp hwarning
    cases result <;> cases hwarning
    exact ⟨_, rfl, fun _ _ heq => by cases heq⟩
  · split at hresult
    · exact ⟨_, List.mem_singleton.mp hresult, fun _ _ heq => by cases heq⟩
    · exact ⟨_, List.mem_singleton.mp hresult, fun _ _ heq => by cases heq⟩

/-! ## Endpoints of the slots -/

/-- Of slots in a row only so many belong to one endpoint. -/
theorem countP_div_range'_le {count : Nat} (hcount : 0 < count) (index start length : Nat) :
    (List.range' start length).countP (fun slot => slot / count == index) ≤ count := by
  have hsubset : ((List.range' start length).filter fun slot => slot / count == index) ⊆
      List.range' (count * index) count := by
    intro slot hslot
    obtain ⟨-, hdiv⟩ := List.mem_filter.mp hslot
    have hparts := Nat.div_add_mod slot count
    have hmod := Nat.mod_lt slot hcount
    rw [beq_iff_eq.mp hdiv] at hparts
    exact List.mem_range'_1.mpr ⟨by omega, by omega⟩
  have hnodup : (List.range' start length).Nodup := List.nodup_range'
  have hlength := List.Nodup.length_le_of_subset (hnodup.filter _) hsubset
  rw [← List.countP_eq_length_filter, List.length_range'] at hlength
  exact hlength

/-- No more is established for an endpoint than it may have connections. -/
theorem Fresh.countP_entries_le (h : creation.Fresh) (index : Nat) :
    (creation.entries.countP fun entry => entry.index == index) ≤
      creation.pool.settings.perEndpoint := by
  calc (creation.entries.countP fun entry => entry.index == index)
      ≤ creation.slots.zipIdx.countP fun pair => creation.endpointOf pair.2 == index := by
        rw [entries, List.countP_filterMap]
        refine List.countP_mono_left fun pair _ hentry => ?_
        rcases pair with ⟨_ | _ | _, _⟩ <;> simp_all [entryOf?]
    _ = (List.range' 0 creation.slots.length).countP
          fun slot => slot / creation.pool.settings.perEndpoint == index := by
        rw [← List.zipIdx_map_snd, List.countP_map]
        rfl
    _ ≤ creation.pool.settings.perEndpoint := countP_div_range'_le h.positive index 0 _

/-- What is established is established for an endpoint of the table. -/
theorem Fresh.index_lt (h : creation.Fresh) {entry : Entry} (hentry : entry ∈ creation.entries) :
    entry.index < creation.pool.endpoints.length := by
  obtain ⟨⟨result, slot⟩, hslot, hresult⟩ := List.mem_filterMap.mp hentry
  have hlt : slot < creation.pool.settings.perEndpoint * creation.pool.endpoints.length :=
    Nat.lt_of_lt_of_le (List.mem_zipIdx' hslot).1 h.room
  have hindex : entry.index = creation.endpointOf slot := by
    cases result <;> cases hresult
    rfl
  rw [hindex]
  exact Nat.div_lt_of_lt_mul hlt

/-! ## What happens to a creation -/

@[simp] theorem slots_push (creation : Creation) (conn : Conn) :
    (creation.push conn).slots = creation.slots ++ [.dialing conn] := rfl

@[simp] theorem slots_establish (creation : Creation) (slot : Nat) (conn : Conn) :
    (creation.establish slot conn).slots = creation.slots.set slot (.established conn) := rfl

@[simp] theorem slots_fail (creation : Creation) (slot : Nat) (cause : String) :
    (creation.fail slot cause).slots = creation.slots.set slot (.failed cause) := rfl

/-- The number of established connections, slot by slot. -/
theorem length_entries (creation : Creation) :
    creation.entries.length =
      (creation.slots.zipIdx.map fun pair => (creation.entryOf? pair).elim 0 fun _ => 1).sum := by
  rw [← sum_map_filterMap]
  simp [entries]

theorem length_entries_push (creation : Creation) (conn : Conn) :
    (creation.push conn).entries.length = creation.entries.length := by
  have hentry : (creation.push conn).entryOf? = creation.entryOf? := rfl
  rw [length_entries, length_entries, hentry]
  simp [List.zipIdx_append, entryOf?]

theorem length_entries_establish {slot : Nat} {old : Conn}
    (hslot : creation.slots[slot]? = some (.dialing old)) (conn : Conn) :
    (creation.establish slot conn).entries.length = creation.entries.length + 1 := by
  have hentry : (creation.establish slot conn).entryOf? = creation.entryOf? := rfl
  have hset := sum_zipIdx_set (fun pair => (creation.entryOf? pair).elim 0 fun _ => 1) hslot
    (.established conn) 0
  rw [length_entries, length_entries, hentry]
  simpa [entryOf?] using hset

theorem length_entries_fail {slot : Nat} {old : Conn}
    (hslot : creation.slots[slot]? = some (.dialing old)) (cause : String) :
    (creation.fail slot cause).entries.length = creation.entries.length := by
  have hentry : (creation.fail slot cause).entryOf? = creation.entryOf? := rfl
  have hset := sum_zipIdx_set (fun pair => (creation.entryOf? pair).elim 0 fun _ => 1) hslot
    (.failed cause) 0
  rw [length_entries, length_entries, hentry]
  simpa [entryOf?] using hset

/-- A creation that was admitted starts fresh. -/
theorem Fresh.new {label name : String} {endpoints : List Endpoint} {settings : Settings}
    {capacity : Nat} (hok : checkParameters endpoints settings = .ok capacity) :
    Fresh { pool := { name, label, endpoints, settings } } := by
  have hadmitted : settings.perEndpoint ≠ 0 ∧
      settings.perEndpoint * endpoints.length ≤ maxCapacity := by
    rw [checkParameters_eq] at hok
    grind
  exact
    { idle := rfl
      free := rfl
      counter := rfl
      room := Nat.zero_le _
      positive := Nat.pos_of_ne_zero hadmitted.1
      bounded := hadmitted.2 }

theorem Fresh.push (h : creation.Fresh) (hroom : creation.slots.length < creation.pool.capacity)
    (conn : Conn) : (creation.push conn).Fresh where
  idle := h.idle
  free := h.free
  counter := by rw [length_entries_push]; exact h.counter
  room := by rw [slots_push, List.length_append, List.length_singleton]; exact hroom
  positive := h.positive
  bounded := h.bounded

theorem Fresh.establish (h : creation.Fresh) {slot : Nat} {old : Conn}
    (hslot : creation.slots[slot]? = some (.dialing old)) (conn : Conn) :
    (creation.establish slot conn).Fresh where
  idle := h.idle
  free := h.free
  counter := by
    rw [length_entries_establish hslot, UInt64.ofNat_add, ← h.counter]
    rfl
  room := by rw [slots_establish, List.length_set]; exact h.room
  positive := h.positive
  bounded := h.bounded

theorem Fresh.fail (h : creation.Fresh) {slot : Nat} {old : Conn}
    (hslot : creation.slots[slot]? = some (.dialing old)) (cause : String) :
    (creation.fail slot cause).Fresh where
  idle := h.idle
  free := h.free
  counter := by rw [length_entries_fail hslot]; exact h.counter
  room := by rw [slots_fail, List.length_set]; exact h.room
  positive := h.positive
  bounded := h.bounded

end Creation

end HeartbeatPool
