import HeartbeatPool.Proofs.Cancellation
import Mathlib.Data.Int.CardIntervalMod

/-!
# A pool whose connections are sound is a queue

As long as no test fails, a pool that is used by one caller at a time does what a plain queue does
(`Fifo`): a caller gets what has been idle longest, and what is given back, or was only tested, goes
to the back.  `serves` is the step of the simulation, with one case for each use, and
`World.Serves.all` is the run.

In turns of taking and giving back, the queue rotates; so the connections are used in turn, and none
of them is used twice more than another.
-/

namespace HeartbeatPool

/-- The connections that are closed, in order. -/
def closesIn (events : List Event) : List Conn :=
  events.filterMap fun
    | .close conn => some conn
    | .log _ | .dial _ | .probe .. => none

theorem closesIn_append (first second : List Event) :
    closesIn (first ++ second) = closesIn first ++ closesIn second :=
  List.filterMap_append

/-- One use of a pool whose connections are sound. -/
inductive Use where
  /-- Acquire a connection. -/
  | take (key : Key)
  /-- Begin to acquire a connection, and give that up during the test. -/
  | forsake (key : Key)
  /-- Release a connection on loan. -/
  | giveBack (key : Key)
  /-- Drop a connection on loan. -/
  | lose (key : Key)
  deriving DecidableEq, Repr

namespace Use

/-- The key of the call or the loan. -/
def key : Use → Key
  | .take key | .forsake key | .giveBack key | .lose key => key

/-- What happens in one use of a pool. -/
def actions (id : PoolId) : Use → List World.Action
  | .take key => [.acquire key id, .settle key .success]
  | .forsake key => [.acquire key id, .cancel key]
  | .giveBack key => [.release key id]
  | .lose key => [.drop key]

/-- So many turns of taking a connection and giving it back. -/
def turns (key : Nat → Key) (count : Nat) : List Use :=
  (List.range count).flatMap fun turn => [.take (key turn), .giveBack (key turn)]

theorem turns_succ (key : Nat → Key) (count : Nat) :
    turns key (count + 1) = turns key count ++ [.take (key count), .giveBack (key count)] := by
  simp [turns, List.range_succ]

end Use

/-! ## The plain queue -/

/-- A queue, and what has been taken from it under which key. -/
@[ext]
structure Fifo where
  queue : List Entry
  lent : Key → Option Entry

namespace Fifo

/-- What a queue makes of a use. -/
def serve (fifo : Fifo) : Use → Fifo
  | .take key =>
      match fifo.queue with
      | [] => fifo
      | entry :: rest => ⟨rest, Function.update fifo.lent key (some entry)⟩
  | .forsake _ =>
      match fifo.queue with
      | [] => fifo
      | entry :: rest => { fifo with queue := rest ++ [entry] }
  | .giveBack key =>
      ⟨fifo.queue ++ (fifo.lent key).toList, Function.update fifo.lent key none⟩
  | .lose key => { fifo with lent := Function.update fifo.lent key none }

/-- What a caller gets who takes something: what comes first, if there is anything. -/
def answer (fifo : Fifo) : Use → List (Option Entry)
  | .take _ => [fifo.queue.head?]
  | .forsake _ | .giveBack _ | .lose _ => []

/-- What is lost in a use. -/
def losses (fifo : Fifo) : Use → List Conn
  | .lose key => ((fifo.lent key).map Entry.conn).toList
  | .take _ | .forsake _ | .giveBack _ => []

/-- Whether a use makes sense: whoever takes something has nothing under that key, and whoever gives
something up has it. -/
def Apt (fifo : Fifo) : Use → Prop
  | .take key | .forsake key => fifo.lent key = none
  | .giveBack key | .lose key => (fifo.lent key).isSome

def run (fifo : Fifo) (uses : List Use) : Fifo := uses.foldl serve fifo

def answers (fifo : Fifo) : List Use → List (Option Entry)
  | [] => []
  | use :: rest => fifo.answer use ++ (fifo.serve use).answers rest

def allLosses (fifo : Fifo) : List Use → List Conn
  | [] => []
  | use :: rest => fifo.losses use ++ (fifo.serve use).allLosses rest

def AllApt (fifo : Fifo) : List Use → Prop
  | [] => True
  | use :: rest => fifo.Apt use ∧ (fifo.serve use).AllApt rest

variable {fifo : Fifo} {key : Nat → Key}

theorem run_append (fifo : Fifo) (first second : List Use) :
    fifo.run (first ++ second) = (fifo.run first).run second :=
  List.foldl_append

theorem answers_append (fifo : Fifo) (first second : List Use) :
    fifo.answers (first ++ second) = fifo.answers first ++ (fifo.run first).answers second := by
  induction first generalizing fifo with
  | nil => rfl
  | cons use rest ih => simp only [List.cons_append, answers, ih, List.append_assoc, run,
      List.foldl_cons]

theorem allApt_append (fifo : Fifo) (first second : List Use) :
    fifo.AllApt (first ++ second) ↔ fifo.AllApt first ∧ (fifo.run first).AllApt second := by
  induction first generalizing fifo with
  | nil => simp [AllApt, run]
  | cons use rest ih => simp only [List.cons_append, AllApt, ih, and_assoc, run, List.foldl_cons]

/-- To take something and give it back puts it last. -/
theorem run_turn (hne : fifo.queue ≠ []) {key : Key} (hkey : fifo.lent key = none) :
    fifo.run [.take key, .giveBack key] = { fifo with queue := fifo.queue.rotate 1 } := by
  obtain ⟨entry, rest, hqueue⟩ := List.exists_cons_of_ne_nil hne
  simp [run, serve, hqueue, Function.update_eq_self_iff, hkey]

/-- In turns the queue rotates, and everyone gets what comes first then. -/
theorem turns_rotate (hne : fifo.queue ≠ []) (hkey : ∀ turn, fifo.lent (key turn) = none)
    (count : Nat) :
    fifo.run (Use.turns key count) = { fifo with queue := fifo.queue.rotate count } ∧
      fifo.AllApt (Use.turns key count) ∧
      fifo.answers (Use.turns key count) =
        (List.range count).map fun turn => fifo.queue[turn % fifo.queue.length]? := by
  induction count with
  | zero => exact ⟨by simp [Use.turns, run], trivial, rfl⟩
  | succ count ih =>
      obtain ⟨hrun, hapt, hanswers⟩ := ih
      have hrotated : (fifo.queue.rotate count) ≠ [] := by simpa using hne
      have hfirst : (fifo.queue.rotate count).head? = fifo.queue[count % fifo.queue.length]? := by
        rw [← List.rotate_mod, List.head?_rotate]
        exact Nat.mod_lt _ (List.length_pos_iff.mpr hne)
      rw [Use.turns_succ]
      refine ⟨?_, ?_, ?_⟩
      · have hturn : Fifo.run { fifo with queue := fifo.queue.rotate count }
            [.take (key count), .giveBack (key count)] = _ := run_turn hrotated (hkey count)
        rw [run_append, hrun, hturn, List.rotate_rotate]
      · rw [allApt_append, hrun]
        refine ⟨hapt, hkey count, ?_, trivial⟩
        obtain ⟨entry, rest, hqueue⟩ := List.exists_cons_of_ne_nil hrotated
        simp [Apt, serve, hqueue]
      · rw [answers_append, hrun, hanswers, List.range_succ, List.map_append]
        simp [answers, answer, hfirst]

end Fifo

/-- Among the first numbers, those with one remainder are as many as those with another, up to
one. -/
theorem count_mod_le {size : Nat} (hsize : 0 < size) (count first second : Nat) :
    Nat.count (· ≡ first [MOD size]) count ≤ Nat.count (· ≡ second [MOD size]) count + 1 := by
  rw [Nat.count_modEq_card count hsize, Nat.count_modEq_card count hsize]
  split <;> split <;> omega

/-- In turns, an element of a queue without repetition comes as often as the numbers with the
remainder that is its position. -/
theorem count_turns {α : Type} [DecidableEq α] {queue : List α} (hnodup : queue.Nodup)
    {position : Nat} (hposition : position < queue.length) (count : Nat) :
    ((List.range count).map fun turn => queue[turn % queue.length]?).count
        (some queue[position]) =
      Nat.count (· ≡ position [MOD queue.length]) count := by
  rw [List.count, List.countP_map]
  unfold Nat.count
  refine List.countP_congr fun turn _ => ?_
  have hturn : turn % queue.length < queue.length := Nat.mod_lt _ (Nat.zero_lt_of_lt hposition)
  simp only [Function.comp_apply, List.getElem?_eq_getElem hturn, beq_iff_eq, Option.some.injEq,
    hnodup.getElem_inj_iff, decide_eq_true_eq, Nat.ModEq, Nat.mod_eq_of_lt hposition]

namespace World

variable {w : World} {key : Key} {id : PoolId} {pool : Pool} {entry : Entry} {use : Use}

/-! ## What a use does -/

section Acquire

variable (hcall : w.calls.get? key = none) (hloan : w.loans.get? key = none) (hheld : id ∈ w.held)
  (hpool : w.pools[id]? = some pool)
include hcall hloan hheld hpool

/-- A caller who finds nothing has not begun anything that could be answered or given up. -/
theorem run_acquire_of_nil (hidle : pool.idle = []) {action : Action}
    (hnothing : w.step action = (w, [])) :
    w.run [.acquire key id, action] = (w, [.log (.exhausted pool.name)]) := by
  simp only [World.run, acquire_of_nil hcall hloan hheld hpool hidle, hnothing, Change.andThen,
    List.append_nil]

/-- A caller whose test succeeds gets what has been idle longest. -/
theorem run_acquire_settle {rest : List Entry} (hidle : pool.idle = entry :: rest) :
    w.run [.acquire key id, .settle key .success] =
      ({ w.setPool id { pool with idle := rest, free := pool.free + 1 } with
          loans := w.loans.insert key ⟨id, entry⟩ },
        [.probe pool.label entry.conn]) := by
  let taken : Pool := { pool with idle := rest, free := pool.free + 1 }
  let probing : World := w.withProbe key id taken (max pool.idleConnections 1 - 1) entry
  have hacquire : w.step (.acquire key id) = (probing, [.probe pool.label entry.conn]) :=
    acquire_of_cons hcall hloan hheld hpool hidle
  have hcalled : probing.calls.get? key =
      some ⟨id, max pool.idleConnections 1 - 1, .probing entry⟩ := Table.get?_insert_self ..
  have htaken : probing.pools[id]? = some taken :=
    List.getElem?_set_self (List.getElem?_eq_some_iff.mp hpool).1
  have hsettle : probing.step (.settle key .success) = (probing.withLoan key ⟨id, entry⟩, []) :=
    settle_of_sound hcalled htaken hheld rfl
  simp only [World.run, hacquire, hsettle, Change.andThen, List.append_nil]
  simp [probing, withProbe, withLoan, setPool, Table.erase_insert_of_absent hcall, taken]

end Acquire

/-! ## The queue of a pool -/

/-- A pool as a queue. -/
def fifoOf (w : World) (id : PoolId) : Fifo where
  queue := (w.pools.getD id default).idle
  lent key := (w.loans.get? key).bind fun loan => if loan.pool = id then some loan.entry else none

/-- What a caller gets in one use. -/
def answer (w : World) (id : PoolId) (use : Use) : List (Option Entry) :=
  match use with
  | .take key => [((w.run (use.actions id)).1.loans.get? key).map Loan.entry]
  | .forsake _ | .giveBack _ | .lose _ => []

/-- What the callers get in some uses, one after the other. -/
def answers (w : World) (id : PoolId) : List Use → List (Option Entry)
  | [] => []
  | use :: rest => w.answer id use ++ (w.run (use.actions id)).1.answers id rest

/-- A key stands for nothing but loans of one pool. -/
def Names (w : World) (id : PoolId) (key : Key) : Prop :=
  w.calls.get? key = none ∧ ∀ loan, w.loans.get? key = some loan → loan.pool = id

theorem queue_fifoOf (hpool : w.pools[id]? = some pool) : (w.fifoOf id).queue = pool.idle := by
  rw [fifoOf, List.getD_eq_getElem?_getD, hpool, Option.getD_some]

theorem queue_setPool (hlength : id < w.pools.length) (new : Pool) (loans : Table Key Loan) :
    ({ w.setPool id new with loans := loans }.fifoOf id).queue = new.idle :=
  queue_fifoOf (w := { w.setPool id new with loans := loans }) (List.getElem?_set_self hlength)

theorem lent_fifoOf_eq_some_iff :
    (w.fifoOf id).lent key = some entry ↔ w.loans.get? key = some ⟨id, entry⟩ := by
  simp only [fifoOf, Option.bind_eq_some_iff, Option.ite_none_right_eq_some, Option.some.injEq]
  constructor
  · rintro ⟨loan, hloan, rfl, rfl⟩
    exact hloan
  · intro hloan
    exact ⟨_, hloan, rfl, rfl⟩

/-- A key that stands for loans of the pool alone is free where the queue has nothing under it. -/
theorem Names.absent (h : w.Names id key) (hlent : (w.fifoOf id).lent key = none) :
    w.loans.get? key = none := by
  refine Option.eq_none_iff_forall_ne_some.mpr fun loan hloan => ?_
  have hsome : (w.fifoOf id).lent key = some loan.entry := by
    rw [lent_fifoOf_eq_some_iff, ← h.2 loan hloan]
    exact hloan
  rw [hlent] at hsome
  cases hsome

theorem lent_insert (w : World) (key : Key) (id : PoolId) (entry : Entry) (pools : List Pool) :
    ({ w with pools := pools, loans := w.loans.insert key ⟨id, entry⟩ }.fifoOf id).lent =
      Function.update (w.fifoOf id).lent key (some entry) := by
  funext other
  by_cases hother : other = key
  · simp [fifoOf, Table.get?_insert, hother]
  · simp [fifoOf, Table.get?_insert, hother, Ne.symm hother]

theorem lent_erase (w : World) (key : Key) (id : PoolId) (pools : List Pool) :
    ({ w with pools := pools, loans := w.loans.erase key }.fifoOf id).lent =
      Function.update (w.fifoOf id).lent key none := by
  funext other
  by_cases hother : other = key
  · simp [fifoOf, Table.get?_erase, hother]
  · simp [fifoOf, Table.get?_erase, hother, Ne.symm hother]

theorem Names.insert (h : w.Names id key) (name : Key) (entry : Entry) (pools : List Pool) :
    { w with pools := pools, loans := w.loans.insert name ⟨id, entry⟩ }.Names id key :=
  ⟨h.1, fun _ hloan =>
    Table.insert_induction (P := fun other loan => other = key → loan.pool = id) (fun _ => rfl)
      (fun hold hkey => h.2 _ (hkey ▸ hold)) hloan rfl⟩

theorem Names.erase (h : w.Names id key) (name : Key) (pools : List Pool) :
    { w with pools := pools, loans := w.loans.erase name }.Names id key :=
  ⟨h.1, fun loan hloan => h.2 loan (Table.get?_of_erase hloan)⟩

/-! ## The simulation -/

/-- What a pool does in a use is what the queue does. -/
structure Serves (w : World) (id : PoolId) (use : Use) : Prop where
  fifo : (w.run (use.actions id)).1.fifoOf id = (w.fifoOf id).serve use
  answer : w.answer id use = (w.fifoOf id).answer use
  dials : dialsIn (w.run (use.actions id)).2 = []
  closes : closesIn (w.run (use.actions id)).2 = (w.fifoOf id).losses use
  held : id ∈ (w.run (use.actions id)).1.held
  names : ∀ key, w.Names id key → (w.run (use.actions id)).1.Names id key

/-- A use that does nothing but be noted leaves everything as it is. -/
theorem Serves.still {notice : Notice} (hheld : id ∈ w.held)
    (hrun : w.run (use.actions id) = (w, [.log notice]))
    (hserve : (w.fifoOf id).serve use = w.fifoOf id)
    (hanswer : w.answer id use = (w.fifoOf id).answer use)
    (hlosses : (w.fifoOf id).losses use = []) : w.Serves id use := by
  refine ⟨?_, hanswer, ?_, ?_, ?_, ?_⟩
  all_goals rw [hrun]
  · exact hserve.symm
  · rfl
  · exact hlosses.symm
  · exact hheld
  · exact fun key h => h

section Serves

variable (hw : w.Orderly) (hheld : id ∈ w.held) (hpool : w.pools[id]? = some pool)
  (hnames : w.Names id key)
include hheld hpool

include hnames in
theorem serves_take (hnone : (w.fifoOf id).lent key = none) : w.Serves id (.take key) := by
  have hloan := hnames.absent hnone
  have hqueue := queue_fifoOf hpool
  cases hidle : pool.idle with
  | nil =>
      have hnothing : w.step (.settle key .success) = (w, []) := by
        simp [World.step, settle, hnames.1]
      have hrun := run_acquire_of_nil hnames.1 hloan hheld hpool hidle hnothing
      refine .still hheld hrun ?_ ?_ rfl
      · simp only [Fifo.serve, hqueue, hidle]
      · simp [World.answer, Use.actions, hrun, Fifo.answer, hqueue, hidle, hloan]
  | cons entry rest =>
      have hrun := run_acquire_settle hnames.1 hloan hheld hpool hidle
      have hlength := (List.getElem?_eq_some_iff.mp hpool).1
      refine ⟨?_, ?_, ?_, ?_, ?_, ?_⟩
      all_goals simp only [World.answer, Use.actions, hrun]
      · refine Fifo.ext ?_ ?_
        · simp only [Fifo.serve, hqueue, hidle]
          exact queue_setPool hlength ..
        · simp only [Fifo.serve, hqueue, hidle]
          exact lent_insert ..
      · simp [Table.get?_insert, Fifo.answer, hqueue, hidle]
      · rfl
      · rfl
      · exact hheld
      · exact fun name h => h.insert ..

include hw hnames in
theorem serves_forsake (hnone : (w.fifoOf id).lent key = none) : w.Serves id (.forsake key) := by
  have hloan := hnames.absent hnone
  have hqueue := queue_fifoOf hpool
  cases hidle : pool.idle with
  | nil =>
      have hnothing : w.step (.cancel key) = (w, []) := by
        simp [World.step, cancel, hnames.1]
      have hrun := run_acquire_of_nil hnames.1 hloan hheld hpool hidle hnothing
      refine .still hheld hrun ?_ rfl rfl
      simp only [Fifo.serve, hqueue, hidle]
  | cons entry rest =>
      have hrun := run_acquire_cancel hw hnames.1 hloan hheld hpool hidle
      have hlength := (List.getElem?_eq_some_iff.mp hpool).1
      refine ⟨?_, rfl, ?_, ?_, ?_, ?_⟩
      all_goals simp only [Use.actions, hrun]
      · refine Fifo.ext ?_ ?_
        · simp only [Fifo.serve, hqueue, hidle]
          refine (queue_setPool hlength _ w.loans).trans ?_
          simp
        · simp only [Fifo.serve, hqueue, hidle]
          rfl
      · rfl
      · rfl
      · exact hheld
      · exact fun name h => h

variable (hsome : (w.fifoOf id).lent key = some entry)
include hsome

include hw in
theorem serves_giveBack : w.Serves id (.giveBack key) := by
  have hloan := lent_fifoOf_eq_some_iff.mp hsome
  have hlength := (List.getElem?_eq_some_iff.mp hpool).1
  have hrun : w.run [.release key id] =
      ({ w.setPool id (pool.parked entry) with loans := w.loans.erase key }, []) := by
    have hrelease := step_release hw hloan hheld hpool
    simp only [World.run, hrelease, Change.andThen, List.append_nil]
  refine ⟨?_, rfl, ?_, ?_, ?_, ?_⟩
  all_goals simp only [Use.actions, hrun]
  · refine Fifo.ext ?_ ?_
    · simp only [Fifo.serve, hsome, queue_fifoOf hpool]
      exact queue_setPool hlength ..
    · exact lent_erase ..
  · rfl
  · rfl
  · exact hheld
  · exact fun name h => h.erase ..

theorem serves_lose : w.Serves id (.lose key) := by
  have hloan := lent_fifoOf_eq_some_iff.mp hsome
  have hlength := (List.getElem?_eq_some_iff.mp hpool).1
  have hrun : w.run [.drop key] = (w.withoutLoan key ⟨id, entry⟩ pool, [.close entry.conn]) := by
    simp only [World.run, World.step, drop_eq hloan hpool, Change.andThen, List.append_nil]
  refine ⟨?_, rfl, ?_, ?_, ?_, ?_⟩
  all_goals simp only [Use.actions, hrun]
  · refine Fifo.ext ?_ ?_
    · simp only [Fifo.serve, queue_fifoOf hpool]
      exact queue_setPool hlength ..
    · exact lent_erase ..
  · rfl
  · simp [closesIn, Fifo.losses, hsome]
  · exact hheld
  · exact fun name h => h.erase ..

end Serves

/-- A pool that somebody holds serves every use that makes sense as a queue does. -/
theorem serves (hw : w.Orderly) (hheld : id ∈ w.held) (hnames : w.Names id use.key)
    (hapt : (w.fifoOf id).Apt use) : w.Serves id use := by
  obtain ⟨pool, hpool⟩ := hw.linked.poolOfHeld hheld
  cases use with
  | take key => exact serves_take hheld hpool hnames hapt
  | forsake key => exact serves_forsake hw hheld hpool hnames hapt
  | giveBack key =>
      obtain ⟨entry, hsome⟩ := Option.isSome_iff_exists.mp hapt
      exact serves_giveBack hw hheld hpool hsome
  | lose key =>
      obtain ⟨entry, hsome⟩ := Option.isSome_iff_exists.mp hapt
      exact serves_lose hheld hpool hsome

/-- So it serves any number of uses. -/
theorem serves_all {uses : List Use} (hw : w.Orderly) (hheld : id ∈ w.held)
    (hnames : ∀ use ∈ uses, w.Names id use.key) (hapt : (w.fifoOf id).AllApt uses) :
    (w.run (uses.flatMap (Use.actions id))).1.fifoOf id = (w.fifoOf id).run uses ∧
      w.answers id uses = (w.fifoOf id).answers uses ∧
      dialsIn (w.run (uses.flatMap (Use.actions id))).2 = [] ∧
      closesIn (w.run (uses.flatMap (Use.actions id))).2 = (w.fifoOf id).allLosses uses := by
  induction uses generalizing w with
  | nil => exact ⟨rfl, rfl, rfl, rfl⟩
  | cons use rest ih =>
      have hserves := serves hw hheld (hnames use (List.mem_cons_self ..)) hapt.1
      obtain ⟨hfifo, hanswers, hdials, hcloses⟩ := ih (hw.run (use.actions id)) hserves.held
        (fun other hother => hserves.names _ (hnames other (List.mem_cons_of_mem _ hother)))
        (hserves.fifo ▸ hapt.2)
      rw [hserves.fifo] at hfifo hanswers hcloses
      simp only [List.flatMap_cons, run_append_fst, run_append_snd]
      refine ⟨hfifo, ?_, ?_, ?_⟩
      · rw [answers, Fifo.answers, hserves.answer, hanswers]
      · rw [dialsIn_append, hserves.dials, hdials, List.append_nil]
      · rw [closesIn_append, hserves.closes, hcloses, Fifo.allLosses]

/-- No connection is in a queue twice. -/
theorem Ledger.nodup_idle {events : List Event} {conns : List Conn} (h : Ledger w events conns)
    (hpool : w.pools[id]? = some pool) : (pool.idle.map Entry.conn).Nodup := by
  refine List.nodup_iff_count_le_one.mpr fun conn => ?_
  have hzip : (pool, id) ∈ w.pools.zipIdx := List.mk_mem_zipIdx_iff_getElem?.mpr hpool
  have hsublist : (pool.holdings id).Sublist w.holdings := by
    refine List.Sublist.trans ?_ (List.sublist_append_left _ _)
    refine List.Sublist.trans ?_ (List.sublist_append_left _ _)
    refine List.Sublist.trans ?_ (List.sublist_append_right _ _)
    exact List.sublist_flatten_of_mem (List.mem_map.mpr ⟨_, hzip, rfl⟩)
  calc (pool.idle.map Entry.conn).count conn
      = (pool.holdings id).countP (Holding.has conn) := by
        rw [Pool.countP_holdings, List.count, List.countP_map]
        refine List.countP_congr fun entry _ => ?_
        simp [Holding.has, Place.isDelivered]
    _ ≤ w.count (Holding.has conn) := hsublist.countP_le
    _ ≤ conns.count conn := by
        have hkept := h.kept conn
        omega
    _ ≤ 1 := h.count_le_one conn

/-! ## Every run -/

/-- Whatever has happened before, a pool that somebody holds serves uses that make sense as a plain
queue would: everyone who takes something gets what the queue has first, what is given back or was
only tested goes to its end, no dial is made, and what is closed is what was lost.

So if callers take connections in turn, each giving back what it got, and there are some at first,
then they get them in turn, round and round; no connection is there twice, and none is ever used
twice more than another. -/
theorem rotation_after_run (past : List Action) (id : PoolId) (pool : Pool)
    (hheld : id ∈ (run {} past).1.held) (hpool : (run {} past).1.pools[id]? = some pool) :
    (∀ uses : List Use, (∀ use ∈ uses, (run {} past).1.Names id use.key) →
      ((run {} past).1.fifoOf id).AllApt uses →
      ((run {} past).1.run (uses.flatMap (Use.actions id))).1.fifoOf id =
          ((run {} past).1.fifoOf id).run uses ∧
        (run {} past).1.answers id uses = ((run {} past).1.fifoOf id).answers uses ∧
        dialsIn ((run {} past).1.run (uses.flatMap (Use.actions id))).2 = [] ∧
        closesIn ((run {} past).1.run (uses.flatMap (Use.actions id))).2 =
          ((run {} past).1.fifoOf id).allLosses uses) ∧
      (run {} past).1.fifoOf id = ⟨pool.idle, ((run {} past).1.fifoOf id).lent⟩ ∧
      (pool.idle.map Entry.conn).Nodup ∧
      ∀ (key : Nat → Key) (count : Nat), pool.idle ≠ [] →
        (∀ turn, (run {} past).1.calls.get? (key turn) = none ∧
          (run {} past).1.loans.get? (key turn) = none) →
        (run {} past).1.answers id (Use.turns key count) =
            (List.range count).map (fun turn => pool.idle[turn % pool.idle.length]?) ∧
          (((run {} past).1.run
              ((Use.turns key count).flatMap (Use.actions id))).1.fifoOf id).queue =
            pool.idle.rotate count ∧
          ∀ first ∈ pool.idle, ∀ second ∈ pool.idle,
            ((run {} past).1.answers id (Use.turns key count)).count (some first) ≤
              ((run {} past).1.answers id (Use.turns key count)).count (some second) + 1 := by
  have hw := Orderly.initial.run past
  have hqueue := queue_fifoOf hpool
  have hnodup := (ledger_of_run past).nodup_idle hpool
  refine ⟨fun uses hnames hapt => serves_all hw hheld hnames hapt, ?_, hnodup,
    fun key count hne hkey => ?_⟩
  · rw [← hqueue]
  -- nobody has a loan under the keys that are used
  have hlent (turn : Nat) : ((run {} past).1.fifoOf id).lent (key turn) = none := by
    refine Option.eq_none_iff_forall_ne_some.mpr fun entry hsome => ?_
    rw [lent_fifoOf_eq_some_iff, (hkey turn).2] at hsome
    cases hsome
  -- each use is that of some turn, so its key is free
  have hnames (use : Use) (huse : use ∈ Use.turns key count) :
      (run {} past).1.Names id use.key := by
    obtain ⟨turn, -, hmem⟩ := List.mem_flatMap.mp huse
    have hkeys : use.key = key turn := by
      simp only [List.mem_cons, List.not_mem_nil, or_false] at hmem
      rcases hmem with rfl | rfl <;> rfl
    rw [hkeys]
    exact ⟨(hkey turn).1, fun loan hloan => by simp [(hkey turn).2] at hloan⟩
  obtain ⟨hrun, hapt, hturns⟩ := Fifo.turns_rotate (hqueue ▸ hne) hlent count
  obtain ⟨hfifo, hanswers, -, -⟩ := serves_all hw hheld hnames hapt
  rw [hanswers, hturns, hfifo, hrun, hqueue]
  refine ⟨rfl, rfl, fun first hfirst second hsecond => ?_⟩
  obtain ⟨i, hi, rfl⟩ := List.getElem_of_mem hfirst
  obtain ⟨j, hj, rfl⟩ := List.getElem_of_mem hsecond
  -- the counts of two connections are those of two residues
  rw [count_turns (hnodup.of_map _) hi, count_turns (hnodup.of_map _) hj]
  exact count_mod_le (List.length_pos_iff.mpr hne) count i j

/-- Two connections: one is taken and given back, the other is tested in vain, then the first is
taken again and lost.  In five turns they are used three times and twice. -/
theorem rotation_of_twoIdle :
    ((run {} twoIdle).1.run
        (([.take 1, .giveBack 1, .forsake 2, .take 3, .lose 3] : List Use).flatMap
          (Use.actions 0))).1.fifoOf 0 =
      ((run {} twoIdle).1.fifoOf 0).run [.take 1, .giveBack 1, .forsake 2, .take 3, .lose 3] ∧
    (run {} twoIdle).1.answers 0 (Use.turns (fun turn => turn + 1) 5) =
      [some ⟨⟨"a:1", 0⟩, 0⟩, some ⟨⟨"a:1", 1⟩, 0⟩, some ⟨⟨"a:1", 0⟩, 0⟩, some ⟨⟨"a:1", 1⟩, 0⟩,
        some ⟨⟨"a:1", 0⟩, 0⟩] := by
  obtain ⟨huses, -, -, hturns⟩ := rotation_after_run twoIdle 0 _ (by decide) rfl
  refine ⟨(huses _ ?_ ?_).1,
    (hturns (fun turn => turn + 1) 5 (by decide) fun turn => ⟨rfl, rfl⟩).1⟩
  · exact fun use _ => ⟨rfl, fun loan hloan => nomatch hloan⟩
  · exact ⟨rfl, rfl, rfl, rfl, rfl, trivial⟩

end World

end HeartbeatPool
