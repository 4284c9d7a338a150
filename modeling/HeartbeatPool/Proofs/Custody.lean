import HeartbeatPool.Proofs.Ledger

/-!
# Every connection is in one place or closed

`whereabouts` lists all places of a state where a connection is found that was delivered.  The
ledger leaves room for one place at most, and for none once the connection was closed; what is
probed or lent is in a place, so it is not closed.
-/

namespace HeartbeatPool.World

variable {w : World} {action : Action} {conn : Conn} {events : List Event} {conns : List Conn}

/-- The places where a connection is found that was delivered. -/
def whereabouts (w : World) (conn : Conn) : List Place :=
  (w.holdings.filter (Holding.has conn)).map Holding.place

theorem length_whereabouts (w : World) (conn : Conn) :
    (w.whereabouts conn).length = w.count (Holding.has conn) := by
  rw [whereabouts, List.length_map, count, List.countP_eq_length_filter]

theorem mem_whereabouts_iff {place : Place} :
    place ∈ w.whereabouts conn ↔
      ∃ index, ⟨place, conn, index⟩ ∈ w.holdings ∧ place.isDelivered = true := by
  unfold whereabouts
  rw [List.mem_map]
  constructor
  · rintro ⟨⟨place, conn, index⟩, hholding, rfl⟩
    obtain ⟨hmem, hhas⟩ := List.mem_filter.mp hholding
    rw [Holding.has, Bool.and_eq_true, beq_iff_eq] at hhas
    obtain ⟨rfl, hdelivered⟩ := hhas
    exact ⟨index, hmem, hdelivered⟩
  · rintro ⟨index, hmem, hdelivered⟩
    exact ⟨_, List.mem_filter.mpr ⟨hmem, by simp [Holding.has, hdelivered]⟩, rfl⟩

/-! ## Places -/

theorem checkout_mem_whereabouts {key : Key} {call : Call} {entry : Entry}
    (hcall : w.calls.get? key = some call) (hphase : call.phase = .probing entry) :
    .checkout key call.pool ∈ w.whereabouts entry.conn := by
  have hmem := (w.calls.get?_eq_some_iff key call).mp hcall
  refine mem_whereabouts_iff.mpr ⟨entry.index, ?_, rfl⟩
  refine List.mem_append_left _ (List.mem_append_right _ (List.mem_map.mpr ⟨_, hmem, ?_⟩))
  rw [Call.holding, hphase]

theorem loan_mem_whereabouts {key : Key} {loan : Loan} (hloan : w.loans.get? key = some loan) :
    .loan key loan.pool ∈ w.whereabouts loan.entry.conn := by
  have hmem := (w.loans.get?_eq_some_iff key loan).mp hloan
  exact mem_whereabouts_iff.mpr
    ⟨loan.entry.index, List.mem_append_right _ (List.mem_map.mpr ⟨_, hmem, rfl⟩), rfl⟩

/-- What waits in the queue of a pool waits in that of an open one. -/
theorem Tidy.isOpen_of_idle (htidy : w.Tidy) {id : PoolId}
    (h : .idle id ∈ w.whereabouts conn) : w.isOpen id = true := by
  obtain ⟨index, hmem, -⟩ := mem_whereabouts_iff.mp h
  rw [holdings, List.mem_append, List.mem_append, List.mem_append] at hmem
  rcases hmem with ((hmem | hmem) | hmem) | hmem
  · obtain ⟨pair, -, hmem⟩ := List.mem_flatMap.mp hmem
    have hplace := pair.2.pool?_of_mem_holdings hmem
    cases hplace
  · obtain ⟨⟨pool, other⟩, hpair, hmem⟩ := List.mem_flatMap.mp hmem
    obtain ⟨entry, hentry, heq⟩ := List.mem_map.mp hmem
    rw [Holding.mk.injEq, Place.idle.injEq] at heq
    obtain ⟨rfl, -⟩ := heq
    refine Decidable.byContradiction fun hclosed => ?_
    have hpool : w.pools[other]? = some pool := List.mk_mem_zipIdx_iff_getElem?.mp hpair
    rw [htidy other pool hpool (Bool.eq_false_iff.mpr hclosed)] at hentry
    cases hentry
  · obtain ⟨⟨key, call⟩, -, heq⟩ := List.mem_map.mp hmem
    unfold Call.holding at heq
    split at heq <;> cases heq
  · obtain ⟨⟨key, loan⟩, -, heq⟩ := List.mem_map.mp hmem
    cases heq

/-- What a rule probes is afterwards in the hands of the call that probes it. -/
theorem Effect.probing_of_probe {w' : World} {account : Account} (hw : w.Orderly)
    (h : Effect w action w' account) {label : String}
    (hprobe : .probe label conn ∈ account.events) :
    account.left = none ∧ ∃ key call entry, w'.calls.get? key = some call ∧
      call.phase = .probing entry ∧ entry.conn = conn := by
  cases h with
  | @start key id pool entry taken =>
      simp only [List.mem_singleton, Event.probe.injEq] at hprobe
      exact ⟨rfl, key, _, entry, w.calls.get?_insert_self key _, rfl, hprobe.2.symm⟩
  | @retry key call pool entry cause attemptsLeft next taken =>
      simp only [List.mem_cons, reduceCtorEq, List.not_mem_nil, or_false, false_or,
        Event.probe.injEq] at hprobe
      exact ⟨rfl, key, _, next, (w.calls.erase key).get?_insert_self key _, rfl, hprobe.2.symm⟩
  | finishEmpty hcreation | finish hcreation =>
      obtain ⟨notice, heq, -⟩ := (hw.fresh hcreation).log_of_mem_report hprobe
      cases heq
  | _ => simp at hprobe

/-- What a step probes is afterwards in a place. -/
theorem whereabouts_of_probe (hw : w.Orderly) {label : String}
    (hprobe : .probe label conn ∈ (w.step action).2) :
    (w.step action).1.whereabouts conn ≠ [] := by
  rcases step_cases hw.linked action with
    ⟨hstep, -⟩ | ⟨w', account, heff, ⟨hstep, -⟩ | ⟨left, old, hleft, -, -, hstep⟩⟩
  · rw [hstep] at hprobe
    cases hprobe
  · rw [hstep] at hprobe ⊢
    obtain ⟨-, key, call, entry, hcall, hphase, rfl⟩ := heff.probing_of_probe hw hprobe
    exact List.ne_nil_of_mem (checkout_mem_whereabouts hcall hphase)
  · rw [hstep] at hprobe
    rcases List.mem_append.mp hprobe with hprobe | hprobe
    · obtain ⟨hnone, -⟩ := heff.probing_of_probe hw hprobe
      rw [hnone] at hleft
      cases hleft
    · simp [Pool.closeIdle] at hprobe

/-! ## One place or closed -/

namespace Ledger

variable (h : Ledger w events conns)
include h

theorem count_le_one (conn : Conn) : conns.count conn ≤ 1 := by
  have hissued := h.issued conn
  have hone : World.issued w.dialed conn ≤ 1 := by
    unfold World.issued
    split <;> omega
  omega

/-- As often as a connection was delivered, it is in a place or was closed. -/
theorem length_whereabouts_add (conn : Conn) :
    (w.whereabouts conn).length + events.count (.close conn) = conns.count conn := by
  rw [length_whereabouts]
  exact h.kept conn

/-- A connection that is in a place is in no other, and is not closed. -/
theorem unique {place : Place} (hplace : place ∈ w.whereabouts conn) :
    w.whereabouts conn = [place] ∧ .close conn ∉ events := by
  have hlength := h.length_whereabouts_add conn
  have hone := h.count_le_one conn
  obtain ⟨other, rest, heq⟩ := List.exists_cons_of_ne_nil (List.ne_nil_of_mem hplace)
  rw [heq, List.length_cons] at hlength
  have hrest : rest = [] := List.eq_nil_of_length_eq_zero (by omega)
  have hclosed : events.count (.close conn) = 0 := by omega
  rw [heq, hrest, List.mem_singleton] at hplace
  rw [heq, hrest, hplace]
  exact ⟨rfl, List.count_eq_zero.mp hclosed⟩

/-- A connection that was closed is in no place, and was closed once. -/
theorem closed (hclosed : .close conn ∈ events) :
    w.whereabouts conn = [] ∧ events.count (.close conn) = 1 := by
  have hlength := h.length_whereabouts_add conn
  have hone := h.count_le_one conn
  have hpos := List.count_pos_iff.mpr hclosed
  exact ⟨List.eq_nil_of_length_eq_zero (by omega), by omega⟩

end Ledger

/-- Two loans with one connection are one loan. -/
theorem Ledger.eq_of_loans (h : Ledger w events conns) {key other : Key} {loan loan' : Loan}
    (hloan : w.loans.get? key = some loan) (hloan' : w.loans.get? other = some loan')
    (hconn : loan.entry.conn = loan'.entry.conn) : key = other := by
  have hfirst := (h.unique (loan_mem_whereabouts hloan)).1
  have hsecond := loan_mem_whereabouts hloan'
  rw [← hconn, hfirst, List.mem_singleton, Place.loan.injEq] at hsecond
  exact hsecond.1.symm

/-! ## Every run -/

/-- After every run, each connection that was ever delivered, and none was delivered twice, is in
exactly one place or was closed, once; an idle queue that has it is that of an open pool.  A
connection that was not delivered is nowhere and was not closed.  Whatever follows, a connection
that was closed is never again in any place, nor closed or probed again.  No two loans have the same
connection. -/
theorem custody_after_run (actions : List Action) :
    (delivered {} actions).Nodup ∧
      (∀ conn ∈ delivered {} actions,
        (∃ place, (run {} actions).1.whereabouts conn = [place] ∧
            .close conn ∉ (run {} actions).2 ∧
            ∀ id, place = .idle id → (run {} actions).1.isOpen id = true) ∨
          (run {} actions).1.whereabouts conn = [] ∧
            (run {} actions).2.count (.close conn) = 1) ∧
      (∀ conn, conn ∉ delivered {} actions →
        (run {} actions).1.whereabouts conn = [] ∧ .close conn ∉ (run {} actions).2) ∧
      (∀ conn more, .close conn ∈ (run {} actions).2 →
        (run {} (actions ++ more)).1.whereabouts conn = [] ∧
          ∀ event ∈ ((run {} actions).1.run more).2,
            event ≠ .close conn ∧ ∀ label, event ≠ .probe label conn) ∧
      ∀ key other loan loan', (run {} actions).1.loans.get? key = some loan →
        (run {} actions).1.loans.get? other = some loan' →
        loan.entry.conn = loan'.entry.conn → key = other := by
  -- each connection is in as many places as it was delivered and not closed
  have hledger := ledger_of_run actions
  have htidy := Tidy.initial.run .initial actions
  refine ⟨?_, fun conn hconn => ?_, fun conn hconn => ?_, fun conn more hclosed => ?_, ?_⟩
  · exact List.nodup_iff_count.mpr hledger.count_le_one
  · have hlength := hledger.length_whereabouts_add conn
    have hpos := List.count_pos_iff.mpr hconn
    cases hplaces : (run {} actions).1.whereabouts conn with
    | nil =>
        rw [hplaces, List.length_nil] at hlength
        have hone := hledger.count_le_one conn
        exact Or.inr ⟨rfl, by omega⟩
    | cons place rest =>
        have hmem : place ∈ (run {} actions).1.whereabouts conn := by
          rw [hplaces]
          exact List.mem_cons_self ..
        obtain ⟨honly, hopen⟩ := hledger.unique hmem
        refine Or.inl ⟨place, hplaces ▸ honly, hopen, ?_⟩
        rintro id rfl
        exact htidy.isOpen_of_idle hmem
  · have hlength := hledger.length_whereabouts_add conn
    rw [List.count_eq_zero.mpr hconn] at hlength
    have hclosed : (run {} actions).2.count (.close conn) = 0 := by omega
    exact ⟨List.eq_nil_of_length_eq_zero (by omega), List.count_eq_zero.mp hclosed⟩
  · have hstays (rest : List Action) : .close conn ∈ (run {} (actions ++ rest)).2 := by
      rw [run_append_snd]
      exact List.mem_append_left _ hclosed
    refine ⟨((ledger_of_run (actions ++ more)).closed (hstays more)).1, fun event hevent => ?_⟩
    constructor
    · -- a second closing would make two in the longer run
      rintro rfl
      have honce := ((ledger_of_run (actions ++ more)).closed (hstays more)).2
      have hfirst := List.count_pos_iff.mpr hclosed
      have hagain := List.count_pos_iff.mpr hevent
      rw [run_append_snd, List.count_append] at honce
      omega
    · -- right after the probe the connection would be in a place
      rintro label rfl
      obtain ⟨before, action, after, -, hprobe⟩ := exists_of_mem_run hevent
      have hw := (Orderly.initial.run actions).run before
      refine whereabouts_of_probe hw hprobe ?_
      have hgone := ((ledger_of_run (actions ++ (before ++ [action]))).closed (hstays _)).1
      rwa [run_append_fst, run_append_fst] at hgone
  · intro key other loan loan' hloan hloan' hconn
    exact hledger.eq_of_loans hloan hloan' hconn

/-- After the loan was dropped its connection is nowhere, and stays so when the other one, which is
in one place, is lent in its turn. -/
theorem custody_after_drop :
    ((∃ place, (run {} (lentAndProbed ++ [.drop 1])).1.whereabouts ⟨"a:1", 1⟩ = [place]) ∨
        (run {} (lentAndProbed ++ [.drop 1])).2.count (.close ⟨"a:1", 1⟩) = 1) ∧
      (run {} (lentAndProbed ++ [.drop 1])).1.whereabouts ⟨"a:1", 2⟩ = [] ∧
      (run {} (lentAndProbed ++ [.drop 1] ++ [.settle 2 .success])).1.whereabouts ⟨"a:1", 0⟩ = [] ∧
      ∃ loan, (run {} lentAndProbed).1.loans.get? 1 = some loan ∧
        ∀ key, (run {} lentAndProbed).1.loans.get? key = some loan → key = 1 := by
  obtain ⟨-, hplace, hnowhere, hclosed, -⟩ := custody_after_run (lentAndProbed ++ [.drop 1])
  obtain ⟨-, -, -, -, hloans⟩ := custody_after_run lentAndProbed
  refine ⟨?_, (hnowhere ⟨"a:1", 2⟩ (by decide)).1,
    (hclosed ⟨"a:1", 0⟩ [.settle 2 .success] (by decide)).1, _, rfl, fun key hloan => ?_⟩
  · exact (hplace ⟨"a:1", 1⟩ (by decide)).imp (fun h => ⟨h.choose, h.choose_spec.1⟩) (fun h => h.2)
  · exact hloans key 1 _ _ hloan rfl rfl

end HeartbeatPool.World
