import HeartbeatPool.Proofs.Course
import HeartbeatPool.Proofs.Truncation

/-!
# Trials

If nobody else does anything, what a call comes to can be read off the outcomes in advance: the idle
connections are tried in order, and the first attempt that succeeds is the last.  A `Trial` is one
attempt with its two outcomes, and `Foretells` says that a script has some trials in store for some
connections.

Main statement: `exists_foretells`, by which any trials within the limits of a pool may be in store.
-/

namespace HeartbeatPool

/-! ## Trials -/

/-- How an attempt comes out: the heartbeat of the connection and, if that fails, the dial that is
to replace it, each with the time that it takes. -/
structure Trial where
  probe : Nat × Verdict
  dial : Nat × Verdict
  deriving DecidableEq

namespace Trial

/-- Whether an attempt ends with a connection. -/
def succeeds (trial : Trial) : Bool := trial.probe.2 = .success || trial.dial.2 = .success

/-- The time that an attempt takes. -/
def duration (trial : Trial) : Nat :=
  match trial.probe.2 with
  | .success => trial.probe.1
  | .failure _ => trial.probe.1 + trial.dial.1

/-- What is seen of a connection that fails its heartbeat, from the probe up to the dial. -/
def replacing (pool : Pool) (entry : Entry) (cause : String) : List Event :=
  [.probe pool.label entry.conn, .log (.heartbeatFailed (pool.address entry.index) cause),
    .close entry.conn, .dial (pool.endpoint entry.index)]

/-- What is seen of an attempt. -/
def events (pool : Pool) (entry : Entry) (trial : Trial) : List Event :=
  match trial.probe.2, trial.dial.2 with
  | .success, _ => [.probe pool.label entry.conn]
  | .failure cause, .success =>
      replacing pool entry cause ++
        [.log (.established (pool.address entry.index)),
          .log (.reestablished (pool.address entry.index))]
  | .failure cause, .failure dialCause =>
      replacing pool entry cause ++
        [.log (.redialFailed (pool.address entry.index) dialCause pool.name)]

variable {pool : Pool} {entry : Entry} {trial : Trial} {cause dialCause : String}

theorem events_of_sound (hprobe : trial.probe.2 = .success) :
    trial.events pool entry = [.probe pool.label entry.conn] := by
  rw [events, hprobe]

theorem events_of_replaced (hprobe : trial.probe.2 = .failure cause)
    (hdial : trial.dial.2 = .success) :
    trial.events pool entry = replacing pool entry cause ++
      [.log (.established (pool.address entry.index)),
        .log (.reestablished (pool.address entry.index))] := by
  rw [events, hprobe, hdial]

theorem events_of_lost (hprobe : trial.probe.2 = .failure cause)
    (hdial : trial.dial.2 = .failure dialCause) :
    trial.events pool entry = replacing pool entry cause ++
      [.log (.redialFailed (pool.address entry.index) dialCause pool.name)] := by
  rw [events, hprobe, hdial]

theorem duration_of_sound (hprobe : trial.probe.2 = .success) :
    trial.duration = trial.probe.1 := by
  rw [duration, hprobe]

theorem duration_of_failed (hprobe : trial.probe.2 = .failure cause) :
    trial.duration = trial.probe.1 + trial.dial.1 := by
  rw [duration, hprobe]

theorem failed_of_lost (hlost : trial.succeeds = false) :
    trial.probe.2 ≠ .success ∧ trial.dial.2 ≠ .success := by
  rwa [succeeds, Bool.or_eq_false_iff, decide_eq_false_iff_not, decide_eq_false_iff_not] at hlost

/-- A connection that fails its heartbeat is closed. -/
theorem close_mem_events (hfailed : trial.probe.2 ≠ .success) :
    .close entry.conn ∈ trial.events pool entry := by
  cases hprobe : trial.probe.2 with
  | success => exact absurd hprobe hfailed
  | failure cause =>
      cases hdial : trial.dial.2 with
      | success => simp [events_of_replaced hprobe hdial, replacing]
      | failure dialCause => simp [events_of_lost hprobe hdial, replacing]

end Trial

/-- The outcomes in store for some idle connections of a pool are those of some trials, cut off at
the limits of the pool.  What would come after a success does not matter. -/
def Foretells (pool : Pool) (marks : Table Conn Mark) : Script → List Entry → List Trial → Prop
  | script, entry :: rest, trial :: later =>
      let probe := script.probe marks entry.conn
      probe.1.truncated pool.settings.heartbeatTimeout =
          .settles trial.probe.1 trial.probe.2 ∧
        (trial.probe.2 ≠ .success →
          let dial := probe.2.takeDial (pool.address entry.index)
          dial.1.truncated pool.settings.dialTimeout = .settles trial.dial.1 trial.dial.2 ∧
            (trial.dial.2 ≠ .success → Foretells pool marks dial.2 rest later))
  | _, [], [] => True
  | _, _, _ => False

/-- What is seen of some attempts, one after the other. -/
def eventsOf (pool : Pool) (attempts : List (Entry × Trial)) : List Event :=
  attempts.flatMap fun attempt => attempt.2.events pool attempt.1

/-- The time that some attempts take together. -/
def durationOf (attempts : List (Entry × Trial)) : Nat :=
  (attempts.map fun attempt => attempt.2.duration).sum

theorem eventsOf_snoc (pool : Pool) (attempts : List (Entry × Trial)) (entry : Entry)
    (trial : Trial) :
    eventsOf pool (attempts ++ [(entry, trial)]) =
      eventsOf pool attempts ++ trial.events pool entry := by
  simp [eventsOf]

theorem durationOf_snoc (attempts : List (Entry × Trial)) (entry : Entry) (trial : Trial) :
    durationOf (attempts ++ [(entry, trial)]) = durationOf attempts + trial.duration := by
  simp [durationOf]

/-- Attempts without success close their connections. -/
theorem close_mem_eventsOf {pool : Pool} {attempts : List (Entry × Trial)}
    (hlost : ∀ attempt ∈ attempts, attempt.2.succeeds = false) {attempt : Entry × Trial}
    (hmem : attempt ∈ attempts) : .close attempt.1.conn ∈ eventsOf pool attempts :=
  List.mem_flatMap.mpr
    ⟨attempt, hmem, Trial.close_mem_events (Trial.failed_of_lost (hlost attempt hmem)).1⟩

/-- The attempts of a pool fall into those that are done, all without success, one that goes on, and
those that may follow. -/
structure Split (pool : Pool) (trials : List Trial) (done : List (Entry × Trial)) (entry : Entry)
    (rest : List Entry) (trial : Trial) (later : List Trial) : Prop where
  idle : pool.idle = done.map Prod.fst ++ entry :: rest
  trials : trials = done.map Prod.snd ++ trial :: later
  lost : ∀ attempt ∈ done, attempt.2.succeeds = false

theorem findIdx_of_lost {done : List (Entry × Trial)}
    (hlost : ∀ attempt ∈ done, attempt.2.succeeds = false) (later : List Trial) :
    (done.map Prod.snd ++ later).findIdx Trial.succeeds =
      done.length + later.findIdx Trial.succeeds := by
  induction done with
  | nil => simp
  | cons attempt done ih =>
      have hrest := ih fun other hmem => hlost other (List.mem_cons_of_mem _ hmem)
      have hfirst := hlost attempt List.mem_cons_self
      simp only [List.map_cons, List.cons_append, List.findIdx_cons, hfirst, hrest,
        List.length_cons, cond_false]
      omega

namespace Split

variable {pool : Pool} {trials : List Trial} {done : List (Entry × Trial)} {entry : Entry}
  {rest : List Entry} {trial : Trial} {later : List Trial}
  (h : Split pool trials done entry rest trial later)
include h

/-- If the attempt that goes on succeeds, it is the first to do so. -/
theorem findIdx_eq (hsucceeds : trial.succeeds = true) :
    trials.findIdx Trial.succeeds = done.length := by
  rw [h.trials, findIdx_of_lost h.lost, List.findIdx_cons, hsucceeds]
  rfl

theorem take_zip : (pool.idle.zip trials).take (done.length + 1) = done ++ [(entry, trial)] := by
  have hzip : pool.idle.zip trials = done ++ (entry, trial) :: rest.zip later := by
    rw [h.idle, h.trials, List.zip_append (by simp), List.zip_map']
    simp
  rw [hzip, List.take_length_add_append]
  rfl

theorem drop_idle : pool.idle.drop (done.length + 1) = rest := by
  rw [h.idle, ← List.drop_drop, List.drop_left' (by simp)]
  rfl

end Split

/-! ## Any trials may be in store -/

namespace Script

variable {script other : Script}

/-- Scripts with the same outcomes for every address. -/
structure Alike (script other : Script) : Prop where
  ahead : script.ahead = other.ahead
  dials : ∀ address, (script.dials.get? address).getD {} = (other.dials.get? address).getD {}
  probes : ∀ address, (script.probes.get? address).getD {} = (other.probes.get? address).getD {}

theorem getD_get?_insert (lanes : Table String Lane) (address other : String) (lane : Lane) :
    ((lanes.insert address lane).get? other).getD {} =
      if address = other then lane else (lanes.get? other).getD {} := by
  rw [Table.get?_insert]
  split <;> rfl

theorem Alike.takeDial (h : script.Alike other) (address : String) :
    (script.takeDial address).1 = (other.takeDial address).1 ∧
      (script.takeDial address).2.Alike (other.takeDial address).2 := by
  have hahead := h.ahead
  cases hother : other.ahead with
  | nil =>
      rw [hother] at hahead
      simp only [Script.takeDial, hahead, hother, h.dials address, true_and]
      refine ⟨rfl, fun address' => ?_, h.probes⟩
      rw [getD_get?_insert, getD_get?_insert, h.dials]
  | cons outcome rest =>
      rw [hother] at hahead
      simp only [Script.takeDial, hahead, hother, true_and]
      exact ⟨rfl, h.dials, h.probes⟩

theorem Alike.takeProbe (h : script.Alike other) (address : String) :
    (script.takeProbe address).1 = (other.takeProbe address).1 ∧
      (script.takeProbe address).2.Alike (other.takeProbe address).2 := by
  simp only [Script.takeProbe, h.probes address, true_and]
  refine ⟨h.ahead, h.dials, fun address' => ?_⟩
  rw [getD_get?_insert, getD_get?_insert, h.probes]

theorem Alike.probe (h : script.Alike other) (marks : Table Conn Mark) (conn : Conn) :
    (script.probe marks conn).1 = (other.probe marks conn).1 ∧
      (script.probe marks conn).2.Alike (other.probe marks conn).2 := by
  unfold Script.probe
  split
  · exact ⟨rfl, h⟩
  · exact h.takeProbe _

/-- One outcome more for the next dial. -/
def withDial (script : Script) (outcome : Outcome) : Script :=
  { script with ahead := outcome :: script.ahead }

/-- One outcome more for the next heartbeat of a connection to an address. -/
def withProbe (script : Script) (address : String) (outcome : Outcome) : Script :=
  let lane := (script.probes.get? address).getD {}
  { script with
    probes := script.probes.insert address { lane with queue := outcome :: lane.queue } }

theorem takeProbe_withProbe (script : Script) (address : String) (outcome : Outcome) :
    ((script.withProbe address outcome).takeProbe address).1 = outcome ∧
      script.Alike ((script.withProbe address outcome).takeProbe address).2 := by
  simp only [takeProbe, withProbe, Table.get?_insert_self, Option.getD_some, Lane.take, true_and]
  refine ⟨rfl, fun _ => rfl, fun other => ?_⟩
  rw [getD_get?_insert]
  split
  · next heq => rw [heq]
  · next hne => rw [getD_get?_insert, if_neg hne]

end Script

theorem Foretells.congr {pool : Pool} {marks : Table Conn Mark} {script other : Script}
    {idle : List Entry} {trials : List Trial} (halike : script.Alike other)
    (h : Foretells pool marks script idle trials) : Foretells pool marks other idle trials := by
  induction idle generalizing script other trials with
  | nil =>
      cases trials with
      | nil => trivial
      | cons => exact h.elim
  | cons entry rest ih =>
      cases trials with
      | nil => exact h.elim
      | cons trial later =>
          obtain ⟨hprobe, hprobed⟩ := halike.probe marks entry.conn
          obtain ⟨hdial, hdialed⟩ := hprobed.takeDial (pool.address entry.index)
          obtain ⟨hanswer, hahead⟩ := h
          refine ⟨hprobe ▸ hanswer, fun hfailed => ?_⟩
          obtain ⟨hanswer', hlater⟩ := hahead hfailed
          exact ⟨hdial ▸ hanswer', fun hlost => ih hdialed (hlater hlost)⟩

/-- A trial that is within the limits of a pool.  What is marked as sick fails its heartbeat at
once. -/
structure Trial.Fits (pool : Pool) (marks : Table Conn Mark) (entry : Entry) (trial : Trial) :
    Prop where
  probe : (Outcome.settles trial.probe.1 trial.probe.2).truncated pool.settings.heartbeatTimeout =
    .settles trial.probe.1 trial.probe.2
  dial : (Outcome.settles trial.dial.1 trial.dial.2).truncated pool.settings.dialTimeout =
    .settles trial.dial.1 trial.dial.2
  sick : ((marks.get? entry.conn).getD {}).sick = true → trial.probe = (0, .failure "sick")

/-- Any trials within the limits may be in store. -/
theorem exists_foretells {pool : Pool} {marks : Table Conn Mark} {idle : List Entry}
    {trials : List Trial} (hfits : List.Forall₂ (Trial.Fits pool marks) idle trials) :
    ∃ script, Foretells pool marks script idle trials := by
  induction hfits with
  | nil => exact ⟨{}, trivial⟩
  | @cons entry trial rest later hfit _ ih =>
      obtain ⟨script, hlater⟩ := ih
      let dialed := script.withDial (.settles trial.dial.1 trial.dial.2)
      cases hsick : ((marks.get? entry.conn).getD {}).sick with
      | true =>
          have hprobe : dialed.probe marks entry.conn = (.settles 0 (.failure "sick"), dialed) :=
            if_pos hsick
          refine ⟨dialed, ?_, fun _ => ?_⟩
          · rw [hprobe, hfit.sick hsick, Outcome.truncated_settles_zero]
          · rw [hprobe]
            exact ⟨hfit.dial, fun _ => hlater⟩
      | false =>
          let probed :=
            dialed.withProbe entry.conn.address (.settles trial.probe.1 trial.probe.2)
          have hprobe : probed.probe marks entry.conn = probed.takeProbe entry.conn.address :=
            if_neg (by simp [hsick])
          obtain ⟨hanswer, halike⟩ := dialed.takeProbe_withProbe entry.conn.address
            (.settles trial.probe.1 trial.probe.2)
          obtain ⟨hdial, hrest⟩ := halike.takeDial (pool.address entry.index)
          refine ⟨probed, ?_, fun _ => ?_⟩
          · rw [hprobe, hanswer]
            exact hfit.probe
          · rw [hprobe]
            exact ⟨hdial ▸ hfit.dial, fun _ => hlater.congr hrest⟩

end HeartbeatPool
