import Mathlib.Data.List.Nodup
import HeartbeatPool.Proofs.Completion

/-!
# What the building of a registry leaves alone

The pools of a registry are created side by side.  While they are, the world is left alone but for
the creations under way and the pools that are ready: `Apart` says so for some keys and some pools.
Each move of a creation takes its key from one list, or its pool into the other, and giving up a
member takes it out.

If neither is left, no new creation is under way and every new pool has an empty queue.  So whatever
was established in the meantime is not there any more, and by the ledger it was closed
(`Apart.closed_of_delivered`).
-/

namespace HeartbeatPool.Session

variable {s₀ s s' : Session} {plan : Plan} {key : Key} {keys : List Key} {id : Nat}
  {ids : List Nat}

/-! ## What a build leaves alone -/

/-- One session comes from another by moves of creations, with some creations under way and some
new pools that are ready; all other new pools are closed. -/
structure Apart (s₀ s : Session) (keys : List Key) (ids : List Nat) : Prop where
  calls : s.world.calls = s₀.world.calls
  loans : s.world.loans = s₀.world.loans
  others : ∀ key, key ∉ keys → s.world.creations.get? key = s₀.world.creations.get? key
  own : ∀ key ∈ keys, s₀.world.creations.get? key = none ∧ key < s.nextKey
  distinctKeys : keys.Nodup
  unused : ∀ key, s.nextKey ≤ key → s.world.creations.get? key = none
  old : ∀ id, id < s₀.world.pools.length → s.world.pools[id]? = s₀.world.pools[id]?
  closed : ∀ id pool, s₀.world.pools.length ≤ id → s.world.pools[id]? = some pool → id ∉ ids →
    pool.idle = []
  new : ∀ id ∈ ids, s₀.world.pools.length ≤ id ∧ id < s.world.pools.length
  distinctIds : ids.Nodup
  held : s.world.held.Perm (s₀.world.held ++ ids)
  growing : s₀.world.pools.length ≤ s.world.pools.length
  runs : Runs s₀ s

namespace Apart

theorem refl (hunused : ∀ key, s.nextKey ≤ key → s.world.creations.get? key = none) :
    Apart s s [] [] where
  calls := rfl
  loans := rfl
  others _ _ := rfl
  own := nofun
  distinctKeys := .nil
  unused := hunused
  old _ _ := rfl
  closed id pool hid hpool _ := by
    rw [List.getElem?_eq_none hid] at hpool
    cases hpool
  new := nofun
  distinctIds := .nil
  held := by rw [List.append_nil]
  growing := Nat.le_refl _
  runs := .refl s

theorem perm (h : Apart s₀ s keys ids) {keys' : List Key} {ids' : List Nat}
    (hkeys : keys.Perm keys') (hids : ids.Perm ids') : Apart s₀ s keys' ids' where
  calls := h.calls
  loans := h.loans
  others key hkey := h.others key fun hmem => hkey (hkeys.mem_iff.mp hmem)
  own key hkey := h.own key (hkeys.mem_iff.mpr hkey)
  distinctKeys := hkeys.nodup h.distinctKeys
  unused := h.unused
  old := h.old
  closed id pool hid hpool hmem :=
    h.closed id pool hid hpool fun hmem' => hmem (hids.mem_iff.mp hmem')
  new id hid := h.new id (hids.mem_iff.mpr hid)
  distinctIds := hids.nodup h.distinctIds
  held := h.held.trans (hids.append_left _)
  growing := h.growing
  runs := h.runs

/-- A key is given out for a creation. -/
theorem freshKey (h : Apart s₀ s keys ids) :
    Apart s₀ s.freshKey.2 (s.nextKey :: keys) ids := by
  have hnew : s.nextKey ∉ keys := fun hmem => Nat.lt_irrefl _ (h.own _ hmem).2
  have hnone := h.unused s.nextKey (Nat.le_refl _)
  exact
    { h with
      others := fun key hkey => h.others key fun hmem => hkey (List.mem_cons_of_mem _ hmem)
      own := fun key hkey => by
        rcases List.mem_cons.mp hkey with rfl | hkey
        · exact ⟨(h.others _ hnew).symm.trans hnone, Nat.lt_succ_self _⟩
        · exact ⟨(h.own key hkey).1, Nat.lt_succ_of_lt (h.own key hkey).2⟩
      distinctKeys := List.nodup_cons.mpr ⟨hnew, h.distinctKeys⟩
      unused := fun key hkey => h.unused key (Nat.le_of_succ_le hkey) }

/-- A creation goes on. -/
theorem tends (h : Apart s₀ s (key :: keys) ids) (htends : Tends key s s') :
    Apart s₀ s' (key :: keys) ids where
  calls := htends.calls.trans h.calls
  loans := htends.loans.trans h.loans
  others other hother :=
    (htends.creations other fun heq => hother (heq ▸ List.mem_cons_self ..)).trans
      (h.others other hother)
  own other hother := by
    rw [htends.nextKey]
    exact h.own other hother
  distinctKeys := h.distinctKeys
  unused other hother := by
    rw [htends.nextKey] at hother
    have hlt := (h.own key (List.mem_cons_self ..)).2
    rw [htends.creations other (Nat.ne_of_gt (Nat.lt_of_lt_of_le hlt hother))]
    exact h.unused other hother
  old := by
    rw [htends.pools]
    exact h.old
  closed := by
    rw [htends.pools]
    exact h.closed
  new := by
    rw [htends.pools]
    exact h.new
  distinctIds := h.distinctIds
  held := by
    rw [htends.held]
    exact h.held
  growing := by
    rw [htends.pools]
    exact h.growing
  runs := h.runs.trans htends.runs

/-- A creation ends, with a pool or without. -/
theorem finishes {new : List Pool} (h : Apart s₀ s (key :: keys) ids)
    (hfinishes : Finishes key new s s') :
    Apart s₀ s' keys (ids ++ List.range' s.world.pools.length new.length) where
  calls := hfinishes.calls.trans h.calls
  loans := hfinishes.loans.trans h.loans
  others other hother := by
    by_cases heq : other = key
    · rw [heq, hfinishes.gone, (h.own key (List.mem_cons_self ..)).1]
    · rw [hfinishes.creations other heq]
      exact h.others other fun hmem => hother ((List.mem_cons.mp hmem).resolve_left heq)
  own other hother := by
    rw [hfinishes.nextKey]
    exact h.own other (List.mem_cons_of_mem _ hother)
  distinctKeys := (List.nodup_cons.mp h.distinctKeys).2
  unused other hother := by
    -- the key of the creation was given out, so it is smaller than all that are not
    rw [hfinishes.nextKey] at hother
    have hlt := (h.own key (List.mem_cons_self ..)).2
    rw [hfinishes.creations other (Nat.ne_of_gt (Nat.lt_of_lt_of_le hlt hother))]
    exact h.unused other hother
  old id hid := by
    rw [hfinishes.pools, List.getElem?_append_left (Nat.lt_of_lt_of_le hid h.growing)]
    exact h.old id hid
  closed id pool hid hpool hnew := by
    rw [List.mem_append, not_or, List.mem_range'_1] at hnew
    have hlt := (List.getElem?_eq_some_iff.mp hpool).1
    rw [hfinishes.pools, List.length_append] at hlt
    -- the new pools are held, so a pool that is not was there before
    have hold : id < s.world.pools.length := by omega
    rw [hfinishes.pools, List.getElem?_append_left hold] at hpool
    exact h.closed id pool hid hpool hnew.1
  new id hid := by
    have hgrowing := h.growing
    rw [hfinishes.pools, List.length_append]
    rcases List.mem_append.mp hid with hid | hid
    · have hbounds := h.new id hid
      omega
    · have hbounds := List.mem_range'_1.mp hid
      omega
  distinctIds := by
    refine List.nodup_append.mpr ⟨h.distinctIds, List.nodup_range', fun id hid other hother => ?_⟩
    -- the new pools come behind all that were there
    have hlt := (h.new id hid).2
    have hle := (List.mem_range'_1.mp hother).1
    omega
  held := by
    rw [hfinishes.held, ← List.append_assoc]
    exact h.held.append_right _
  growing := by
    rw [hfinishes.pools, List.length_append]
    exact Nat.le_trans h.growing (Nat.le_add_right ..)
  runs := h.runs.trans hfinishes.runs

/-! ### What is given up -/

/-- After a creation was given up there is none under its key. -/
theorem act_abandon (s : Session) (key : Key) :
    ∃ creations, (s.act (.abandon key)).world = { s.world with creations := creations } ∧
      ∀ other, creations.get? other =
        if key = other then none else s.world.creations.get? other := by
  cases hcreation : s.world.creations.get? key with
  | none =>
      refine ⟨s.world.creations, ?_, fun other => ?_⟩
      · simp [act, World.step, World.abandon, hcreation]
      · split
        · next heq => rw [← heq, hcreation]
        · rfl
  | some creation =>
      refine ⟨s.world.creations.erase key, ?_, Table.get?_erase _ _⟩
      simp [act, World.step, World.abandon, hcreation]

/-- A creation under way is given up. -/
theorem abandon (h : Apart s₀ s (key :: keys) ids) :
    Apart s₀ (s.act (.abandon key)) keys ids := by
  have hruns := h.runs.trans (.act s (.abandon key))
  have hkey : (s.act (.abandon key)).nextKey = s.nextKey := rfl
  obtain ⟨creations, hworld, hcreations⟩ := act_abandon s key
  generalize s.act (.abandon key) = s' at hruns hkey hworld ⊢
  exact
    { calls := by rw [hworld]; exact h.calls
      loans := by rw [hworld]; exact h.loans
      others := fun other hother => by
        rw [hworld]
        refine (hcreations other).trans ?_
        split
        · next heq => rw [← heq, (h.own key (List.mem_cons_self ..)).1]
        · next hne =>
            exact h.others other fun hmem =>
              hother ((List.mem_cons.mp hmem).resolve_left fun heq => hne heq.symm)
      own := fun other hother => by
        rw [hkey]
        exact h.own other (List.mem_cons_of_mem _ hother)
      distinctKeys := (List.nodup_cons.mp h.distinctKeys).2
      unused := fun other hother => by
        rw [hkey] at hother
        rw [hworld]
        refine (hcreations other).trans ?_
        split
        · rfl
        · exact h.unused other hother
      old := by rw [hworld]; exact h.old
      closed := by rw [hworld]; exact h.closed
      new := by rw [hworld]; exact h.new
      distinctIds := h.distinctIds
      held := by rw [hworld]; exact h.held
      growing := by rw [hworld]; exact h.growing
      runs := hruns }

/-- A pool that is ready is in use by nobody but its holder. -/
theorem act_letGo (hlinked : s₀.world.Linked) (h : Apart s₀ s keys (id :: ids)) :
    ∃ pool, s.world.pools[id]? = some pool ∧
      (s.act (.letGo id)).world =
        { s.world with
          held := s.world.held.erase id
          pools := s.world.pools.set id pool.closeIdle.1 } := by
  have hself : id ∉ ids := (List.nodup_cons.mp h.distinctIds).1
  obtain ⟨hnew, hlt⟩ := h.new id (List.mem_cons_self ..)
  have hcount : s.world.held.count id = 1 := by
    have hold : id ∉ s₀.world.held := fun hmem => Nat.not_lt.mpr hnew (hlinked.held_pool hmem)
    rw [h.held.count_eq, List.count_append, List.count_eq_zero_of_not_mem hold,
      List.count_cons_self, List.count_eq_zero_of_not_mem hself]
  have hleft : id ∉ s.world.held.erase id := by
    rw [← List.count_eq_zero, List.count_erase_self, hcount]
  have hfree : World.isBusy { s.world with held := s.world.held.erase id } id = false := by
    rw [← Bool.not_eq_true, World.isBusy_iff]
    rintro ⟨other, call, hcall, hid⟩
    rw [h.calls] at hcall
    have hcallLt := hlinked.call_pool hcall
    rw [hid] at hcallLt
    exact Nat.not_lt.mpr hnew hcallLt
  have hpool := List.getElem?_eq_getElem hlt
  refine ⟨_, hpool, ?_⟩
  simp [act, World.step, World.letGo, World.reap, hleft, hfree, hpool, World.setPool]

/-- A pool that is ready is given up: nobody uses it, so its connections are closed. -/
theorem letGo (hlinked : s₀.world.Linked) (h : Apart s₀ s keys (id :: ids)) :
    Apart s₀ (s.act (.letGo id)) keys ids := by
  have hruns := h.runs.trans (.act s (.letGo id))
  have hkey : (s.act (.letGo id)).nextKey = s.nextKey := rfl
  have hself : id ∉ ids := (List.nodup_cons.mp h.distinctIds).1
  obtain ⟨hnew, hlt⟩ := h.new id (List.mem_cons_self ..)
  obtain ⟨pool, hpool, hworld⟩ := act_letGo hlinked h
  generalize s.act (.letGo id) = s' at hruns hkey hworld ⊢
  exact
    { calls := by rw [hworld]; exact h.calls
      loans := by rw [hworld]; exact h.loans
      others := by rw [hworld]; exact h.others
      own := by rw [hkey]; exact h.own
      distinctKeys := h.distinctKeys
      unused := by rw [hkey, hworld]; exact h.unused
      old := fun other hother => by
        rw [hworld, List.getElem?_set_ne (Nat.ne_of_gt (Nat.lt_of_lt_of_le hother hnew))]
        exact h.old other hother
      closed := fun other pool' hother hpool' hmem => by
        rw [hworld] at hpool'
        by_cases heq : id = other
        · subst heq
          rw [List.getElem?_set_self hlt] at hpool'
          cases hpool'
          rfl
        · rw [List.getElem?_set_ne heq] at hpool'
          exact h.closed other pool' hother hpool' fun hmem' =>
            hmem ((List.mem_cons.mp hmem').resolve_left fun h => heq h.symm)
      new := fun other hother => by
        rw [hworld, List.length_set]
        exact h.new other (List.mem_cons_of_mem _ hother)
      distinctIds := (List.nodup_cons.mp h.distinctIds).2
      held := by
        -- what was there before is not among the pools of the members
        have hold : id ∉ s₀.world.held := fun hmem => Nat.not_lt.mpr hnew (hlinked.held_pool hmem)
        have herased := h.held.erase id
        rw [List.erase_append_right _ hold, List.erase_cons_head] at herased
        rw [hworld]
        exact herased
      growing := by rw [hworld, List.length_set]; exact h.growing
      runs := hruns }

end Apart

/-! ### What is left of a build that was given up -/

/-- Two tables in which the same is found have the same pairs. -/
theorem perm_of_get?_eq {α : Type} {table table' : Table Key α}
    (h : ∀ key, table.get? key = table'.get? key) : table.toList.Perm table'.toList := by
  refine (List.perm_ext_iff_of_nodup ?_ ?_).mpr fun ⟨key, value⟩ => ?_
  · exact List.Nodup.of_map Prod.fst table.nodup
  · exact List.Nodup.of_map Prod.fst table'.nodup
  · rw [← Table.get?_eq_some_iff, h key, Table.get?_eq_some_iff]

namespace Apart

/-- Once everything was given up, what is held is what was held before. -/
theorem holdings_perm (h : Apart s₀ s [] []) : s.world.holdings.Perm s₀.world.holdings := by
  have hcreations := perm_of_get?_eq fun key => h.others key List.not_mem_nil
  have htake : s.world.pools.take s₀.world.pools.length = s₀.world.pools := by
    refine List.ext_getElem? fun id => ?_
    rw [List.getElem?_take]
    split
    · next hid => exact h.old id hid
    · next hid => rw [List.getElem?_eq_none (Nat.not_lt.mp hid)]
  have hnew : ∀ pair ∈ (s.world.pools.drop s₀.world.pools.length).zipIdx
      s₀.world.pools.length, pair.1.holdings pair.2 = [] := by
    intro ⟨pool, id⟩ hpair
    obtain ⟨hle, hpool⟩ := List.mk_mem_zipIdx_iff_le_and_getElem?_sub.mp hpair
    rw [List.getElem?_drop, Nat.add_sub_cancel' hle] at hpool
    simp [Pool.holdings, h.closed id pool hle hpool List.not_mem_nil]
  have hpools : (s.world.pools.zipIdx.flatMap fun pair => pair.1.holdings pair.2) =
      s₀.world.pools.zipIdx.flatMap fun pair => pair.1.holdings pair.2 := by
    have hempty := List.flatMap_eq_nil_iff.mpr hnew
    rw [← List.take_append_drop s₀.world.pools.length s.world.pools, htake, List.zipIdx_append,
      List.flatMap_append, Nat.zero_add, hempty, List.append_nil]
  unfold World.holdings
  rw [h.calls, h.loans, hpools]
  exact (((hcreations.flatMap_right _).append_right _).append_right _).append_right _

/-- Every connection that was delivered until everything was given up is closed. -/
theorem closed_of_delivered {actions₀ actions : List World.Action}
    (hstart : s₀.world = (World.run {} actions₀).1) (h : Apart s₀ s [] [])
    (hworld : s.world = (s₀.world.run actions).1) {conn : Conn}
    (hconn : conn ∈ s₀.world.delivered actions) :
    .close conn ∈ (s₀.world.run actions).2 ∧ s.world.whereabouts conn = [] := by
  have hbefore := World.ledger_of_run actions₀
  have horderly := World.Orderly.initial.run actions₀
  rw [← hstart] at hbefore horderly
  have hafter := hbefore.run horderly actions
  rw [← hworld] at hafter
  have hone := hafter.count_le_one conn
  have hpos := List.count_pos_iff.mpr hconn
  have hkept := hbefore.kept conn
  have hkept' := hafter.kept conn
  have hsame : s.world.count (Holding.has conn) = s₀.world.count (Holding.has conn) :=
    h.holdings_perm.countP_eq _
  simp only [List.count_append] at hone hkept'
  refine ⟨List.count_pos_iff.mp (by omega), List.eq_nil_of_length_eq_zero ?_⟩
  rw [World.length_whereabouts]
  omega

end Apart

end HeartbeatPool.Session
