import Mathlib.Algebra.GroupWithZero.Nat
import Mathlib.Algebra.BigOperators.Group.List.Basic
import HeartbeatPool.Table

/-!
# Totals

Numbers that are added up over a list, over a list with its positions, or over a table.  What is
needed of them beyond the sums of lists is what one change of the list or table does to the total,
so that the balance of a step can be read off as an equation between sums.
-/

namespace HeartbeatPool

universe u v

/-! ## Lists -/

section Lists

variable {α : Type u} {β : Type v}

theorem sum_map_flatMap (f : β → Nat) (g : α → List β) (list : List α) :
    ((list.flatMap g).map f).sum = (list.map fun a => ((g a).map f).sum).sum := by
  rw [List.flatMap_def, List.map_flatten, List.sum_flatten, List.map_map, List.map_map]
  rfl

/-- What is filtered out counts for nothing. -/
theorem sum_map_filterMap (f : β → Nat) (g : α → Option β) (list : List α) :
    ((list.filterMap g).map f).sum = (list.map fun a => (g a).elim 0 f).sum := by
  induction list with
  | nil => rfl
  | cons a rest ih => cases h : g a <;> simp [h, ih]

/-- Counting is adding up ones. -/
theorem countP_eq_sum (p : α → Bool) (list : List α) :
    list.countP p = (list.map fun a => if p a then 1 else 0).sum := by
  induction list with
  | nil => rfl
  | cons a rest ih =>
      rw [List.countP_cons, ih, List.map_cons, List.sum_cons]
      omega

/-- One member of a list with positions is replaced. -/
theorem sum_zipIdx_set (f : α × Nat → Nat) {list : List α} {i : Nat} {a : α}
    (h : list[i]? = some a) (b : α) (start : Nat) :
    (((list.set i b).zipIdx start).map f).sum + f (a, start + i) =
      ((list.zipIdx start).map f).sum + f (b, start + i) := by
  induction list generalizing i start with
  | nil => simp at h
  | cons first rest ih =>
      cases i with
      | zero =>
          obtain rfl : first = a := by simpa using h
          simp only [List.set_cons_zero, List.zipIdx_cons, List.map_cons, List.sum_cons,
            Nat.add_zero]
          omega
      | succ i =>
          have hrest := ih (i := i) (by simpa using h) (start + 1)
          have hplace : start + 1 + i = start + (i + 1) := by omega
          rw [hplace] at hrest
          simp only [List.set_cons_succ, List.zipIdx_cons, List.map_cons, List.sum_cons]
          omega

/-- Only one member of a list with positions counts. -/
theorem sum_zipIdx_eq_single {f : α × Nat → Nat} {list : List α} {i : Nat} {a : α}
    (h : list[i]? = some a) (start : Nat) (hzero : ∀ b j, j ≠ start + i → f (b, j) = 0) :
    ((list.zipIdx start).map f).sum = f (a, start + i) := by
  induction list generalizing i start with
  | nil => simp at h
  | cons first rest ih =>
      rw [List.zipIdx_cons, List.map_cons, List.sum_cons]
      cases i with
      | zero =>
          obtain rfl : first = a := by simpa using h
          have hrest : ((rest.zipIdx (start + 1)).map f).sum = 0 := by
            refine List.sum_eq_zero (List.forall_mem_map.mpr fun pair hpair => ?_)
            have hposition := List.le_snd_of_mem_zipIdx hpair
            exact hzero pair.1 pair.2 (by omega)
          rw [hrest, Nat.add_zero, Nat.add_zero]
      | succ i =>
          have hplace : start + 1 + i = start + (i + 1) := by omega
          have hfirst : f (first, start) = 0 := hzero first start (by omega)
          rw [hfirst, Nat.zero_add, ih (by simpa using h) (start + 1) (by rwa [hplace]), hplace]

end Lists

/-! ## Tables -/

namespace Table

variable {κ : Type u} {α : Type v} [DecidableEq κ]

/-- The sum of a number for every pair of a table. -/
def total (g : κ → α → Nat) (table : Table κ α) : Nat :=
  (table.toList.map fun pair => g pair.1 pair.2).sum

private theorem filter_of_not_mem {pairs : List (κ × α)} {key : κ}
    (h : key ∉ pairs.map Prod.fst) : (pairs.filter fun pair => pair.1 ≠ key) = pairs := by
  refine List.filter_eq_self.mpr fun pair hpair => ?_
  simpa using fun e : pair.1 = key => h (e ▸ List.mem_map_of_mem (f := Prod.fst) hpair)

private theorem total_put {pairs : List (κ × α)} (hnodup : (pairs.map Prod.fst).Nodup)
    (g : κ → α → Nat) (key : κ) (value : α) :
    ((put pairs key value).map fun pair => g pair.1 pair.2).sum =
      ((pairs.filter fun pair => pair.1 ≠ key).map fun pair => g pair.1 pair.2).sum +
        g key value := by
  induction pairs with
  | nil => simp [put]
  | cons pair rest ih =>
      rw [List.map_cons, List.nodup_cons] at hnodup
      by_cases h : pair.1 = key
      · rw [put, if_pos h, List.filter_cons_of_neg (by simp [h]),
          filter_of_not_mem (h ▸ hnodup.1), List.map_cons, List.sum_cons, Nat.add_comm]
      · rw [put, if_neg h, List.filter_cons_of_pos (by simp [h]), List.map_cons, List.map_cons,
          List.sum_cons, List.sum_cons, ih hnodup.2]
        omega

private theorem total_filter_ne {pairs : List (κ × α)} (hnodup : (pairs.map Prod.fst).Nodup)
    (g : κ → α → Nat) (key : κ) :
    ((pairs.filter fun pair => pair.1 ≠ key).map fun pair => g pair.1 pair.2).sum +
        (find pairs key).elim 0 (g key) =
      (pairs.map fun pair => g pair.1 pair.2).sum := by
  induction pairs with
  | nil => rfl
  | cons pair rest ih =>
      rw [List.map_cons, List.nodup_cons] at hnodup
      by_cases h : pair.1 = key
      · rw [List.filter_cons_of_neg (by simp [h]), filter_of_not_mem (h ▸ hnodup.1), find,
          if_pos h, Option.elim_some, List.map_cons, List.sum_cons, h]
        omega
      · have hrest := ih hnodup.2
        rw [List.filter_cons_of_pos (by simp [h]), find, if_neg h, List.map_cons, List.map_cons,
          List.sum_cons, List.sum_cons]
        omega

/-- A key that is forgotten takes its number with it. -/
theorem total_erase (g : κ → α → Nat) {table : Table κ α} {key : κ} {value : α}
    (h : table.get? key = some value) :
    (table.erase key).total g + g key value = table.total g := by
  have hfilter := total_filter_ne table.nodup g key
  have hfind : find table.toList key = some value := h
  rw [hfind, Option.elim_some] at hfilter
  exact hfilter

/-- A new key adds its number. -/
theorem total_insert_new (g : κ → α → Nat) {table : Table κ α} {key : κ}
    (h : table.get? key = none) (value : α) :
    (table.insert key value).total g = table.total g + g key value := by
  have hput := total_put table.nodup g key value
  have hfilter := filter_of_not_mem ((find_eq_none_iff table.toList key).mp h)
  rw [hfilter] at hput
  exact hput

/-- A key with a new value exchanges its numbers. -/
theorem total_insert_old (g : κ → α → Nat) {table : Table κ α} {key : κ} {old : α}
    (h : table.get? key = some old) (value : α) :
    (table.insert key value).total g + g key old = table.total g + g key value := by
  have hput : (table.insert key value).total g = (table.erase key).total g + g key value :=
    total_put table.nodup g key value
  have herase := total_erase g h
  omega

end Table

end HeartbeatPool
