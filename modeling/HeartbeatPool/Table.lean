/-!
# Keyed tables

A small finite map that keeps its keys in the order of their first insertion.  It is used where a
handful of things are known by name, and where the answers depend on an order that a hash table
would not keep.

Main statements: `get?_eq_some_iff` says that a look-up finds exactly the pairs of the table, and
`get?_insert` and `get?_erase` say what it finds after a change.
-/

namespace HeartbeatPool

universe u v

/-- A finite map from keys to values, in order of insertion. -/
structure Table (κ : Type u) (α : Type v) where
  /-- The pairs of the table. -/
  toList : List (κ × α)
  /-- No key comes twice. -/
  nodup : (toList.map Prod.fst).Nodup
  deriving Repr

namespace Table

variable {κ : Type u} {α : Type v}

/-- The table without entries. -/
def empty : Table κ α := ⟨[], .nil⟩

instance : EmptyCollection (Table κ α) := ⟨empty⟩

instance : Inhabited (Table κ α) := ⟨empty⟩

/-- The keys, in order. -/
def keys (table : Table κ α) : List κ := table.toList.map Prod.fst

/-- The values, in order of their keys. -/
def values (table : Table κ α) : List α := table.toList.map Prod.snd

variable [DecidableEq κ]

/-! ## Lists of pairs -/

/-- The value of a key in a list of pairs: that of the first pair with the key. -/
def find : List (κ × α) → κ → Option α
  | [], _ => none
  | pair :: rest, key => if pair.1 = key then some pair.2 else find rest key

/-- Gives a key a value in a list of pairs: in its old place, or else at the end. -/
def put : List (κ × α) → κ → α → List (κ × α)
  | [], key, value => [(key, value)]
  | pair :: rest, key, value =>
      if pair.1 = key then (key, value) :: rest else pair :: put rest key value

theorem find_eq_none_iff (pairs : List (κ × α)) (key : κ) :
    find pairs key = none ↔ key ∉ pairs.map Prod.fst := by
  induction pairs with
  | nil => simp [find]
  | cons pair rest ih =>
      by_cases h : pair.1 = key
      · simp [find, h]
      · have hne : ¬ key = pair.1 := fun e => h e.symm
        simp [find, h, hne, ih]

theorem mem_of_find_eq_some {pairs : List (κ × α)} {key : κ} {value : α}
    (h : find pairs key = some value) : (key, value) ∈ pairs := by
  induction pairs with
  | nil => simp [find] at h
  | cons pair rest ih =>
      by_cases hpair : pair.1 = key
      · simp only [find, hpair, if_true, Option.some.injEq] at h
        simp [← hpair, ← h]
      · simp only [find, hpair, if_false] at h
        exact List.mem_cons_of_mem _ (ih h)

theorem find_eq_some_of_mem {pairs : List (κ × α)} (hnodup : (pairs.map Prod.fst).Nodup)
    {key : κ} {value : α} (h : (key, value) ∈ pairs) : find pairs key = some value := by
  induction pairs with
  | nil => simp at h
  | cons pair rest ih =>
      rw [List.map_cons, List.nodup_cons] at hnodup
      rcases List.mem_cons.mp h with rfl | h
      · simp [find]
      · have hne : ¬ pair.1 = key := fun e =>
          hnodup.1 (e ▸ List.mem_map_of_mem (f := Prod.fst) h)
        simp only [find, hne, if_false]
        exact ih hnodup.2 h

/-- A key that is new comes last; the others keep their places. -/
theorem map_fst_put (pairs : List (κ × α)) (key : κ) (value : α) :
    (put pairs key value).map Prod.fst =
      if key ∈ pairs.map Prod.fst then pairs.map Prod.fst else pairs.map Prod.fst ++ [key] := by
  induction pairs with
  | nil => simp [put]
  | cons pair rest ih =>
      by_cases h : pair.1 = key
      · simp [put, h]
      · have hne : ¬ key = pair.1 := fun e => h e.symm
        rw [put, if_neg h, List.map_cons, ih]
        by_cases hmem : key ∈ rest.map Prod.fst <;> simp_all

theorem nodup_put {pairs : List (κ × α)} (h : (pairs.map Prod.fst).Nodup) (key : κ) (value : α) :
    ((put pairs key value).map Prod.fst).Nodup := by
  rw [map_fst_put]
  split
  · exact h
  · rename_i hmem
    refine List.nodup_append.mpr ⟨h, by simp, ?_⟩
    intro a ha b hb hab
    rw [List.mem_singleton] at hb
    exact hmem (hb ▸ hab ▸ ha)

theorem find_put (pairs : List (κ × α)) (key other : κ) (value : α) :
    find (put pairs key value) other = if key = other then some value else find pairs other := by
  induction pairs with
  | nil => rfl
  | cons pair rest ih =>
      by_cases hpair : pair.1 = key
      · by_cases h : key = other <;> simp [put, find, hpair, h]
      · by_cases h : pair.1 = other
        · have hne : ¬ key = other := fun e => hpair (h.trans e.symm)
          rw [put, if_neg hpair]
          simp [find, h, hne]
        · rw [put, if_neg hpair]
          simp [find, h, ih]

theorem find_filter_ne (pairs : List (κ × α)) (key other : κ) :
    find (pairs.filter fun pair => pair.1 ≠ key) other =
      if key = other then none else find pairs other := by
  induction pairs with
  | nil => simp [find]
  | cons pair rest ih =>
      by_cases hpair : pair.1 = key
      · rw [List.filter_cons_of_neg (by simp [hpair]), ih]
        by_cases h : key = other <;> simp [find, hpair, h]
      · rw [List.filter_cons_of_pos (by simp [hpair])]
        by_cases h : pair.1 = other
        · have hne : ¬ key = other := fun e => hpair (h.trans e.symm)
          simp only [find, h, if_true, hne, if_false]
        · simp only [find, h, if_false]
          exact ih

/-! ## Tables -/

/-- The value of a key. -/
def get? (table : Table κ α) (key : κ) : Option α := find table.toList key

/-- Whether a key has a value. -/
def contains (table : Table κ α) (key : κ) : Bool := (table.get? key).isSome

/-- Gives a key a value: in its old place if it has one, otherwise at the end. -/
def insert (table : Table κ α) (key : κ) (value : α) : Table κ α where
  toList := put table.toList key value
  nodup := nodup_put table.nodup key value

/-- Forgets a key. -/
def erase (table : Table κ α) (key : κ) : Table κ α where
  toList := table.toList.filter fun pair => pair.1 ≠ key
  nodup := table.nodup.sublist (List.filter_sublist.map Prod.fst)

/-- The table of some pairs; of two pairs with one key the later counts. -/
def ofList (pairs : List (κ × α)) : Table κ α :=
  pairs.foldl (fun table pair => table.insert pair.1 pair.2) empty

@[simp] theorem get?_empty (key : κ) : (∅ : Table κ α).get? key = none := rfl

/-- A look-up finds exactly the pairs of the table. -/
theorem get?_eq_some_iff (table : Table κ α) (key : κ) (value : α) :
    table.get? key = some value ↔ (key, value) ∈ table.toList :=
  ⟨mem_of_find_eq_some, find_eq_some_of_mem table.nodup⟩

/-- A look-up finds nothing exactly if the key is not in the table. -/
theorem get?_eq_none_iff (table : Table κ α) (key : κ) :
    table.get? key = none ↔ key ∉ table.keys :=
  find_eq_none_iff table.toList key

/-- After a change of one key, that key has the new value and all others their old ones. -/
theorem get?_insert (table : Table κ α) (key other : κ) (value : α) :
    (table.insert key value).get? other = if key = other then some value else table.get? other :=
  find_put table.toList key other value

/-- A key that was erased has no value, and all others keep theirs. -/
theorem get?_erase (table : Table κ α) (key other : κ) :
    (table.erase key).get? other = if key = other then none else table.get? other :=
  find_filter_ne table.toList key other

theorem get?_insert_self (table : Table κ α) (key : κ) (value : α) :
    (table.insert key value).get? key = some value := by
  rw [get?_insert, if_pos rfl]

theorem get?_erase_self (table : Table κ α) (key : κ) : (table.erase key).get? key = none := by
  rw [get?_erase, if_pos rfl]

variable {table : Table κ α} {key other : κ} {value new : α}

/-- What is found after a key was erased was there before. -/
theorem get?_of_erase (h : (table.erase key).get? other = some value) :
    table.get? other = some value := by
  rw [get?_erase] at h
  split at h
  · cases h
  · exact h

/-- What is true of a new value and was true of all others is true of all values. -/
theorem insert_induction {P : κ → α → Prop} (hnew : P key new)
    (hold : ∀ {key value}, table.get? key = some value → P key value)
    (h : (table.insert key new).get? other = some value) : P other value := by
  rw [get?_insert] at h
  split at h
  · next heq =>
      cases h
      exact heq ▸ hnew
  · exact hold h

end Table

end HeartbeatPool
