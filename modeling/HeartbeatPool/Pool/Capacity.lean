/-!
# The capacity of a pool

The capacity of a pool is a product: so many connections to each of so many endpoints.  It is
computed in machine words.  A division notices that the product does not fit (`wordProduct?`), so a
product that wraps around into the range of admissible capacities is refused like any other that is
too large (`capacityOf?`).  Numbers that are no machine words have no capacity (`capacityIn?`).

Main statement: `capacityIn?_eq` says the same in numbers.
-/

namespace HeartbeatPool

/-- The largest capacity of a pool. -/
def maxCapacity : Nat := Nat.pow 2 61 - 1

/-- The product of two machine words, if it is a machine word. -/
def wordProduct? (a b : UInt64) : Option UInt64 :=
  if b = 0 ∨ a ≤ UInt64.ofNat (UInt64.size - 1) / b then some (a * b) else none

/-- The capacity of a pool with so many connections to each of so many endpoints, in machine words:
the product must fit, and it must not be too large. -/
def capacityOf? (count length : UInt64) : Option UInt64 :=
  (wordProduct? count length).filter fun capacity => capacity ≤ UInt64.ofNat maxCapacity

/-- A number as a machine word, if it is one. -/
def word? (n : Nat) : Option UInt64 := if n < UInt64.size then some (UInt64.ofNat n) else none

/-- The capacity of a pool with so many connections to each of so many endpoints. -/
def capacityIn? (count length : Nat) : Option UInt64 :=
  (word? count).bind fun count => (word? length).bind fun length => capacityOf? count length

/-! ## Products of machine words -/

/-- The division tells whether the product fits. -/
theorem le_div_iff_mul_lt (a b : UInt64) :
    (b = 0 ∨ a ≤ UInt64.ofNat (UInt64.size - 1) / b) ↔ a.toNat * b.toNat < UInt64.size := by
  by_cases hzero : b = 0
  · subst hzero
    simp
  · have hpos : 0 < b.toNat := by
      rw [Nat.pos_iff_ne_zero]
      intro h
      exact hzero (UInt64.toNat_inj.mp h)
    have hlargest : (UInt64.ofNat (UInt64.size - 1)).toNat = UInt64.size - 1 := by decide +kernel
    have hsize : 0 < UInt64.size := by decide +kernel
    rw [or_iff_right hzero, UInt64.le_iff_toNat_le, UInt64.toNat_div, hlargest,
      Nat.le_div_iff_mul_le hpos]
    omega

theorem wordProduct?_eq_some_iff {a b c : UInt64} :
    wordProduct? a b = some c ↔ c.toNat = a.toNat * b.toNat := by
  unfold wordProduct?
  constructor
  · intro h
    split at h
    · next hfits =>
        obtain rfl := Option.some.inj h
        rw [UInt64.toNat_mul]
        exact Nat.mod_eq_of_lt ((le_div_iff_mul_lt a b).mp hfits)
    · cases h
  · intro h
    have hlt : a.toNat * b.toNat < UInt64.size := h ▸ c.toNat_lt
    rw [if_pos ((le_div_iff_mul_lt a b).mpr hlt), Option.some.injEq, ← UInt64.toNat_inj,
      UInt64.toNat_mul, h]
    exact Nat.mod_eq_of_lt hlt

theorem capacityOf?_eq_some_iff {count length capacity : UInt64} :
    capacityOf? count length = some capacity ↔
      capacity.toNat = count.toNat * length.toNat ∧ capacity.toNat ≤ maxCapacity := by
  have hmax : (UInt64.ofNat maxCapacity).toNat = maxCapacity := by decide +kernel
  rw [capacityOf?, Option.filter_eq_some_iff, wordProduct?_eq_some_iff, decide_eq_true_eq,
    UInt64.le_iff_toNat_le, hmax]

/-! ## Products of numbers -/

@[simp] theorem word?_toNat (a : UInt64) : word? a.toNat = some a := by
  rw [word?, if_pos a.toNat_lt, UInt64.ofNat_toNat]

theorem word?_of_lt {n : Nat} (h : n < UInt64.size) :
    ∃ a : UInt64, word? n = some a ∧ a.toNat = n :=
  ⟨UInt64.ofNat n, if_pos h, UInt64.toNat_ofNat_of_lt' h⟩

theorem maxCapacity_lt : maxCapacity < UInt64.size := by decide +kernel

/-- The capacity is the product, unless that is too large. -/
theorem capacityIn?_eq {count length : Nat} (hcount : 0 < count) (hlength : 0 < length) :
    capacityIn? count length =
      if maxCapacity < count * length then none else some (UInt64.ofNat (count * length)) := by
  have hmax := maxCapacity_lt
  unfold capacityIn?
  split
  · next hlarge =>
      -- if both are words, their product is a number that no capacity has
      rcases Nat.lt_or_ge count UInt64.size with hlt | hge
      · obtain ⟨a, ha, rfl⟩ := word?_of_lt hlt
        rcases Nat.lt_or_ge length UInt64.size with hlt' | hge'
        · obtain ⟨b, hb, rfl⟩ := word?_of_lt hlt'
          rw [ha, hb, Option.bind_some, Option.bind_some, Option.eq_none_iff_forall_ne_some]
          intro capacity hsome
          obtain ⟨hproduct, hle⟩ := capacityOf?_eq_some_iff.mp hsome
          omega
        · rw [ha, Option.bind_some, word?, if_neg (Nat.not_lt.mpr hge'), Option.bind_none]
      · rw [word?, if_neg (Nat.not_lt.mpr hge), Option.bind_none]
  · next hfits =>
      have hle := Nat.le_of_not_lt hfits
      have hcount' := Nat.le_mul_of_pos_right count hlength
      have hlength' := Nat.le_mul_of_pos_left length hcount
      obtain ⟨a, ha, rfl⟩ := @word?_of_lt count (by omega)
      obtain ⟨b, hb, rfl⟩ := @word?_of_lt length (by omega)
      rw [ha, hb, Option.bind_some, Option.bind_some, capacityOf?_eq_some_iff,
        UInt64.toNat_ofNat_of_lt' (Nat.lt_of_le_of_lt hle hmax)]
      exact ⟨rfl, hle⟩

end HeartbeatPool
