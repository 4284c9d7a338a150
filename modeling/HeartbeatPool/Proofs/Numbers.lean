import HeartbeatPool.Demo.Environment
import Mathlib.Data.List.Induction
import Mathlib.Data.Nat.Digits.Defs

/-!
# Numbers in the environment

What the programs are told comes from texts of the environment.  `Denotes` says what a number looks
like there, and `parseNat?_eq_some_iff` that this is just what is read.  A variable that denotes no
number in range leaves a setting at its default (`Environment.Sets`).
-/

namespace HeartbeatPool.Demo

/-- The value of a decimal digit. -/
def digitOf (c : Char) : Nat := c.toNat - '0'.toNat

/-- A text denotes a number: a plus sign or none, and then decimal digits of the number, zeros in
front of it allowed. -/
def Denotes (text : String) (number : Nat) : Prop :=
  ∃ digits : List Char, digits ≠ [] ∧ (∀ c ∈ digits, c.isDigit = true) ∧
    (text.toList = digits ∨ text.toList = '+' :: digits) ∧
    Nat.ofDigits 10 (digits.reverse.map digitOf) = number

theorem digitsValue_eq_ofDigits (digits : List Char) :
    digitsValue digits = Nat.ofDigits 10 (digits.reverse.map digitOf) := by
  induction digits using List.reverseRecOn with
  | nil => rfl
  | append_singleton digits c ih =>
      calc digitsValue (digits ++ [c])
          = digitsValue digits * 10 + digitOf c := by
            rw [digitsValue, List.foldl_append]
            rfl
        _ = digitOf c + 10 * Nat.ofDigits 10 (digits.reverse.map digitOf) := by rw [ih]; omega
        _ = Nat.ofDigits 10 ((digits ++ [c]).reverse.map digitOf) := by
            rw [List.reverse_append, List.reverse_singleton, List.singleton_append, List.map_cons,
              Nat.ofDigits_cons]

/-- The digits of a text; a plus sign in front of them is put aside. -/
def unsigned : List Char → List Char
  | '+' :: rest => rest
  | all => all

theorem parseNat?_eq_some (largest : Nat) (text : String) (number : Nat) :
    parseNat? largest text = some number ↔
      unsigned text.toList ≠ [] ∧ (∀ c ∈ unsigned text.toList, c.isDigit = true) ∧
        digitsValue (unsigned text.toList) = number ∧ number ≤ largest := by
  have hparse : parseNat? largest text =
      if (unsigned text.toList).isEmpty || !(unsigned text.toList).all Char.isDigit ||
          largest < digitsValue (unsigned text.toList) then none
      else some (digitsValue (unsigned text.toList)) := rfl
  rw [hparse]
  generalize unsigned text.toList = digits
  constructor
  · intro h
    split at h
    · cases h
    · next hgood =>
        cases h
        simpa [and_assoc] using hgood
  · rintro ⟨hne, hdigits, rfl, hle⟩
    rw [if_neg]
    simpa [hne, hle] using hdigits

/-- Just the numbers that a text denotes are read, up to the largest one. -/
theorem parseNat?_eq_some_iff (largest : Nat) (text : String) (number : Nat) :
    parseNat? largest text = some number ↔ Denotes text number ∧ number ≤ largest := by
  rw [parseNat?_eq_some]
  constructor
  · rintro ⟨hne, hdigits, hvalue, hle⟩
    refine ⟨⟨unsigned text.toList, hne, hdigits, ?_, ?_⟩, hle⟩
    · unfold unsigned
      split
      · next hsign => exact Or.inr hsign
      · exact Or.inl rfl
    · rw [← digitsValue_eq_ofDigits, hvalue]
  · rintro ⟨⟨digits, hne, hdigits, htext, hvalue⟩, hle⟩
    have hsame : unsigned text.toList = digits := by
      rcases htext with htext | htext
      · -- a plus sign is no digit
        rw [htext]
        unfold unsigned
        split
        · have hsign := hdigits '+' List.mem_cons_self
          cases hsign
        · rfl
      · rw [htext]
        rfl
    rw [hsame, digitsValue_eq_ofDigits]
    exact ⟨hne, hdigits, hvalue, hle⟩

theorem le_largestOf_iff (bits n : Nat) : n ≤ largestOf bits ↔ n < 2 ^ bits :=
  Nat.le_sub_one_iff_lt (Nat.two_pow_pos bits)

namespace Environment

variable (environment : Environment) (name : String) (bits : Nat)

/-- A variable is set to just the number that its text denotes, if the number has few enough
bits. -/
theorem nat?_eq_some_iff (n : Nat) : environment.nat? name bits = some n ↔
    ∃ text, environment.get? name = some text ∧ Denotes text n ∧ n < 2 ^ bits := by
  simp only [nat?, Option.bind_eq_bind, Option.bind_eq_some_iff, parseNat?_eq_some_iff,
    le_largestOf_iff]

/-- The value of a setting: the number that a variable denotes, or a default if the variable is not
set, denotes no number, or one with too many bits. -/
def Sets (default value : Nat) : Prop :=
  (∃ text, environment.get? name = some text ∧ Denotes text value ∧ value < 2 ^ bits) ∨
    value = default ∧ ∀ text number, environment.get? name = some text → Denotes text number →
      2 ^ bits ≤ number

theorem sets_nat? (default : Nat) :
    environment.Sets name bits default ((environment.nat? name bits).getD default) := by
  cases hread : environment.nat? name bits with
  | some number => exact Or.inl ((environment.nat?_eq_some_iff name bits number).mp hread)
  | none =>
      refine Or.inr ⟨rfl, fun text number htext hdenotes => Nat.le_of_not_lt fun hlt => ?_⟩
      have hsome := (environment.nat?_eq_some_iff name bits number).mpr ⟨text, htext, hdenotes, hlt⟩
      cases hread.symm.trans hsome

end Environment

end HeartbeatPool.Demo
