/-!
# Taking turns

Things with numbers settle in any order and are handed on in the order of their numbers.  A number
that settles ahead of its turn waits.  The waiting numbers lie in a heap: an array in which the
places `2 * i + 1` and `2 * i + 2` are below the place `i`, and no number lies below a larger one,
so that the next number to be handed on comes first.

The order of the places matters where those that wait are closed one by one, because it is the
order in which that happens.

Main statements: `push_perm` and `removeFirst_perm` say that a heap loses nothing but its first
number, and that only when it is taken out.
-/

namespace HeartbeatPool

/-! ## Heaps -/

namespace Heap

/-- Lets the number at a place rise until the number above it is not larger. -/
def rise (heap : Array Nat) (place : Nat) : Array Nat :=
  if h : 0 < place ∧ place < heap.size then
    let above := (place - 1) / 2
    if heap[place] < heap[above] then rise (heap.swap place above) above else heap
  else heap
termination_by place
decreasing_by omega

/-- Rising only rearranges. -/
theorem rise_perm (heap : Array Nat) (place : Nat) : (rise heap place).Perm heap := by
  fun_induction rise heap place with
  | case1 heap place h above hlt ih => exact ih.trans (Array.swap_perm _ _)
  | case2 => exact .rfl
  | case3 => exact .rfl

/-- The place of the smaller one of the numbers below a place. -/
def smallerBelow (heap : Array Nat) (place : Nat) (h : 2 * place + 1 < heap.size) :
    { below : Nat // place < below ∧ below < heap.size } :=
  if hright : 2 * place + 2 < heap.size then
    if heap[2 * place + 2] < heap[2 * place + 1] then ⟨2 * place + 2, by omega, hright⟩
    else ⟨2 * place + 1, by omega, h⟩
  else ⟨2 * place + 1, by omega, h⟩

/-- Lets the number at a place sink to the bottom, always past the smaller one of the numbers below
it.  The result is the heap together with the place where the number has come to lie. -/
def sink (heap : Array Nat) (place : Nat) : Array Nat × Nat :=
  if h : 2 * place + 1 < heap.size then
    let below := smallerBelow heap place h
    sink (heap.swap place below (by omega) below.2.2) below
  else (heap, place)
termination_by heap.size - place
decreasing_by
  have := (smallerBelow heap place h).2
  rw [Array.size_swap]
  omega

/-- Sinking only rearranges. -/
theorem sink_perm (heap : Array Nat) (place : Nat) : (sink heap place).1.Perm heap := by
  fun_induction sink heap place with
  | case1 heap place h below ih => exact ih.trans (Array.swap_perm _ _)
  | case2 => exact .rfl

/-- Adds a number. -/
def push (heap : Array Nat) (number : Nat) : Array Nat := rise (heap.push number) heap.size

/-- All numbers stay, and one comes. -/
theorem push_perm (heap : Array Nat) (number : Nat) :
    (push heap number).Perm (heap.push number) :=
  rise_perm _ _

/-- Takes out the first number.  The last one takes its place, sinks to the bottom, and rises from
there. -/
def removeFirst (heap : Array Nat) : Array Nat :=
  match heap.back? with
  | none => heap
  | some last =>
      let rest := heap.pop
      if h : 0 < rest.size then
        let (rest, place) := sink (rest.set 0 last) 0
        rise rest place
      else rest

/-- All numbers but the first stay. -/
theorem removeFirst_perm (heap : Array Nat) (h : 0 < heap.size) :
    (heap[0] :: (removeFirst heap).toList).Perm heap.toList := by
  obtain ⟨rest, last, rfl⟩ := Array.eq_push_of_size_ne_zero (Nat.ne_of_gt h)
  by_cases hrest : 0 < rest.size
  · have moved : (removeFirst (rest.push last)).Perm (rest.set 0 last) := by
      simpa [removeFirst, hrest] using (rise_perm _ _).trans (sink_perm _ 0)
    obtain ⟨_ | ⟨first, others⟩⟩ := rest
    · exact absurd hrest (Nat.not_lt_zero 0)
    · refine ((moved.toList.cons first).trans (.swap ..)).trans ?_
      rw [Array.toList_push]
      exact (List.perm_append_singleton last (first :: others)).symm
  · have : rest = #[] := by grind
    subst this
    simp [removeFirst]

end Heap

/-! ## Turns -/

/-- Which numbers were handed on, and which ones wait. -/
structure Turns where
  /-- The number whose turn it is: all smaller ones have been handed on. -/
  next : Nat := 0
  /-- The heap of the numbers that settled ahead of their turn. -/
  waiting : Array Nat := #[]
  deriving DecidableEq, Repr, Inhabited

namespace Turns

/-- Hands on waiting numbers as long as it is their turn.  The number bounds how many, and how many
there are is always enough. -/
def handOn (turns : Turns) : Nat → Turns
  | 0 => turns
  | bound + 1 =>
      if turns.waiting[0]? = some turns.next then
        handOn { next := turns.next + 1, waiting := Heap.removeFirst turns.waiting } bound
      else turns

/-- Takes note that a number has settled: it is handed on if it is its turn, together with those
that waited for it, and otherwise it waits. -/
def settle (turns : Turns) (number : Nat) : Turns :=
  if number = turns.next then
    handOn { turns with next := turns.next + 1 } turns.waiting.size
  else { turns with waiting := Heap.push turns.waiting number }

/-- The position of a settled number if all are listed: first those that wait, in the order of
their places, then those that were handed on, in the order of their numbers. -/
def rank (turns : Turns) (number : Nat) : Nat :=
  (turns.waiting.idxOf? number).getD (turns.waiting.size + number)

end Turns

end HeartbeatPool
