import HeartbeatPool.Proofs.Numbers

/-!
# Which calls a greeter rejects

A greeter counts its calls, those that it rejects as well, and looks at nothing but the number of a
call to decide whether to reject it.  So the answer to each call of a sequence can be read off its
number (`getElem?_answers`), and how many of the next calls are rejected depends only on how many
there were before: from `k` calls to `k + m` the multiples of `n` grow from `k / n` to `(k + m) / n`
(`countP_answers`).

What a greeter is told comes from a text of the environment (`failEvery_serverOf`).

Main statement: `rejections_of_calls`.
-/

namespace HeartbeatPool.Demo

/-- A server is told to reject calls exactly by a number that is not zero and fits into a machine
word. -/
theorem failEvery_serverOf (environment : Environment) (n : Nat) :
    (serverOf environment).2.failEvery = some n ↔
      ∃ text, environment.get? "FAIL_EVERY" = some text ∧ Denotes text n ∧ 0 < n ∧ n < 2 ^ 64 := by
  have hread : (serverOf environment).2.failEvery =
      (environment.nat? "FAIL_EVERY" 64).filter (0 < ·) := rfl
  rw [hread, Option.filter_eq_some_iff, Environment.nat?_eq_some_iff, decide_eq_true_eq]
  constructor
  · rintro ⟨⟨text, htext, hdenotes, hlt⟩, hpos⟩
    exact ⟨text, htext, hdenotes, hpos, hlt⟩
  · rintro ⟨text, htext, hdenotes, hpos, hlt⟩
    exact ⟨⟨text, htext, hdenotes, hlt⟩, hpos⟩

/-! ## Sequences of calls -/

/-- Whether an answer is a rejection. -/
def isRejection : Except Status Greeting → Bool
  | .error _ => true
  | .ok _ => false

namespace Greeter

variable (greeter : Greeter)

/-- What a greeter answers to the call with some number. -/
def answer (call : Nat) (name : String) : Except Status Greeting :=
  if greeter.rejects call then .error outage else .ok ⟨"Hello, " ++ name ++ "!", greeter.name⟩

/-- The answers to some calls, one after the other. -/
def answers (names : List String) : List (Except Status Greeting) :=
  (greeter.greetAll names).map Prod.snd

theorem greet_answer (name : String) :
    (greeter.greet name).2.2 = greeter.answer (greeter.calls + 1) name := by
  simp only [greet, answer]
  split <;> rfl

/-- A call changes nothing but the count. -/
theorem greet_fst (name : String) :
    (greeter.greet name).1 = { greeter with calls := greeter.calls + 1 } := by
  simp only [greet]
  split <;> rfl

theorem answer_greet (name : String) (call : Nat) (other : String) :
    (greeter.greet name).1.answer call other = greeter.answer call other := by
  rw [greet_fst]
  rfl

theorem isRejection_answer (call : Nat) (name : String) :
    isRejection (greeter.answer call name) = greeter.rejects call := by
  unfold answer
  split <;> simp_all [isRejection]

theorem answers_cons (name : String) (rest : List String) :
    greeter.answers (name :: rest) =
      greeter.answer (greeter.calls + 1) name :: (greeter.greet name).1.answers rest := by
  rw [← greet_answer]
  rfl

/-- The answer to a call can be read off its number. -/
theorem getElem?_answers (names : List String) (j : Nat) :
    (greeter.answers names)[j]? =
      names[j]?.map (greeter.answer (greeter.calls + (j + 1))) := by
  induction names generalizing greeter j with
  | nil => rfl
  | cons name rest ih =>
      rw [answers_cons]
      cases j with
      | zero => rfl
      | succ j =>
          rw [List.getElem?_cons_succ, List.getElem?_cons_succ, ih, calls_greet]
          have hnumber : greeter.calls + 1 + (j + 1) = greeter.calls + (j + 1 + 1) := by omega
          rw [hnumber]
          exact congrArg (rest[j]?.map ·) (funext (greeter.answer_greet name _))

theorem length_answers (names : List String) :
    (greeter.answers names).length = names.length := by
  induction names generalizing greeter with
  | nil => rfl
  | cons name rest ih => rw [answers_cons, List.length_cons, ih, List.length_cons]

theorem take_answers (names : List String) (m : Nat) :
    (greeter.answers names).take m = greeter.answers (names.take m) := by
  induction names generalizing greeter m with
  | nil => rw [List.take_nil]; exact List.take_nil
  | cons name rest ih =>
      cases m with
      | zero => rfl
      | succ m => rw [answers_cons, List.take_succ_cons, List.take_succ_cons, answers_cons, ih]

variable {greeter}

/-- Among the next calls there are as many rejections as multiples of the number among theirs. -/
theorem countP_answers {n : Nat} (hn : greeter.failEvery = some n) (names : List String) :
    greeter.calls / n + (greeter.answers names).countP isRejection =
      (greeter.calls + names.length) / n := by
  induction names generalizing greeter with
  | nil => rfl
  | cons name rest ih =>
      have hrest := @ih (greeter.greet name).1 (by rw [failEvery_greet, hn])
      rw [calls_greet] at hrest
      have hfirst : isRejection (greeter.answer (greeter.calls + 1) name) = true ↔
          n ∣ greeter.calls + 1 := by
        rw [isRejection_answer, rejects_iff]
        constructor
        · rintro ⟨other, hother, hdvd⟩
          rw [hn, Option.some.injEq] at hother
          exact hother ▸ hdvd
        · exact fun hdvd => ⟨n, hn, hdvd⟩
      calc greeter.calls / n + (greeter.answers (name :: rest)).countP isRejection
          = greeter.calls / n + (if n ∣ greeter.calls + 1 then 1 else 0) +
              ((greeter.greet name).1.answers rest).countP isRejection := by
            rw [answers_cons, List.countP_cons]
            simp only [hfirst]
            omega
        _ = (greeter.calls + 1) / n +
              ((greeter.greet name).1.answers rest).countP isRejection := by rw [Nat.succ_div]
        _ = (greeter.calls + (name :: rest).length) / n := by
            rw [hrest, List.length_cons]
            congr 1
            omega

theorem answers_eq_error_iff (names : List String) (j : Nat) (hj : j < names.length) :
    (greeter.answers names)[j]? = some (.error outage) ↔
      ∃ n, greeter.failEvery = some n ∧ n ∣ greeter.calls + (j + 1) := by
  rw [getElem?_answers, List.getElem?_eq_getElem hj, ← rejects_iff]
  unfold answer
  split <;> simp_all

/-- Whoever is not rejected is greeted, by name and in the name of the greeter. -/
theorem answers_of_name (names : List String) (j : Nat) {name : String}
    (hname : names[j]? = some name) :
    (greeter.answers names)[j]? = some (.error outage) ∨
      (greeter.answers names)[j]? = some (.ok ⟨"Hello, " ++ name ++ "!", greeter.name⟩) := by
  rw [getElem?_answers, hname, Option.map_some]
  unfold answer
  split
  · exact Or.inl rfl
  · exact Or.inr rfl

theorem isRejection_of_none (hnone : greeter.failEvery = none) (names : List String) :
    ∀ answer ∈ greeter.answers names, isRejection answer = false := by
  intro answer hanswer
  obtain ⟨j, hj⟩ := List.mem_iff_getElem?.mp hanswer
  rw [getElem?_answers, Option.map_eq_some_iff] at hj
  obtain ⟨name, -, rfl⟩ := hj
  rw [isRejection_answer, rejects, hnone]

section Fresh

variable (hfresh : greeter.calls = 0) {n : Nat} (hn : greeter.failEvery = some n)
  (names : List String)
include hfresh hn

/-- Among the first `m` calls of all there are `m / n` rejections. -/
theorem countP_take_answers {m : Nat} (hm : m ≤ names.length) :
    ((greeter.answers names).take m).countP isRejection = m / n := by
  have hcount := countP_answers hn (names.take m)
  rw [← take_answers, List.length_take, Nat.min_eq_left hm] at hcount
  rwa [hfresh, Nat.zero_div, Nat.zero_add, Nat.zero_add] at hcount

/-- Of `n` calls in a row just one is rejected. -/
theorem countP_window (hpos : 0 < n) {start : Nat} (hstart : start + n ≤ names.length) :
    (((greeter.answers names).drop start).take n).countP isRejection = 1 := by
  have hbefore := countP_take_answers hfresh hn names (Nat.le_of_add_right_le hstart)
  have hthrough := countP_take_answers hfresh hn names hstart
  rw [List.take_add, List.countP_append, hbefore, Nat.add_div_right start hpos] at hthrough
  exact Nat.add_left_cancel hthrough

end Fresh

end Greeter

/-! ## Servers -/

/-- With numbers that fit into a machine word, the remainder that machine words give is zero exactly
if one number divides the other. -/
theorem word_mod_eq_zero_iff {call n : Nat} (hcall : call < 2 ^ 64) (hn : n < 2 ^ 64) :
    UInt64.ofNat call % UInt64.ofNat n = 0 ↔ n ∣ call := by
  have hcall' : (UInt64.ofNat call).toNat = call := UInt64.toNat_ofNat_of_lt' hcall
  have hn' : (UInt64.ofNat n).toNat = n := UInt64.toNat_ofNat_of_lt' hn
  rw [← UInt64.toNat_inj, UInt64.toNat_mod, hcall', hn', Nat.dvd_iff_mod_eq_zero]
  rfl

/-- A server rejects every `n`-th call if the environment tells it the number `n`, and no call if it
tells none.  The number is never zero, so the remainder of the number of a call can be taken, and
with fewer calls than a machine word can count it makes no difference that it is taken with machine
words.  Rejected calls count like all others: among the first `m` calls `m / n` are rejected, and
among `n` calls in a row just one.  Every call that is not rejected gets a greeting of its own name,
in the name of the server. -/
theorem rejections_of_calls (environment : Environment) (names : List String)
    (hfew : names.length < 2 ^ 64 - 1) :
    let greeter := (serverOf environment).2
    let answers := (greeter.greetAll names).map Prod.snd
    (∀ n, greeter.failEvery = some n → 0 < n) ∧
      (∀ j < names.length, answers[j]? = some (.error outage) ↔
        ∃ n, greeter.failEvery = some n ∧ UInt64.ofNat (j + 1) % UInt64.ofNat n = 0) ∧
      ((∀ text n, environment.get? "FAIL_EVERY" = some text → 0 < n → n < 2 ^ 64 →
          ¬ Denotes text n) →
        ∀ answer ∈ answers, isRejection answer = false) ∧
      (∀ text n, environment.get? "FAIL_EVERY" = some text → Denotes text n → 0 < n → n < 2 ^ 64 →
        (∀ j < names.length, answers[j]? = some (.error outage) ↔ n ∣ j + 1) ∧
        (∀ m ≤ names.length, (answers.take m).countP isRejection = m / n) ∧
        ∀ start, start + n ≤ names.length →
          ((answers.drop start).take n).countP isRejection = 1) ∧
      answers.length = names.length ∧
      ∀ (j : Nat) (name : String), names[j]? = some name → answers[j]? = some (.error outage) ∨
        answers[j]? = some (.ok ⟨"Hello, " ++ name ++ "!", greeter.name⟩) := by
  intro greeter answers
  -- the greeter and the environment agree on the number
  have htold (n : Nat) : greeter.failEvery = some n ↔ ∃ text,
      environment.get? "FAIL_EVERY" = some text ∧ Denotes text n ∧ 0 < n ∧ n < 2 ^ 64 :=
    failEvery_serverOf environment n
  have hrejects (j : Nat) (hj : j < names.length) :
      answers[j]? = some (.error outage) ↔ ∃ n, greeter.failEvery = some n ∧ n ∣ j + 1 := by
    have hiff := greeter.answers_eq_error_iff names j hj
    rwa [show greeter.calls = 0 from rfl, Nat.zero_add] at hiff
  refine ⟨?_, ?_, ?_, ?_, greeter.length_answers names, ?_⟩
  · intro n hn
    obtain ⟨-, -, -, hpos, -⟩ := (htold n).mp hn
    exact hpos
  · intro j hj
    rw [hrejects j hj]
    refine exists_congr fun n => and_congr_right fun hn => ?_
    obtain ⟨-, -, -, -, hlt⟩ := (htold n).mp hn
    -- so few calls fit into a machine word
    exact (word_mod_eq_zero_iff (by omega) hlt).symm
  · intro hnone
    refine Greeter.isRejection_of_none (Option.eq_none_iff_forall_ne_some.mpr ?_) names
    intro n hn
    obtain ⟨text, htext, hdenotes, hpos, hlt⟩ := (htold n).mp hn
    exact hnone text n htext hpos hlt hdenotes
  · intro text n htext hdenotes hpos hlt
    have hn := (htold n).mpr ⟨text, htext, hdenotes, hpos, hlt⟩
    refine ⟨?_, ?_, ?_⟩
    · intro j hj
      rw [hrejects j hj]
      simp [hn]
    · intro m hm
      exact Greeter.countP_take_answers rfl hn names hm
    · intro start hstart
      exact Greeter.countP_window rfl hn names hpos hstart
  · intro j name hname
    exact Greeter.answers_of_name names j hname

/-- A server that is told to reject every third call, with a plus sign and a zero in front. -/
def everyThird : Environment := .ofList [("FAIL_EVERY", "+03"), ("SERVER_NAME", "east")]

/-- Of seven calls two are rejected. -/
theorem rejections_of_seven :
    let answers := ((serverOf everyThird).2.greetAll (List.replicate 7 "ann")).map Prod.snd
    (List.replicate 7 "ann").length < 2 ^ 64 - 1 ∧
      everyThird.get? "FAIL_EVERY" = some "+03" ∧ Denotes "+03" 3 ∧
      (answers.take 7).countP isRejection = 2 ∧ answers[5]? = some (.error outage) ∧
      ((answers.drop 4).take 3).countP isRejection = 1 := by
  have hfew : (List.replicate 7 "ann").length < 2 ^ 64 - 1 := by decide
  have hdenotes : Denotes "+03" 3 := ⟨['0', '3'], by decide, by simp, Or.inr rfl, by decide⟩
  obtain ⟨-, -, -, htold, -⟩ := rejections_of_calls everyThird (List.replicate 7 "ann") hfew
  obtain ⟨hrejects, hcount, hwindow⟩ := htold "+03" 3 rfl hdenotes (by decide) (by decide)
  exact ⟨hfew, rfl, hdenotes, hcount 7 (by decide), (hrejects 5 (by decide)).mpr (by decide),
    hwindow 4 (by decide)⟩

end HeartbeatPool.Demo
