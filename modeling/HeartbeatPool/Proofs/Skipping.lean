import HeartbeatPool.Json.Skip
import HeartbeatPool.Proofs.Grammar

/-!
# What the scanner passes over

The scanner reads one character at a time and knows only its mode and the brackets that are open.
Here it is shown to pass over every value of the grammar, whatever is open around it, and to go on
right behind: `passes_of_written`, by induction on how the value is written.

A number has no end of its own.  It ends where something follows that cannot be part of it
(`EndsNumber`), and in a text that is always so, since a number is followed by a blank, a comma or a
bracket.
-/

namespace HeartbeatPool.Json

namespace Scan

/-- What the scanner does behind a value inside some brackets. -/
def resume (stack : List Frame) (rest : List Char) : Except Stop (List Char) :=
  match stack with
  | [] => .ok rest
  | _ :: _ => run .afterValue stack rest

/-- The modes in which blanks are passed over. -/
def Mode.passesBlanks (stack : List Frame) : Mode → Prop
  | .value | .firstItem | .firstKey | .key | .colon => True
  | .afterValue => stack ≠ []
  | _ => False

theorem run_of_next {mode mode' : Mode} {stack stack' : List Frame} {c : Char} {rest : List Char}
    (h : step mode stack c rest = .next mode' stack') :
    run mode stack (c :: rest) = run mode' stack' rest := by
  rw [run, h]

theorem run_blanks {mode : Mode} {stack : List Frame} (hmode : Mode.passesBlanks stack mode)
    {blanks : List Char} (h : Blanks blanks) (rest : List Char) :
    run mode stack (blanks ++ rest) = run mode stack rest := by
  induction blanks with
  | nil => rfl
  | cons c blanks ih =>
      have hc : isBlank c = true := isBlank_of_mem (h c (List.mem_cons_self ..))
      have hrest := ih fun d hd => h d (List.mem_cons_of_mem _ hd)
      have hstep : step mode stack c (blanks ++ rest) = .next mode stack := by
        have hbracket : c ≠ ']' := by
          rintro rfl
          cases hc
        cases mode with
        | value | firstItem | firstKey | key | colon => simp [step, begin, hc, hbracket]
        | afterValue =>
            obtain _ | ⟨_ | _, outer⟩ := stack
            · exact absurd rfl hmode
            · simp [step, afterValue, hc]
            · simp [step, afterValue, hc]
        | _ => cases hmode
      exact (run_of_next hstep).trans hrest

/-- A character that completes a value leads behind it. -/
theorem run_of_complete {mode : Mode} {stack outer : List Frame} {c : Char} {rest : List Char}
    (h : step mode stack c rest = complete outer) :
    run mode stack (c :: rest) = resume outer rest := by
  rw [run, h]
  cases outer <;> rfl

/-! ### Numbers -/

/-- What follows a number must not go on with it. -/
def EndsNumber (rest : List Char) : Prop :=
  ∀ c ∈ rest.head?, c.isDigit = false ∧ c ≠ '.' ∧ c ≠ 'e' ∧ c ≠ 'E'

theorem run_digits {mode : Mode} (hmode : mode ∈ [.whole, .fraction, .exponent])
    (stack : List Frame) {digits : List Char} (h : ∀ c ∈ digits, c.isDigit = true)
    (rest : List Char) : run mode stack (digits ++ rest) = run mode stack rest := by
  induction digits with
  | nil => rfl
  | cons c digits ih =>
      have hc : c.isDigit = true := h c (List.mem_cons_self ..)
      have hrest := ih fun d hd => h d (List.mem_cons_of_mem _ hd)
      have hstep : step mode stack c (digits ++ rest) = .next mode stack := by
        simp only [List.mem_cons, List.not_mem_nil, or_false] at hmode
        rcases hmode with rfl | rfl | rfl <;> simp [step, hc]
      exact (run_of_next hstep).trans hrest

theorem run_endsNumber {mode : Mode} (hmode : mode ∈ [.zero, .whole, .fraction, .exponent])
    (stack : List Frame) {rest : List Char} (h : EndsNumber rest) :
    run mode stack rest = resume stack rest := by
  simp only [List.mem_cons, List.not_mem_nil, or_false] at hmode
  cases rest with
  | nil => rcases hmode with rfl | rfl | rfl | rfl <;> cases stack <;> rfl
  | cons c rest =>
      obtain ⟨hdigit, hpoint, hsmall, hlarge⟩ := h c rfl
      have hstep : step mode stack c rest = afterValue stack c rest := by
        rcases hmode with rfl | rfl | rfl | rfl <;> simp [step, hdigit, hpoint, hsmall, hlarge]
      rw [run, hstep]
      cases stack with
      | nil => rfl
      | cons frame outer => rw [resume, run, step]

theorem run_exponent {mode : Mode} (hmode : mode ∈ [.zero, .whole, .fraction])
    (stack : List Frame) {exponent : List Char} (h : Exponent exponent) {rest : List Char}
    (hrest : EndsNumber rest) : run mode stack (exponent ++ rest) = resume stack rest := by
  simp only [List.mem_cons, List.not_mem_nil, or_false] at hmode
  cases h with
  | none => exact run_endsNumber (by rcases hmode with rfl | rfl | rfl <;> simp) stack hrest
  | @digits mark sign text hmark hsign hdigits =>
      obtain ⟨hne, hall⟩ := hdigits
      obtain ⟨c, digits, rfl⟩ := List.exists_cons_of_ne_nil hne
      have hc : c.isDigit = true := hall c (List.mem_cons_self ..)
      have hsigns : c ≠ '+' ∧ c ≠ '-' := by constructor <;> rintro rfl <;> cases hc
      have hdigits : run .exponent stack (digits ++ rest) = resume stack rest := by
        rw [run_digits (by simp) stack (fun d hd => hall d (List.mem_cons_of_mem _ hd)),
          run_endsNumber (by simp) stack hrest]
      have hmark' : mark.isDigit = false ∧ mark ≠ '.' := by
        rcases hmark with rfl | rfl <;> decide
      simp only [List.mem_cons, List.not_mem_nil, or_false] at hsign
      have hstep (left : List Char) : step mode stack mark left = .next .exponentMark stack := by
        rcases hmode with rfl | rfl | rfl <;> simp [step, hmark, hmark']
      refine (run_of_next (hstep _)).trans ?_
      rcases hsign with rfl | rfl | rfl
      · simp [run, step, hc, hsigns, hdigits]
      · simp [run, step, hc, hdigits]
      · simp [run, step, hc, hdigits]

theorem run_fraction {mode : Mode} (hmode : mode ∈ [.zero, .whole]) (stack : List Frame)
    {fraction exponent : List Char} (h : Fraction fraction) (hexponent : Exponent exponent)
    {rest : List Char} (hrest : EndsNumber rest) :
    run mode stack (fraction ++ (exponent ++ rest)) = resume stack rest := by
  simp only [List.mem_cons, List.not_mem_nil, or_false] at hmode
  cases h with
  | none => exact run_exponent (by rcases hmode with rfl | rfl <;> simp) stack hexponent hrest
  | @digits text hdigits =>
      obtain ⟨hne, hall⟩ := hdigits
      obtain ⟨c, digits, rfl⟩ := List.exists_cons_of_ne_nil hne
      have hc : c.isDigit = true := hall c (List.mem_cons_self ..)
      have hdigits : run .fraction stack (digits ++ (exponent ++ rest)) = resume stack rest := by
        rw [run_digits (by simp) stack (fun d hd => hall d (List.mem_cons_of_mem _ hd)),
          run_exponent (by simp) stack hexponent hrest]
      have hstep (left : List Char) : step mode stack '.' left = .next .point stack := by
        rcases hmode with rfl | rfl <;> simp [step]
      refine (run_of_next (hstep _)).trans ?_
      simp [run, step, hc, hdigits]

theorem run_unsigned {mode : Mode} (hmode : mode ∈ [.value, .firstItem, .minus])
    (stack : List Frame) {text : List Char} (h : Unsigned text) {rest : List Char}
    (hrest : EndsNumber rest) : run mode stack (text ++ rest) = resume stack rest := by
  obtain @⟨whole, fraction, exponent, hwhole, hfraction, hexponent⟩ := h
  simp only [List.mem_cons, List.not_mem_nil, or_false] at hmode
  rw [List.append_assoc, List.append_assoc]
  cases hwhole with
  | zero =>
      have hzero : Mode.zero ∈ [.zero, .whole] := by simp
      have hfraction := run_fraction hzero stack hfraction hexponent hrest
      rcases hmode with rfl | rfl | rfl <;> simpa [run, step, begin, isBlank] using hfraction
  | @digits c digits hdigit hzero hdigits =>
      have hdigits : run .whole stack (digits ++ (fraction ++ (exponent ++ rest))) =
          resume stack rest := by
        rw [run_digits (by simp) stack hdigits,
          run_fraction (by simp) stack hfraction hexponent hrest]
      have hothers : c ≠ ']' ∧ c ≠ 'n' ∧ c ≠ 't' ∧ c ≠ 'f' ∧ c ≠ '-' := by
        refine ⟨?_, ?_, ?_, ?_, ?_⟩ <;> rintro rfl <;> cases hdigit
      have hstep (left : List Char) : step mode stack c left = .next .whole stack := by
        rcases hmode with rfl | rfl | rfl <;>
          simp [step, begin, isBlank_of_isDigit hdigit, hothers, hdigit, hzero]
      exact (run_of_next (hstep _)).trans hdigits

theorem run_number {mode : Mode} (hmode : mode = .firstItem ∨ mode = .value)
    (stack : List Frame) {text : List Char} (h : Number text) {rest : List Char}
    (hrest : EndsNumber rest) : run mode stack (text ++ rest) = resume stack rest := by
  cases h with
  | positive h =>
      exact run_unsigned (by rcases hmode with rfl | rfl <;> simp) stack h hrest
  | @negative text h =>
      have hstep : step mode stack '-' (text ++ rest) = .next .minus stack := by
        rcases hmode with rfl | rfl <;> rfl
      exact (run_of_next hstep).trans (run_unsigned (by simp) stack h hrest)

/-- A blank or a delimiter ends a number. -/
theorem endsNumber_of_blanks {blanks : List Char} (h : Blanks blanks) {c : Char}
    (hc : c ∈ [',', ']', '\x7d']) (rest : List Char) : EndsNumber (blanks ++ c :: rest) := by
  have hends (d : Char) (hd : d ∈ [' ', '\n', '\t', '\r', ',', ']', '\x7d']) :
      d.isDigit = false ∧ d ≠ '.' ∧ d ≠ 'e' ∧ d ≠ 'E' := by
    simp only [List.mem_cons, List.not_mem_nil, or_false] at hd
    rcases hd with rfl | rfl | rfl | rfl | rfl | rfl | rfl <;> decide
  cases blanks with
  | nil =>
      rintro _ ⟨⟩
      exact hends c (List.mem_append_right [' ', '\n', '\t', '\r'] hc)
  | cons d blanks =>
      rintro _ ⟨⟩
      exact hends d (List.mem_append_left [',', ']', '\x7d'] (h d (List.mem_cons_self ..)))

/-! ### Strings -/

theorem run_unread (isKey : Bool) (stack : List Frame) {text : List Char} (h : Unread text)
    (rest : List Char) :
    run (.string isKey) stack (text ++ rest) = run (.string isKey) stack rest := by
  induction h with
  | nil => rfl
  | @plain c text hcontrol hquote hbackslash hrest ih =>
      have hprintable : ¬ c.toNat < 0x20 := Nat.not_lt_of_le hcontrol
      have hstep : step (.string isKey) stack c (text ++ rest) = .next (.string isKey) stack := by
        simp [step, hquote, hbackslash, hprintable]
      exact (run_of_next hstep).trans ih
  | letter hletter hrest ih =>
      obtain ⟨hne, hescaped⟩ := escaped?_eq hletter
      simp [run, step, hne, hescaped, ih]
  | unit hdigits hrest ih =>
      obtain ⟨ha, hb, hc, hd, -⟩ := hdigits
      simp [run, step, hexDigit?_eq ha, hexDigit?_eq hb, hexDigit?_eq hc, hexDigit?_eq hd, ih]

/-! ### Values -/

/-- The bracket that is open among some elements. -/
def frame : Element → Frame
  | .value => .list
  | .member => .object

/-- The mode behind the opening bracket. -/
def first : Element → Mode
  | .value => .firstItem
  | .member => .firstKey

/-- The mode behind a comma. -/
def next : Element → Mode
  | .value => .value
  | .member => .key

/-- The modes in which an element may begin. -/
def Begins (element : Element) (mode : Mode) : Prop := mode = first element ∨ mode = next element

theorem Begins.passesBlanks {element : Element} {mode : Mode} (h : Begins element mode)
    (stack : List Frame) : Mode.passesBlanks stack mode := by
  rcases h with rfl | rfl <;> cases element <;> trivial

theorem run_opening (element : Element) {mode : Mode} (hmode : Begins .value mode)
    (stack : List Frame) (rest : List Char) :
    run mode stack (element.opening :: rest) =
      run (first element) (frame element :: stack) rest := by
  rcases hmode with rfl | rfl <;> cases element <;> rfl

theorem run_closing (element : Element) (stack : List Frame) (rest : List Char) :
    run (first element) (frame element :: stack) (element.closing :: rest) = resume stack rest := by
  cases element <;> exact run_of_complete rfl

/-- Behind an element the bracket may be closed. -/
theorem resume_closing (element : Element) (stack : List Frame) {blanks : List Char}
    (h : Blanks blanks) (rest : List Char) :
    resume (frame element :: stack) (blanks ++ element.closing :: rest) = resume stack rest := by
  have hpass : Mode.passesBlanks (frame element :: stack) .afterValue := nofun
  refine (run_blanks hpass h _).trans ?_
  cases element <;> exact run_of_complete rfl

/-- Behind an element a comma may lead to the next one. -/
theorem resume_comma (element : Element) (stack : List Frame) {blanks : List Char}
    (h : Blanks blanks) (rest : List Char) :
    resume (frame element :: stack) (blanks ++ ',' :: rest) =
      run (next element) (frame element :: stack) rest := by
  have hpass : Mode.passesBlanks (frame element :: stack) .afterValue := nofun
  refine (run_blanks hpass h _).trans ?_
  cases element <;> exact run_of_next rfl

/-- The scanner passes over a part and goes on behind it. -/
def Passes : Part → List Char → Prop
  | .one element, text => ∀ mode, Begins element mode → ∀ stack rest, EndsNumber rest →
      run mode stack (text ++ rest) = resume stack rest
  | .several element, text => ∀ mode, Begins element mode → ∀ stack rest,
      run mode (frame element :: stack) (text ++ element.closing :: rest) = resume stack rest

theorem passes_of_written {part : Part} {text : List Char} (h : Written part text) :
    Passes part text := by
  induction h with
  | null | yes | no =>
      intro mode hmode stack rest hrest
      rcases hmode with rfl | rfl <;> cases stack <;> rfl
  | number h =>
      intro mode hmode stack rest hrest
      exact run_number hmode stack h hrest
  | @string text h =>
      intro mode hmode stack rest hrest
      -- a string may begin wherever a value may
      have hquote (left : List Char) :
          step mode stack '\x22' left = .next (.string false) stack := by
        rcases hmode with rfl | rfl <;> rfl
      rw [List.cons_append, List.append_assoc, run_of_next (hquote _), run_unread false stack h]
      exact run_of_complete rfl
  | @empty element blanks h =>
      intro mode hmode stack rest hrest
      have hfirst : Begins element (first element) := Or.inl rfl
      rw [List.cons_append, List.append_assoc, run_opening element hmode,
        run_blanks (hfirst.passesBlanks _) h]
      exact run_closing element stack rest
  | @filled element text h ih =>
      intro mode hmode stack rest hrest
      rw [List.cons_append, List.append_assoc, run_opening element hmode]
      exact ih _ (Or.inl rfl) stack rest
  | @member key before after text hkey hbefore hafter h ih =>
      intro mode hmode stack rest hrest
      -- so may the name of a member
      have hquote (left : List Char) :
          step mode stack '\x22' left = .next (.string true) stack := by
        rcases hmode with rfl | rfl <;> rfl
      simp only [List.cons_append, List.append_assoc]
      rw [run_of_next (hquote _), run_unread true stack hkey,
        run_of_next (show step _ stack _ _ = .next .colon stack from rfl),
        run_blanks (show Mode.passesBlanks stack .colon from trivial) hbefore,
        run_of_next (show step _ stack _ _ = .next .value stack from rfl),
        run_blanks (show Mode.passesBlanks stack .value from trivial) hafter]
      exact ih _ (Or.inr rfl) stack rest hrest
  | @last element before text after hbefore h hafter ih =>
      intro mode hmode stack rest
      rw [List.append_assoc, List.append_assoc, run_blanks (hmode.passesBlanks _) hbefore,
        ih mode hmode _ _ (endsNumber_of_blanks hafter (by cases element <;> decide) rest)]
      exact resume_closing element stack hafter rest
  | @more element before text after others hbefore h hafter hothers ih ihothers =>
      intro mode hmode stack rest
      simp only [List.append_assoc, List.cons_append]
      rw [run_blanks (hmode.passesBlanks _) hbefore,
        ih mode hmode _ _ (endsNumber_of_blanks hafter (by simp) _), resume_comma element _ hafter]
      exact ihothers _ (Or.inr rfl) stack rest

end Scan

/-- A value is passed over, whatever follows it, as long as that does not go on with a number. -/
theorem skipValue_of_value {text : List Char} (h : Value text) {rest : List Char}
    (hrest : Scan.EndsNumber rest) : skipValue (text ++ rest) = .ok rest :=
  Scan.passes_of_written h .value (Or.inr rfl) [] rest hrest

end HeartbeatPool.Json
