import HeartbeatPool.Json.StringLiteral

/-!
# The grammar of JSON

What a JSON text is, told by rules and apart from its readers: blanks, strings together with the
characters that they stand for, numbers, and values nested to any depth.

A string can be spelled in many ways, all of which are read as the same characters
(`stringBody_of_spells`).  A string that nobody reads is held to less: its escapes need not make
sense.
-/

namespace HeartbeatPool.Json

/-! ## Blanks -/

/-- A text of blanks only. -/
def Blanks (text : List Char) : Prop := ∀ c ∈ text, c ∈ [' ', '\n', '\t', '\r']

instance (text : List Char) : Decidable (Blanks text) :=
  List.decidableBAll (fun c : Char => c ∈ [' ', '\n', '\t', '\r']) text

theorem isBlank_of_mem {c : Char} (h : c ∈ [' ', '\n', '\t', '\r']) : isBlank c = true := by
  simp only [List.mem_cons, List.not_mem_nil, or_false] at h
  rcases h with rfl | rfl | rfl | rfl <;> rfl

theorem dropBlanks_append {blanks : List Char} (h : Blanks blanks) (rest : List Char) :
    dropBlanks (blanks ++ rest) = dropBlanks rest :=
  List.dropWhile_append_of_pos fun c hc => isBlank_of_mem (h c hc)

theorem dropBlanks_cons {c : Char} (h : isBlank c = false) (rest : List Char) :
    dropBlanks (c :: rest) = c :: rest :=
  List.dropWhile_cons_of_neg (by simp [h])

theorem isBlank_of_isDigit {c : Char} (h : c.isDigit = true) : isBlank c = false := by
  refine Bool.eq_false_iff.mpr fun hblank => ?_
  simp only [isBlank, Bool.or_eq_true, beq_iff_eq] at hblank
  rcases hblank with ((rfl | rfl) | rfl) | rfl <;> cases h

/-! ## Strings -/

/-- A hexadecimal digit, small or large, and its value. -/
def IsHexDigit (c : Char) (value : Nat) : Prop :=
  value < 16 ∧ (c = value.digitChar ∨ c = value.digitChar.toUpper)

instance (c : Char) (value : Nat) : Decidable (IsHexDigit c value) :=
  inferInstanceAs (Decidable (value < 16 ∧ (c = value.digitChar ∨ c = value.digitChar.toUpper)))

/-- Four hexadecimal digits and the unit of 16 bits that they stand for. -/
inductive Hex (unit : Nat) : List Char → Prop where
  | digits {a b c d : Char} {i j k l : Nat} (ha : IsHexDigit a i) (hb : IsHexDigit b j)
      (hc : IsHexDigit c k) (hd : IsHexDigit d l)
      (hunit : unit = ((i * 16 + j) * 16 + k) * 16 + l) : Hex unit [a, b, c, d]

/-- The letter that stands behind a backslash, and the character that the two stand for. -/
inductive Escape : Char → Char → Prop where
  | quote : Escape '\x22' '\x22'
  | backslash : Escape '\\' '\\'
  | slash : Escape '/' '/'
  | backspace : Escape 'b' '\x08'
  | formFeed : Escape 'f' '\x0c'
  | newline : Escape 'n' '\n'
  | carriageReturn : Escape 'r' '\r'
  | tab : Escape 't' '\t'

/-- What stands between the quotes of a string, and the characters that it stands for.  Each
character is written as it is, by a letter behind a backslash, or by the hexadecimal digits of its
one or two units of 16 bits. -/
inductive Spells : List Char → List Char → Prop where
  | nil : Spells [] []
  | plain {c text chars} (hcontrol : 0x20 ≤ c.toNat) (hquote : c ≠ '\x22')
      (hbackslash : c ≠ '\\') (hrest : Spells text chars) : Spells (c :: text) (c :: chars)
  | letter {letter c text chars} (hletter : Escape letter c) (hrest : Spells text chars) :
      Spells ('\\' :: letter :: text) (c :: chars)
  | unit {c digits text chars} (hsmall : c.toNat < 0x10000) (hdigits : Hex c.toNat digits)
      (hrest : Spells text chars) : Spells ('\\' :: 'u' :: (digits ++ text)) (c :: chars)
  | pair {c lead trail text chars} (hlarge : 0x10000 ≤ c.toNat)
      (hlead : Hex (0xd800 + (c.toNat - 0x10000) / 0x400) lead)
      (htrail : Hex (0xdc00 + (c.toNat - 0x10000) % 0x400) trail) (hrest : Spells text chars) :
      Spells ('\\' :: 'u' :: (lead ++ '\\' :: 'u' :: (trail ++ text))) (c :: chars)

/-- Characters that need no escape. -/
def Bare (chars : List Char) : Prop := ∀ c ∈ chars, 0x20 ≤ c.toNat ∧ c ≠ '\x22' ∧ c ≠ '\\'

instance (chars : List Char) : Decidable (Bare chars) :=
  List.decidableBAll (fun c : Char => 0x20 ≤ c.toNat ∧ c ≠ '\x22' ∧ c ≠ '\\') chars

/-- Characters that need no escape spell themselves. -/
theorem spells_self {chars : List Char} (h : Bare chars) : Spells chars chars := by
  induction chars with
  | nil => exact .nil
  | cons c chars ih =>
      obtain ⟨hcontrol, hquote, hbackslash⟩ := h c (List.mem_cons_self ..)
      exact .plain hcontrol hquote hbackslash (ih fun d hd => h d (List.mem_cons_of_mem _ hd))

/-- A string with its quotes. -/
inductive Quoted (value : String) : List Char → Prop where
  | quotes {text} (h : Spells text value.toList) :
      Quoted value ('\x22' :: (text ++ ['\x22']))

theorem hexDigit?_eq {c : Char} {value : Nat} (h : IsHexDigit c value) :
    hexDigit? c = some value := by
  obtain ⟨hlt, hc⟩ := h
  have table : ∀ value < 16, hexDigit? value.digitChar = some value ∧
      hexDigit? value.digitChar.toUpper = some value := by decide
  rcases hc with rfl | rfl
  · exact (table value hlt).1
  · exact (table value hlt).2

theorem escaped?_eq {letter c : Char} (h : Escape letter c) :
    letter ≠ 'u' ∧ escaped? letter = some c := by
  cases h <;> decide

/-- A character is no half of a pair. -/
theorem not_surrogate (c : Char) : isLead c.toNat = false ∧ isTrail c.toNat = false := by
  have hvalid := c.valid
  have hval : c.val.toNat = c.toNat := rfl
  unfold UInt32.isValidChar Nat.isValidChar at hvalid
  unfold isLead isTrail
  grind

/-- Reading four digits comes to their unit. -/
theorem readString_hex {unit : Nat} {digits : List Char} (h : Hex unit digits)
    (lead : Option Nat) (done rest : List Char) :
    readString (.hex lead 0 0) done (digits ++ rest) =
      match lead with
      | none =>
          if isTrail unit then .error (.before .loneSurrogate rest)
          else if isLead unit then readString (.pairEscape unit) done rest
          else readString .plain (Char.ofNat unit :: done) rest
      | some lead =>
          if isTrail unit then readString .plain (Char.ofNat (joinPair lead unit) :: done) rest
          else .error (.before .loneSurrogate rest) := by
  obtain ⟨ha, hb, hc, hd, rfl⟩ := h
  cases lead <;>
    simp [readString, hexDigit?_eq ha, hexDigit?_eq hb, hexDigit?_eq hc, hexDigit?_eq hd]

/-- The two halves of a pair come to the character that they were made of. -/
theorem joinPair_halves {c : Char} (hlarge : 0x10000 ≤ c.toNat) :
    isLead (0xd800 + (c.toNat - 0x10000) / 0x400) = true ∧
      isTrail (0xd800 + (c.toNat - 0x10000) / 0x400) = false ∧
      isTrail (0xdc00 + (c.toNat - 0x10000) % 0x400) = true ∧
      joinPair (0xd800 + (c.toNat - 0x10000) / 0x400) (0xdc00 + (c.toNat - 0x10000) % 0x400) =
        c.toNat := by
  have hvalid := c.valid
  have hval : c.val.toNat = c.toNat := rfl
  unfold UInt32.isValidChar Nat.isValidChar at hvalid
  simp only [isLead, isTrail, joinPair, Bool.and_eq_true, decide_eq_true_eq,
    Bool.and_eq_false_iff, decide_eq_false_iff_not]
  omega

/-- A string is read as the characters that it stands for. -/
theorem readString_of_spells {text chars : List Char} (h : Spells text chars)
    (done rest : List Char) :
    readString .plain done (text ++ '\x22' :: rest) =
      .ok (String.ofList (done.reverse ++ chars), rest) := by
  induction h generalizing done with
  | nil => simp [readString]
  | @plain c text chars hcontrol hquote hbackslash hrest ih =>
      have hprintable : ¬ c.toNat < 0x20 := Nat.not_lt_of_le hcontrol
      simp [readString, hquote, hbackslash, hprintable, ih]
  | letter hletter hrest ih =>
      obtain ⟨hne, hescaped⟩ := escaped?_eq hletter
      simp [readString, hne, hescaped, ih]
  | @unit c digits text chars hsmall hdigits hrest ih =>
      obtain ⟨hlead, htrail⟩ := not_surrogate c
      simp [readString, readString_hex hdigits, hlead, htrail, ih]
  | @pair c lead trail text chars hlarge hlead htrail hrest ih =>
      obtain ⟨hisLead, hnotTrail, hisTrail, hjoin⟩ := joinPair_halves hlarge
      simp [readString, readString_hex hlead, readString_hex htrail, hisLead, hnotTrail, hisTrail,
        hjoin, ih]

theorem stringBody_of_spells {value : String} {text : List Char} (h : Spells text value.toList)
    (rest : List Char) : stringBody (text ++ '\x22' :: rest) = .ok (value, rest) := by
  rw [stringBody, readString_of_spells h]
  simp

/-! ## Numbers -/

/-- Some digits, at least one. -/
def Digits (text : List Char) : Prop := text ≠ [] ∧ ∀ c ∈ text, c.isDigit = true

/-- The whole part of a number: without zeros in front. -/
inductive Whole : List Char → Prop where
  | zero : Whole ['0']
  | digits {c rest} (hdigit : c.isDigit = true) (hzero : c ≠ '0')
      (hrest : ∀ d ∈ rest, d.isDigit = true) : Whole (c :: rest)

/-- The fraction of a number, if any. -/
inductive Fraction : List Char → Prop where
  | none : Fraction []
  | digits {text} (h : Digits text) : Fraction ('.' :: text)

/-- The exponent of a number, if any. -/
inductive Exponent : List Char → Prop where
  | none : Exponent []
  | digits {mark sign text} (hmark : mark = 'e' ∨ mark = 'E')
      (hsign : sign ∈ [[], ['+'], ['-']]) (h : Digits text) : Exponent (mark :: (sign ++ text))

/-- A number without its sign. -/
inductive Unsigned : List Char → Prop where
  | parts {whole fraction exponent} (hwhole : Whole whole) (hfraction : Fraction fraction)
      (hexponent : Exponent exponent) : Unsigned (whole ++ (fraction ++ exponent))

/-- A number. -/
inductive Number : List Char → Prop where
  | positive {text} (h : Unsigned text) : Number text
  | negative {text} (h : Unsigned text) : Number ('-' :: text)

/-! ## Values -/

/-- What stands between the quotes of a string that nobody reads.  The digits of an escape are
digits, and need not stand for a character. -/
inductive Unread : List Char → Prop where
  | nil : Unread []
  | plain {c text} (hcontrol : 0x20 ≤ c.toNat) (hquote : c ≠ '\x22') (hbackslash : c ≠ '\\')
      (hrest : Unread text) : Unread (c :: text)
  | letter {letter c text} (hletter : Escape letter c) (hrest : Unread text) :
      Unread ('\\' :: letter :: text)
  | unit {unit digits text} (hdigits : Hex unit digits) (hrest : Unread text) :
      Unread ('\\' :: 'u' :: (digits ++ text))

/-- What can stand between brackets: values in a list, members in an object. -/
inductive Element where
  | value
  | member
  deriving DecidableEq, Repr

/-- The opening bracket. -/
def Element.opening : Element → Char
  | .value => '['
  | .member => '\x7b'

/-- The closing bracket. -/
def Element.closing : Element → Char
  | .value => ']'
  | .member => '\x7d'

/-- The parts that a text is made of. -/
inductive Part where
  | one (element : Element)
  /-- Some elements, at least one, with commas between them. -/
  | several (element : Element)
  deriving DecidableEq, Repr

/-- The texts of each part. -/
inductive Written : Part → List Char → Prop where
  | null : Written (.one .value) ['n', 'u', 'l', 'l']
  | yes : Written (.one .value) ['t', 'r', 'u', 'e']
  | no : Written (.one .value) ['f', 'a', 'l', 's', 'e']
  | number {text} (h : Number text) : Written (.one .value) text
  | string {text} (h : Unread text) : Written (.one .value) ('\x22' :: (text ++ ['\x22']))
  | empty {element blanks} (h : Blanks blanks) :
      Written (.one .value) (Element.opening element :: (blanks ++ [element.closing]))
  | filled {element text} (h : Written (.several element) text) :
      Written (.one .value) (element.opening :: (text ++ [element.closing]))
  | member {key before after text} (hkey : Unread key) (hbefore : Blanks before)
      (hafter : Blanks after) (h : Written (.one .value) text) :
      Written (.one .member) ('\x22' :: (key ++ '\x22' :: (before ++ ':' :: (after ++ text))))
  | last {element before text after} (hbefore : Blanks before) (h : Written (.one element) text)
      (hafter : Blanks after) : Written (.several element) (before ++ (text ++ after))
  | more {element before text after rest} (hbefore : Blanks before)
      (h : Written (.one element) text) (hafter : Blanks after)
      (hrest : Written (.several element) rest) :
      Written (.several element) (before ++ (text ++ (after ++ ',' :: rest)))

/-- A value of any kind, nested to any depth. -/
abbrev Value : List Char → Prop := Written (.one .value)

end HeartbeatPool.Json
