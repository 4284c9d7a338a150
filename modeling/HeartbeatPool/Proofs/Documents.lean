import HeartbeatPool.Proofs.ConfigText

/-!
# Documents and their texts

A JSON text writes a document: a tree of values in which strings are the characters that they stand
for and numbers are as they are written.  Many texts write one document (`Writes`): they differ in
the blanks between the tokens and in the spelling of the strings.

Readers take the elements of a list or an object one by one.  `Remains` tells what is still there of
the text behind some of them, so that what is said of a reader goes by induction on the elements.
-/

namespace HeartbeatPool.Json

open ClientConfig

/-- A JSON document. -/
inductive Document where
  | null
  | boolean (value : Bool)
  | number (digits : String)
  | string (value : String)
  | list (items : List Document)
  | object (members : List (String × Document))
  deriving Repr, Inhabited

/-- A key with its value. -/
inductive PairText {α : Type} (Element : α → List Char → Prop) : String × α → List Char → Prop where
  | pair {name key before after a text} (hkey : Spells key name.toList) (hbefore : Blanks before)
      (hafter : Blanks after) (h : Element a text) :
      PairText Element (name, a)
        ('\x22' :: (key ++ '\x22' :: (before ++ ':' :: (after ++ text))))

/-- The texts of a document, without blanks around them. -/
inductive Writes : Document → List Char → Prop where
  | null : Writes .null ['n', 'u', 'l', 'l']
  | yes : Writes (.boolean true) ['t', 'r', 'u', 'e']
  | no : Writes (.boolean false) ['f', 'a', 'l', 's', 'e']
  | number {digits : String} (h : Number digits.toList) : Writes (.number digits) digits.toList
  | string {value text} (h : Quoted value text) : Writes (.string value) text
  | list {items text} (h : Listed Writes items text) :
      Writes (.list items) ('[' :: (text ++ [']']))
  | object {members text} (h : Listed (PairText Writes) members text) :
      Writes (.object members) ('\x7b' :: (text ++ ['\x7d']))

/-- The texts of a document up to some length. -/
def WritesWithin (bound : Nat) (document : Document) (text : List Char) : Prop :=
  Writes document text ∧ text.length ≤ bound

/-- A text that writes a document, with blanks around it. -/
inductive Holds (document : Document) : List Char → Prop where
  | document {before text after} (hbefore : Blanks before) (h : Writes document text)
      (hafter : Blanks after) : Holds document (before ++ (text ++ after))

variable {document : Document} {text : List Char} {c : Char}

theorem blanks_nil : Blanks [] := List.forall_mem_nil _

/-! ## How texts begin -/

/-- The characters that the texts of a document begin with. -/
def Document.Begins : Document → Char → Prop
  | .null, c => c = 'n'
  | .boolean true, c => c = 't'
  | .boolean false, c => c = 'f'
  | .number _, c => c = '-' ∨ c.isDigit = true
  | .string _, c => c = '\x22'
  | .list _, c => c = '['
  | .object _, c => c = '\x7b'

theorem Number.begins (h : Number text) :
    ∃ c rest, text = c :: rest ∧ (c = '-' ∨ c.isDigit = true) := by
  have hunsigned {text : List Char} (h : Unsigned text) :
      ∃ c rest, text = c :: rest ∧ c.isDigit = true := by
    obtain ⟨hwhole, -, -⟩ := h
    cases hwhole with
    | zero => exact ⟨'0', _, rfl, rfl⟩
    | @digits c rest hdigit => exact ⟨c, _, rfl, hdigit⟩
  cases h with
  | positive h =>
      obtain ⟨c, rest, rfl, hdigit⟩ := hunsigned h
      exact ⟨c, rest, rfl, Or.inr hdigit⟩
  | negative h => exact ⟨'-', _, rfl, Or.inl rfl⟩

theorem Writes.begins (h : Writes document text) :
    ∃ c rest, text = c :: rest ∧ document.Begins c := by
  cases h with
  | number h => exact h.begins
  | string h =>
      obtain ⟨h⟩ := h
      exact ⟨'\x22', _, rfl, rfl⟩
  | _ => exact ⟨_, _, rfl, rfl⟩

theorem Writes.ne_nil (h : Writes document text) : text ≠ [] := by
  obtain ⟨c, rest, rfl, -⟩ := h.begins
  exact List.cons_ne_nil _ _

namespace Document.Begins

variable (h : document.Begins c)
include h

/-- A document begins with none of the characters that may follow one. -/
theorem isToken : isBlank c = false ∧ c ≠ ']' := by
  cases document with
  | number digits =>
      rcases h with rfl | hdigit
      · exact ⟨rfl, by decide⟩
      · refine ⟨isBlank_of_isDigit hdigit, ?_⟩
        rintro rfl
        cases hdigit
  | boolean value =>
      cases value <;> cases h <;> exact ⟨rfl, by decide⟩
  | _ =>
      cases h
      exact ⟨rfl, by decide⟩

/-- Any character but a digit or a minus sign tells the kind of the document. -/
theorem kind :
    (c = 'n' → document = .null) ∧ (c = 't' → document = .boolean true) ∧
      (c = 'f' → document = .boolean false) ∧ (c = '\x22' → ∃ value, document = .string value) ∧
      (c = '[' → ∃ items, document = .list items) ∧
      (c = '\x7b' → ∃ members, document = .object members) := by
  cases document with
  | number digits =>
      have hnot {d : Char} (hd : ¬ (d = '-' ∨ d.isDigit = true)) : c ≠ d := fun heq => hd (heq ▸ h)
      exact ⟨fun heq => absurd heq (hnot (by decide)), fun heq => absurd heq (hnot (by decide)),
        fun heq => absurd heq (hnot (by decide)), fun heq => absurd heq (hnot (by decide)),
        fun heq => absurd heq (hnot (by decide)), fun heq => absurd heq (hnot (by decide))⟩
  | boolean value => cases value <;> cases h <;> simp
  | _ =>
      cases h
      simp

end Document.Begins

theorem Writes.dropBlanks_eq (h : Writes document text) {before : List Char}
    (hbefore : Blanks before) (rest : List Char) :
    dropBlanks (before ++ (text ++ rest)) = text ++ rest := by
  obtain ⟨c, letters, rfl, hbegins⟩ := h.begins
  rw [dropBlanks_append hbefore, List.cons_append, dropBlanks_cons hbegins.isToken.1]

/-! ## Texts of documents are values -/

theorem unread_of_spells {chars : List Char} (h : Spells text chars) : Unread text := by
  induction h with
  | nil => exact .nil
  | plain hcontrol hquote hbackslash hrest ih => exact .plain hcontrol hquote hbackslash ih
  | letter hletter hrest ih => exact .letter hletter ih
  | unit hsmall hdigits hrest ih => exact .unit hdigits ih
  | pair hlarge hlead htrail hrest ih => exact .unit hlead (.unit htrail ih)

theorem Listed.imp {α : Type} {Element Other : α → List Char → Prop} {items : List α}
    (h : Listed Element items text) (himp : ∀ {a text}, Element a text → Other a text) :
    Listed Other items text := by
  induction h with
  | none h => exact .none h
  | last hbefore h hafter => exact .last hbefore (himp h) hafter
  | more hbefore h hafter hrest ih => exact .more hbefore (himp h) hafter ih

theorem Listed.within {items : List Document} (h : Listed Writes items text) {bound : Nat}
    (hbound : text.length ≤ bound) : Listed (WritesWithin bound) items text :=
  h.bounded hbound

theorem Listed.withinPairs {members : List (String × Document)}
    (h : Listed (PairText Writes) members text) {bound : Nat} (hbound : text.length ≤ bound) :
    Listed (PairText (WritesWithin bound)) members text := by
  refine Listed.imp (h.bounded hbound) ?_
  rintro _ _ ⟨⟨hkey, hbefore, hafter, h⟩, hle⟩
  refine .pair hkey hbefore hafter ⟨h, ?_⟩
  simp only [List.length_cons, List.length_append] at hle
  omega

/-- Elements that are written between brackets make up a value. -/
theorem Listed.written {α : Type} {items : List α} (element : Element)
    (h : Listed (fun _ text => Written (.one element) text) items text) :
    Written (.one .value) (element.opening :: (text ++ [element.closing])) := by
  have hcases : Blanks text ∨ Written (.several element) text := by
    induction h with
    | none h => exact Or.inl h
    | last hbefore h hafter => exact Or.inr (.last hbefore h hafter)
    | more hbefore h hafter hrest ih =>
        cases hrest with
        | last hbefore' h' hafter' =>
            exact Or.inr (.more hbefore h hafter (.last hbefore' h' hafter'))
        | more hbefore' h' hafter' hrest' =>
            refine Or.inr (.more hbefore h hafter (ih.resolve_left fun hblanks => ?_))
            exact absurd (hblanks ',' (by simp)) (by decide)
  rcases hcases with h | h
  · exact .empty h
  · exact .filled h

/-- Whatever is written can be passed over. -/
theorem Writes.value (h : Writes document text) : Value text := by
  induction hlength : text.length using Nat.strongRecOn generalizing document text with
  | ind length ih =>
      have hshorter {inner : List Char} {document : Document} {value : List Char}
          (h : Writes document value) (hle : value.length ≤ inner.length)
          (hlt : inner.length < length) : Value value :=
        ih _ (Nat.lt_of_le_of_lt hle hlt) h rfl
      cases h with
      | null => exact .null
      | yes => exact .yes
      | no => exact .no
      | number h => exact .number h
      | string h =>
          obtain ⟨h⟩ := h
          exact .string (unread_of_spells h)
      | @list items inner h =>
          have hlt : inner.length < length := by simp at hlength; omega
          refine Listed.written .value (Listed.imp (Listed.within h (Nat.le_refl _)) ?_)
          exact fun ⟨h, hle⟩ => hshorter h hle hlt
      | @object members inner h =>
          have hlt : inner.length < length := by simp at hlength; omega
          refine Listed.written .member (Listed.imp (Listed.withinPairs h (Nat.le_refl _)) ?_)
          rintro _ _ ⟨hkey, hbefore, hafter, h, hle⟩
          exact .member (unread_of_spells hkey) hbefore hafter (hshorter h hle hlt)

/-! ## What remains of a list -/

/-- What is left of a list behind some of its elements, and which elements are still there.  It is
told whether that is all of them. -/
inductive Remains {α : Type} (Element : α → List Char → Prop) :
    Bool → List α → List Char → Prop where
  | all {items text} (h : Listed Element items text) : Remains Element true items text
  | none {blanks} (h : Blanks blanks) : Remains Element false [] blanks
  | some {a others blanks text} (h : Blanks blanks) (hlisted : Listed Element (a :: others) text) :
      Remains Element false (a :: others) (blanks ++ ',' :: text)

namespace Remains

variable {α : Type} {Element : α → List Char → Prop} {first : Bool} {items : List α} {a : α}

theorem blanks (h : Remains Element first [] text) : Blanks text := by
  cases h with
  | all h => cases h with | none h => exact h
  | none h => exact h

/-- The next element, with what stands in front of it and what remains behind it. -/
theorem cons (h : Remains Element first (a :: items) text) :
    ∃ lead before value more, text = lead ++ (before ++ (value ++ more)) ∧ Lead first lead ∧
      Blanks before ∧ Element a value ∧ Remains Element false items more := by
  have hlisted {text : List Char} (h : Listed Element (a :: items) text) :
      ∃ before value more, text = before ++ (value ++ more) ∧ Blanks before ∧ Element a value ∧
        Remains Element false items more := by
    cases h with
    | last hbefore hvalue hafter => exact ⟨_, _, _, rfl, hbefore, hvalue, .none hafter⟩
    | more hbefore hvalue hafter hrest =>
        exact ⟨_, _, _, rfl, hbefore, hvalue, .some hafter hrest⟩
  cases h with
  | all h =>
      obtain ⟨before, value, more, rfl, hbefore, hvalue, hmore⟩ := hlisted h
      exact ⟨[], before, value, more, rfl, .first, hbefore, hvalue, hmore⟩
  | some hblanks h =>
      obtain ⟨before, value, more, rfl, hbefore, hvalue, hmore⟩ := hlisted h
      exact ⟨_ ++ [','], before, value, more, by simp, .comma hblanks, hbefore, hvalue, hmore⟩

/-- No number goes on into what remains behind it. -/
theorem endsNumber (h : Remains Element false items text) (hc : c ∈ [']', '\x7d'])
    (rest : List Char) : Scan.EndsNumber (text ++ c :: rest) := by
  have hdelimiter : c ∈ [',', ']', '\x7d'] := List.mem_cons_of_mem _ hc
  cases h with
  | none h => exact Scan.endsNumber_of_blanks h hdelimiter rest
  | some h hlisted =>
      rw [List.append_assoc]
      exact Scan.endsNumber_of_blanks h (by decide) _

/-- Behind the last element a list can be closed, and nowhere else. -/
theorem endList_eq (h : Remains Element first items text) (rest : List Char)
    (hfirst : items = [] ∨ first = false) :
    if items = [] then endList (text ++ ']' :: rest) = .ok rest
    else ∃ stop, endList (text ++ ']' :: rest) = .error stop := by
  cases items with
  | nil =>
      rw [if_pos rfl]
      exact endList_of_blanks h.blanks rest
  | cons a items =>
      rw [if_neg (List.cons_ne_nil _ _)]
      obtain rfl : first = false := by simpa using hfirst
      cases h with
      | @some _ _ blanks text h hlisted =>
          rw [List.append_assoc, endList, dropBlanks_append h, List.cons_append,
            dropBlanks_cons (by decide)]
          simp only [Char.reduceEq, if_false, if_true]
          split <;> exact ⟨_, rfl⟩

end Remains

end HeartbeatPool.Json
