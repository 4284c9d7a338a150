import HeartbeatPool.Config.Reader
import HeartbeatPool.Proofs.Skipping

/-!
# Texts of a configuration

What it means that a text renders a list of entries: an object whose member `client_config` lists
one object for each entry, with the members in any order, blanks anywhere between the tokens, and
further members with values of any kind.  Every such text is read as just those entries
(`ofText_of_renders`).

What an object says of one of its fields is told by the values that it gives under the name of the
field (`valuesOf`), so the order of the members does not come into it.  While an object is read,
each field either has its value already, and no further one comes, or it has none yet (`Owes`).
-/

namespace HeartbeatPool.ClientConfig

open Json

/-! ## Lists -/

/-- Some elements, with commas between them and blanks around each. -/
inductive Listed {α : Type} (Element : α → List Char → Prop) : List α → List Char → Prop where
  | none {blanks} (h : Blanks blanks) : Listed Element [] blanks
  | last {a before text after} (hbefore : Blanks before) (h : Element a text)
      (hafter : Blanks after) : Listed Element [a] (before ++ (text ++ after))
  | more {a b others before text after rest} (hbefore : Blanks before) (h : Element a text)
      (hafter : Blanks after) (hrest : Listed Element (b :: others) rest) :
      Listed Element (a :: b :: others) (before ++ (text ++ (after ++ ',' :: rest)))

/-- What stands in front of an element: nothing for the first one, a comma for any other. -/
inductive Lead : Bool → List Char → Prop where
  | first : Lead true []
  | comma {blanks} (h : Blanks blanks) : Lead false (blanks ++ [','])

variable {lead before blanks : List Char} {first : Bool}

theorem nextElement_lead (hlead : Lead first lead) (hbefore : Blanks before) {c : Char}
    (hblank : isBlank c = false) (hclosing : c ≠ ']') (rest : List Char) :
    nextElement first (lead ++ (before ++ c :: rest)) = .ok (some (c :: rest)) := by
  cases hlead with
  | first =>
      rw [List.nil_append, nextElement, dropBlanks_append hbefore, dropBlanks_cons hblank]
      simp [hclosing]
  | comma h =>
      rw [List.append_assoc, nextElement, dropBlanks_append h, List.singleton_append,
        dropBlanks_cons (by decide)]
      simp [dropBlanks_append hbefore, dropBlanks_cons hblank, hclosing]

theorem nextElement_closing (first : Bool) (h : Blanks blanks) (rest : List Char) :
    nextElement first (blanks ++ ']' :: rest) = .ok none := by
  rw [nextElement, dropBlanks_append h, dropBlanks_cons (by decide)]
  rfl

theorem nextKey_lead (hlead : Lead first lead) (hbefore : Blanks before) (rest : List Char) :
    nextKey first (lead ++ (before ++ '\x22' :: rest)) = (stringBody rest).map some := by
  cases hlead with
  | first =>
      rw [List.nil_append, nextKey, dropBlanks_append hbefore, dropBlanks_cons (by decide)]
      simp
  | comma h =>
      rw [List.append_assoc, nextKey, dropBlanks_append h, List.singleton_append,
        dropBlanks_cons (by decide)]
      have hquote : dropBlanks ('\x22' :: rest) = '\x22' :: rest := dropBlanks_cons (by decide) rest
      simp [dropBlanks_append hbefore, hquote]

theorem nextKey_closing (first : Bool) (h : Blanks blanks) (rest : List Char) :
    nextKey first (blanks ++ '\x7d' :: rest) = .ok none := by
  rw [nextKey, dropBlanks_append h, dropBlanks_cons (by decide)]
  rfl

theorem Listed.length_le {α : Type} {Element : α → List Char → Prop} {items : List α}
    {text : List Char} (h : Listed Element items text)
    (hne : ∀ a text, Element a text → text ≠ []) : items.length ≤ text.length := by
  induction h with
  | none => exact Nat.zero_le _
  | last hbefore h hafter =>
      have hpos := List.length_pos_iff.mpr (hne _ _ h)
      simp only [List.length_append, List.length_singleton]
      omega
  | more hbefore h hafter hrest ih =>
      simp only [List.length_append, List.length_cons] at ih ⊢
      omega

/-- A list whose elements can be read is read element by element, up to its closing bracket. -/
theorem readElements_listed {α : Type} {Element : α → List Char → Prop} {element : Reader α}
    {items : List α} {text : List Char} (h : Listed Element items text)
    (hfirst : ∀ {a text}, Element a text → ∃ c rest, text = c :: rest ∧ isBlank c = false ∧ c ≠ ']')
    (hread : ∀ {a text}, a ∈ items → Element a text → ∀ rest,
      element (text ++ rest) = .ok (a, rest))
    {bound : Nat} (hbound : items.length < bound) (hlead : Lead first lead)
    (hempty : items = [] → first = true) (rest : List Char) :
    ∃ blanks, Blanks blanks ∧ readElements element bound first (lead ++ (text ++ ']' :: rest)) =
      .ok (items, blanks ++ ']' :: rest) := by
  induction h generalizing bound lead first with
  | @none blanks h =>
      obtain ⟨bound, rfl⟩ := Nat.exists_eq_add_one_of_ne_zero (Nat.ne_zero_of_lt hbound)
      obtain rfl := hempty rfl
      cases hlead
      exact ⟨blanks, h, by rw [List.nil_append, readElements, nextElement_closing _ h]⟩
  | @last a before text after hbefore h hafter =>
      obtain ⟨bound, rfl⟩ : ∃ n, bound = n + 2 := ⟨bound - 2, by simp at hbound; omega⟩
      -- the last item is read up to the closing bracket behind it
      obtain ⟨c, letters, rfl, hblank, hclosing⟩ := hfirst h
      have hnext := nextElement_lead hlead hbefore hblank hclosing
        (letters ++ (after ++ ']' :: rest))
      have hvalue := hread (List.mem_cons_self ..) h (after ++ ']' :: rest)
      simp only [List.cons_append, List.append_assoc] at hvalue ⊢
      refine ⟨after, hafter, ?_⟩
      rw [readElements, hnext]
      dsimp only
      rw [hvalue]
      dsimp only
      rw [readElements, nextElement_closing _ hafter]
  | @more a b others before text after following hbefore h hafter hrest ih =>
      obtain ⟨bound, rfl⟩ := Nat.exists_eq_add_one_of_ne_zero (Nat.ne_zero_of_lt hbound)
      obtain ⟨c, letters, rfl, hblank, hclosing⟩ := hfirst h
      -- behind the comma the other items are read in the same way
      obtain ⟨blanks, hblanks, hothers⟩ := ih
        (fun hmem => hread (List.mem_cons_of_mem _ hmem)) (Nat.lt_of_succ_lt_succ hbound)
        (Lead.comma hafter) nofun
      have hnext := nextElement_lead hlead hbefore hblank hclosing
        (letters ++ (after ++ ',' :: (following ++ ']' :: rest)))
      have hvalue := hread (List.mem_cons_self ..) h (after ++ ',' :: (following ++ ']' :: rest))
      simp only [List.cons_append, List.nil_append, List.append_assoc] at hvalue hothers ⊢
      refine ⟨blanks, hblanks, ?_⟩
      rw [readElements, hnext]
      dsimp only
      rw [hvalue]
      dsimp only
      rw [hothers]

/-! ## Objects -/

/-- A key with its value: the name that the key spells, and the text of the value. -/
inductive MemberText : String × List Char → List Char → Prop where
  | pair {name key before after value} (hkey : Spells key name.toList) (hbefore : Blanks before)
      (hafter : Blanks after) :
      MemberText (name, value) ('\x22' :: (key ++ '\x22' :: (before ++ ':' :: (after ++ value))))

/-- An object is read member by member, up to its closing brace, if each member is taken in.  `P`
says what has been read so far and what is still to come. -/
theorem readMembers_listed {σ : Type} {P : σ → List (String × List Char) → Prop}
    {member : σ → String → Reader σ} {members : List (String × List Char)} {text : List Char}
    (h : Listed MemberText members text)
    (hmember : ∀ {state name value others}, P state ((name, value) :: others) →
      ∀ {before after rest}, Blanks before → Blanks after → Scan.EndsNumber rest →
        ∃ state', member state name (before ++ ':' :: (after ++ (value ++ rest))) =
          .ok (state', rest) ∧ P state' others)
    {state : σ} (hstate : P state members) {bound : Nat} (hbound : members.length < bound)
    (hlead : Lead first lead) (hempty : members = [] → first = true) (rest : List Char) :
    ∃ state' blanks, P state' [] ∧ Blanks blanks ∧
      readMembers member bound first state (lead ++ (text ++ '\x7d' :: rest)) =
        .ok (state', blanks ++ '\x7d' :: rest) := by
  induction h generalizing bound lead first state with
  | @none blanks h =>
      obtain ⟨bound, rfl⟩ := Nat.exists_eq_add_one_of_ne_zero (Nat.ne_zero_of_lt hbound)
      obtain rfl := hempty rfl
      cases hlead
      exact ⟨state, blanks, hstate, h,
        by rw [List.nil_append, readMembers, nextKey_closing _ h]⟩
  | @last a before text after hbefore h hafter =>
      obtain ⟨bound, rfl⟩ : ∃ n, bound = n + 2 := ⟨bound - 2, by simp at hbound; omega⟩
      obtain ⟨hkey, hbefore', hafter'⟩ := h
      have hends := Scan.endsNumber_of_blanks hafter (c := '\x7d') (by decide) rest
      obtain ⟨state', hread, hstate'⟩ := hmember hstate hbefore' hafter' hends
      refine ⟨state', after, hstate', hafter, ?_⟩
      simp only [List.cons_append, List.append_assoc]
      rw [readMembers, nextKey_lead hlead hbefore, stringBody_of_spells hkey]
      dsimp only [Except.map]
      rw [hread]
      dsimp only
      rw [readMembers, nextKey_closing _ hafter]
  | @more a b others before text after following hbefore h hafter hrest ih =>
      obtain ⟨bound, rfl⟩ := Nat.exists_eq_add_one_of_ne_zero (Nat.ne_zero_of_lt hbound)
      obtain ⟨hkey, hbefore', hafter'⟩ := h
      have hends := Scan.endsNumber_of_blanks hafter (c := ',') (by decide)
        (following ++ '\x7d' :: rest)
      -- the first member is read, and the comma behind it leads to the next one
      obtain ⟨state', hread, hstate'⟩ := hmember hstate hbefore' hafter' hends
      obtain ⟨final, blanks, hfinal, hblanks, hothers⟩ := ih hstate'
        (Nat.lt_of_succ_lt_succ hbound) (Lead.comma hafter) nofun
      refine ⟨final, blanks, hfinal, hblanks, ?_⟩
      simp only [List.cons_append, List.nil_append, List.append_assoc] at hothers ⊢
      rw [readMembers, nextKey_lead hlead hbefore, stringBody_of_spells hkey]
      dsimp only [Except.map]
      rw [hread]
      dsimp only
      rw [hothers]

/-! ## What an object says of its fields -/

/-- The values that are given under a name. -/
def valuesOf (name : String) (members : List (String × List Char)) : List (List Char) :=
  members.filterMap fun member => if member.1 = name then some member.2 else none

/-- What the values under the name of a field say: there is one, and it is the text of the field's
value, or there is none, and the field has the value that it usually has. -/
inductive Gives {α : Type} (Text : α → List Char → Prop) (usual : Option α) (value : α) :
    List (List Char) → Prop where
  | given {text} (h : Text value text) : Gives Text usual value [text]
  | absent (h : usual = some value) : Gives Text usual value []

/-- A truth value. -/
inductive Truth : Bool → List Char → Prop where
  | yes : Truth true ['t', 'r', 'u', 'e']
  | no : Truth false ['f', 'a', 'l', 's', 'e']

/-- A text that may be unset.  It is so if it is null or empty. -/
inductive Setting : Option String → List Char → Prop where
  | some {value text} (h : Quoted value text) : Setting (some value) text
  | empty {text} (h : Quoted "" text) : Setting none text
  | null : Setting none ['n', 'u', 'l', 'l']

/-- The names that an entry knows. -/
def entryNames : List String :=
  ["svc_name", "server_addr", "use_tls", "cert_file", "server_host_override"]

/-- The members of an object are those of an entry, in any order, and others. -/
structure EntryMembers (entry : ClientEntry) (members : List (String × List Char)) : Prop where
  service : Gives Quoted none entry.service (valuesOf "svc_name" members)
  address : Gives Quoted none entry.address (valuesOf "server_addr" members)
  tls : Gives Truth (some false) entry.tls (valuesOf "use_tls" members)
  caCertificate :
    Gives Setting (some none) entry.caCertificate (valuesOf "cert_file" members)
  hostOverride :
    Gives Setting (some none) entry.hostOverride (valuesOf "server_host_override" members)
  others : ∀ member ∈ members, member.1 ∉ entryNames → Value member.2

/-- An object that renders an entry. -/
inductive EntryText (entry : ClientEntry) : List Char → Prop where
  | object {members text} (hmembers : EntryMembers entry members)
      (h : Listed MemberText members text) : EntryText entry ('\x7b' :: (text ++ ['\x7d']))

/-- A list that renders some entries. -/
inductive EntriesText (entries : List ClientEntry) : List Char → Prop where
  | list {text} (h : Listed EntryText entries text) :
      EntriesText entries ('[' :: (text ++ [']']))

/-- The members of an object are those of a configuration, in any order, and others. -/
structure ConfigMembers (entries : List ClientEntry) (members : List (String × List Char)) :
    Prop where
  entries : Gives EntriesText none entries (valuesOf "client_config" members)
  others : ∀ member ∈ members, member.1 ≠ "client_config" → Value member.2

/-- A text that renders some entries: one object, with blanks around it. -/
inductive Renders (entries : List ClientEntry) : List Char → Prop where
  | object {members before text after} (hbefore : Blanks before)
      (hmembers : ConfigMembers entries members) (h : Listed MemberText members text)
      (hafter : Blanks after) :
      Renders entries (before ++ '\x7b' :: (text ++ '\x7d' :: after))

/-! ## Reading a field -/

/-- Every text of a value is read as that value, with blanks in front of it and whatever follows. -/
def Reads {α : Type} (Text : α → List Char → Prop) (reader : Reader α) (value : α) : Prop :=
  ∀ text, Text value text → ∀ before rest, Blanks before →
    reader (before ++ (text ++ rest)) = .ok (value, rest)

/-- What is still to come of a field: nothing if it was read already. -/
inductive Owes {α : Type} (Text : α → List Char → Prop) (usual : Option α) (value : α) :
    Option α → List (List Char) → Prop where
  | pending {texts} (h : Gives Text usual value texts) : Owes Text usual value none texts
  | settled : Owes Text usual value (some value) []

@[simp] theorem valuesOf_cons_self (name : String) (value : List Char)
    (others : List (String × List Char)) :
    valuesOf name ((name, value) :: others) = value :: valuesOf name others := by
  simp [valuesOf]

@[simp] theorem valuesOf_cons_ne {name other : String} (h : other ≠ name) (value : List Char)
    (others : List (String × List Char)) :
    valuesOf name ((other, value) :: others) = valuesOf name others := by
  simp [valuesOf, h]

namespace Owes

variable {α σ : Type} {Text : α → List Char → Prop} {usual old : Option α} {value : α}

/-- The value of a field is read where it comes, and then no other one comes. -/
theorem read {text : List Char} {texts : List (List Char)}
    (h : Owes Text usual value old (text :: texts)) {reader : Reader α}
    (hreads : Reads Text reader value) {before after : List Char} (hbefore : Blanks before)
    (hafter : Blanks after) (key : String) (set : α → σ) (rest : List Char) :
    readOnce key old reader set (before ++ ':' :: (after ++ (text ++ rest))) =
        .ok (set value, rest) ∧ Owes Text usual value (some value) texts := by
  obtain ⟨⟨htext⟩⟩ := h
  refine ⟨?_, .settled⟩
  rw [readOnce, readColon, dropBlanks_append hbefore, dropBlanks_cons (by decide)]
  simp [hreads text htext after rest hafter, Except.map]

/-- Once nothing is to come, the field has its value, or the usual one. -/
theorem eq_of_nil (h : Owes Text usual value old []) : (old <|> usual) = some value := by
  cases h with
  | pending h =>
      obtain _ | h := h
      exact h
  | settled => rfl

end Owes

theorem reads_quoted (value : String) : Reads Quoted readText value := by
  rintro _ ⟨h⟩ before rest hbefore
  rw [readText, dropBlanks_append hbefore, List.cons_append, dropBlanks_cons (by decide),
    List.append_assoc]
  exact stringBody_of_spells h rest

theorem reads_truth (value : Bool) : Reads Truth readBool value := by
  rintro text h before rest hbefore
  rw [readBool, dropBlanks_append hbefore]
  cases h <;> rfl

theorem reads_setting {value : Option String} (hset : value ≠ some "") :
    Reads Setting readOptional value := by
  rintro text h before rest hbefore
  have hquoted {value : String} (h : Quoted value text) :
      readOptional (before ++ (text ++ rest)) =
        .ok (if value = "" then none else some value, rest) := by
    have hread := reads_quoted value text h [] rest nofun
    obtain ⟨h⟩ := h
    rw [List.nil_append, List.cons_append] at hread
    rw [readOptional, dropBlanks_append hbefore, List.cons_append, dropBlanks_cons (by decide)]
    exact congrArg (Except.map _) hread
  cases h with
  | @some value _ h =>
      have hne : value ≠ "" := fun heq => hset (congrArg Option.some heq)
      rw [hquoted h, if_neg hne]
  | empty h => rw [hquoted h, if_pos rfl]
  | null =>
      rw [readOptional, dropBlanks_append hbefore]
      rfl

/-- The value of a name that is not known is passed over. -/
theorem passMember_of_value {σ : Type} (state : σ) {before after value rest : List Char}
    (h : Value value) (hbefore : Blanks before) (hafter : Blanks after)
    (hrest : Scan.EndsNumber rest) :
    passMember state (before ++ ':' :: (after ++ (value ++ rest))) = .ok (state, rest) := by
  have hskip : skipValue (after ++ (value ++ rest)) = .ok rest :=
    (Scan.run_blanks (show Scan.Mode.passesBlanks [] .value from trivial) hafter _).trans
      (skipValue_of_value h hrest)
  rw [passMember, readColon, dropBlanks_append hbefore, dropBlanks_cons (by decide)]
  simp [hskip, Except.map]

/-! ## Reading an entry -/

/-- An object of which some members were read still owes the others of its entry. -/
structure Owed (entry : ClientEntry) (draft : Draft) (members : List (String × List Char)) :
    Prop where
  service : Owes Quoted none entry.service draft.service (valuesOf "svc_name" members)
  address : Owes Quoted none entry.address draft.address (valuesOf "server_addr" members)
  tls : Owes Truth (some false) entry.tls draft.tls (valuesOf "use_tls" members)
  caCertificate : Owes Setting (some none) entry.caCertificate draft.caCertificate
    (valuesOf "cert_file" members)
  hostOverride : Owes Setting (some none) entry.hostOverride draft.hostOverride
    (valuesOf "server_host_override" members)
  others : ∀ member ∈ members, member.1 ∉ entryNames → Value member.2

variable {entry : ClientEntry}

theorem EntryMembers.owed {members : List (String × List Char)} (h : EntryMembers entry members) :
    Owed entry {} members :=
  ⟨.pending h.service, .pending h.address, .pending h.tls, .pending h.caCertificate,
    .pending h.hostOverride, h.others⟩

/-- One more member is read, and the others are still owed. -/
theorem Owed.read (hca : entry.caCertificate ≠ some "")
    (hhost : entry.hostOverride ≠ some "") {draft : Draft} {name : String}
    {value : List Char} {others : List (String × List Char)}
    (h : Owed entry draft ((name, value) :: others)) {before after rest : List Char}
    (hbefore : Blanks before) (hafter : Blanks after) (hrest : Scan.EndsNumber rest) :
    ∃ draft', readEntryMember draft name (before ++ ':' :: (after ++ (value ++ rest))) =
      .ok (draft', rest) ∧ Owed entry draft' others := by
  obtain ⟨hservice, haddress, htls, hcaCertificate, hhostOverride, hothers⟩ := h
  -- what is left of the other members is still owed
  have hothers' : ∀ member ∈ others, member.1 ∉ entryNames → Value member.2 :=
    fun member hmem => hothers member (List.mem_cons_of_mem _ hmem)
  unfold readEntryMember
  by_cases h₁ : name = "svc_name"
  · subst h₁
    simp only [valuesOf_cons_self, valuesOf_cons_ne, ne_eq, String.reduceEq, not_false_eq_true]
      at hservice haddress htls hcaCertificate hhostOverride
    obtain ⟨hread, hservice⟩ := hservice.read (reads_quoted _) hbefore hafter "svc_name"
      (fun value => { draft with service := some value }) rest
    exact ⟨_, hread, hservice, haddress, htls, hcaCertificate, hhostOverride, hothers'⟩
  by_cases h₂ : name = "server_addr"
  · subst h₂
    simp only [valuesOf_cons_self, valuesOf_cons_ne, ne_eq, String.reduceEq, not_false_eq_true]
      at hservice haddress htls hcaCertificate hhostOverride
    obtain ⟨hread, haddress⟩ := haddress.read (reads_quoted _) hbefore hafter "server_addr"
      (fun value => { draft with address := some value }) rest
    exact ⟨_, hread, hservice, haddress, htls, hcaCertificate, hhostOverride, hothers'⟩
  by_cases h₃ : name = "use_tls"
  · subst h₃
    simp only [valuesOf_cons_self, valuesOf_cons_ne, ne_eq, String.reduceEq, not_false_eq_true]
      at hservice haddress htls hcaCertificate hhostOverride
    obtain ⟨hread, htls⟩ := htls.read (reads_truth _) hbefore hafter "use_tls"
      (fun value => { draft with tls := some value }) rest
    exact ⟨_, hread, hservice, haddress, htls, hcaCertificate, hhostOverride, hothers'⟩
  by_cases h₄ : name = "cert_file"
  · subst h₄
    simp only [valuesOf_cons_self, valuesOf_cons_ne, ne_eq, String.reduceEq, not_false_eq_true]
      at hservice haddress htls hcaCertificate hhostOverride
    obtain ⟨hread, hcaCertificate⟩ := hcaCertificate.read (reads_setting hca) hbefore hafter
      "cert_file" (fun value => { draft with caCertificate := some value }) rest
    exact ⟨_, hread, hservice, haddress, htls, hcaCertificate, hhostOverride, hothers'⟩
  by_cases h₅ : name = "server_host_override"
  · subst h₅
    simp only [valuesOf_cons_self, valuesOf_cons_ne, ne_eq, String.reduceEq, not_false_eq_true]
      at hservice haddress htls hcaCertificate hhostOverride
    obtain ⟨hread, hhostOverride⟩ := hhostOverride.read (reads_setting hhost) hbefore hafter
      "server_host_override" (fun value => { draft with hostOverride := some value }) rest
    exact ⟨_, hread, hservice, haddress, htls, hcaCertificate, hhostOverride, hothers'⟩
  · -- a name that is no field is skipped with its value
    have hvalue : Value value :=
      hothers _ (List.mem_cons_self ..) (by simp [entryNames, h₁, h₂, h₃, h₄, h₅])
    simp only [valuesOf_cons_ne h₁, valuesOf_cons_ne h₂, valuesOf_cons_ne h₃, valuesOf_cons_ne h₄,
      valuesOf_cons_ne h₅] at hservice haddress htls hcaCertificate hhostOverride
    refine ⟨draft, ?_, hservice, haddress, htls, hcaCertificate, hhostOverride, hothers'⟩
    rw [if_neg h₁, if_neg h₂, if_neg h₃, if_neg h₄, if_neg h₅]
    exact passMember_of_value draft hvalue hbefore hafter hrest

/-- Once nothing is owed any more, the entry is complete. -/
theorem Owed.entry_eq {draft : Draft} (h : Owed entry draft []) : draft.entry = .ok entry := by
  obtain ⟨hservice, haddress, htls, hcaCertificate, hhostOverride, -⟩ := h
  obtain ⟨service, address, tls, caCertificate, hostOverride⟩ := draft
  obtain rfl : service = some entry.service := by simpa using hservice.eq_of_nil
  obtain rfl : address = some entry.address := by simpa using haddress.eq_of_nil
  have htls : tls.getD false = entry.tls := by
    cases tls <;> simpa using htls.eq_of_nil
  have hcaCertificate : caCertificate.join = entry.caCertificate := by
    cases caCertificate <;> simpa using hcaCertificate.eq_of_nil
  have hhostOverride : hostOverride.join = entry.hostOverride := by
    cases hostOverride <;> simpa using hhostOverride.eq_of_nil
  rw [Draft.entry, htls, hcaCertificate, hhostOverride]

theorem MemberText.ne_nil {member : String × List Char} {text : List Char}
    (h : MemberText member text) : text ≠ [] := by
  cases h
  exact List.cons_ne_nil _ _

theorem endObject_of_blanks {blanks : List Char} (h : Blanks blanks) (rest : List Char) :
    endObject (blanks ++ '\x7d' :: rest) = .ok rest := by
  rw [endObject, dropBlanks_append h, dropBlanks_cons (by decide)]
  rfl

theorem endList_of_blanks {blanks : List Char} (h : Blanks blanks) (rest : List Char) :
    endList (blanks ++ ']' :: rest) = .ok rest := by
  rw [endList, dropBlanks_append h, dropBlanks_cons (by decide)]
  rfl

/-- Every object that renders an entry is read as that entry. -/
theorem readEntry_of_text (hca : entry.caCertificate ≠ some "")
    (hhost : entry.hostOverride ≠ some "") {text : List Char} (h : EntryText entry text)
    {bound : Nat} (hbound : text.length ≤ bound) (rest : List Char) :
    readEntry bound (text ++ rest) = .ok (entry, rest) := by
  obtain @⟨members, _, hmembers, h⟩ := h
  have hlength := h.length_le fun _ _ => MemberText.ne_nil
  simp only [List.length_cons, List.length_append] at hbound
  have hcount : members.length < bound := by omega
  obtain ⟨draft, blanks, hdraft, hblanks, hread⟩ := readMembers_listed h
    (fun h _ _ _ => h.read hca hhost) hmembers.owed hcount Lead.first (fun _ => rfl) rest
  rw [List.nil_append] at hread
  rw [readEntry, List.cons_append, dropBlanks_cons (by decide), List.append_assoc]
  simp only [List.singleton_append, readEntryObject, hread, hdraft.entry_eq,
    endObject_of_blanks hblanks]
  rfl

/-! ## Reading a configuration -/

theorem Listed.bounded {α : Type} {Element : α → List Char → Prop} {items : List α}
    {text : List Char} (h : Listed Element items text) {bound : Nat}
    (hbound : text.length ≤ bound) :
    Listed (fun a text => Element a text ∧ text.length ≤ bound) items text := by
  induction h with
  | none h => exact .none h
  | last hbefore h hafter =>
      simp only [List.length_append] at hbound
      exact .last hbefore ⟨h, by omega⟩ hafter
  | more hbefore h hafter hrest ih =>
      simp only [List.length_append, List.length_cons] at hbound
      exact .more hbefore ⟨h, by omega⟩ hafter (ih (by omega))

theorem length_value_le {members : List (String × List Char)} {text : List Char}
    (h : Listed MemberText members text) {name : String} {value : List Char}
    (hvalue : value ∈ valuesOf name members) : value.length ≤ text.length := by
  have hmember {member : String × List Char} {text : List Char} (h : MemberText member text) :
      member.2.length ≤ text.length := by
    cases h
    simp only [List.length_cons, List.length_append]
    omega
  obtain ⟨member, hmem, hsome⟩ := List.mem_filterMap.mp hvalue
  obtain ⟨-, rfl⟩ : member.1 = name ∧ member.2 = value := by simpa using hsome
  clear hvalue hsome
  induction h with
  | none => exact absurd hmem (List.not_mem_nil)
  | last hbefore h hafter =>
      obtain rfl := List.mem_singleton.mp hmem
      have hle := hmember h
      simp only [List.length_append]
      omega
  | more hbefore h hafter hrest ih =>
      simp only [List.length_append, List.length_cons]
      rcases List.mem_cons.mp hmem with rfl | hmem
      · have hle := hmember h
        omega
      · have hle := ih hmem
        omega

/-- Every list that renders some entries is read as those entries. -/
theorem reads_entries {entries : List ClientEntry}
    (hset : ∀ entry ∈ entries,
      entry.caCertificate ≠ some "" ∧ entry.hostOverride ≠ some "")
    (bound : Nat) : Reads (fun entries text => EntriesText entries text ∧ text.length ≤ bound)
      (readEntries bound) entries := by
  rintro _ ⟨⟨h⟩, hbound⟩ before rest hbefore
  simp only [List.length_cons, List.length_append] at hbound
  have hlength := h.length_le fun _ _ h => by cases h; exact List.cons_ne_nil _ _
  have hcount : entries.length < bound := by omega
  obtain ⟨blanks, hblanks, hread⟩ := readElements_listed
    (h.bounded (show _ ≤ bound by omega))
    (fun h => by obtain ⟨⟨_, _⟩, _⟩ := h; exact ⟨_, _, rfl, by decide, by decide⟩)
    (fun hmem h rest => readEntry_of_text (hset _ hmem).1 (hset _ hmem).2 h.1 h.2 rest)
    hcount Lead.first (fun _ => rfl) rest
  rw [List.nil_append] at hread
  rw [readEntries, dropBlanks_append hbefore, List.cons_append, dropBlanks_cons (by decide),
    List.append_assoc]
  simp only [List.singleton_append, hread, endList_of_blanks hblanks]
  rfl

/-- An object of which some members were read still owes the others of its configuration. -/
structure OwedConfig (bound : Nat) (entries : List ClientEntry)
    (old : Option (List ClientEntry)) (members : List (String × List Char)) : Prop where
  entries : Owes (fun entries text => EntriesText entries text ∧ text.length ≤ bound) none entries
    old (valuesOf "client_config" members)
  others : ∀ member ∈ members, member.1 ≠ "client_config" → Value member.2

theorem OwedConfig.read {bound : Nat} {entries : List ClientEntry}
    (hset : ∀ entry ∈ entries,
      entry.caCertificate ≠ some "" ∧ entry.hostOverride ≠ some "")
    {old : Option (List ClientEntry)} {name : String} {value : List Char}
    {others : List (String × List Char)}
    (h : OwedConfig bound entries old ((name, value) :: others)) {before after rest : List Char}
    (hbefore : Blanks before) (hafter : Blanks after) (hrest : Scan.EndsNumber rest) :
    ∃ old', readConfigMember bound old name (before ++ ':' :: (after ++ (value ++ rest))) =
      .ok (old', rest) ∧ OwedConfig bound entries old' others := by
  obtain ⟨hentries, hothers⟩ := h
  have hothers' : ∀ member ∈ others, member.1 ≠ "client_config" → Value member.2 :=
    fun member hmem => hothers member (List.mem_cons_of_mem _ hmem)
  unfold readConfigMember
  by_cases hname : name = "client_config"
  · subst hname
    rw [valuesOf_cons_self] at hentries
    obtain ⟨hread, hentries⟩ := hentries.read (reads_entries hset bound) hbefore hafter
      "client_config" some rest
    exact ⟨_, hread, hentries, hothers'⟩
  · rw [valuesOf_cons_ne hname] at hentries
    refine ⟨old, ?_, hentries, hothers'⟩
    rw [if_neg hname]
    exact passMember_of_value old (hothers _ (List.mem_cons_self ..) hname) hbefore hafter
      hrest

/-- A rendering is read up to the blanks behind its object. -/
theorem readConfig_of_renders {entries : List ClientEntry}
    (hset : ∀ entry ∈ entries,
      entry.caCertificate ≠ some "" ∧ entry.hostOverride ≠ some "")
    {text : List Char} (h : Renders entries text) {bound : Nat} (hbound : text.length ≤ bound) :
    ∃ after, Blanks after ∧ readConfig bound text = .ok (⟨entries⟩, after) := by
  obtain @⟨members, before, text, after, hbefore, ⟨hentries, hothers⟩, h, hafter⟩ := h
  simp only [List.length_append, List.length_cons] at hbound
  have hgives : Gives (fun entries text => EntriesText entries text ∧ text.length ≤ bound) none
      entries (valuesOf "client_config" members) := by
    have hle : ∀ value ∈ valuesOf "client_config" members, value.length ≤ text.length :=
      fun _ => length_value_le h
    generalize valuesOf "client_config" members = texts at hentries hle
    cases hentries with
    | given hvalue =>
        have hle := hle _ (List.mem_singleton_self _)
        exact .given ⟨hvalue, by omega⟩
    | absent hnone => exact .absent hnone
  have hlength := h.length_le fun _ _ => MemberText.ne_nil
  have howed : OwedConfig bound entries none members := ⟨.pending hgives, hothers⟩
  have hcount : members.length < bound := by omega
  obtain ⟨final, blanks, hfinal, hblanks, hread⟩ := readMembers_listed h
    (fun h _ _ _ => h.read hset) howed hcount Lead.first (fun _ => rfl) after
  obtain rfl : final = some entries := by simpa using hfinal.entries.eq_of_nil
  rw [List.nil_append] at hread
  refine ⟨after, hafter, ?_⟩
  rw [readConfig, dropBlanks_append hbefore, dropBlanks_cons (by decide)]
  simp only [hread, endObject_of_blanks hblanks]
  rfl

/-- Every text that renders some entries is read as just those entries, in their order: whatever
the order of the members, the blanks between the tokens, and the spelling of the strings, whether a
field that is not set is missing, null or empty, and whatever else there is in the objects. -/
theorem ofText_of_renders (entries : List ClientEntry)
    (hset : ∀ entry ∈ entries,
      entry.caCertificate ≠ some "" ∧ entry.hostOverride ≠ some "")
    (text : String) (h : Renders entries text.toList) : ofText text = .ok ⟨entries⟩ := by
  have hbound : text.toList.length ≤ text.length + 1 := by
    rw [String.length_toList]
    exact Nat.le_succ _
  obtain ⟨after, hafter, hread⟩ := readConfig_of_renders hset h hbound
  have hend : expectEnd after = .ok () := by
    have hblank := dropBlanks_append hafter []
    rw [List.append_nil] at hblank
    rw [expectEnd, hblank]
    rfl
  simp only [ofText, hread, hend, bind, Except.bind, pure, Except.pure]
  rfl

/-- A text with blanks, members in another order, members that nobody knows, escapes in a key and in
a value, and fields that are null, empty or missing. -/
def mixedText : String :=
  "\x7b\"n\":[[],\x7b\"m\":-10\x7d], \"\\u0063lient_config\" :\n" ++
    "[\x7b\"server_addr\":\"\\uD83d\\ude00\",\"cert_file\":null,\"svc_name\":\"s\"\x7d," ++
    "\x7b\"svc_name\":\"s\",\"server_addr\":\"t\\/\",\"use_tls\":true," ++
    "\"server_host_override\":\"\"\x7d]\x7d"

/-- What the text says. -/
def mixedEntries : List ClientEntry :=
  [{ service := "s", address := "😀" }, { service := "s", address := "t/", tls := true }]

theorem renders_mixedText : Renders mixedEntries mixedText.toList := by
  have hnone : Blanks [] := by decide
  have hspace : Blanks [' '] := by decide
  have hline : Blanks ['\n'] := by decide
  have hservice : Quoted "s" "\"s\"".toList := .quotes (spells_self (by decide))
  have pair {name : String} (value : List Char) (h : Bare name.toList) :
      MemberText (name, value)
        ('\x22' :: (name.toList ++ '\x22' :: ([] ++ ':' :: ([] ++ value)))) :=
    .pair (spells_self h) hnone hnone
  -- the first entry
  have haddress : Quoted "😀" _ :=
    .quotes (.pair (by decide)
      (.digits (by decide : IsHexDigit 'D' 13) (by decide : IsHexDigit '8' 8)
        (by decide : IsHexDigit '3' 3) (by decide : IsHexDigit 'd' 13) rfl)
      (.digits (by decide : IsHexDigit 'd' 13) (by decide : IsHexDigit 'e' 14)
        (by decide : IsHexDigit '0' 0) (by decide : IsHexDigit '0' 0) rfl) .nil)
  have hmembers : EntryMembers { service := "s", address := "😀" }
      [("server_addr", _), ("cert_file", _), ("svc_name", _)] :=
    { service := by simpa [valuesOf] using Gives.given hservice
      address := by simpa [valuesOf] using Gives.given haddress
      tls := by simpa [valuesOf] using Gives.absent rfl
      caCertificate := by simpa [valuesOf] using Gives.given Setting.null
      hostOverride := by simpa [valuesOf] using Gives.absent rfl
      others := by simp [entryNames] }
  have hfirst := EntryText.object hmembers
    (.more hnone (pair _ (by decide)) hnone
      (.more hnone (pair _ (by decide)) hnone (.last hnone (pair _ (by decide)) hnone)))
  -- the second entry
  have haddress : Quoted "t/" _ :=
    .quotes (.plain (by decide) (by decide) (by decide) (.letter .slash .nil))
  have hmembers : EntryMembers { service := "s", address := "t/", tls := true }
      [("svc_name", _), ("server_addr", _), ("use_tls", _), ("server_host_override", _)] :=
    { service := by simpa [valuesOf] using Gives.given hservice
      address := by simpa [valuesOf] using Gives.given haddress
      tls := by simpa [valuesOf] using Gives.given Truth.yes
      caCertificate := by simpa [valuesOf] using Gives.absent rfl
      hostOverride := by simpa [valuesOf] using Gives.given (Setting.empty (.quotes .nil))
      others := by simp [entryNames] }
  have hsecond := EntryText.object hmembers
    (.more hnone (pair _ (by decide)) hnone (.more hnone (pair _ (by decide)) hnone
      (.more hnone (pair _ (by decide)) hnone (.last hnone (pair _ (by decide)) hnone))))
  -- the whole text
  have hentries : EntriesText mixedEntries _ :=
    .list (.more hnone hfirst hnone (.last hnone hsecond hnone))
  have hten : Number ('-' :: (['1', '0'] ++ ([] ++ []))) :=
    .negative (.parts (.digits rfl (by decide) fun d hd => List.mem_singleton.mp hd ▸ rfl) .none
      .none)
  have hm : Unread ['m'] := .plain (by decide) (by decide) (by decide) .nil
  have hlist : Value (Element.value.opening :: ([] ++ [Element.value.closing])) := .empty hnone
  have hnote := Written.filled (.more hnone hlist hnone (.last hnone
    (.filled (.last hnone (.member hm hnone hnone (.number hten)) hnone)) hnone))
  have hkey : Spells "\\u0063lient_config".toList "client_config".toList :=
    .unit (by decide : 'c'.toNat < 0x10000)
      (.digits (by decide : IsHexDigit '0' 0) (by decide : IsHexDigit '0' 0)
        (by decide : IsHexDigit '6' 6) (by decide : IsHexDigit '3' 3) rfl)
      (spells_self (by decide))
  have hmembers : ConfigMembers mixedEntries [("n", _), ("client_config", _)] :=
    { entries := by simpa [valuesOf] using Gives.given hentries
      others := by simpa using hnote }
  have h := Renders.object hnone hmembers
    (.more hnone (pair _ (by decide)) hnone (.last hspace (.pair hkey hspace hline) hnone)) hnone
  refine Eq.mp (congrArg (Renders mixedEntries) ?_) h
  decide +kernel

theorem ofText_mixedText :
    (∀ entry ∈ mixedEntries,
      entry.caCertificate ≠ some "" ∧ entry.hostOverride ≠ some "") ∧
      Renders mixedEntries mixedText.toList ∧ ofText mixedText = .ok ⟨mixedEntries⟩ :=
  ⟨by decide, renders_mixedText,
    ofText_of_renders mixedEntries (by decide) mixedText renders_mixedText⟩

end HeartbeatPool.ClientConfig
