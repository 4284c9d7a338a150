import HeartbeatPool.Proofs.Documents

/-!
# What is read from a document

The configuration that a document describes, if it describes one, is told on the document itself
(`ofDocument?`).  Reading any text of the document comes to just that: to the configuration, or to
an error (`ofText_of_holds`).

`Yields` says that a result is the one that was foretold.  It is shown reader by reader, for the
values of the fields first, then for the members of an object and the elements of a list, by
induction on them.
-/

namespace HeartbeatPool.ClientConfig

open Json

/-! ## What documents describe -/

/-- The characters of a string. -/
def textOf? : Document → Option String
  | .string value => some value
  | _ => none

/-- A truth value. -/
def truthOf? : Document → Option Bool
  | .boolean value => some value
  | _ => none

/-- A text that may be unset.  It is so if it is null or empty. -/
def settingOf? : Document → Option (Option String)
  | .null => some none
  | .string value => some (if value = "" then none else some value)
  | _ => none

/-- The fields of an entry, in the order in which a list gives their values. -/
inductive Field where
  | service
  | address
  | tls
  | caCertificate
  | hostOverride
  deriving DecidableEq, Repr

namespace Field

/-- The name of a field among the members of an object. -/
def name : Field → String
  | .service => "svc_name"
  | .address => "server_addr"
  | .tls => "use_tls"
  | .caCertificate => "cert_file"
  | .hostOverride => "server_host_override"

/-- The field with a name. -/
def ofName? (name : String) : Option Field :=
  if name = "svc_name" then some .service
  else if name = "server_addr" then some .address
  else if name = "use_tls" then some .tls
  else if name = "cert_file" then some .caCertificate
  else if name = "server_host_override" then some .hostOverride
  else none

theorem ofName?_eq_some_iff {name : String} {field : Field} :
    ofName? name = some field ↔ name = field.name := by
  constructor
  · intro h
    unfold ofName? at h
    repeat' split at h
    all_goals cases h
    all_goals assumption
  · rintro rfl
    cases field <;> rfl

end Field

/-- A value that is given once. -/
def once {α σ : Type} (old new : Option α) (set : α → σ) : Option σ :=
  if old.isSome then none else new.map set

/-- Takes the value of a field into a draft. -/
def Draft.take (draft : Draft) (document : Document) : Field → Option Draft
  | .service =>
      once draft.service (textOf? document) fun value => { draft with service := some value }
  | .address =>
      once draft.address (textOf? document) fun value => { draft with address := some value }
  | .tls => once draft.tls (truthOf? document) fun value => { draft with tls := some value }
  | .caCertificate =>
      once draft.caCertificate (settingOf? document) fun value =>
        { draft with caCertificate := some value }
  | .hostOverride =>
      once draft.hostOverride (settingOf? document) fun value =>
        { draft with hostOverride := some value }

/-- Takes a member into a draft. -/
def Draft.takeMember (draft : Draft) (member : String × Document) : Option Draft :=
  match Field.ofName? member.1 with
  | none => some draft
  | some field => draft.take member.2 field

/-- The entry that the members of an object describe. -/
def entryOfMembers? (members : List (String × Document)) : Option ClientEntry :=
  (members.foldlM Draft.takeMember {}).bind fun draft => draft.entry.toOption

/-- What the first of some documents describes, with the others. -/
def needed {α : Type} (describe : Document → Option α) :
    List Document → Option (α × List Document)
  | [] => none
  | document :: others => (describe document).map fun value => (value, others)

/-- What the first of some documents describes, if there are any, with the others. -/
def optional {α : Type} (describe : Document → Option α) (default : α) :
    List Document → Option (α × List Document)
  | [] => some (default, [])
  | document :: others => (describe document).map fun value => (value, others)

/-- The entry that the items of a list describe. -/
def entryOfItems? (items : List Document) : Option ClientEntry := do
  let (service, items) ← needed textOf? items
  let (address, items) ← needed textOf? items
  let (tls, items) ← optional truthOf? false items
  let (caCertificate, items) ← optional settingOf? none items
  let (hostOverride, items) ← optional settingOf? none items
  if items = [] then
    some
      { service := service
        address := address
        tls := tls
        caCertificate := caCertificate
        hostOverride := hostOverride }
  else none

/-- The entry that a document describes. -/
def entryOf? : Document → Option ClientEntry
  | .object members => entryOfMembers? members
  | .list items => entryOfItems? items
  | _ => none

/-- The entries that a document describes. -/
def entriesOf? : Document → Option (List ClientEntry)
  | .list items => items.mapM entryOf?
  | _ => none

/-- Takes in a member of a configuration. -/
def takeConfigMember (entries : Option (List ClientEntry)) (member : String × Document) :
    Option (Option (List ClientEntry)) :=
  if member.1 = "client_config" then once entries (entriesOf? member.2) some else some entries

/-- The configuration that a document describes. -/
def ofDocument? : Document → Option ClientConfig
  | .object members =>
      (members.foldlM takeConfigMember none).map fun entries => ⟨entries.getD []⟩
  | .list items =>
      (optional entriesOf? [] items).bind fun (entries, items) =>
        if items = [] then some ⟨entries⟩ else none
  | _ => none

/-! ## Results as foretold -/

/-- A result is what was foretold: a value, with the rest of the text behind it, or an error. -/
def Yields {α : Type} (result : Except Stop (α × List Char)) (foretold : Option α)
    (rest : List Char) : Prop :=
  match foretold with
  | some value => result = .ok (value, rest)
  | none => ∃ stop, result = .error stop

section Yields

variable {α β σ : Type} {result : Except Stop (α × List Char)} {foretold : Option α}
  {before after text rest : List Char} {document : Document} {bound : Nat}

theorem Yields.map (h : Yields result foretold rest) (f : α → β) :
    Yields (result.map fun (value, left) => (f value, left)) (foretold.map f) rest := by
  cases foretold with
  | some value =>
      obtain rfl : result = .ok (value, rest) := h
      rfl
  | none =>
      obtain ⟨stop, rfl⟩ := h
      exact ⟨stop, rfl⟩

/-- A reader reads from the texts of a document, up to some length, what the document describes.  In
front of the text there may be blanks, and behind it whatever does not go on with a number. -/
def Agrees (bound : Nat) (reader : Reader α) (describe : Document → Option α) : Prop :=
  ∀ {document text}, WritesWithin bound document text → ∀ {before rest}, Blanks before →
    Scan.EndsNumber rest → Yields (reader (before ++ (text ++ rest))) (describe document) rest

/-! ### Values of fields -/

theorem readText_of_ne {c : Char} (h : isBlank c = false) (hbefore : Blanks before)
    (hstring : c ≠ '\x22') : ∃ stop, readText (before ++ c :: rest) = .error stop := by
  rw [readText, dropBlanks_append hbefore, dropBlanks_cons h]
  split
  · next heq => exact absurd (List.cons.inj heq).1 hstring
  · exact ⟨_, rfl⟩

theorem agrees_text (bound : Nat) : Agrees bound readText textOf? := by
  intro document text ⟨h, _⟩ before rest hbefore hrest
  cases document with
  | string value =>
      cases h with
      | string h => exact reads_quoted value text h before rest hbefore
  | _ =>
      obtain ⟨c, others, rfl, hbegins⟩ := h.begins
      obtain ⟨-, -, -, hstring, -, -⟩ := hbegins.kind
      exact readText_of_ne hbegins.isToken.1 hbefore fun heq => by simpa using hstring heq

theorem agrees_truth (bound : Nat) : Agrees bound readBool truthOf? := by
  intro document text ⟨h, _⟩ before rest hbefore hrest
  cases document with
  | boolean value =>
      cases h with
      | yes => exact reads_truth true _ .yes before rest hbefore
      | no => exact reads_truth false _ .no before rest hbefore
  | _ =>
      obtain ⟨c, others, rfl, hbegins⟩ := h.begins
      obtain ⟨-, hyes, hno, -, -, -⟩ := hbegins.kind
      rw [readBool, dropBlanks_append hbefore, List.cons_append, dropBlanks_cons hbegins.isToken.1]
      split
      · next heq => simpa using hyes (List.cons.inj heq).1
      · next heq => simpa using hno (List.cons.inj heq).1
      · exact ⟨_, rfl⟩

theorem agrees_setting (bound : Nat) : Agrees bound readOptional settingOf? := by
  intro document text ⟨h, hle⟩ before rest hbefore hrest
  obtain ⟨c, others, rfl, hbegins⟩ := h.begins
  obtain ⟨hnull, -, -, hstring, -, -⟩ := hbegins.kind
  rw [readOptional, dropBlanks_append hbefore, List.cons_append, dropBlanks_cons hbegins.isToken.1]
  split
  · next heq =>
      obtain rfl := hnull (List.cons.inj heq).1
      cases h
      cases heq
      rfl
  · next hnot =>
      have hmap : settingOf? document =
          (textOf? document).map fun value => if value = "" then none else some value := by
        cases document with
        | null =>
            obtain rfl : c = 'n' := hbegins
            exact absurd rfl (hnot _)
        | _ => rfl
      rw [hmap]
      exact (@agrees_text bound _ _ ⟨h, hle⟩ [] rest blanks_nil hrest).map _

/-! ### Members and elements -/

/-- A field is read if it has no value yet. -/
theorem Agrees.once {reader : Reader α} {describe : Document → Option α}
    (h : Agrees bound reader describe) (key : String) (old : Option α) (set : α → σ)
    (hwrites : WritesWithin bound document text) (hbefore : Blanks before)
    (hafter : Blanks after) (hrest : Scan.EndsNumber rest) :
    Yields (readOnce key old reader set (before ++ ':' :: (after ++ (text ++ rest))))
      (once old (describe document) set) rest := by
  unfold readOnce ClientConfig.once
  split
  · exact ⟨_, rfl⟩
  · rw [readColon, dropBlanks_append hbefore, dropBlanks_cons (by decide)]
    exact (h hwrites hafter hrest).map set

/-- The members of an object are taken in one by one, if each of them is taken in as foretold. -/
theorem yields_members {member : σ → String → Reader σ}
    {take : σ → String × Document → Option σ} {length : Nat}
    (hmember : ∀ state name {document text}, WritesWithin length document text →
      ∀ {before after rest}, Blanks before → Blanks after → Scan.EndsNumber rest →
        Yields (member state name (before ++ ':' :: (after ++ (text ++ rest))))
          (take state (name, document)) rest)
    {members : List (String × Document)} {first : Bool}
    (h : Remains (PairText (WritesWithin length)) first members text) (state : σ)
    (hbound : members.length < bound) (rest : List Char) :
    ∃ blanks, Blanks blanks ∧
      Yields (readMembers member bound first state (text ++ '\x7d' :: rest))
        (members.foldlM take state) (blanks ++ '\x7d' :: rest) := by
  induction members generalizing state text first bound with
  | nil =>
      obtain ⟨bound, rfl⟩ := Nat.exists_eq_add_one_of_ne_zero (Nat.ne_zero_of_lt hbound)
      refine ⟨text, h.blanks, ?_⟩
      rw [readMembers, nextKey_closing _ h.blanks]
      rfl
  | cons pair members ih =>
      obtain ⟨name, document⟩ := pair
      obtain ⟨bound, rfl⟩ := Nat.exists_eq_add_one_of_ne_zero (Nat.ne_zero_of_lt hbound)
      obtain ⟨lead, before, value, more, rfl, hlead, hbefore, hpair, hmore⟩ := h.cons
      obtain ⟨hkey, hbefore', hafter, hvalue⟩ := hpair
      -- the value of the first member is read up to the comma or the bracket behind it
      have htaken := hmember state name hvalue hbefore' hafter
        (hmore.endsNumber (c := '\x7d') (by decide) rest)
      simp only [List.cons_append, List.append_assoc, List.foldlM_cons]
      rw [readMembers, nextKey_lead hlead hbefore, stringBody_of_spells hkey]
      dsimp only [Except.map]
      cases hnext : take state (name, document) with
      | none =>
          -- a member that is refused stops the text where it stands
          rw [hnext] at htaken
          obtain ⟨stop, hstop⟩ := htaken
          rw [hstop]
          exact ⟨[], blanks_nil, stop, rfl⟩
      | some next =>
          rw [hnext] at htaken
          rw [show member _ _ _ = _ from htaken]
          exact ih hmore next (Nat.lt_of_succ_lt_succ hbound)

/-- The elements of a list are read one by one, if each of them is read as foretold. -/
theorem yields_elements {reader : Reader α} {describe : Document → Option α} {length : Nat}
    (hread : Agrees length reader describe) {items : List Document} {first : Bool}
    (h : Remains (WritesWithin length) first items text) (hbound : items.length < bound)
    (rest : List Char) :
    ∃ blanks, Blanks blanks ∧
      Yields (readElements reader bound first (text ++ ']' :: rest)) (items.mapM describe)
        (blanks ++ ']' :: rest) := by
  induction items generalizing text first bound with
  | nil =>
      obtain ⟨bound, rfl⟩ := Nat.exists_eq_add_one_of_ne_zero (Nat.ne_zero_of_lt hbound)
      refine ⟨text, h.blanks, ?_⟩
      rw [readElements, nextElement_closing _ h.blanks]
      rfl
  | cons document items ih =>
      obtain ⟨bound, rfl⟩ := Nat.exists_eq_add_one_of_ne_zero (Nat.ne_zero_of_lt hbound)
      obtain ⟨lead, before, value, more, rfl, hlead, hbefore, hvalue, hmore⟩ := h.cons
      obtain ⟨c, letters, rfl, hbegins⟩ := hvalue.1.begins
      have hfirst := hread hvalue blanks_nil (hmore.endsNumber (c := ']') (by decide) rest)
      obtain ⟨blanks, hblanks, hothers⟩ := ih hmore (Nat.lt_of_succ_lt_succ hbound)
      simp only [List.cons_append, List.nil_append, List.append_assoc, List.mapM_cons] at hfirst ⊢
      refine ⟨blanks, hblanks, ?_⟩
      rw [readElements, nextElement_lead hlead hbefore hbegins.isToken.1 hbegins.isToken.2]
      dsimp only
      cases hdescribe : describe document with
      | none =>
          rw [hdescribe] at hfirst
          obtain ⟨stop, hstop⟩ := hfirst
          rw [hstop]
          exact ⟨stop, rfl⟩
      | some a =>
          rw [hdescribe] at hfirst
          rw [show reader _ = _ from hfirst]
          dsimp only
          cases hmap : items.mapM describe with
          | none =>
              rw [hmap] at hothers
              obtain ⟨stop, hstop⟩ := hothers
              rw [hstop]
              exact ⟨stop, rfl⟩
          | some values =>
              rw [hmap] at hothers
              rw [show readElements reader bound false _ = _ from hothers]
              rfl

/-- A result is what was foretold of the next element of a list: its value, with the elements that
remain behind it, or an error. -/
def Leads (bound : Nat) (result : Except Stop (α × List Char))
    (foretold : Option (α × List Document)) (rest : List Char) : Prop :=
  match foretold with
  | some (value, items) => ∃ text, Remains (WritesWithin bound) false items text ∧
      result = .ok (value, text ++ ']' :: rest)
  | none => ∃ stop, result = .error stop

/-- An element that is there is read. -/
theorem leads_cons {reader : Reader α} {describe : Document → Option α}
    (hread : Agrees bound reader describe) {items : List Document} {first : Bool}
    (h : Remains (WritesWithin bound) first (document :: items) text) (rest : List Char) :
    ∃ left, nextElement first (text ++ ']' :: rest) = .ok (some left) ∧
      Leads bound (reader left) ((describe document).map fun value => (value, items)) rest := by
  obtain ⟨lead, before, value, more, rfl, hlead, hbefore, hvalue, hmore⟩ := h.cons
  have hfirst := hread hvalue blanks_nil (hmore.endsNumber (c := ']') (by decide) rest)
  obtain ⟨c, letters, rfl, hbegins⟩ := hvalue.1.begins
  simp only [List.cons_append, List.nil_append, List.append_assoc] at hfirst ⊢
  refine ⟨_, nextElement_lead hlead hbefore hbegins.isToken.1 hbegins.isToken.2 _, ?_⟩
  cases hdescribe : describe document with
  | none =>
      rw [hdescribe] at hfirst
      exact hfirst
  | some a =>
      rw [hdescribe] at hfirst
      exact ⟨more, hmore, hfirst⟩

theorem leads_needed {reader : Reader α} {describe : Document → Option α}
    (hread : Agrees bound reader describe) (position : Nat) {items : List Document}
    (h : Remains (WritesWithin bound) (position == 0) items text) (rest : List Char) :
    Leads bound (readNeededElement position reader (text ++ ']' :: rest)) (needed describe items)
      rest := by
  unfold readNeededElement
  cases items with
  | nil =>
      rw [nextElement_closing _ h.blanks]
      exact ⟨_, rfl⟩
  | cons document items =>
      obtain ⟨left, hnext, hleads⟩ := leads_cons hread h rest
      rw [hnext]
      exact hleads

theorem leads_optional {reader : Reader α} {describe : Document → Option α}
    (hread : Agrees bound reader describe) {items : List Document} {first : Bool}
    (h : Remains (WritesWithin bound) first items text) (default : α) (rest : List Char) :
    Leads bound (readOptionalElement first reader default (text ++ ']' :: rest))
      (optional describe default items) rest := by
  unfold readOptionalElement
  cases items with
  | nil =>
      rw [nextElement_closing _ h.blanks]
      exact ⟨text, .none h.blanks, rfl⟩
  | cons document items =>
      obtain ⟨left, hnext, hleads⟩ := leads_cons hread h rest
      rw [hnext]
      exact hleads

/-- Behind an element that was read as foretold, reading goes on with what remains. -/
theorem Leads.bind {result : Except Stop (α × List Char)} {foretold : Option (α × List Document)}
    (h : Leads bound result foretold rest) {next : α × List Char → Except Stop (β × List Char)}
    {following : α × List Document → Option β}
    (hnext : ∀ value {items text}, Remains (WritesWithin bound) false items text →
      Yields (next (value, text ++ ']' :: rest)) (following (value, items)) rest) :
    Yields (result >>= next) (foretold >>= following) rest := by
  cases foretold with
  | none =>
      obtain ⟨stop, rfl⟩ := h
      exact ⟨stop, rfl⟩
  | some pair =>
      obtain ⟨text, hremains, rfl⟩ := h
      exact hnext pair.1 hremains

/-- At its end a list is closed, if no element remains. -/
theorem yields_endList {items : List Document}
    (h : Remains (WritesWithin bound) false items text) (value : α) (rest : List Char) :
    Yields ((endList (text ++ ']' :: rest)).map fun left => (value, left))
      (if items = [] then some value else none) rest := by
  have hend := h.endList_eq rest (Or.inr rfl)
  by_cases hitems : items = []
  · rw [if_pos hitems] at hend ⊢
    rw [hend]
    rfl
  · rw [if_neg hitems] at hend ⊢
    obtain ⟨stop, hstop⟩ := hend
    rw [hstop]
    exact ⟨stop, rfl⟩

/-! ### Entries -/

theorem yields_entryMember (draft : Draft) (name : String)
    (hwrites : WritesWithin bound document text) (hbefore : Blanks before) (hafter : Blanks after)
    (hrest : Scan.EndsNumber rest) :
    Yields (readEntryMember draft name (before ++ ':' :: (after ++ (text ++ rest))))
      (draft.takeMember (name, document)) rest := by
  have htext : Agrees bound readText textOf? := agrees_text bound
  have htruth : Agrees bound readBool truthOf? := agrees_truth bound
  have hsetting : Agrees bound readOptional settingOf? := agrees_setting bound
  unfold readEntryMember Draft.takeMember Field.ofName?
  by_cases h₁ : name = "svc_name"
  · subst h₁
    exact htext.once _ draft.service _ hwrites hbefore hafter hrest
  by_cases h₂ : name = "server_addr"
  · subst h₂
    exact htext.once _ draft.address _ hwrites hbefore hafter hrest
  by_cases h₃ : name = "use_tls"
  · subst h₃
    exact htruth.once _ draft.tls _ hwrites hbefore hafter hrest
  by_cases h₄ : name = "cert_file"
  · subst h₄
    exact hsetting.once _ draft.caCertificate _ hwrites hbefore hafter hrest
  by_cases h₅ : name = "server_host_override"
  · subst h₅
    exact hsetting.once _ draft.hostOverride _ hwrites hbefore hafter hrest
  simp only [h₁, h₂, h₃, h₄, h₅, if_false]
  exact passMember_of_value draft hwrites.1.value hbefore hafter hrest

theorem yields_entryObject {members : List (String × Document)} {length : Nat}
    (h : Listed (PairText (WritesWithin length)) members text) (hbound : members.length < bound)
    (rest : List Char) :
    Yields (readEntryObject bound (text ++ '\x7d' :: rest)) (entryOfMembers? members) rest := by
  obtain ⟨blanks, hblanks, hyields⟩ := yields_members
    (fun draft name _ _ hwrites => yields_entryMember draft name hwrites) (.all h) {} hbound rest
  unfold readEntryObject entryOfMembers?
  cases hdraft : members.foldlM Draft.takeMember {} with
  | none =>
      rw [hdraft] at hyields
      obtain ⟨stop, hstop⟩ := hyields
      rw [hstop]
      exact ⟨stop, rfl⟩
  | some draft =>
      rw [hdraft] at hyields
      rw [show readMembers _ bound true _ _ = _ from hyields]
      dsimp only [Option.bind_some]
      cases hentry : draft.entry with
      | error name => exact ⟨_, rfl⟩
      | ok entry =>
          rw [endObject_of_blanks hblanks]
          rfl

theorem yields_entryList {items : List Document} (h : Listed (WritesWithin bound) items text)
    (rest : List Char) :
    Yields (readEntryList (text ++ ']' :: rest)) (entryOfItems? items) rest := by
  have htext : Agrees bound readText textOf? := agrees_text bound
  have hsetting : Agrees bound readOptional settingOf? := agrees_setting bound
  have hmap {value : ClientEntry} (result : Except Stop (List Char)) :
      (result >>= fun left => .ok (value, left)) = result.map fun left => (value, left) := by
    cases result <;> rfl
  refine (leads_needed htext 0 (.all h) rest).bind fun service items text h => ?_
  refine (leads_needed htext 1 h rest).bind fun address items text h => ?_
  refine (leads_optional (agrees_truth bound) h false rest).bind fun tls items text h => ?_
  refine (leads_optional hsetting h none rest).bind fun caCertificate items text h => ?_
  refine (leads_optional hsetting h none rest).bind fun hostOverride items text h => ?_
  dsimp only
  rw [hmap]
  exact yields_endList h _ rest

/-- An entry is read as the document describes it. -/
theorem agrees_entry (bound : Nat) : Agrees bound (readEntry bound) entryOf? := by
  intro document text ⟨h, hle⟩ before rest hbefore hrest
  rw [readEntry, h.dropBlanks_eq hbefore]
  cases document with
  | object members =>
      cases h with
      | @object _ inner h =>
          simp only [List.length_cons, List.length_append] at hle
          have hcount : members.length ≤ inner.length :=
            h.length_le fun _ _ h => by cases h; exact List.cons_ne_nil _ _
          have hbound : members.length < bound := by omega
          rw [List.cons_append, List.append_assoc]
          exact yields_entryObject (Listed.withinPairs h (Nat.le_refl _)) hbound rest
  | list items =>
      cases h with
      | @list _ inner h =>
          simp only [List.length_cons, List.length_append] at hle
          rw [List.cons_append, List.append_assoc]
          exact yields_entryList (Listed.within h (show inner.length ≤ bound by omega)) rest
  | _ =>
      -- what is neither a list nor an object is no entry
      obtain ⟨c, letters, rfl, hbegins⟩ := h.begins
      obtain ⟨-, -, -, -, hlist, hobject⟩ := hbegins.kind
      rw [List.cons_append]
      split
      · next heq => simpa using hobject (List.cons.inj heq).1
      · next heq => simpa using hlist (List.cons.inj heq).1
      · exact ⟨_, rfl⟩

/-- A list of entries is read as the document describes it: one that is wrong spoils them all. -/
theorem agrees_entries (bound : Nat) : Agrees bound (readEntries bound) entriesOf? := by
  intro document text ⟨h, hle⟩ before rest hbefore hrest
  rw [readEntries, h.dropBlanks_eq hbefore]
  cases document with
  | list items =>
      cases h with
      | @list _ inner h =>
          simp only [List.length_cons, List.length_append] at hle
          -- each entry takes up at least one character
          have hcount : items.length ≤ inner.length := h.length_le fun _ _ h => h.ne_nil
          obtain ⟨blanks, hblanks, hyields⟩ := yields_elements (agrees_entry bound)
            (.all (Listed.within h (by omega))) (show items.length < bound by omega) rest
          rw [List.cons_append, List.append_assoc]
          change Yields _ (items.mapM entryOf?) rest
          simp only [List.singleton_append]
          -- an entry that is wrong stops the text where it stands
          cases hentries : items.mapM entryOf? with
          | none =>
              rw [hentries] at hyields
              obtain ⟨stop, hstop⟩ := hyields
              rw [hstop]
              exact ⟨stop, rfl⟩
          | some entries =>
              rw [hentries] at hyields
              rw [show readElements _ _ _ _ = _ from hyields]
              dsimp only
              rw [endList_of_blanks hblanks]
              rfl
  | _ =>
      -- any other document does not begin like a list
      obtain ⟨c, letters, rfl, hbegins⟩ := h.begins
      obtain ⟨-, -, -, -, hlist, -⟩ := hbegins.kind
      rw [List.cons_append]
      split
      · next heq => simpa using hlist (List.cons.inj heq).1
      · exact ⟨_, rfl⟩

/-! ### Configurations -/

theorem yields_configMember (entries : Option (List ClientEntry)) (name : String)
    (hwrites : WritesWithin bound document text) (hbefore : Blanks before) (hafter : Blanks after)
    (hrest : Scan.EndsNumber rest) :
    Yields (readConfigMember bound entries name (before ++ ':' :: (after ++ (text ++ rest))))
      (takeConfigMember entries (name, document)) rest := by
  unfold readConfigMember takeConfigMember
  by_cases hname : name = "client_config"
  · rw [if_pos hname, if_pos hname]
    have hentries : Agrees bound (readEntries bound) entriesOf? := agrees_entries bound
    exact hentries.once name entries some hwrites hbefore hafter hrest
  · rw [if_neg hname, if_neg hname]
    exact passMember_of_value entries hwrites.1.value hbefore hafter hrest

/-- A configuration is read as the document describes it. -/
theorem agrees_config (bound : Nat) : Agrees bound (readConfig bound) ofDocument? := by
  intro document text ⟨h, hle⟩ before rest hbefore hrest
  rw [readConfig, h.dropBlanks_eq hbefore]
  cases document with
  | object members =>
      cases h with
      | @object _ inner h =>
          simp only [List.length_cons, List.length_append] at hle
          -- each member takes up at least one character
          have hcount : members.length ≤ inner.length :=
            h.length_le fun _ _ h => by cases h; exact List.cons_ne_nil _ _
          obtain ⟨blanks, hblanks, hyields⟩ := yields_members
            (fun entries name _ _ hwrites => yields_configMember entries name hwrites)
            (.all (Listed.withinPairs h (show _ ≤ bound by omega))) none
            (show members.length < bound by omega) rest
          rw [List.cons_append, List.append_assoc]
          simp only [List.singleton_append, ofDocument?]
          -- a member that is refused stops the text where it stands
          cases hentries : members.foldlM takeConfigMember none with
          | none =>
              rw [hentries] at hyields
              obtain ⟨stop, hstop⟩ := hyields
              rw [hstop]
              exact ⟨stop, rfl⟩
          | some entries =>
              rw [hentries] at hyields
              rw [show readMembers _ _ _ _ _ = _ from hyields]
              dsimp only
              rw [endObject_of_blanks hblanks]
              rfl
  | list items =>
      cases h with
      | @list _ inner h =>
          simp only [List.length_cons, List.length_append] at hle
          rw [List.cons_append, List.append_assoc]
          have hleads := leads_optional (agrees_entries bound)
            (.all (Listed.within h (show _ ≤ bound by omega))) [] rest
          simp only [List.singleton_append, ofDocument?]
          cases hoptional : optional entriesOf? [] items with
          | none =>
              rw [hoptional] at hleads
              obtain ⟨stop, hstop⟩ := hleads
              rw [hstop]
              exact ⟨stop, rfl⟩
          | some pair =>
              obtain ⟨entries, items⟩ := pair
              rw [hoptional] at hleads
              obtain ⟨left, hremains, hresult⟩ := hleads
              rw [hresult]
              exact yields_endList hremains (ClientConfig.mk entries) rest
  | _ =>
      -- any other document begins with neither bracket
      obtain ⟨c, letters, rfl, hbegins⟩ := h.begins
      obtain ⟨-, -, -, -, hlist, hobject⟩ := hbegins.kind
      rw [List.cons_append]
      split
      · next heq => simpa using hobject (List.cons.inj heq).1
      · next heq => simpa using hlist (List.cons.inj heq).1
      · exact ⟨_, rfl⟩

end Yields

/-- Reading a text comes to what its document describes: a configuration, or an error. -/
theorem ofText_of_holds {document : Document} {text : String} (h : Holds document text.toList) :
    match ofDocument? document with
    | some config => ofText text = .ok config
    | none => ∃ fault, ofText text = .error (.parse fault) := by
  generalize htext : text.toList = chars at h
  obtain @⟨before, inner, after, hbefore, h, hafter⟩ := h
  have hbound : inner.length ≤ text.length + 1 := by
    have hlength := congrArg List.length htext
    rw [String.length_toList, List.length_append, List.length_append] at hlength
    omega
  have hrest : Scan.EndsNumber after := by
    have hends := Scan.endsNumber_of_blanks hafter (c := ',') (by decide) []
    intro c hc
    exact hends c (by rw [List.head?_append, hc]; rfl)
  have hread := agrees_config (text.length + 1) ⟨h, hbound⟩ hbefore hrest
  have hend : expectEnd after = .ok () := by
    have hblank := dropBlanks_append hafter []
    rw [List.append_nil] at hblank
    rw [expectEnd, hblank]
    rfl
  unfold ofText
  rw [htext]
  cases hdocument : ofDocument? document with
  | some config =>
      rw [hdocument] at hread
      rw [show readConfig _ _ = _ from hread]
      simp only [bind, Except.bind, hend, pure, Except.pure]
      rfl
  | none =>
      rw [hdocument] at hread
      obtain ⟨stop, hstop⟩ := hread
      rw [hstop]
      exact ⟨_, rfl⟩

end HeartbeatPool.ClientConfig
