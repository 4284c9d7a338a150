import HeartbeatPool.Proofs.Decoding

/-!
# The schema of a configuration

Which documents are configurations is said without reading them (`IsConfig`): which members an
object may have, how often and with which values, and how long a list may be.  A text is read if
and only if its document is one (`ofText_isOk_iff_isConfig`).

For an object the proof goes along its members.  What a draft still admits (`Draft.Admits`) is told
by what it has and by the values that the members give each field, so the order of the members does
not matter.
-/

namespace HeartbeatPool.ClientConfig

open Json

/-! ## The schema -/

namespace Field

/-- All the fields, in the order in which a list gives their values. -/
def all : List Field := [.service, .address, .tls, .caCertificate, .hostOverride]

/-- The fields that every entry has. -/
def Needed (field : Field) : Prop := field = .service ∨ field = .address

/-- The values that a field may have. -/
def Accepts : Field → Document → Prop
  | .service, value | .address, value => ∃ text, value = .string text
  | .tls, value => ∃ truth, value = .boolean truth
  | .caCertificate, value | .hostOverride, value => value = .null ∨ ∃ text, value = .string text

end Field

/-- The values that the members of an object give under a name. -/
def valuesUnder (name : String) (members : List (String × Document)) : List Document :=
  members.filterMap fun member => if member.1 = name then some member.2 else none

/-- The documents that are entries. -/
inductive IsEntry : Document → Prop where
  | object {members : List (String × Document)}
      (once : ∀ field : Field, (valuesUnder field.name members).length ≤ 1)
      (needed : ∀ field : Field, field.Needed → valuesUnder field.name members ≠ [])
      (accepted : ∀ field : Field, ∀ value ∈ valuesUnder field.name members, field.Accepts value) :
      IsEntry (.object members)
  | list {items : List Document} (needed : 2 ≤ items.length) (atMost : items.length ≤ 5)
      (accepted : ∀ pair ∈ items.zip Field.all, pair.2.Accepts pair.1) : IsEntry (.list items)

/-- The documents that are lists of entries. -/
inductive IsEntries : Document → Prop where
  | list {items : List Document} (h : ∀ item ∈ items, IsEntry item) : IsEntries (.list items)

/-- The documents in the place of a configuration's entries. -/
def sections : Document → List Document
  | .object members => valuesUnder "client_config" members
  | .list items => items
  | _ => []

/-- The documents that are configurations: the objects and lists with entries in at most one
place. -/
structure IsConfig (document : Document) : Prop where
  collection : (∃ members, document = .object members) ∨ ∃ items, document = .list items
  once : (sections document).length ≤ 1
  entries : ∀ part ∈ sections document, IsEntries part

@[simp] theorem valuesUnder_nil (name : String) : valuesUnder name [] = [] := rfl

theorem valuesUnder_cons (name other : String) (value : Document)
    (members : List (String × Document)) :
    valuesUnder name ((other, value) :: members) =
      if other = name then value :: valuesUnder name members else valuesUnder name members := by
  unfold valuesUnder
  by_cases h : other = name <;> simp [h]

/-! ## Values of fields -/

theorem textOf?_isSome {value : Document} :
    (textOf? value).isSome ↔ ∃ text, value = .string text := by
  cases value <;> simp [textOf?]

theorem truthOf?_isSome {value : Document} :
    (truthOf? value).isSome ↔ ∃ truth, value = .boolean truth := by
  cases value <;> simp [truthOf?]

theorem settingOf?_isSome {value : Document} :
    (settingOf? value).isSome ↔ value = .null ∨ ∃ text, value = .string text := by
  cases value <;> simp [settingOf?]

theorem once_eq_some_iff {α σ : Type} {old new : Option α} {set : α → σ} {result : σ} :
    once old new set = some result ↔
      old = none ∧ ∃ value, new = some value ∧ set value = result := by
  cases old <;> simp [once]

theorem Field.name_injective : Function.Injective Field.name := by
  intro field other h
  have hname := ofName?_eq_some_iff.mpr h
  rw [ofName?_eq_some_iff.mpr rfl] at hname
  exact Option.some.inj hname

/-! ## Entries that are objects -/

namespace Draft

/-- A draft has a value for a field. -/
def Has (draft : Draft) : Field → Bool
  | .service => draft.service.isSome
  | .address => draft.address.isSome
  | .tls => draft.tls.isSome
  | .caCertificate => draft.caCertificate.isSome
  | .hostOverride => draft.hostOverride.isSome

variable {draft next : Draft} {field : Field} {value : Document}

@[simp] theorem has_empty (field : Field) : Has {} field = false := by
  cases field <;> rfl

/-- A value is taken into a draft if the field accepts it and has none yet. -/
theorem take_isSome :
    (draft.take value field).isSome ↔ draft.Has field = false ∧ field.Accepts value := by
  cases field <;>
    simp [take, once, Has, Field.Accepts, apply_ite, textOf?_isSome, truthOf?_isSome,
      settingOf?_isSome]

theorem has_take (h : draft.take value field = some next) (other : Field) :
    next.Has other = (draft.Has other || decide (field = other)) := by
  cases field <;>
    obtain ⟨-, new, -, rfl⟩ := once_eq_some_iff.mp h <;>
    cases other <;> simp [Has]

/-- A member is taken in if no field has its name, or if the field with its name accepts its value
and has none yet. -/
theorem takeMember_isSome {name : String} :
    (draft.takeMember (name, value)).isSome ↔
      ∀ field : Field, name = field.name → draft.Has field = false ∧ field.Accepts value := by
  unfold takeMember
  cases hname : Field.ofName? name with
  | none =>
      refine iff_of_true rfl fun field heq => ?_
      rw [Field.ofName?_eq_some_iff.mpr heq] at hname
      cases hname
  | some field =>
      obtain rfl := Field.ofName?_eq_some_iff.mp hname
      refine take_isSome.trans ⟨fun h other heq => ?_, fun h => h field rfl⟩
      obtain rfl : field = other := Field.name_injective heq
      exact h

theorem has_takeMember {name : String} (h : draft.takeMember (name, value) = some next)
    (other : Field) : next.Has other = (draft.Has other || decide (name = other.name)) := by
  unfold takeMember at h
  cases hname : Field.ofName? name with
  | none =>
      have hne : name ≠ other.name := fun heq => by
        rw [Field.ofName?_eq_some_iff.mpr heq] at hname
        cases hname
      rw [hname] at h
      cases h
      simp [hne]
  | some field =>
      obtain rfl := Field.ofName?_eq_some_iff.mp hname
      rw [hname] at h
      simp only [has_take h, Field.name_injective.eq_iff]

/-- What members a draft admits: none for a field that has its value, and else at most one, which
the field accepts. -/
def Admits (draft : Draft) (members : List (String × Document)) : Prop :=
  ∀ field : Field,
    (draft.Has field).toNat + (valuesUnder field.name members).length ≤ 1 ∧
      ∀ value ∈ valuesUnder field.name members, field.Accepts value

theorem admits_cons {name : String} {members : List (String × Document)}
    (h : draft.takeMember (name, value) = some next) :
    draft.Admits ((name, value) :: members) ↔ next.Admits members := by
  have htaken := takeMember_isSome.mp (Option.isSome_of_eq_some h)
  refine forall_congr' fun field => ?_
  rw [has_takeMember h, valuesUnder_cons]
  by_cases hname : name = field.name
  · obtain ⟨hnew, haccepts⟩ := htaken field hname
    simp [hname, hnew, haccepts, Nat.add_comm]
  · simp [hname]

/-- The members of an object are taken into a draft if and only if it admits them. -/
theorem takeMembers_isSome {members : List (String × Document)} :
    (members.foldlM takeMember draft).isSome ↔ draft.Admits members := by
  induction members generalizing draft with
  | nil => exact iff_of_true rfl fun field => ⟨Bool.toNat_le _, nofun⟩
  | cons member members ih =>
      obtain ⟨name, value⟩ := member
      rw [List.foldlM_cons]
      cases hnext : draft.takeMember (name, value) with
      | some next => exact ih.trans (admits_cons hnext).symm
      | none =>
          refine iff_of_false nofun fun h => ?_
          have htaken : (draft.takeMember (name, value)).isSome := by
            refine takeMember_isSome.mpr fun field heq => ?_
            obtain ⟨honce, haccepts⟩ := h field
            rw [valuesUnder_cons, if_pos heq] at honce haccepts
            refine ⟨?_, haccepts value (List.mem_cons_self ..)⟩
            rw [List.length_cons] at honce
            cases hhas : draft.Has field with
            | false => rfl
            | true => rw [hhas, Bool.toNat_true] at honce; omega
          rw [hnext] at htaken
          cases htaken

theorem has_takeMembers {members : List (String × Document)} {final : Draft}
    (h : members.foldlM takeMember draft = some final) (field : Field) :
    final.Has field = true ↔ draft.Has field = true ∨ valuesUnder field.name members ≠ [] := by
  induction members generalizing draft with
  | nil =>
      cases h
      simp
  | cons member members ih =>
      obtain ⟨name, value⟩ := member
      rw [List.foldlM_cons, Option.bind_eq_bind, Option.bind_eq_some_iff] at h
      obtain ⟨next, hnext, h⟩ := h
      rw [ih h, has_takeMember hnext, valuesUnder_cons]
      by_cases hname : name = field.name <;> simp [hname]

theorem entry_isOk {draft : Draft} :
    draft.entry.toOption.isSome ↔ ∀ field : Field, field.Needed → draft.Has field = true := by
  unfold entry
  cases hservice : draft.service with
  | none =>
    refine iff_of_false nofun fun h => ?_
    have := h .service (Or.inl rfl)
    simp [Has, hservice] at this
  | some service =>
    cases haddress : draft.address with
    | none =>
      refine iff_of_false nofun fun h => ?_
      have := h .address (Or.inr rfl)
      simp [Has, haddress] at this
    | some address =>
      refine iff_of_true rfl ?_
      rintro field (rfl | rfl) <;> simp [Has, hservice, haddress]

end Draft

theorem entryOfMembers?_isSome (members : List (String × Document)) :
    (entryOfMembers? members).isSome ↔ IsEntry (.object members) := by
  have hobject : IsEntry (.object members) ↔
      Draft.Admits {} members ∧
        ∀ field : Field, field.Needed → valuesUnder field.name members ≠ [] := by
    constructor
    · rintro (@⟨_, honce, hneeded, haccepted⟩)
      refine ⟨fun field => ⟨?_, haccepted field⟩, hneeded⟩
      rw [Draft.has_empty, Bool.toNat_false, Nat.zero_add]
      exact honce field
    · rintro ⟨hadmits, hneeded⟩
      refine .object (fun field => ?_) hneeded fun field => (hadmits field).2
      exact Nat.le_trans (Nat.le_add_left _ _) (hadmits field).1
  rw [hobject, ← Draft.takeMembers_isSome]
  unfold entryOfMembers?
  cases hfinal : members.foldlM Draft.takeMember {} with
  | none => exact iff_of_false nofun fun h => nomatch h.1
  | some final =>
      refine Draft.entry_isOk.trans ?_
      simp [Draft.has_takeMembers hfinal]

/-! ## Entries that are lists -/

section Items

variable {α β : Type} {describe : Document → Option α} {next : α × List Document → Option β}
  {Suits : List Document → Prop}

theorem needed_bind_isSome
    (hnext : ∀ value others, (next (value, others)).isSome ↔ Suits others) (items : List Document) :
    (needed describe items >>= next).isSome ↔
      ∃ item others, items = item :: others ∧ (describe item).isSome ∧ Suits others := by
  cases items with
  | nil => exact iff_of_false nofun nofun
  | cons item others =>
      cases h : describe item with
      | none => simp [needed, h]
      | some value => simp [needed, h, hnext, and_assoc]

theorem optional_bind_isSome
    (hnext : ∀ value others, (next (value, others)).isSome ↔ Suits others) (default : α)
    (items : List Document) :
    (optional describe default items >>= next).isSome ↔
      items = [] ∧ Suits [] ∨
        ∃ item others, items = item :: others ∧ (describe item).isSome ∧ Suits others := by
  cases items with
  | nil => simp [optional, hnext]
  | cons item others =>
      cases h : describe item with
      | none => simp [optional, h]
      | some value => simp [optional, h, hnext, and_assoc]

end Items

theorem entryOfItems?_isSome (items : List Document) :
    (entryOfItems? items).isSome ↔ IsEntry (.list items) := by
  have hlist : IsEntry (.list items) ↔
      2 ≤ items.length ∧ items.length ≤ 5 ∧
        ∀ pair ∈ items.zip Field.all, pair.2.Accepts pair.1 :=
    ⟨fun | .list needed atMost accepted => ⟨needed, atMost, accepted⟩,
      fun ⟨needed, atMost, accepted⟩ => .list needed atMost accepted⟩
  have hend (entry : ClientEntry) (items : List Document) :
      (if items = [] then some entry else none).isSome ↔ items = [] := by
    split <;> simp [*]
  rw [hlist]
  refine (needed_bind_isSome (fun service items =>
    needed_bind_isSome (fun address items =>
      optional_bind_isSome (fun tls items =>
        optional_bind_isSome (fun caCertificate items =>
          optional_bind_isSome (fun hostOverride items => hend _ items) none items) none items)
        false items) items) items).trans ?_
  rcases items with _ | ⟨a, _ | ⟨b, _ | ⟨c, _ | ⟨d, _ | ⟨e, _ | ⟨f, items⟩⟩⟩⟩⟩⟩ <;>
    simp [Field.all, Field.Accepts, textOf?_isSome, truthOf?_isSome, settingOf?_isSome, and_assoc]

/-! ## Configurations -/

theorem entryOf?_isSome (document : Document) : (entryOf? document).isSome ↔ IsEntry document := by
  cases document with
  | object members => exact entryOfMembers?_isSome members
  | list items => exact entryOfItems?_isSome items
  | _ => exact iff_of_false nofun nofun

theorem mapM_isSome {α β : Type} {f : α → Option β} {items : List α} :
    (items.mapM f).isSome ↔ ∀ item ∈ items, (f item).isSome := by
  induction items with
  | nil => exact iff_of_true rfl nofun
  | cons item items ih =>
      rw [List.mapM_cons, List.forall_mem_cons, ← ih]
      cases f item with
      | none => exact iff_of_false nofun fun h => nomatch h.1
      | some value => cases items.mapM f <;> simp

theorem entriesOf?_isSome (document : Document) :
    (entriesOf? document).isSome ↔ IsEntries document := by
  cases document with
  | list items =>
      have hlist : IsEntries (.list items) ↔ ∀ item ∈ items, IsEntry item :=
        ⟨fun | .list h => h, .list⟩
      rw [hlist]
      exact mapM_isSome.trans (forall₂_congr fun item _ => entryOf?_isSome item)
  | _ => exact iff_of_false nofun nofun

/-- The members of an object are taken in if there are entries in at most one place, what was taken
in before being counted. -/
theorem takeConfigMembers_isSome {members : List (String × Document)}
    {entries : Option (List ClientEntry)} :
    (members.foldlM takeConfigMember entries).isSome ↔
      entries.isSome.toNat + (valuesUnder "client_config" members).length ≤ 1 ∧
        ∀ part ∈ valuesUnder "client_config" members, IsEntries part := by
  induction members generalizing entries with
  | nil => exact iff_of_true rfl ⟨Bool.toNat_le _, nofun⟩
  | cons member members ih =>
      obtain ⟨name, value⟩ := member
      rw [List.foldlM_cons, valuesUnder_cons]
      unfold takeConfigMember
      by_cases hname : name = "client_config"
      · rw [if_pos hname, if_pos hname, List.forall_mem_cons, ← entriesOf?_isSome]
        cases entries with
        | some old =>
            refine iff_of_false nofun fun ⟨honce, _⟩ => ?_
            rw [Option.isSome_some, Bool.toNat_true, List.length_cons] at honce
            omega
        | none =>
            cases hentries : entriesOf? value with
            | none => exact iff_of_false nofun fun h => nomatch h.2.1
            | some new =>
                refine Iff.trans ih ?_
                simp [Nat.add_comm]
      · rw [if_neg hname, if_neg hname]
        exact ih

theorem ofDocument?_isSome (document : Document) :
    (ofDocument? document).isSome ↔ IsConfig document := by
  cases document with
  | object members =>
      have hmembers := @takeConfigMembers_isSome members none
      rw [Option.isSome_none, Bool.toNat_false, Nat.zero_add] at hmembers
      refine (Bool.eq_iff_iff.mp Option.isSome_map).trans (hmembers.trans ?_)
      exact ⟨fun ⟨honce, h⟩ => ⟨Or.inl ⟨members, rfl⟩, honce, h⟩, fun h => ⟨h.once, h.entries⟩⟩
  | list items =>
      have hend (entries : List ClientEntry) (items : List Document) :
          (if items = [] then some (ClientConfig.mk entries) else none).isSome ↔ items = [] := by
        split <;> simp [*]
      refine (optional_bind_isSome hend [] items).trans ⟨?_, fun h => ?_⟩
      · rintro (⟨rfl, -⟩ | ⟨part, _, rfl, hpart, rfl⟩)
        · exact ⟨Or.inr ⟨[], rfl⟩, Nat.zero_le _, nofun⟩
        · refine ⟨Or.inr ⟨[part], rfl⟩, Nat.le_refl _, fun other hother => ?_⟩
          rw [List.mem_singleton.mp hother]
          exact (entriesOf?_isSome part).mp hpart
      · obtain ⟨-, honce, hentries⟩ := h
        match items, honce, hentries with
        | [], _, _ => exact Or.inl ⟨rfl, rfl⟩
        | [part], _, hentries =>
            exact Or.inr ⟨part, [], rfl,
              (entriesOf?_isSome part).mpr (hentries part (List.mem_singleton.mpr rfl)), rfl⟩
  | _ =>
      refine iff_of_false nofun fun h => ?_
      rcases h.collection with ⟨_, heq⟩ | ⟨_, heq⟩ <;> cases heq

instance : DecidablePred IsConfig := fun document =>
  decidable_of_iff _ (ofDocument?_isSome document)

/-- A text is read if and only if its document is a configuration, and else there is an error.  One
wrong entry is enough for that. -/
theorem ofText_isOk_iff_isConfig (document : Document) (text : String)
    (h : Holds document text.toList) :
    ((∃ config, ofText text = .ok config) ↔ IsConfig document) ∧
      (¬ IsConfig document → ∃ fault, ofText text = .error (.parse fault)) ∧
      ∀ items, Document.list items ∈ sections document → (∃ item ∈ items, ¬ IsEntry item) →
        ∃ fault, ofText text = .error (.parse fault) := by
  have hread := ofText_of_holds h
  have hfails (hnot : ¬ IsConfig document) : ∃ fault, ofText text = .error (.parse fault) := by
    rw [← ofDocument?_isSome, Option.not_isSome_iff_eq_none] at hnot
    rwa [hnot] at hread
  refine ⟨⟨fun ⟨config, hconfig⟩ => ?_, fun hconfig => ?_⟩, hfails, ?_⟩
  · refine Decidable.byContradiction fun hnot => ?_
    obtain ⟨fault, hfault⟩ := hfails hnot
    rw [hconfig] at hfault
    cases hfault
  · obtain ⟨config, hdocument⟩ :=
      Option.isSome_iff_exists.mp ((ofDocument?_isSome document).mpr hconfig)
    rw [hdocument] at hread
    exact ⟨config, hread⟩
  · rintro items hitems ⟨item, hitem, hwrong⟩
    refine hfails fun hconfig => hwrong ?_
    obtain ⟨hentries⟩ := hconfig.entries _ hitems
    exact hentries item hitem

/-- A text with two entries, the second of which is wrong: its `use_tls` is null. -/
def spoiltText : String :=
  "\x7b\"client_config\": [[\"s\",\"t\"]," ++
    "\x7b\"svc_name\":\"s\",\"server_addr\":\"t\",\"use_tls\":null\x7d]\x7d\n"

/-- What the text writes. -/
def spoiltDocument : Document :=
  .object
    [("client_config", .list
      [.list [.string "s", .string "t"],
        .object [("svc_name", .string "s"), ("server_addr", .string "t"), ("use_tls", .null)]])]

theorem holds_spoiltText : Holds spoiltDocument spoiltText.toList := by
  have hnone := blanks_nil
  have hspace : Blanks [' '] := by decide
  have hservice : Writes (.string "s") "\"s\"".toList := .string (.quotes (spells_self (by decide)))
  have haddress : Writes (.string "t") "\"t\"".toList := .string (.quotes (spells_self (by decide)))
  have pair {name : String} {value : Document} {after text : List Char} (h : Bare name.toList)
      (hafter : Blanks after) (hvalue : Writes value text) :
      PairText Writes (name, value)
        ('\x22' :: (name.toList ++ '\x22' :: ([] ++ ':' :: (after ++ text)))) :=
    .pair (spells_self h) hnone hafter hvalue
  have hfirst : Writes (.list [.string "s", .string "t"]) _ :=
    .list (.more hnone hservice hnone (.last hnone haddress hnone))
  have hsecond : Writes (.object
      [("svc_name", .string "s"), ("server_addr", .string "t"), ("use_tls", .null)]) _ :=
    .object (.more hnone (pair (by decide) hnone hservice) hnone
      (.more hnone (pair (by decide) hnone haddress) hnone
        (.last hnone (pair (by decide) hnone .null) hnone)))
  have hentries : Writes (.list [.list [.string "s", .string "t"], .object
      [("svc_name", .string "s"), ("server_addr", .string "t"), ("use_tls", .null)]]) _ :=
    .list (.more hnone hfirst hnone (.last hnone hsecond hnone))
  have hdocument : Writes spoiltDocument _ :=
    .object (.last hnone (pair (by decide) hspace hentries) hnone)
  refine Eq.mp (congrArg (Holds spoiltDocument) ?_)
    (Holds.document hnone hdocument (show Blanks ['\n'] by decide))
  decide +kernel

theorem ofText_spoiltText :
    Holds spoiltDocument spoiltText.toList ∧ ¬ IsConfig spoiltDocument ∧
      ∃ fault, ofText spoiltText = .error (.parse fault) := by
  have hnot : ¬ IsConfig spoiltDocument := by decide +kernel
  exact ⟨holds_spoiltText, hnot,
    (ofText_isOk_iff_isConfig spoiltDocument spoiltText holds_spoiltText).2.1 hnot⟩

end HeartbeatPool.ClientConfig
