import HeartbeatPool.Config.Basic
import HeartbeatPool.Error
import HeartbeatPool.Json.Number
import HeartbeatPool.Json.Skip
import HeartbeatPool.Json.StringLiteral

/-!
# Reading a client configuration

The text is an object whose member `client_config` is a list of entries.  An entry is an object
too; its members are `svc_name` and `server_addr`, which are needed, and `use_tls`, `cert_file`
and `server_host_override`, which are not.  An empty text for one of the last two means that it is
not set.  Other members, of either kind of object, are passed over.

Either object may also be written as a list of its members' values, in the order above; at the
end of that list members that are not needed may be missing.

The first thing that is wrong decides the error.  One that concerns an object as a whole, a
member that is missing or given twice, is reported behind the object's end if that comes next.
-/

namespace HeartbeatPool.ClientConfig

open Json

/-! ## Values of one kind -/

/-- The fault of a value of a kind that is not expected.  The text is not empty and starts with
the value. -/
def wrongType (expected : String) (text : List Char) : Stop :=
  let found (value : Found) (left : List Char) : Stop := .before (.wrongType value expected) left
  let letters (letters : List Char) (value : Found) (rest : List Char) : Stop :=
    match readLetters letters rest with
    | .ok left => found value left
    | .error stop => stop
  let number (negative : Bool) (digits : List Char) : Stop :=
    match readNumber negative digits with
    | .ok (value, left) => found value left
    | .error stop => stop
  match text with
  | [] => .upon .endInValue []
  | c :: rest =>
      if c = 'n' then letters ['u', 'l', 'l'] .null rest
      else if c = 't' then letters ['r', 'u', 'e'] (.boolean true) rest
      else if c = 'f' then letters ['a', 'l', 's', 'e'] (.boolean false) rest
      else if c = '-' then number true rest
      else if c.isDigit then number false text
      else if c = '\x22' then
        match stringBody rest with
        | .ok (value, left) => found (.string value) left
        | .error stop => stop
      else if c = '[' then found .sequence text
      else if c = '\x7b' then found .map text
      else .upon .valueExpected text

/-- Reads a string. -/
def readText : Reader String := fun text =>
  match dropBlanks text with
  | '\x22' :: rest => stringBody rest
  | text => .error (wrongType "a string" text)

/-- Reads a truth value. -/
def readBool : Reader Bool := fun text =>
  match dropBlanks text with
  | 't' :: rest => (readLetters ['r', 'u', 'e'] rest).map fun left => (true, left)
  | 'f' :: rest => (readLetters ['a', 'l', 's', 'e'] rest).map fun left => (false, left)
  | text => .error (wrongType "a boolean" text)

/-- Reads a string that may be null; an empty string counts as null. -/
def readOptional : Reader (Option String) := fun text =>
  match dropBlanks text with
  | 'n' :: rest => (readLetters ['u', 'l', 'l'] rest).map fun left => (none, left)
  | text => (readText text).map fun (value, left) => (if value = "" then none else some value, left)

/-! ## Objects and lists -/

/-- Looks for the next key of an object, which may be the first: `none` at the closing brace, which
is not taken. -/
def nextKey (first : Bool) (text : List Char) : Except Stop (Option (String × List Char)) :=
  match dropBlanks text with
  | [] => .error (.upon .endInObject [])
  | c :: rest =>
      if c = '\x7d' then .ok none
      else if first then
        if c = '\x22' then (stringBody rest).map some else .error (.upon .keyNotString (c :: rest))
      else if c = ',' then
        match dropBlanks rest with
        | [] => .error (.upon .endInValue [])
        | d :: rest' =>
            if d = '\x22' then (stringBody rest').map some
            else if d = '\x7d' then .error (.upon .trailingComma (d :: rest'))
            else .error (.upon .keyNotString (d :: rest'))
      else .error (.upon .objectDelimiterExpected (c :: rest))

/-- Reads the colon behind a key. -/
def readColon (text : List Char) : Except Stop (List Char) :=
  match dropBlanks text with
  | [] => .error (.upon .endInObject [])
  | c :: rest => if c = ':' then .ok rest else .error (.upon .colonExpected (c :: rest))

/-- Looks for the next element of a list, which may be the first: `none` at the closing bracket,
which is not taken. -/
def nextElement (first : Bool) (text : List Char) : Except Stop (Option (List Char)) :=
  match dropBlanks text with
  | [] => .error (.upon .endInList [])
  | c :: rest =>
      if c = ']' then .ok none
      else if first then .ok (some (c :: rest))
      else if c = ',' then
        match dropBlanks rest with
        | [] => .error (.upon .endInValue [])
        | d :: rest' =>
            if d = ']' then .error (.upon .trailingComma (d :: rest')) else .ok (some (d :: rest'))
      else .error (.upon .listDelimiterExpected (c :: rest))

/-- Takes the closing brace of an object. -/
def endObject (text : List Char) : Except Stop (List Char) :=
  match dropBlanks text with
  | [] => .error (.upon .endInObject [])
  | c :: rest =>
      if c = '\x7d' then .ok rest
      else if c = ',' then .error (.upon .trailingComma (c :: rest))
      else .error (.upon .trailingCharacters (c :: rest))

/-- Takes the closing bracket of a list. -/
def endList (text : List Char) : Except Stop (List Char) :=
  match dropBlanks text with
  | [] => .error (.upon .endInList [])
  | c :: rest =>
      if c = ']' then .ok rest
      else if c = ',' then
        match dropBlanks rest with
        | ']' :: rest' => .error (.upon .trailingComma (']' :: rest'))
        | rest' => .error (.upon .trailingCharacters rest')
      else .error (.upon .trailingCharacters (c :: rest))

/-- A fault that concerns an object as a whole: its place is behind the blanks that follow, and
behind the closing brace if that is next. -/
def objectFault (reason : Reason) (text : List Char) : Stop :=
  match dropBlanks text with
  | '\x7d' :: rest => .before reason rest
  | rest => .before reason rest

/-- A fault that concerns a list as a whole: its place is behind the closing bracket. -/
def listFault (reason : Reason) (text : List Char) : Stop :=
  match dropBlanks text with
  | ']' :: rest => .before reason rest
  | rest => .before reason rest

/-- Reads the members of an object.  `member` takes in the value of one key; what it gets starts
behind the key.  The number bounds the members, and one more than the length of the text is
always enough. -/
def readMembers {σ : Type} (member : σ → String → Reader σ) :
    Nat → Bool → σ → Reader σ
  | 0, _, _, text => .error (.upon .endInObject text)
  | bound + 1, first, state, text =>
      match nextKey first text with
      | .error stop => .error stop
      | .ok none => .ok (state, text)
      | .ok (some (key, text)) =>
          match member state key text with
          | .error stop => .error stop
          | .ok (state, text) => readMembers member bound false state text

/-- Reads the elements of a list.  The number bounds the elements, and one more than the length of
the text is always enough. -/
def readElements {α : Type} (element : Reader α) : Nat → Bool → Reader (List α)
  | 0, _, text => .error (.upon .endInList text)
  | bound + 1, first, text =>
      match nextElement first text with
      | .error stop => .error stop
      | .ok none => .ok ([], text)
      | .ok (some text) =>
          match element text with
          | .error stop => .error stop
          | .ok (value, text) =>
              match readElements element bound false text with
              | .error stop => .error stop
              | .ok (values, text) => .ok (value :: values, text)

/-- Reads the next element of a list that stands for an object; a member that is not there has its
default. -/
def readOptionalElement {α : Type} (first : Bool) (element : Reader α) (default : α) :
    Reader α := fun text =>
  match nextElement first text with
  | .error stop => .error stop
  | .ok none => .ok (default, text)
  | .ok (some text) => element text

/-- Reads the next element of a list that stands for an entry; the element is needed. -/
def readNeededElement {α : Type} (position : Nat) (element : Reader α) : Reader α := fun text =>
  match nextElement (position == 0) text with
  | .error stop => .error stop
  | .ok none =>
      .error (listFault (.wrongLength position "struct ClientEntry with 5 elements") text)
  | .ok (some text) => element text

/-! ## Entries -/

/-- The members of an entry that were read so far. -/
structure Draft where
  service : Option String := none
  address : Option String := none
  tls : Option Bool := none
  caCertificate : Option (Option String) := none
  hostOverride : Option (Option String) := none
  deriving DecidableEq, Repr, Inhabited

/-- Reads the value of a known key, unless the key has a value already. -/
def readOnce {α σ : Type} (key : String) (old : Option α) (value : Reader α) (set : α → σ) :
    Reader σ := fun text =>
  if old.isSome then .error (objectFault (.duplicateField key) text)
  else
    match readColon text with
    | .error stop => .error stop
    | .ok text => (value text).map fun (value, left) => (set value, left)

/-- Passes over the value of a key that is not known. -/
def passMember {σ : Type} (state : σ) : Reader σ := fun text =>
  match readColon text with
  | .error stop => .error stop
  | .ok text => (skipValue text).map fun left => (state, left)

/-- Takes in one member of an entry. -/
def readEntryMember (draft : Draft) (key : String) : Reader Draft :=
  if key = "svc_name" then
    readOnce key draft.service readText fun value => { draft with service := some value }
  else if key = "server_addr" then
    readOnce key draft.address readText fun value => { draft with address := some value }
  else if key = "use_tls" then
    readOnce key draft.tls readBool fun value => { draft with tls := some value }
  else if key = "cert_file" then
    readOnce key draft.caCertificate readOptional fun value =>
      { draft with caCertificate := some value }
  else if key = "server_host_override" then
    readOnce key draft.hostOverride readOptional fun value =>
      { draft with hostOverride := some value }
  else passMember draft

/-- The entry made of the members of an object, or the name of one that is missing. -/
def Draft.entry (draft : Draft) : Except String ClientEntry :=
  match draft.service, draft.address with
  | none, _ => .error "svc_name"
  | some _, none => .error "server_addr"
  | some service, some address =>
      .ok
        { service := service
          address := address
          tls := draft.tls.getD false
          caCertificate := draft.caCertificate.join
          hostOverride := draft.hostOverride.join }

/-- Reads an entry behind its opening brace. -/
def readEntryObject (bound : Nat) : Reader ClientEntry := fun text =>
  match readMembers readEntryMember bound true {} text with
  | .error stop => .error stop
  | .ok (draft, text) =>
      match draft.entry with
      | .error name => .error (objectFault (.missingField name) text)
      | .ok entry => (endObject text).map fun left => (entry, left)

/-- Reads an entry behind its opening bracket. -/
def readEntryList : Reader ClientEntry := fun text => do
  let (service, text) ← readNeededElement 0 readText text
  let (address, text) ← readNeededElement 1 readText text
  let (tls, text) ← readOptionalElement false readBool false text
  let (caCertificate, text) ← readOptionalElement false readOptional none text
  let (hostOverride, text) ← readOptionalElement false readOptional none text
  let left ← endList text
  .ok
    ({ service := service
       address := address
       tls := tls
       caCertificate := caCertificate
       hostOverride := hostOverride }, left)

/-- Reads an entry. -/
def readEntry (bound : Nat) : Reader ClientEntry := fun text =>
  match dropBlanks text with
  | '\x7b' :: rest => readEntryObject bound rest
  | '[' :: rest => readEntryList rest
  | text => .error (wrongType "struct ClientEntry" text)

/-- Reads a list of entries. -/
def readEntries (bound : Nat) : Reader (List ClientEntry) := fun text =>
  match dropBlanks text with
  | '[' :: rest =>
      match readElements (readEntry bound) bound true rest with
      | .error stop => .error stop
      | .ok (entries, text) => (endList text).map fun left => (entries, left)
  | text => .error (wrongType "a sequence" text)

/-! ## The whole text -/

/-- Takes in one member of the whole object. -/
def readConfigMember (bound : Nat) (entries : Option (List ClientEntry)) (key : String) :
    Reader (Option (List ClientEntry)) :=
  if key = "client_config" then readOnce key entries (readEntries bound) some
  else passMember entries

/-- Reads a configuration.  The number bounds the members of each object and the elements of each
list. -/
def readConfig (bound : Nat) : Reader ClientConfig := fun text =>
  match dropBlanks text with
  | '\x7b' :: rest =>
      match readMembers (readConfigMember bound) bound true none rest with
      | .error stop => .error stop
      | .ok (entries, text) => (endObject text).map fun left => (⟨entries.getD []⟩, left)
  | '[' :: rest =>
      match readOptionalElement true (readEntries bound) [] rest with
      | .error stop => .error stop
      | .ok (entries, text) => (endList text).map fun left => (⟨entries⟩, left)
  | text => .error (wrongType "struct ClientConfig" text)

/-- The configuration that a text describes. -/
def ofText (text : String) : Except Error ClientConfig :=
  let result : Except Stop ClientConfig := do
    let (config, left) ← readConfig (text.length + 1) text.toList
    expectEnd left
    pure config
  result.mapError fun stop => .parse (stop.toFault text)

end HeartbeatPool.ClientConfig
