import HeartbeatPool.Proofs.Channels
import HeartbeatPool.Proofs.Uris

/-!
# Addresses with and without a scheme

An address that begins with a scheme is meant to be dialed as it is, and any other address behind
`http://` (`ChannelFactory.KeepsPromise`).  What is looked at, though, is whether the address holds
`://` anywhere, so an address without a scheme is dialed as it is too if it holds `://` in its path
or in its query.

## Strategy

The two looks agree on addresses that begin with a scheme, and on those without `://`.  An address
of any other kind has a slash in it, so it can be a URI by itself only in one of the ways of
`Uri.StandsAlone`.  Behind `http://` it is one if it begins with an authority (`Uri.Completes`).
The promise is kept exactly where these two conditions agree; an address with another one in its
query shows that they need not.

Main statement: `ChannelFactory.dial_of_address`.
-/

namespace HeartbeatPool

/-! ## Schemes -/

/-- Whether a character may stand in a scheme. -/
def isSchemeChar (c : Char) : Bool := c.isAlphanum || c == '+' || c == '-' || c == '.'

/-- A scheme: a letter, and what may stand in a scheme behind it. -/
def IsScheme : List Char → Prop
  | [] => False
  | first :: rest => first.isAlpha = true ∧ ∀ c ∈ rest, isSchemeChar c = true

/-- An address begins with a scheme. -/
def BeginsWithScheme (address : String) : Prop :=
  ∃ scheme rest : String, address = scheme ++ "://" ++ rest ∧ IsScheme scheme.toList

/-- An address holds `://` somewhere. -/
def HoldsSeparator (address : String) : Prop :=
  ∃ before after : String, address = before ++ "://" ++ after

theorem BeginsWithScheme.holdsSeparator {address : String} (h : BeginsWithScheme address) :
    HoldsSeparator address := by
  obtain ⟨scheme, rest, haddress, -⟩ := h
  exact ⟨scheme, rest, haddress⟩

theorem hasSeparator_iff_within (text : List Char) :
    hasSeparator text = true ↔ "://".toList <:+: text := by
  induction text with
  | nil => exact iff_of_false nofun (by decide)
  | cons c rest ih =>
      rw [hasSeparator, Bool.or_eq_true, List.isPrefixOf_iff_prefix, ih, List.infix_cons_iff]

theorem hasSeparator_iff (address : String) :
    hasSeparator address.toList = true ↔ HoldsSeparator address := by
  rw [hasSeparator_iff_within]
  constructor
  · rintro ⟨before, after, htext⟩
    refine ⟨String.ofList before, String.ofList after, String.toList_inj.mp ?_⟩
    simp only [String.toList_append, String.toList_ofList]
    exact htext.symm
  · rintro ⟨before, after, rfl⟩
    refine ⟨before.toList, after.toList, ?_⟩
    rw [String.toList_append, String.toList_append]

instance (address : String) : Decidable (HoldsSeparator address) :=
  decidable_of_iff _ (hasSeparator_iff address)

/-- Looks for a scheme: the longest run of what may stand in one, behind a letter. -/
def beginsWithScheme : List Char → Bool
  | [] => false
  | first :: rest =>
      first.isAlpha && ("://".toList).isPrefixOf (rest.dropWhile isSchemeChar)

theorem beginsWithScheme_iff (address : String) :
    beginsWithScheme address.toList = true ↔ BeginsWithScheme address := by
  constructor
  · intro h
    cases htext : address.toList with
    | nil =>
        rw [htext] at h
        cases h
    | cons first rest =>
        rw [htext, beginsWithScheme, Bool.and_eq_true, List.isPrefixOf_iff_prefix] at h
        obtain ⟨halpha, after, hafter⟩ := h
        refine ⟨String.ofList (first :: rest.takeWhile isSchemeChar), String.ofList after,
          String.toList_inj.mp ?_, ?_⟩
        · calc address.toList
              = first :: (rest.takeWhile isSchemeChar ++ rest.dropWhile isSchemeChar) := by
                rw [htext, List.takeWhile_append_dropWhile]
            _ = first :: rest.takeWhile isSchemeChar ++ "://".toList ++ after := by
                rw [← hafter, List.cons_append, List.cons_append, List.append_assoc]
            _ = _ := by simp only [String.toList_append, String.toList_ofList]
        · rw [String.toList_ofList]
          exact ⟨halpha, List.all_eq_true.mp List.all_takeWhile⟩
  · rintro ⟨scheme, rest, rfl, hscheme⟩
    rw [String.toList_append, String.toList_append]
    cases hrun : scheme.toList with
    | nil =>
        rw [hrun] at hscheme
        exact hscheme.elim
    | cons first run =>
        rw [hrun] at hscheme
        obtain ⟨halpha, hrest⟩ := hscheme
        -- the colon ends the run
        have hdrop : (run ++ "://".toList ++ rest.toList).dropWhile isSchemeChar =
            "://".toList ++ rest.toList := by
          rw [List.append_assoc, List.dropWhile_append_of_pos hrest]
          rfl
        rw [List.cons_append, List.cons_append, beginsWithScheme, halpha, hdrop, Bool.true_and,
          List.isPrefixOf_iff_prefix]
        exact List.prefix_append _ _

instance (address : String) : Decidable (BeginsWithScheme address) :=
  decidable_of_iff _ (beginsWithScheme_iff address)

namespace Uri

/-! ## The bytes of a text -/

theorem toList_loop (array : ByteArray) (index : Nat) (taken : List UInt8) :
    ByteArray.toList.loop array index taken =
      taken.reverse ++ array.data.toList.drop index := by
  fun_induction ByteArray.toList.loop array index taken with
  | case1 index taken hindex ih =>
      have hlt : index < array.data.toList.length := by simpa using hindex
      rw [ih, List.drop_eq_getElem_cons hlt]
      simp [ByteArray.get!, hindex]
  | case2 index taken hindex =>
      rw [List.drop_eq_nil_of_le (by simpa using Nat.le_of_not_lt hindex), List.append_nil]

theorem toList_toUTF8 (text : String) : text.toUTF8.toList = text.toByteArray.data.toList := by
  rw [String.toUTF8_eq_toByteArray, ByteArray.toList, toList_loop]
  rfl

theorem toList_toUTF8_append (first second : String) :
    (first ++ second).toUTF8.toList = first.toUTF8.toList ++ second.toUTF8.toList := by
  rw [toList_toUTF8, toList_toUTF8, toList_toUTF8, String.toByteArray_append,
    ByteArray.data_append, Array.toList_append]

theorem slash_mem_of_holdsSeparator {address : String} (h : HoldsSeparator address) :
    byte '/' ∈ address.toUTF8.toList := by
  obtain ⟨before, after, rfl⟩ := h
  have hseparator : "://".toUTF8.toList = separator := by decide +kernel
  rw [toList_toUTF8_append, toList_toUTF8_append, hseparator]
  exact List.mem_append_left _ (List.mem_append_right _ (by decide))

theorem isValid_iff_standsAlone {address : String} (h : HoldsSeparator address) :
    isValid address = true ↔ StandsAlone address.toUTF8.toList := by
  rw [isValid, isValidBytes_iff]
  exact isUri_of_slash (slash_mem_of_holdsSeparator h)

/-! ## Behind a scheme -/

/-- Bytes are a URI if `http://` is put in front of them. -/
structure Completes (bytes : List UInt8) : Prop where
  length : bytes.length + 7 ≤ maxLength
  authority : HasAuthority bytes

/-- The bytes of `http://`. -/
def http : List UInt8 := "http://".toList.map byte

theorem toList_http : "http://".toUTF8.toList = http := by decide +kernel

theorem splits_http (bytes : List UInt8) :
    Splits (http ++ bytes) ("http".toList.map byte) bytes :=
  ⟨rfl, List.all_eq_true.mp (by decide)⟩

theorem isUri_http_iff (bytes : List UInt8) : IsUri (http ++ bytes) ↔ Completes bytes := by
  have hsplits := splits_http bytes
  have hlength : (http ++ bytes).length = bytes.length + 7 := by
    rw [List.length_append, Nat.add_comm]
    rfl
  rw [isUri_of_slash hsplits.slash_mem]
  constructor
  · intro halone
    cases halone with
    | socket hsocket =>
        -- a socket begins with another letter
        obtain ⟨hletter, -⟩ := List.cons_prefix_cons.mp hsocket
        exact absurd hletter (by decide)
    | path _ hhead => exact absurd hhead hsplits.head_ne
    | scheme hle hsplits' _ hrest =>
        obtain ⟨-, rfl⟩ := hsplits.unique hsplits'
        exact ⟨hlength ▸ hle, hrest⟩
  · rintro ⟨hle, hauthority⟩
    exact .scheme (hlength ▸ hle) hsplits (by decide) hauthority

theorem isValid_http_iff (text : String) :
    isValid ("http://" ++ text) = true ↔ Completes text.toUTF8.toList := by
  rw [isValid, toList_toUTF8_append, toList_http, isValidBytes_iff, isUri_http_iff]

end Uri

/-! ## What is dialed -/

theorem Endpoint.uri_of_holdsSeparator {endpoint : Endpoint}
    (h : HoldsSeparator endpoint.address) : endpoint.uri = endpoint.address := by
  rw [uri, if_pos ((hasSeparator_iff _).mpr h)]

theorem Endpoint.uri_of_not_holdsSeparator {endpoint : Endpoint} (hplain : endpoint.tls = false)
    (h : ¬ HoldsSeparator endpoint.address) : endpoint.uri = "http://" ++ endpoint.address := by
  rw [uri, if_neg (fun hhas => h ((hasSeparator_iff _).mp hhas)), hplain, if_neg Bool.false_ne_true]
  rfl

namespace ChannelFactory

/-- What is promised about the address of an endpoint: with a scheme it is used as it is, and
without one `http://` is put in front of it, whatever else it holds. -/
structure KeepsPromise (factory : ChannelFactory) (network : Network) (endpoint : Endpoint) :
    Prop where
  given : BeginsWithScheme endpoint.address →
    ((factory.dial network endpoint).2 = .success ↔ Uri.isValid endpoint.address = true)
  completed : ¬ BeginsWithScheme endpoint.address →
    ((factory.dial network endpoint).2 = .success ↔
      Uri.isValid ("http://" ++ endpoint.address) = true)

section Plain

variable {factory : ChannelFactory} {network : Network} {endpoint : Endpoint}
  (hlazy : factory.isLazy = true) (hplain : endpoint.tls = false)
include hlazy hplain

/-- A factory whose channels connect on first use looks at the URI only. -/
theorem dial_of_plain : factory.dial network endpoint =
    ([], if Uri.isValid endpoint.uri then .success else .failure "invalid URI") := by
  rw [dial, fault?_of_lazy hlazy, Endpoint.hasUri, hplain]
  cases Uri.isValid endpoint.uri with
  | false => rfl
  | true => simp [hlazy]

theorem dial_success_iff :
    (factory.dial network endpoint).2 = .success ↔ Uri.isValid endpoint.uri = true := by
  rw [dial_of_plain hlazy hplain]
  cases Uri.isValid endpoint.uri <;> simp

theorem keepsPromise_of_not_holdsSeparator (h : ¬ HoldsSeparator endpoint.address) :
    factory.KeepsPromise network endpoint where
  given hscheme := absurd hscheme.holdsSeparator h
  completed _ := by
    rw [dial_success_iff hlazy hplain, Endpoint.uri_of_not_holdsSeparator hplain h]

theorem keepsPromise_of_beginsWithScheme (h : BeginsWithScheme endpoint.address) :
    factory.KeepsPromise network endpoint where
  given _ := by
    rw [dial_success_iff hlazy hplain, Endpoint.uri_of_holdsSeparator h.holdsSeparator]
  completed hnone := absurd h hnone

/-- An address is dialed as promised if it begins with a scheme, and if it holds no `://` at all.
Otherwise it is looked at as it is: there is a channel exactly if it is a URI by itself, and the
promise is kept exactly if `http://` in front of it makes no difference to that. -/
theorem dial_of_address :
    (BeginsWithScheme endpoint.address ∨ ¬ HoldsSeparator endpoint.address →
        factory.KeepsPromise network endpoint) ∧
      (¬ BeginsWithScheme endpoint.address → HoldsSeparator endpoint.address →
        (Uri.StandsAlone endpoint.address.toUTF8.toList →
          factory.dial network endpoint = ([], .success)) ∧
        (¬ Uri.StandsAlone endpoint.address.toUTF8.toList →
          factory.dial network endpoint = ([], .failure "invalid URI")) ∧
        (factory.KeepsPromise network endpoint ↔
          (Uri.StandsAlone endpoint.address.toUTF8.toList ↔
            Uri.Completes endpoint.address.toUTF8.toList))) := by
  refine ⟨?_, ?_⟩
  · rintro (hscheme | hnone)
    · exact keepsPromise_of_beginsWithScheme hlazy hplain hscheme
    · exact keepsPromise_of_not_holdsSeparator hlazy hplain hnone
  · intro hnone hholds
    have hdial := @dial_of_plain factory network endpoint hlazy hplain
    have hsuccess := @dial_success_iff factory network endpoint hlazy hplain
    rw [Endpoint.uri_of_holdsSeparator hholds] at hdial hsuccess
    have halone := Uri.isValid_iff_standsAlone hholds
    refine ⟨?_, ?_, ?_⟩
    · intro h
      rw [hdial, if_pos (halone.mpr h)]
    · intro h
      rw [hdial, if_neg fun hvalid => h (halone.mp hvalid)]
    · rw [← halone, ← Uri.isValid_http_iff, ← hsuccess]
      exact ⟨fun hkeeps => hkeeps.completed hnone,
        fun hiff => ⟨fun hscheme => absurd hscheme hnone, fun _ => hiff⟩⟩

end Plain

/-- An address that does not begin with a scheme, since schemes begin with a letter, but with
something that is read as one: it is dialed as promised. -/
theorem dial_of_digit_in_front :
    let endpoint : Endpoint := { address := "1st://east:1" }
    let factory : ChannelFactory := { isLazy := true }
    ¬ BeginsWithScheme endpoint.address ∧ HoldsSeparator endpoint.address ∧
      factory.dial Network.none endpoint = ([], .success) ∧
      factory.KeepsPromise Network.none endpoint := by
  intro endpoint factory
  have hnone : ¬ BeginsWithScheme endpoint.address := by decide
  have hholds : HoldsSeparator endpoint.address := by decide
  have hauthority : Uri.HasAuthority "east:1".toUTF8.toList :=
    Uri.isAbsolute_iff.mp (by decide +kernel)
  have hsplits : Uri.Splits endpoint.address.toUTF8.toList "1st".toUTF8.toList
      "east:1".toUTF8.toList := ⟨by decide +kernel, List.all_eq_true.mp (by decide +kernel)⟩
  have halone : Uri.StandsAlone endpoint.address.toUTF8.toList :=
    .scheme (by decide +kernel) hsplits (by decide +kernel) hauthority
  have hcompletes : Uri.Completes endpoint.address.toUTF8.toList :=
    ⟨by decide +kernel, Uri.isAbsolute_iff.mp (by decide +kernel)⟩
  obtain ⟨-, hother⟩ :=
    @dial_of_address factory Network.none endpoint rfl rfl
  obtain ⟨hdial, -, hkeeps⟩ := hother hnone hholds
  exact ⟨hnone, hholds, hdial halone, hkeeps.mpr (iff_of_true halone hcompletes)⟩

/-- An address with another one in its query: behind `http://` it is a URI, but it is refused. -/
theorem dial_of_address_in_query :
    let endpoint : Endpoint := { address := "127.0.0.1:50051/a?next=http://b" }
    let factory : ChannelFactory := { isLazy := true }
    ¬ BeginsWithScheme endpoint.address ∧
      Uri.isValid ("http://" ++ endpoint.address) = true ∧
      factory.dial Network.none endpoint = ([], .failure "invalid URI") ∧
      ¬ factory.KeepsPromise Network.none endpoint := by
  intro endpoint factory
  have hnone : ¬ BeginsWithScheme endpoint.address := by decide
  have hvalid : Uri.isValid ("http://" ++ endpoint.address) = true := by decide +kernel
  have hdial : factory.dial Network.none endpoint = ([], .failure "invalid URI") := by
    decide +kernel
  refine ⟨hnone, hvalid, hdial, fun hkeeps => ?_⟩
  have hsuccess := (hkeeps.completed hnone).mpr hvalid
  rw [hdial] at hsuccess
  cases hsuccess

end ChannelFactory

end HeartbeatPool
