import HeartbeatPool.Channel.Uri
import Mathlib.Algebra.Group.Nat.Defs

/-!
# The grammar of URIs

URIs are looked at by two scans: one for a scheme in front, and one for an authority behind it.
Here it is said without the scans which bytes are URIs (`IsUri`), and the scans are shown to find
just that.

* `Splits`: a run of scheme bytes in front of `://`.  Bytes can be split in one way at most, since a
  colon is no scheme byte, and whether they can be is what `findScheme` finds out.
* `HasAuthority`: an authority in front of a path.  An authority goes as far as the first byte that
  ends one, so the induction over its bytes also shows that there is no slash in it.

Bytes with a slash are therefore no bare authority, and are URIs in one of three ways
(`StandsAlone`).

Main statement: `isValidBytes_iff`.
-/

namespace HeartbeatPool.Uri

variable {bytes run rest : List UInt8}

/-! ## Schemes -/

/-- Bytes consist of a run of scheme bytes, `://`, and a rest. -/
structure Splits (bytes run rest : List UInt8) : Prop where
  eq : bytes = run ++ (separator ++ rest)
  scheme : ∀ b ∈ run, isSchemeByte b = true

namespace Splits

/-- The run ends at the colon, so it is the longest one. -/
theorem takeWhile_eq (h : Splits bytes run rest) : bytes.takeWhile isSchemeByte = run := by
  rw [h.eq, List.takeWhile_append_of_pos h.scheme]
  exact List.append_nil run

theorem drop_eq (h : Splits bytes run rest) : bytes.drop run.length = separator ++ rest := by
  rw [h.eq, List.drop_left]

theorem unique {run' rest' : List UInt8} (h : Splits bytes run rest)
    (h' : Splits bytes run' rest') : run = run' ∧ rest = rest' := by
  obtain rfl : run = run' := h.takeWhile_eq.symm.trans h'.takeWhile_eq
  exact ⟨rfl, List.append_cancel_left (h.drop_eq.symm.trans h'.drop_eq)⟩

theorem length_eq (h : Splits bytes run rest) : bytes.length = run.length + (3 + rest.length) := by
  rw [h.eq, List.length_append, List.length_append]
  rfl

theorem slash_mem (h : Splits bytes run rest) : byte '/' ∈ bytes := by
  rw [h.eq]
  exact List.mem_append_right _ (List.mem_append_left _ (by decide))

/-- There is no scheme in front of a slash. -/
theorem head_ne (h : Splits bytes run rest) : bytes.head? ≠ some (byte '/') := by
  rw [h.eq]
  intro hhead
  cases run with
  | nil => cases hhead
  | cons first run =>
      cases hhead
      have hslash := h.scheme (byte '/') List.mem_cons_self
      cases hslash

/-- A separator behind the longest run splits bytes. -/
theorem of_takeWhile (h : separator ++ rest = bytes.drop (bytes.takeWhile isSchemeByte).length) :
    Splits bytes (bytes.takeWhile isSchemeByte) rest where
  eq := by rw [h, List.prefix_iff_eq_append.mp (List.takeWhile_prefix _)]
  scheme := List.all_eq_true.mp List.all_takeWhile

end Splits

/-- A letter in lower case was a letter. -/
theorem isSchemeByte_of_lower {b : UInt8} (h : isSchemeByte (lower b) = true) :
    isSchemeByte b = true := by
  unfold lower at h
  split at h
  · next hletter => simp [isSchemeByte, isAlphanumeric, hletter]
  · exact h

/-- What is below the letters was no letter. -/
theorem eq_of_lower {b c : UInt8} (hbelow : c < byte 'A') (h : lower b = c) : b = c := by
  unfold lower at h
  split at h
  · next hletter =>
      rw [Bool.and_eq_true, decide_eq_true_eq, decide_eq_true_eq, UInt8.le_iff_toNat_le,
        UInt8.le_iff_toNat_le] at hletter
      have hsum : c.toNat = (b.toNat + 32) % 256 := by
        rw [← h, UInt8.toNat_add]
        rfl
      have hfirst : (byte 'A').toNat = 65 := by decide
      have hlast : (byte 'Z').toNat = 90 := by decide
      rw [UInt8.lt_iff_toNat_lt] at hbelow
      omega
  · exact h

theorem eq_of_map_lower {target : List UInt8} (hbelow : target.all (· < byte 'A') = true)
    (h : bytes.map lower = target) : bytes = target := by
  subst h
  rw [List.all_eq_true] at hbelow
  calc bytes
      = bytes.map id := (List.map_id bytes).symm
    _ = bytes.map lower := by
      refine List.map_congr_left fun b hb => ?_
      exact eq_of_lower (of_decide_eq_true (hbelow _ (List.mem_map_of_mem hb))) rfl

/-- The common schemes, in any case, are runs of scheme bytes too. -/
theorem Splits.of_lower {scheme : List UInt8} (hscheme : scheme.all isSchemeByte = true)
    (h : (bytes.take (scheme.length + 3)).map lower = scheme ++ separator) :
    Splits bytes (bytes.take scheme.length) (bytes.drop (scheme.length + 3)) := by
  rw [List.take_add, List.map_append] at h
  have hlength := congrArg List.length h
  have hthree : separator.length = 3 := rfl
  simp only [List.length_append, List.length_map, List.length_take, List.length_drop, hthree]
    at hlength
  obtain ⟨hrun, hseparator⟩ := List.append_inj h (by
    rw [List.length_map, List.length_take]
    omega)
  constructor
  · rw [← eq_of_map_lower (by decide) hseparator, ← List.drop_drop, List.take_append_drop,
      List.take_append_drop]
  · intro b hb
    apply isSchemeByte_of_lower
    apply List.all_eq_true.mp hscheme
    rw [← hrun]
    exact List.mem_map_of_mem hb

/-- What is found where bytes can be split, and there is more than the separator. -/
theorem findScheme_of_splits (h : Splits bytes run rest) (hlong : 3 < bytes.length) :
    findScheme bytes = if maxSchemeLength < run.length then .tooLong else .found rest := by
  have hcommon (scheme : List UInt8) (hscheme : scheme.all isSchemeByte = true)
      (hlength : scheme.length ≤ maxSchemeLength)
      (hlower : ((bytes.take (scheme.length + 3)).map lower == scheme ++ separator) = true) :
      Scheme.found (bytes.drop (scheme.length + 3)) =
        if maxSchemeLength < run.length then .tooLong else .found rest := by
    obtain ⟨rfl, rfl⟩ := h.unique (.of_lower hscheme (beq_iff_eq.mp hlower))
    rw [if_neg]
    rw [List.length_take]
    omega
  unfold findScheme
  split
  · next hhttp => exact hcommon ("http".toList.map byte) (by decide) (by decide) hhttp
  split
  · next hhttps => exact hcommon ("https".toList.map byte) (by decide) (by decide) hhttps
  rw [if_neg (Nat.not_le.mpr hlong)]
  dsimp only
  rw [h.takeWhile_eq, h.drop_eq, List.isPrefixOf_iff_prefix.mpr (List.prefix_append separator rest)]
  rfl

/-- Nothing is found where bytes cannot be split, or there is nothing but the separator. -/
theorem findScheme_of_not_splits (h : ∀ run rest, Splits bytes run rest → bytes.length ≤ 3) :
    findScheme bytes = .absent := by
  have hcommon (scheme : List UInt8) (hscheme : scheme.all isSchemeByte = true)
      (hlength : 0 < scheme.length) :
      ((bytes.take (scheme.length + 3)).map lower == scheme ++ separator) = false := by
    rw [beq_eq_false_iff_ne]
    intro hlower
    have hshort := h _ _ (.of_lower hscheme hlower)
    have htaken := congrArg List.length hlower
    have hthree : separator.length = 3 := rfl
    rw [List.length_map, List.length_take, List.length_append, hthree] at htaken
    omega
  have hhttp := hcommon ("http".toList.map byte) (by decide) (by decide)
  have hhttps := hcommon ("https".toList.map byte) (by decide) (by decide)
  unfold findScheme
  split
  · next heq => exact absurd heq (Bool.eq_false_iff.mp hhttp)
  split
  · next heq => exact absurd heq (Bool.eq_false_iff.mp hhttps)
  split
  · rfl
  next hlong =>
  dsimp only
  split
  · rfl
  · next hsome =>
      rw [Bool.not_eq_true', Bool.not_eq_false, List.isPrefixOf_iff_prefix] at hsome
      obtain ⟨rest, hrest⟩ := hsome
      exact absurd (h _ _ (.of_takeWhile hrest)) hlong

/-! ## Authorities -/

namespace Authority

variable {seen : Authority} {b : UInt8}

theorem scan_nil_iff : seen.scan [] = some rest ↔ seen.isComplete = true ∧ rest = [] := by
  rw [scan]
  split
  · next hcomplete => simp [hcomplete, eq_comm]
  · next hopen => simp [hopen]

theorem scan_end_iff (hend : isEnd b = true) :
    seen.scan (b :: bytes) = some rest ↔ seen.isComplete = true ∧ rest = b :: bytes := by
  rw [scan, if_pos hend]
  split
  · next hcomplete => simp [hcomplete, eq_comm]
  · next hopen => simp [hopen]

theorem scan_next_iff (hmiddle : ¬ isEnd b = true) :
    seen.scan (b :: bytes) = some rest ↔
      ∃ next, seen.next? b = some next ∧ next.scan bytes = some rest := by
  rw [scan, if_neg hmiddle]
  cases seen.next? b <;> simp

/-- An authority goes as far as the first byte that ends one. -/
theorem scan_eq_some_iff : seen.scan bytes = some rest ↔
    ∃ authority, bytes = authority ++ rest ∧ seen.scan authority = some [] ∧
      ∀ b ∈ rest.head?, isEnd b = true := by
  induction bytes generalizing seen with
  | nil =>
      rw [scan_nil_iff]
      constructor
      · rintro ⟨hcomplete, rfl⟩
        exact ⟨[], rfl, scan_nil_iff.mpr ⟨hcomplete, rfl⟩, nofun⟩
      · rintro ⟨authority, hsplit, hscan, -⟩
        obtain ⟨rfl, rfl⟩ := List.append_eq_nil_iff.mp hsplit.symm
        exact scan_nil_iff.mp hscan
  | cons b bytes ih =>
      by_cases hend : isEnd b = true
      · rw [scan_end_iff hend]
        constructor
        · rintro ⟨hcomplete, rfl⟩
          refine ⟨[], rfl, scan_nil_iff.mpr ⟨hcomplete, rfl⟩, ?_⟩
          intro first hfirst
          cases hfirst
          exact hend
        · rintro ⟨authority, hsplit, hscan, -⟩
          cases authority with
          | nil => exact ⟨(scan_nil_iff.mp hscan).1, hsplit.symm⟩
          | cons first authority =>
              -- the byte that ends an authority does not belong to it
              obtain ⟨rfl, -⟩ := List.cons_eq_cons.mp hsplit
              cases ((scan_end_iff hend).mp hscan).2
      · rw [scan_next_iff hend]
        constructor
        · rintro ⟨next, hnext, hscan⟩
          obtain ⟨authority, rfl, hwhole, hhead⟩ := ih.mp hscan
          exact ⟨b :: authority, rfl, (scan_next_iff hend).mpr ⟨next, hnext, hwhole⟩, hhead⟩
        · rintro ⟨authority, hsplit, hscan, hhead⟩
          cases authority with
          | nil =>
              rw [List.nil_append] at hsplit
              subst hsplit
              exact absurd (hhead b rfl) hend
          | cons first authority =>
              obtain ⟨rfl, rfl⟩ := List.cons_eq_cons.mp hsplit
              obtain ⟨next, hnext, hwhole⟩ := (scan_next_iff hend).mp hscan
              exact ⟨next, hnext, ih.mpr ⟨authority, rfl, hwhole, hhead⟩⟩

theorem isEnd_of_scan (h : seen.scan bytes = some []) : ∀ b ∈ bytes, isEnd b = false := by
  induction bytes generalizing seen with
  | nil => exact nofun
  | cons b bytes ih =>
      by_cases hend : isEnd b = true
      · cases ((scan_end_iff hend).mp h).2
      · obtain ⟨next, -, hnext⟩ := (scan_next_iff hend).mp h
        intro other hother
        rcases List.mem_cons.mp hother with rfl | hother
        · exact Bool.eq_false_iff.mpr hend
        · exact ih hnext other hother

theorem isWhole_of_slash (h : byte '/' ∈ bytes) : isWhole bytes = false := by
  rw [Bool.eq_false_iff]
  intro hwhole
  have hslash := isEnd_of_scan (beq_iff_eq.mp hwhole) _ h
  cases hslash

end Authority

/-- Bytes begin with an authority, and what follows it is a path. -/
def HasAuthority (bytes : List UInt8) : Prop :=
  ∃ authority path, bytes = authority ++ path ∧ authority ≠ [] ∧
    Authority.isWhole authority = true ∧ (∀ b ∈ path.head?, Authority.isEnd b = true) ∧
    isPath path = true

theorem HasAuthority.length_pos (h : HasAuthority bytes) : 0 < bytes.length := by
  obtain ⟨authority, path, rfl, hne, -⟩ := h
  rw [List.length_append]
  exact Nat.add_pos_left (List.length_pos_iff.mpr hne) _

theorem isAbsolute_iff : isAbsolute bytes = true ↔ HasAuthority bytes := by
  unfold isAbsolute
  cases hscan : Authority.scan {} bytes with
  | none =>
      refine iff_of_false nofun ?_
      rintro ⟨authority, path, hsplit, -, hwhole, hhead, -⟩
      have hsome := Authority.scan_eq_some_iff.mpr ⟨authority, hsplit, beq_iff_eq.mp hwhole, hhead⟩
      rw [hscan] at hsome
      cases hsome
  | some rest =>
      show (rest.length != bytes.length && isPath rest) = true ↔ _
      rw [Bool.and_eq_true, bne_iff_ne]
      constructor
      · rintro ⟨hne, hpath⟩
        obtain ⟨authority, hsplit, hwhole, hhead⟩ := Authority.scan_eq_some_iff.mp hscan
        refine ⟨authority, rest, hsplit, ?_, beq_iff_eq.mpr hwhole, hhead, hpath⟩
        rintro rfl
        exact hne (congrArg List.length hsplit.symm)
      · rintro ⟨authority, path, hsplit, hne, hwhole, hhead, hpath⟩
        have hsome :=
          Authority.scan_eq_some_iff.mpr ⟨authority, hsplit, beq_iff_eq.mp hwhole, hhead⟩
        obtain rfl := Option.some.inj (hscan.symm.trans hsome)
        refine ⟨?_, hpath⟩
        have hpos := List.length_pos_iff.mpr hne
        rw [hsplit, List.length_append]
        omega

/-! ## Whole URIs -/

/-- The ways in which bytes with a slash can be a URI: a socket of this machine, a path, or an
authority behind a scheme. -/
inductive StandsAlone (bytes : List UInt8) : Prop where
  | socket (hsocket : "unix:".toList.map byte <+: bytes)
  | path (hlength : bytes.length ≤ maxLength) (hslash : bytes.head? = some (byte '/'))
      (hpath : isPath bytes = true)
  | scheme {run rest : List UInt8} (hlength : bytes.length ≤ maxLength)
      (hsplits : Splits bytes run rest) (hrun : run.length ≤ maxSchemeLength)
      (hrest : HasAuthority rest)

/-- Bytes are a URI. -/
inductive IsUri (bytes : List UInt8) : Prop where
  | alone (halone : StandsAlone bytes)
  | asterisk (heq : bytes = [byte '*'])
  | authority (hlength : bytes.length ≤ maxLength) (hne : bytes ≠ [])
      (hwhole : Authority.isWhole bytes = true)

/-- Only the URI of a socket may be longer. -/
theorem IsUri.length_le (h : IsUri bytes) (hsocket : ¬ "unix:".toList.map byte <+: bytes) :
    bytes.length ≤ maxLength := by
  cases h with
  | alone halone =>
      cases halone with
      | socket h => exact absurd h hsocket
      | path hlength | scheme hlength => exact hlength
  | asterisk heq =>
      rw [heq]
      decide
  | authority hlength => exact hlength

/-- With a slash in them, bytes are no bare authority. -/
theorem isUri_of_slash (hslash : byte '/' ∈ bytes) : IsUri bytes ↔ StandsAlone bytes := by
  refine ⟨fun huri => ?_, .alone⟩
  cases huri with
  | alone halone => exact halone
  | asterisk heq =>
      rw [heq] at hslash
      exact absurd hslash (by decide)
  | authority _ _ hwhole =>
      rw [Authority.isWhole_of_slash hslash] at hwhole
      cases hwhole

/-- What is looked at in bytes that do not begin with a slash. -/
def looksGood (bytes : List UInt8) : Bool :=
  match findScheme bytes with
  | .absent => Authority.isWhole bytes
  | .tooLong => false
  | .found rest => isAbsolute rest

theorem looksGood_iff : looksGood bytes = true ↔
    (∃ run rest, Splits bytes run rest ∧ run.length ≤ maxSchemeLength ∧ HasAuthority rest) ∨
      Authority.isWhole bytes = true := by
  by_cases hfound : ∃ run rest, Splits bytes run rest ∧ 3 < bytes.length
  · obtain ⟨run, rest, h, hlong⟩ := hfound
    rw [looksGood, findScheme_of_splits h hlong, Authority.isWhole_of_slash h.slash_mem,
      or_iff_left Bool.false_ne_true]
    by_cases hmany : maxSchemeLength < run.length
    · rw [if_pos hmany]
      refine iff_of_false nofun ?_
      rintro ⟨run', rest', h', hfew, -⟩
      obtain ⟨rfl, -⟩ := h.unique h'
      omega
    · rw [if_neg hmany]
      show isAbsolute rest = true ↔ _
      rw [isAbsolute_iff]
      constructor
      · intro hrest
        exact ⟨run, rest, h, Nat.le_of_not_lt hmany, hrest⟩
      · rintro ⟨run', rest', h', -, hrest⟩
        obtain ⟨-, rfl⟩ := h.unique h'
        exact hrest
  · have hnone : ∀ run rest, Splits bytes run rest → bytes.length ≤ 3 := fun run rest h =>
      Nat.le_of_not_lt fun hlong => hfound ⟨run, rest, h, hlong⟩
    rw [looksGood, findScheme_of_not_splits hnone]
    refine (or_iff_right ?_).symm
    rintro ⟨run, rest, h, -, hrest⟩
    have hshort := hnone run rest h
    have hpos := hrest.length_pos
    rw [h.length_eq] at hshort
    omega

/-- Bytes that begin with a slash are a URI exactly if they are a path. -/
theorem isUri_slash_iff (hsocket : ¬ "unix:".toList.map byte <+: bytes)
    (hle : bytes.length ≤ maxLength) (hhead : bytes.head? = some (byte '/')) :
    IsUri bytes ↔ isPath bytes = true := by
  rw [isUri_of_slash (List.mem_of_mem_head? hhead)]
  refine ⟨fun halone => ?_, .path hle hhead⟩
  cases halone with
  | socket h => exact absurd h hsocket
  | path _ _ hpath => exact hpath
  | scheme _ hsplits => exact absurd hhead hsplits.head_ne

/-- Other bytes are a URI exactly if they look good, the asterisk apart. -/
theorem isUri_iff_looksGood (hsocket : ¬ "unix:".toList.map byte <+: bytes)
    (hle : bytes.length ≤ maxLength) (hne : bytes ≠ []) (hhead : bytes.head? ≠ some (byte '/')) :
    IsUri bytes ↔ bytes = [byte '*'] ∨ looksGood bytes = true := by
  rw [looksGood_iff]
  constructor
  · intro huri
    cases huri with
    | alone halone =>
        cases halone with
        | socket h => exact absurd h hsocket
        | path _ h => exact absurd h hhead
        | scheme _ hsplits hrun hrest => exact Or.inr (Or.inl ⟨_, _, hsplits, hrun, hrest⟩)
    | asterisk heq => exact Or.inl heq
    | authority _ _ hwhole => exact Or.inr (Or.inr hwhole)
  · rintro (heq | ⟨run, rest, hsplits, hrun, hrest⟩ | hwhole)
    · exact .asterisk heq
    · exact .alone (.scheme hle hsplits hrun hrest)
    · exact .authority hle hne hwhole

/-- The two scans find the URIs, and nothing else. -/
theorem isValidBytes_iff (bytes : List UInt8) : isValidBytes bytes = true ↔ IsUri bytes := by
  unfold isValidBytes
  split
  · next hsocket => exact iff_of_true rfl (.alone (.socket (List.isPrefixOf_iff_prefix.mp hsocket)))
  next hsocket =>
  replace hsocket : ¬ "unix:".toList.map byte <+: bytes :=
    fun h => hsocket (List.isPrefixOf_iff_prefix.mpr h)
  split
  · next hlong =>
      refine iff_of_false nofun fun huri => ?_
      exact Nat.not_le.mpr hlong (huri.length_le hsocket)
  next hlong =>
  have hle := Nat.le_of_not_lt hlong
  split
  · -- the empty text is no URI
    refine iff_of_false nofun fun huri => ?_
    cases huri with
    | alone halone =>
        cases halone with
        | socket h => exact hsocket h
        | path _ hhead => cases hhead
        | scheme _ hsplits => exact nomatch hsplits.slash_mem
    | asterisk heq => cases heq
    | authority _ hne => exact hne rfl
  · next b =>
      by_cases hfirst : b = byte '/'
      · subst hfirst
        exact iff_of_true rfl ((isUri_slash_iff hsocket hle rfl).mpr (by decide))
      · -- a single byte leaves no room for a scheme
        have habsent : findScheme [b] = .absent :=
          findScheme_of_not_splits fun _ _ _ => Nat.le_add_left 1 2
        rw [isUri_iff_looksGood hsocket hle (List.cons_ne_nil b [])
          (fun h => hfirst (Option.some.inj h)), looksGood, habsent]
        simp [hfirst]
  · next b rest hmore =>
      split
      · next hfirst => exact (isUri_slash_iff hsocket hle (congrArg some hfirst)).symm
      · next hfirst =>
          rw [isUri_iff_looksGood hsocket hle (List.cons_ne_nil b rest)
            (fun h => hfirst (Option.some.inj h)), or_iff_right]
          · rfl
          · exact fun h => hmore (List.cons_eq_cons.mp h).2

end HeartbeatPool.Uri
