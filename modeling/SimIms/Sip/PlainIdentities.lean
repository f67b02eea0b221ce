import SimIms.Sip.UriUtils

/-!
# Identities without decoration

The identities of a subscriber are made of digits, of `+` and of the name of a realm. Such texts
have no blanks, brackets or parameters, so all that the normalisation does to them is to put the
host in lower case.
-/

namespace SimIms.Sip

open Cxx

/-! ## Characters -/

def isUserChar (c : UInt8) : Bool := isDigit c || c == '+'.toUInt8

def isHostChar (c : UInt8) : Bool :=
  isDigit c || ('A'.toUInt8 ≤ c && c ≤ 'Z'.toUInt8) || ('a'.toUInt8 ≤ c && c ≤ 'z'.toUInt8) ||
    c == '-'.toUInt8 || c == '.'.toUInt8

/-- A user that consists of digits and `+`. -/
structure PlainUser (user : Bytes) : Prop where
  nonempty : user ≠ []
  chars : ∀ c ∈ user, isUserChar c = true

/-- The name of a host. -/
structure PlainHost (host : Bytes) : Prop where
  nonempty : host ≠ []
  chars : ∀ c ∈ host, isHostChar c = true

/-- Characters that none of the functions on identities looks for, and that are no blanks. -/
def IsInert (c : UInt8) : Prop :=
  isSpace c = false ∧ c ≠ ':'.toUInt8 ∧ c ≠ ';'.toUInt8 ∧ c ≠ '@'.toUInt8 ∧ c ≠ '<'.toUInt8 ∧
    c ≠ '*'.toUInt8 ∧ c ≠ 0x1f

instance (c : UInt8) : Decidable (IsInert c) := inferInstanceAs (Decidable (_ ∧ _))

/-- What holds of all bytes can be found out one by one. -/
theorem forall_byte {P : UInt8 → Prop} (h : ∀ n < 256, P (.ofNat n)) (c : UInt8) : P c := by
  have hc := h c.toNat c.toNat_lt
  rwa [UInt8.ofNat_toNat] at hc

theorem isInert_of_isHostChar : ∀ {c : UInt8}, isHostChar c = true → IsInert c :=
  fun {c} => forall_byte (P := fun c => isHostChar c = true → IsInert c) (by decide +kernel) c

theorem isInert_of_isUserChar : ∀ {c : UInt8}, isUserChar c = true → IsInert c :=
  fun {c} => forall_byte (P := fun c => isUserChar c = true → IsInert c) (by decide +kernel) c

theorem toLower_of_isUserChar : ∀ {c : UInt8}, isUserChar c = true → toLower c = c :=
  fun {c} => forall_byte (P := fun c => isUserChar c = true → toLower c = c) (by decide +kernel) c

theorem isHostChar_toLower :
    ∀ {c : UInt8}, isHostChar c = true → isHostChar (toLower c) = true :=
  fun {c} => forall_byte (P := fun c => isHostChar c = true → isHostChar (toLower c) = true)
    (by decide +kernel) c

theorem toLower_toLower : ∀ c : UInt8, toLower (toLower c) = toLower c :=
  forall_byte (by decide +kernel)

theorem eq_separator_of_toLower : ∀ {c : UInt8}, toLower c = 0x1f → c = 0x1f :=
  fun {c} => forall_byte (P := fun c => toLower c = 0x1f → c = 0x1f) (by decide +kernel) c

/-! ## Texts -/

theorem lowercase_append (s t : Bytes) : lowercase (s ++ t) = lowercase s ++ lowercase t :=
  List.map_append

theorem trim_eq_self {s : Bytes} (h : ∀ c ∈ s, isSpace c = false) : trim s = s := by
  have hdrop : ∀ {t : Bytes}, (∀ c ∈ t, isSpace c = false) → t.dropWhile isSpace = t := by
    intro t ht
    cases t with
    | nil => rfl
    | cons c t => rw [List.dropWhile_cons_of_neg (by rw [ht c List.mem_cons_self]; decide)]
  rw [trim, hdrop h, hdrop fun c hc => h c (List.mem_reverse.mp hc), List.reverse_reverse]

/-- Blanks at both ends are taken off. -/
theorem trim_append {before text after : Bytes} (hbefore : ∀ c ∈ before, isSpace c = true)
    (hafter : ∀ c ∈ after, isSpace c = true)
    (hfirst : ∃ c rest, text = c :: rest ∧ isSpace c = false)
    (hlast : ∃ c front, text = front ++ [c] ∧ isSpace c = false) :
    trim (before ++ text ++ after) = text := by
  obtain ⟨first, rest, hcons, hfirst⟩ := hfirst
  obtain ⟨last, front, hsnoc, hlast⟩ := hlast
  have hdrop : (before ++ text ++ after).dropWhile isSpace = text ++ after := by
    rw [List.append_assoc, List.dropWhile_append_of_pos hbefore, hcons, List.cons_append,
      List.dropWhile_cons_of_neg (by rw [hfirst]; decide)]
  have hreverse : (after.reverse ++ text.reverse).dropWhile isSpace = text.reverse := by
    rw [List.dropWhile_append_of_pos fun c hc => hafter c (List.mem_reverse.mp hc), hsnoc,
      List.reverse_append, List.reverse_singleton, List.singleton_append,
      List.dropWhile_cons_of_neg (by rw [hlast]; decide)]
  rw [trim, hdrop, List.reverse_append, hreverse, List.reverse_reverse]

theorem mem_of_mem_trim {c : UInt8} {s : Bytes} (h : c ∈ trim s) : c ∈ s := by
  rw [trim, List.mem_reverse] at h
  have hreverse := List.dropWhile_sublist isSpace |>.mem h
  exact (List.dropWhile_sublist isSpace).mem (List.mem_reverse.mp hreverse)

theorem find_eq_none_of_not_mem {s : Bytes} {c : UInt8} (h : c ∉ s) : find s c 0 = none := by
  rw [find, List.drop_zero, Option.map_eq_none_iff, List.findIdx?_eq_none_iff]
  intro d hd
  rw [beq_eq_false_iff_ne]
  exact fun heq => h (heq ▸ hd)

theorem find_append {s t : Bytes} {c : UInt8} (h : c ∉ s) :
    find (s ++ c :: t) c 0 = some s.length := by
  rw [(at_zero (s ++ c :: t)).find_eq h, Nat.zero_add]

/-- Two texts that are cut at the first occurrence of a character. -/
theorem append_cons_inj {s s' t t' : Bytes} {c : UInt8} (hs : c ∉ s) (hs' : c ∉ s')
    (h : s ++ c :: t = s' ++ c :: t') : s = s' ∧ t = t' := by
  have hlength : s.length = s'.length := by
    have hfind := find_append (t := t) hs
    rw [h, find_append hs', Option.some.injEq] at hfind
    exact hfind.symm
  obtain ⟨heq, hrest⟩ := List.append_inj h hlength
  exact ⟨heq, (List.cons.inj hrest).2⟩

theorem not_isPrefixOf_of_ne {c d : UInt8} {pattern : Bytes} (hne : c ≠ d) (rest : Bytes) :
    (d :: pattern).isPrefixOf (c :: rest) = false := by
  rw [List.isPrefixOf_cons_cons, beq_eq_false_iff_ne.mpr hne.symm, Bool.false_and]

/-- No scheme begins like a user. -/
theorem not_isPrefixOf_of_isUserChar {c d : UInt8} {scheme : Bytes} (hd : isUserChar d = false)
    (hc : isUserChar c = true) (rest : Bytes) : (d :: scheme).isPrefixOf (c :: rest) = false := by
  apply not_isPrefixOf_of_ne
  rintro rfl
  rw [hc] at hd
  cases hd

theorem exists_cons_of_eq_append_colon {c : UInt8} {text scheme rest : Bytes}
    (hc : isUserChar c = true) (h : c :: text = scheme ++ ':'.toUInt8 :: rest) :
    ∃ s, scheme = c :: s := by
  cases scheme with
  | nil =>
      rw [(List.cons.inj h).1] at hc
      exact absurd hc (by decide)
  | cons d s => exact ⟨s, by rw [(List.cons.inj h).1]⟩

/-- Two texts that are cut at the last occurrence of a character. -/
theorem append_cons_inj_right {s s' t t' : Bytes} {c : UInt8} (ht : c ∉ t) (ht' : c ∉ t')
    (h : s ++ c :: t = s' ++ c :: t') : t = t' := by
  have hreverse : t.reverse ++ c :: s.reverse = t'.reverse ++ c :: s'.reverse := by
    have hsides := congrArg List.reverse h
    rwa [List.reverse_append, List.reverse_append, List.reverse_cons, List.reverse_cons,
      List.append_assoc, List.append_assoc] at hsides
  exact List.reverse_inj.mp (append_cons_inj (fun hin => ht (List.mem_reverse.mp hin))
    (fun hin => ht' (List.mem_reverse.mp hin)) hreverse).1

namespace PlainUser

variable {user : Bytes} (h : PlainUser user)

include h

theorem inert : ∀ c ∈ user, IsInert c := fun c hc => isInert_of_isUserChar (h.chars c hc)

theorem exists_cons : ∃ c, isUserChar c = true ∧ ∃ rest, user = c :: rest := by
  obtain ⟨c, rest, rfl⟩ := List.exists_cons_of_ne_nil h.nonempty
  exact ⟨c, h.chars c List.mem_cons_self, rest, rfl⟩

theorem lowercase_eq : lowercase user = user := by
  rw [lowercase, List.map_congr_left fun c hc => toLower_of_isUserChar (h.chars c hc)]
  exact List.map_id user

end PlainUser

namespace PlainHost

variable {host : Bytes} (h : PlainHost host)

include h

theorem inert : ∀ c ∈ host, IsInert c := fun c hc => isInert_of_isHostChar (h.chars c hc)

theorem lowercase : PlainHost (lowercase host) where
  nonempty hnil := h.nonempty (List.map_eq_nil_iff.mp hnil)
  chars c hc := by
    obtain ⟨d, hd, rfl⟩ := List.mem_map.mp hc
    exact isHostChar_toLower (h.chars d hd)

end PlainHost

/-! ## Normalisation -/

/-- A text from which `extract_uri_from_name_addr` takes nothing away. -/
structure Undecorated (text : Bytes) : Prop where
  nonempty : text ≠ []
  chars : ∀ c ∈ text, isSpace c = false ∧ c ≠ ';'.toUInt8 ∧ c ≠ '<'.toUInt8 ∧ c ≠ '*'.toUInt8

theorem IsInert.undecorated {c : UInt8} (h : IsInert c) :
    isSpace c = false ∧ c ≠ ';'.toUInt8 ∧ c ≠ '<'.toUInt8 ∧ c ≠ '*'.toUInt8 :=
  ⟨h.1, h.2.2.1, h.2.2.2.2.1, h.2.2.2.2.2.1⟩

theorem Undecorated.append {s t : Bytes} (hs : Undecorated s)
    (ht : ∀ c ∈ t, isSpace c = false ∧ c ≠ ';'.toUInt8 ∧ c ≠ '<'.toUInt8 ∧ c ≠ '*'.toUInt8) :
    Undecorated (s ++ t) :=
  ⟨List.append_ne_nil_of_left_ne_nil hs.nonempty t, List.forall_mem_append.mpr ⟨hs.chars, ht⟩⟩

theorem Undecorated.extractUriFromNameAddr_eq {text : Bytes} (h : Undecorated text) :
    extractUriFromNameAddr text = text := by
  have htrim : trim text = text := trim_eq_self fun c hc => (h.chars c hc).1
  have hstar : text ≠ bytes "*" := by
    rintro rfl
    exact (h.chars '*'.toUInt8 List.mem_cons_self).2.2.2 rfl
  have hsemicolon : find text ';'.toUInt8 0 = none :=
    find_eq_none_of_not_mem fun hmem => (h.chars _ hmem).2.1 rfl
  have hangle : find text '<'.toUInt8 0 = none :=
    find_eq_none_of_not_mem fun hmem => (h.chars _ hmem).2.2.1 rfl
  rw [extractUriFromNameAddr, htrim, if_neg (not_or.mpr ⟨h.nonempty, hstar⟩)]
  simp only [hsemicolon, hangle, ite_self]

/-- Of a text in angle brackets, what stands between them is left. -/
theorem extractUriFromNameAddr_brackets {text : Bytes} (h : '>'.toUInt8 ∉ text) :
    extractUriFromNameAddr ('<'.toUInt8 :: (text ++ ['>'.toUInt8])) = text := by
  have htrim : trim ('<'.toUInt8 :: (text ++ ['>'.toUInt8])) =
      '<'.toUInt8 :: (text ++ ['>'.toUInt8]) := by
    have hblanks := trim_append (List.forall_mem_nil fun c => isSpace c = true)
      (List.forall_mem_nil fun c => isSpace c = true)
      ⟨'<'.toUInt8, text ++ ['>'.toUInt8], rfl, by decide⟩
      ⟨'>'.toUInt8, '<'.toUInt8 :: text, rfl, by decide⟩
    rwa [List.nil_append, List.append_nil] at hblanks
  have hne : ¬('<'.toUInt8 :: (text ++ ['>'.toUInt8]) = [] ∨
      '<'.toUInt8 :: (text ++ ['>'.toUInt8]) = bytes "*") := by
    rw [not_or]
    refine ⟨List.cons_ne_nil _ _, fun heq => ?_⟩
    exact absurd (List.head_eq_of_cons_eq heq) (by decide)
  have hstart : find ('<'.toUInt8 :: (text ++ ['>'.toUInt8])) '<'.toUInt8 0 = some 0 :=
    (at_zero ('<'.toUInt8 :: (text ++ ['>'.toUInt8]))).find_eq (u := []) List.not_mem_nil
  have hat : At ('<'.toUInt8 :: (text ++ ['>'.toUInt8])) (0 + 1) (text ++ ['>'.toUInt8]) :=
    (at_zero _).tail
  rw [extractUriFromNameAddr, htrim, if_neg hne]
  simp only [hstart, hat.find_eq h]
  have hlength : 0 + 1 + text.length - 0 - 1 = text.length := by omega
  rw [hlength, hat.left.substr_eq]

/-- `sip:user@host`. -/
def sipUri (user host : Bytes) : Bytes := bytes "sip:" ++ (user ++ '@'.toUInt8 :: host)

/-- `tel:number`. -/
def telUri (number : Bytes) : Bytes := bytes "tel:" ++ number

/-- `user@host`. -/
def userAtHostText (user host : Bytes) : Bytes := user ++ '@'.toUInt8 :: host

/-- The parser takes the simplest URIs apart. -/
def ParsesSipUris [OsipParser] : Prop :=
  ∀ user host, PlainUser user → PlainHost host →
    OsipParser.uriParse (sipUri user host) =
      some { scheme := some (bytes "sip"), username := some user, host := some host }

/-- The scheme of what the parser takes for a URI stands before a colon. -/
def SchemesComeFirst [OsipParser] : Prop :=
  ∀ text uri, OsipParser.uriParse text = some uri →
    ∃ scheme rest, uri.scheme = some scheme ∧ text = scheme ++ ':'.toUInt8 :: rest

section

variable {user host number : Bytes}

theorem undecorated_userAtHostText (hu : PlainUser user) (hh : PlainHost host) :
    Undecorated (userAtHostText user host) := by
  refine Undecorated.append ⟨hu.nonempty, fun c hc => (hu.inert c hc).undecorated⟩ ?_
  exact List.forall_mem_cons.mpr ⟨by decide, fun c hc => (hh.inert c hc).undecorated⟩

theorem undecorated_sipUri (hu : PlainUser user) (hh : PlainHost host) :
    Undecorated (sipUri user host) :=
  Undecorated.append ⟨by decide +kernel, by decide +kernel⟩ (undecorated_userAtHostText hu hh).chars

theorem undecorated_telUri (hn : PlainUser number) : Undecorated (telUri number) :=
  Undecorated.append ⟨by decide +kernel, by decide +kernel⟩ fun c hc => (hn.inert c hc).undecorated

variable [OsipParser]

theorem normalizeImpuUri_sipUri (hparser : ParsesSipUris) (hu : PlainUser user)
    (hh : PlainHost host) :
    normalizeImpuUri (sipUri user host) = sipUri user (lowercase host) := by
  have htext := undecorated_sipUri hu hh
  have hstar : sipUri user host ≠ bytes "*" := by
    intro heq
    have hlength := congrArg List.length heq
    rw [sipUri, List.length_append, List.length_append, List.length_cons] at hlength
    have hfour : (bytes "sip:").length = 4 := by decide
    have hone : (bytes "*").length = 1 := by decide
    omega
  have htel : (bytes "tel:").isPrefixOf (lowercase (sipUri user host)) = false := by
    rw [sipUri, lowercase_append]
    rfl
  rw [normalizeImpuUri, htext.extractUriFromNameAddr_eq]
  simp only [htext.nonempty, hstar, or_self, if_false, htel, Bool.false_eq_true,
    hparser user host hu hh, Option.getD_some]
  have hscheme : lowercase (bytes "sip") = bytes "sip" := by decide
  have hnottel : bytes "sip" ≠ bytes "tel" := by decide
  rw [hscheme, if_neg hnottel, if_neg fun hnot => hnot.1 rfl, sipUri, List.append_assoc,
    List.append_assoc]
  rfl

theorem normalizeImpuUri_telUri (hn : PlainUser number) :
    normalizeImpuUri (telUri number) = telUri number := by
  have htext := undecorated_telUri hn
  have hstar : telUri number ≠ bytes "*" := by
    intro heq
    cases congrArg List.head? heq
  have hlower : lowercase (telUri number) = telUri number := by
    rw [telUri, lowercase_append, hn.lowercase_eq]
    rfl
  have htel : (bytes "tel:").isPrefixOf (telUri number) = true :=
    List.isPrefixOf_iff_prefix.mpr ⟨number, rfl⟩
  rw [normalizeImpuUri, htext.extractUriFromNameAddr_eq]
  simp only [htext.nonempty, hstar, or_self, if_false, hlower, htel, if_true]

omit [OsipParser] in
/-- Blanks are only taken off the end. -/
theorem trim_userAtHostText (hu : PlainUser user) (realm : Bytes) :
    trim (userAtHostText user realm) =
      userAtHostText user (realm.reverse.dropWhile isSpace).reverse := by
  obtain ⟨c, hc, user, rfl⟩ := hu.exists_cons
  have hfront : (userAtHostText (c :: user) realm).dropWhile isSpace =
      userAtHostText (c :: user) realm := by
    rw [userAtHostText, List.cons_append,
      List.dropWhile_cons_of_neg (by rw [(isInert_of_isUserChar hc).1]; decide)]
  have hback : ('@'.toUInt8 :: (c :: user).reverse).dropWhile isSpace =
      '@'.toUInt8 :: (c :: user).reverse := List.dropWhile_cons_of_neg (by decide)
  have hreverse : (userAtHostText (c :: user) realm).reverse =
      realm.reverse ++ '@'.toUInt8 :: (c :: user).reverse := by
    rw [userAtHostText, List.reverse_append, List.reverse_cons, List.append_assoc]
    rfl
  rw [trim, hfront, hreverse, List.dropWhile_append]
  split
  · rename_i hempty
    rw [List.isEmpty_iff.mp hempty, hback, List.reverse_cons, List.reverse_reverse]
    rfl
  · rw [List.reverse_append, List.reverse_cons, List.reverse_reverse, List.append_assoc]
    rfl

/-- What begins like a user has no scheme, so it is only put in lower case. -/
theorem normalizeImpuUri_userAtHostText (hparser : SchemesComeFirst) (hu : PlainUser user)
    {realm : Bytes} (hrealm : '<'.toUInt8 ∉ realm) :
    normalizeImpuUri (userAtHostText user realm) =
      userAtHostText user (lowercase (realm.reverse.dropWhile isSpace).reverse) := by
  obtain ⟨c, hc, user, rfl⟩ := hu.exists_cons
  let trimmed := userAtHostText (c :: user) (realm.reverse.dropWhile isSpace).reverse
  have htrim : trim (userAtHostText (c :: user) realm) = trimmed := trim_userAtHostText hu realm
  have hangle : '<'.toUInt8 ∉ trimmed := by
    intro hmem
    obtain hmem | hmem := List.mem_append.mp hmem
    · exact (hu.inert _ hmem).2.2.2.2.1 rfl
    · obtain heq | hmem := List.mem_cons.mp hmem
      · exact absurd heq (by decide)
      · exact hrealm (List.mem_reverse.mp
          ((List.dropWhile_suffix _).subset (List.mem_reverse.mp hmem)))
  have hlower : lowercase trimmed =
      userAtHostText (c :: user) (lowercase (realm.reverse.dropWhile isSpace).reverse) := by
    rw [userAtHostText, ← hu.lowercase_eq]
    exact lowercase_append _ _
  have htel : (bytes "tel:").isPrefixOf (lowercase trimmed) = false := by
    rw [hlower]
    exact not_isPrefixOf_of_isUserChar (by decide) hc _
  have hne : ¬(trimmed = [] ∨ trimmed = bytes "*") := by
    rw [not_or]
    refine ⟨List.cons_ne_nil _ _, fun heq => ?_⟩
    have hstar := List.head_eq_of_cons_eq heq
    rw [hstar] at hc
    revert hc
    decide
  have hextract : extractUriFromNameAddr (userAtHostText (c :: user) realm) = trimmed := by
    rw [extractUriFromNameAddr, htrim]
    simp only [if_neg hne, find_eq_none_of_not_mem hangle, htel, Bool.false_eq_true, if_false]
  rw [← hlower, normalizeImpuUri, hextract]
  simp only [if_neg hne, htel, Bool.false_eq_true, if_false]
  cases hparse : OsipParser.uriParse trimmed with
  | none => rfl
  | some uri =>
      obtain ⟨scheme, rest, hscheme, htext⟩ := hparser trimmed uri hparse
      obtain ⟨scheme, rfl⟩ := exists_cons_of_eq_append_colon hc htext
      have hother : ∀ d s, isUserChar d = false → lowercase (c :: scheme) ≠ d :: s := by
        intro d s hd heq
        have hhead : toLower c = d := (List.cons.inj heq).1
        rw [toLower_of_isUserChar hc] at hhead
        rw [hhead, hd] at hc
        cases hc
      have hsip : lowercase (c :: scheme) ≠ bytes "sip" := hother _ _ (by decide)
      have hsips : lowercase (c :: scheme) ≠ bytes "sips" := hother _ _ (by decide)
      have hnotel : lowercase (c :: scheme) ≠ bytes "tel" := hother _ _ (by decide)
      simp only [hscheme, Option.getD_some, if_neg hnotel, if_pos (And.intro hsip hsips)]

end

theorem plainUris_parsesSipUris : @ParsesSipUris plainUris := by
  intro user host hu hh
  have hcolon : find (sipUri user host) ':'.toUInt8 0 = some 3 := by
    have hscheme : ':'.toUInt8 ∉ bytes "sip" := by decide
    exact find_append hscheme
  have hat : find (user ++ '@'.toUInt8 :: host) '@'.toUInt8 0 = some user.length :=
    find_append fun hmem => (hu.inert _ hmem).2.2.2.1 rfl
  have hhost : (user ++ '@'.toUInt8 :: host).drop (user.length + 1) = host := by
    rw [← List.drop_drop, List.drop_left]
    rfl
  have huser : (user ++ '@'.toUInt8 :: host).take user.length = user := List.take_left
  have hrest : (sipUri user host).drop (3 + 1) = user ++ '@'.toUInt8 :: host := rfl
  simp only [OsipParser.uriParse, hcolon, hat, hrest, huser, hhost]
  rfl

theorem plainUris_schemesComeFirst : @SchemesComeFirst plainUris := by
  intro text uri hparse
  simp only [OsipParser.uriParse] at hparse
  split at hparse
  · cases hparse
  · rename_i colon hcolon
    obtain ⟨-, hget, -⟩ := find_eq_some_iff.mp hcolon
    obtain ⟨hlt, hget⟩ := List.getElem?_eq_some_iff.mp hget
    refine ⟨text.take colon, text.drop (colon + 1), ?_, ?_⟩
    · split at hparse <;>
      · cases hparse
        rfl
    · rw [← hget, List.getElem_cons_drop, List.take_append_drop]

end SimIms.Sip
