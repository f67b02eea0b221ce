import SimIms.Sip.PlainIdentities

/-!
# Normal forms of public identities

The stores look identities up under the text that `normalize_impu_uri` makes of them. Here it is
found out when that text is left as it is by a second call, and when an identity in angle brackets
is brought to the same text as the bare one.

`SipUri` has the URIs that RFC 3261 allows for the schemes `sip` and `sips`, with the characters
that may stand in each part. How escapes, labels of a host name and single parameters are put
together is not looked into.
-/

namespace SimIms.Sip

open Cxx

/-! ## Texts in lower case -/

/-- Only letters change, and become letters. -/
theorem toLower_classes : ∀ c : UInt8, isSpace (toLower c) = isSpace c ∧
    isDigit (toLower c) = isDigit c ∧ isHostChar (toLower c) = isHostChar c ∧
    (toLower c = c ∨ isHostChar c = true) :=
  forall_byte (by decide +kernel)

theorem isSpace_toLower (c : UInt8) : isSpace (toLower c) = isSpace c := (toLower_classes c).1

theorem isDigit_toLower (c : UInt8) : isDigit (toLower c) = isDigit c := (toLower_classes c).2.1

theorem isHostChar_toLower_eq (c : UInt8) : isHostChar (toLower c) = isHostChar c :=
  (toLower_classes c).2.2.1

theorem toLower_eq_self_or (c : UInt8) : toLower c = c ∨ isHostChar c = true :=
  (toLower_classes c).2.2.2

theorem length_lowercase (s : Bytes) : (lowercase s).length = s.length := List.length_map toLower

theorem lowercase_lowercase (s : Bytes) : lowercase (lowercase s) = lowercase s := by
  rw [lowercase, lowercase, List.map_map]
  exact List.map_congr_left fun c _ => toLower_toLower c

theorem trim_lowercase (s : Bytes) : trim (lowercase s) = lowercase (trim s) := by
  have hblank : isSpace ∘ toLower = isSpace := funext isSpace_toLower
  simp only [trim, lowercase, List.dropWhile_map, ← List.map_reverse, hblank]

theorem trim_sublist (s : Bytes) : (trim s).Sublist s := by
  have hback := (List.dropWhile_sublist isSpace (l := (s.dropWhile isSpace).reverse)).reverse
  rw [List.reverse_reverse] at hback
  exact hback.trans (List.dropWhile_sublist isSpace)

/-- A separator comes from nothing but itself. -/
theorem toLower_eq_iff {c d : UInt8} (hc : isHostChar c = false) : toLower d = c ↔ d = c := by
  constructor
  · rintro rfl
    obtain heq | hchar := toLower_eq_self_or d
    · exact heq.symm
    · rw [isHostChar_toLower_eq, hchar] at hc
      cases hc
  · rintro rfl
    obtain heq | hchar := toLower_eq_self_or d
    · exact heq
    · rw [hchar] at hc
      cases hc

/-! ## Parts of a URI -/

section Characters

/-- The characters of host names, and some others. -/
def isCharOf (others : Bytes) (c : UInt8) : Bool := isHostChar c || others.contains c

/-- The characters of a user, escapes among them. -/
def isSipUserChar : UInt8 → Bool := isCharOf (bytes "_!~*'()%&=+$,;?/")

def isPasswordChar : UInt8 → Bool := isCharOf (bytes "_!~*'()%&=+$,")

/-- The characters of parameters and headers. -/
def isParameterChar : UInt8 → Bool := isCharOf (bytes "_!~*'()%;?=[]/:&+$")

/-- The characters of an address between square brackets. -/
def isReferenceChar (c : UInt8) : Bool :=
  isDigit c || ('A'.toUInt8 ≤ c && c ≤ 'F'.toUInt8) || ('a'.toUInt8 ≤ c && c ≤ 'f'.toUInt8) ||
    c == ':'.toUInt8 || c == '.'.toUInt8

/-- What all parts of a URI have in common: no blanks, no angle brackets and no `@`. -/
def IsPartChar (c : UInt8) : Prop :=
  isSpace c = false ∧ c ≠ '<'.toUInt8 ∧ c ≠ '>'.toUInt8 ∧ c ≠ '@'.toUInt8

instance (c : UInt8) : Decidable (IsPartChar c) := inferInstanceAs (Decidable (_ ∧ _))

theorem isCharOf_toLower {others : Bytes} (h : ∀ d ∈ others, isHostChar d = false) (c : UInt8) :
    isCharOf others (toLower c) = isCharOf others c := by
  have hothers : others.contains (toLower c) = others.contains c := by
    rw [Bool.eq_iff_iff, List.contains_iff_mem, List.contains_iff_mem]
    constructor
    · intro hmem
      rwa [← (toLower_eq_iff (h _ hmem)).mp rfl] at hmem
    · intro hmem
      rwa [(toLower_eq_iff (h _ hmem)).mpr rfl]
  rw [isCharOf, isCharOf, isHostChar_toLower_eq, hothers]

/-- The marks and reserved characters of the parts. -/
theorem others_apart :
    (∀ d ∈ bytes "_!~*'()%&=+$,;?/", isHostChar d = false ∧ IsPartChar d) ∧
    (∀ d ∈ bytes "_!~*'()%&=+$,", isHostChar d = false ∧ IsPartChar d) ∧
    ∀ d ∈ bytes "_!~*'()%;?=[]/:&+$", isHostChar d = false ∧ IsPartChar d := by
  decide +kernel

theorem isSipUserChar_toLower (c : UInt8) : isSipUserChar (toLower c) = isSipUserChar c :=
  isCharOf_toLower (fun d hd => (others_apart.1 d hd).1) c

theorem isPasswordChar_toLower (c : UInt8) : isPasswordChar (toLower c) = isPasswordChar c :=
  isCharOf_toLower (fun d hd => (others_apart.2.1 d hd).1) c

theorem isParameterChar_toLower (c : UInt8) : isParameterChar (toLower c) = isParameterChar c :=
  isCharOf_toLower (fun d hd => (others_apart.2.2 d hd).1) c

theorem host_reference_classes : ∀ c : UInt8, (isHostChar c = true → IsPartChar c) ∧
    (isReferenceChar c = true → IsPartChar c) ∧ isReferenceChar (toLower c) = isReferenceChar c :=
  forall_byte (by decide +kernel)

theorem isReferenceChar_toLower (c : UInt8) : isReferenceChar (toLower c) = isReferenceChar c :=
  (host_reference_classes c).2.2

variable {c : UInt8}

theorem isPartChar_of_isHostChar : isHostChar c = true → IsPartChar c :=
  (host_reference_classes c).1

theorem isPartChar_of_isReferenceChar : isReferenceChar c = true → IsPartChar c :=
  (host_reference_classes c).2.1

theorem isPartChar_of_isDigit (h : isDigit c = true) : IsPartChar c :=
  isPartChar_of_isHostChar (by rw [isHostChar, h]; rfl)

theorem isPartChar_of_isCharOf {others : Bytes} (hothers : ∀ d ∈ others, IsPartChar d)
    (h : isCharOf others c = true) : IsPartChar c := by
  rw [isCharOf, Bool.or_eq_true, List.contains_iff_mem] at h
  obtain h | h := h
  · exact isPartChar_of_isHostChar h
  · exact hothers c h

theorem isPartChar_of_isSipUserChar (h : isSipUserChar c = true) : IsPartChar c :=
  isPartChar_of_isCharOf (fun d hd => (others_apart.1 d hd).2) h

theorem isPartChar_of_isPasswordChar (h : isPasswordChar c = true) : IsPartChar c :=
  isPartChar_of_isCharOf (fun d hd => (others_apart.2.1 d hd).2) h

theorem isPartChar_of_isParameterChar (h : isParameterChar c = true) : IsPartChar c :=
  isPartChar_of_isCharOf (fun d hd => (others_apart.2.2 d hd).2) h

end Characters

/-- What may stand between the user and the `@`: nothing, or a colon and a password. -/
def isPassword : Bytes → Bool
  | [] => true
  | c :: password => c == ':'.toUInt8 && password.all isPasswordChar

/-- Parameters and headers. -/
def isParameters : Bytes → Bool
  | [] => true
  | c :: parameters =>
      (c == ';'.toUInt8 || c == '?'.toUInt8) && parameters.all isParameterChar

/-- What may stand after the host: a port, parameters and headers, or some of them. -/
def isAfterHost : Bytes → Bool
  | [] => true
  | c :: rest =>
      if c = ':'.toUInt8 then
        !(rest.takeWhile isDigit).isEmpty && isParameters (rest.dropWhile isDigit)
      else isParameters (c :: rest)

section

variable {text : Bytes}

theorem all_lowercase {p : UInt8 → Bool} (hp : ∀ c, p (toLower c) = p c) (s : Bytes) :
    (lowercase s).all p = s.all p := by
  rw [lowercase, List.all_map]
  exact congrArg (fun q => s.all q) (funext hp)

theorem isPassword_lowercase (s : Bytes) : isPassword (lowercase s) = isPassword s := by
  cases s with
  | nil => rfl
  | cons c s =>
      have hcolon : (toLower c == ':'.toUInt8) = (c == ':'.toUInt8) := by
        rw [Bool.eq_iff_iff, beq_iff_eq, beq_iff_eq]
        exact toLower_eq_iff (by decide)
      change (toLower c == ':'.toUInt8 && (lowercase s).all isPasswordChar) = _
      rw [hcolon, all_lowercase isPasswordChar_toLower, isPassword]

theorem isParameters_lowercase (s : Bytes) : isParameters (lowercase s) = isParameters s := by
  cases s with
  | nil => rfl
  | cons c s =>
      have hstart : (toLower c == ';'.toUInt8 || toLower c == '?'.toUInt8) =
          (c == ';'.toUInt8 || c == '?'.toUInt8) := by
        rw [Bool.eq_iff_iff, Bool.or_eq_true, Bool.or_eq_true, beq_iff_eq, beq_iff_eq, beq_iff_eq,
          beq_iff_eq]
        exact or_congr (toLower_eq_iff (by decide)) (toLower_eq_iff (by decide))
      change ((toLower c == ';'.toUInt8 || toLower c == '?'.toUInt8) &&
        (lowercase s).all isParameterChar) = _
      rw [hstart, all_lowercase isParameterChar_toLower, isParameters]

theorem isAfterHost_lowercase (s : Bytes) : isAfterHost (lowercase s) = isAfterHost s := by
  cases s with
  | nil => rfl
  | cons c s =>
      have hdigits : isDigit ∘ toLower = isDigit := funext isDigit_toLower
      have htake : (lowercase s).takeWhile isDigit = lowercase (s.takeWhile isDigit) := by
        rw [lowercase, List.takeWhile_map, hdigits, lowercase]
      have hdrop : (lowercase s).dropWhile isDigit = lowercase (s.dropWhile isDigit) := by
        rw [lowercase, List.dropWhile_map, hdigits, lowercase]
      change isAfterHost (toLower c :: lowercase s) = _
      rw [isAfterHost, isAfterHost, htake, hdrop, isParameters_lowercase]
      have hempty : (lowercase (s.takeWhile isDigit)).isEmpty = (s.takeWhile isDigit).isEmpty := by
        rw [lowercase, List.isEmpty_map]
      rw [hempty, ← isParameters_lowercase (c :: s)]
      exact if_congr (toLower_eq_iff (by decide)) rfl rfl

theorem isPartChar_of_isPassword (h : isPassword text = true) : ∀ c ∈ text, IsPartChar c := by
  cases text with
  | nil => exact List.forall_mem_nil _
  | cons c text =>
      rw [isPassword, Bool.and_eq_true, beq_iff_eq, List.all_eq_true] at h
      rw [List.forall_mem_cons, h.1]
      exact ⟨by decide, fun d hd => isPartChar_of_isPasswordChar (h.2 d hd)⟩

theorem isPartChar_of_isParameters (h : isParameters text = true) : ∀ c ∈ text, IsPartChar c := by
  cases text with
  | nil => exact List.forall_mem_nil _
  | cons c text =>
      rw [isParameters, Bool.and_eq_true, Bool.or_eq_true, beq_iff_eq, beq_iff_eq,
        List.all_eq_true] at h
      rw [List.forall_mem_cons]
      refine ⟨?_, fun d hd => isPartChar_of_isParameterChar (h.2 d hd)⟩
      obtain rfl | rfl := h.1 <;> decide

theorem isPartChar_of_isAfterHost (h : isAfterHost text = true) : ∀ c ∈ text, IsPartChar c := by
  cases text with
  | nil => exact List.forall_mem_nil _
  | cons c text =>
      rw [isAfterHost] at h
      split at h
      · rename_i hcolon
        rw [Bool.and_eq_true] at h
        rw [List.forall_mem_cons, hcolon, ← List.takeWhile_append_dropWhile
          (p := isDigit) (l := text), List.forall_mem_append]
        exact ⟨by decide, fun d hd => isPartChar_of_isDigit (List.mem_takeWhile_imp hd),
          isPartChar_of_isParameters h.2⟩
      · exact isPartChar_of_isParameters h

end

/-- The name of a host, or an address in square brackets. -/
inductive HostText : Bytes → Prop where
  | name {host : Bytes} (h : PlainHost host) : HostText host
  | reference {address : Bytes} (hne : address ≠ [])
      (h : ∀ c ∈ address, isReferenceChar c = true) :
      HostText ('['.toUInt8 :: (address ++ [']'.toUInt8]))

namespace HostText

variable {host : Bytes}

theorem nonempty (h : HostText host) : host ≠ [] := by
  cases h with
  | name h => exact h.nonempty
  | reference => exact List.cons_ne_nil _ _

theorem isPartChar (h : HostText host) : ∀ c ∈ host, IsPartChar c := by
  cases h with
  | name h => exact fun c hc => isPartChar_of_isHostChar (h.chars c hc)
  | reference _ h =>
      rw [List.forall_mem_cons, List.forall_mem_append, List.forall_mem_singleton]
      exact ⟨by decide, fun c hc => isPartChar_of_isReferenceChar (h c hc), by decide⟩

theorem lowercase (h : HostText host) : HostText (lowercase host) := by
  cases h with
  | name h => exact .name h.lowercase
  | @reference address hne h =>
      have hlower : Cxx.lowercase ('['.toUInt8 :: (address ++ [']'.toUInt8])) =
          '['.toUInt8 :: (Cxx.lowercase address ++ [']'.toUInt8]) := by
        rw [Cxx.lowercase, List.map_cons, List.map_append]
        rfl
      rw [hlower]
      refine .reference (fun hnil => hne (List.map_eq_nil_iff.mp hnil)) fun c hc => ?_
      obtain ⟨d, hd, rfl⟩ := List.mem_map.mp hc
      rw [isReferenceChar_toLower]
      exact h d hd

theorem of_lowercase (h : HostText (Cxx.lowercase host)) : HostText host := by
  generalize hlower : Cxx.lowercase host = lower at h
  cases h with
  | name h =>
      subst hlower
      refine .name ⟨fun hnil => h.nonempty (List.map_eq_nil_iff.mpr hnil), fun c hc => ?_⟩
      rw [← isHostChar_toLower_eq]
      exact h.chars _ (List.mem_map_of_mem hc)
  | reference hne h =>
      obtain ⟨c, rest, rfl, hc, hrest⟩ := List.map_eq_cons_iff.mp hlower
      obtain ⟨address, ending, rfl, haddress, hending⟩ := List.map_eq_append_iff.mp hrest
      obtain ⟨d, rfl, hd⟩ := List.map_eq_singleton_iff.mp hending
      rw [toLower_eq_iff (by decide)] at hc hd
      subst hc hd haddress
      refine .reference (fun hnil => hne (List.map_eq_nil_iff.mpr hnil)) fun c hc => ?_
      rw [← isReferenceChar_toLower]
      exact h _ (List.mem_map_of_mem hc)

end HostText

structure UserInfo where
  user : Bytes
  password : Bytes
  nonempty : user ≠ []
  chars : ∀ c ∈ user, isSipUserChar c = true
  passwordText : isPassword password = true

namespace UserInfo

def text (info : UserInfo) : Bytes := info.user ++ (info.password ++ ['@'.toUInt8])

theorem isPartChar (info : UserInfo) : ∀ c ∈ info.user ++ info.password, IsPartChar c :=
  List.forall_mem_append.mpr
    ⟨fun c hc => isPartChar_of_isSipUserChar (info.chars c hc),
      isPartChar_of_isPassword info.passwordText⟩

/-- What is put in lower case to the text of a user is one itself. -/
theorem of_lowercase {info : UserInfo} {text : Bytes} (h : lowercase text = info.text) :
    ∃ info' : UserInfo, info'.text = text := by
  obtain ⟨user, rest, rfl, huser, hrest⟩ := List.map_eq_append_iff.mp h
  obtain ⟨password, ending, rfl, hpassword, hending⟩ := List.map_eq_append_iff.mp hrest
  obtain ⟨c, rfl, hc⟩ := List.map_eq_singleton_iff.mp hending
  rw [toLower_eq_iff (by decide)] at hc
  subst hc
  refine ⟨⟨user, password, fun hnil => ?_, fun c hc => ?_, ?_⟩, rfl⟩
  · exact info.nonempty (huser ▸ List.map_eq_nil_iff.mpr hnil)
  · rw [← isSipUserChar_toLower]
    exact info.chars _ (huser ▸ List.mem_map_of_mem hc)
  · rw [← isPassword_lowercase, lowercase, hpassword]
    exact info.passwordText

end UserInfo

/-- A SIP or SIPS URI. -/
structure SipUri where
  scheme : Bytes
  userInfo : Option UserInfo
  host : Bytes
  rest : Bytes
  schemeText : lowercase scheme = bytes "sip" ∨ lowercase scheme = bytes "sips"
  hostText : HostText host
  afterHost : isAfterHost rest = true

namespace SipUri

def userText (uri : SipUri) : Bytes := uri.userInfo.elim [] UserInfo.text

def text (uri : SipUri) : Bytes :=
  uri.scheme ++ ':'.toUInt8 :: (uri.userText ++ (uri.host ++ uri.rest))

theorem isHostChar_scheme (uri : SipUri) : ∀ c ∈ uri.scheme, isHostChar c = true := by
  intro c hc
  have hlower : toLower c ∈ lowercase uri.scheme := List.mem_map_of_mem hc
  rw [← isHostChar_toLower_eq]
  have hletters : ∀ d ∈ bytes "sip" ++ bytes "sips", isHostChar d = true := by
    decide +kernel
  obtain hscheme | hscheme := uri.schemeText
  · exact hletters _ (List.mem_append_left _ (hscheme ▸ hlower))
  · exact hletters _ (List.mem_append_right _ (hscheme ▸ hlower))

theorem chars (uri : SipUri) :
    ∀ c ∈ uri.text, isSpace c = false ∧ c ≠ '<'.toUInt8 ∧ c ≠ '>'.toUInt8 := by
  have hpart : ∀ {c}, IsPartChar c → isSpace c = false ∧ c ≠ '<'.toUInt8 ∧ c ≠ '>'.toUInt8 :=
    fun h => ⟨h.1, h.2.1, h.2.2.1⟩
  rw [text, List.forall_mem_append, List.forall_mem_cons, List.forall_mem_append,
    List.forall_mem_append]
  refine ⟨fun c hc => hpart (isPartChar_of_isHostChar (uri.isHostChar_scheme c hc)), by decide, ?_,
    fun c hc => hpart (uri.hostText.isPartChar c hc),
    fun c hc => hpart (isPartChar_of_isAfterHost uri.afterHost c hc)⟩
  cases hinfo : uri.userInfo with
  | none =>
      rw [userText, hinfo]
      exact List.forall_mem_nil _
  | some info =>
      rw [userText, hinfo, Option.elim_some, UserInfo.text, ← List.append_assoc,
        List.forall_mem_append, List.forall_mem_singleton]
      exact ⟨fun c hc => hpart (info.isPartChar c hc), by decide⟩

/-- What is put in lower case to the text of a URI is one itself. -/
theorem of_lowercase {uri : SipUri} {text : Bytes} (h : lowercase text = uri.text) :
    ∃ uri' : SipUri, uri'.text = text ∧ uri'.userInfo.isSome = uri.userInfo.isSome := by
  obtain ⟨scheme, afterScheme, rfl, hscheme, hafter⟩ := List.map_eq_append_iff.mp h
  obtain ⟨c, afterColon, rfl, hc, hcolon⟩ := List.map_eq_cons_iff.mp hafter
  obtain ⟨user, hostRest, rfl, huser, hhostRest⟩ := List.map_eq_append_iff.mp hcolon
  obtain ⟨host, rest, rfl, hhost, hrest⟩ := List.map_eq_append_iff.mp hhostRest
  rw [toLower_eq_iff (by decide)] at hc
  subst hc
  have hschemeText : lowercase scheme = bytes "sip" ∨ lowercase scheme = bytes "sips" := by
    rw [← lowercase_lowercase]
    change lowercase (scheme.map toLower) = _ ∨ lowercase (scheme.map toLower) = _
    rw [hscheme]
    exact uri.schemeText
  have hhostText : HostText host := by
    apply HostText.of_lowercase
    rw [lowercase, hhost]
    exact uri.hostText
  have hafterHost : isAfterHost rest = true := by
    rw [← isAfterHost_lowercase, lowercase, hrest]
    exact uri.afterHost
  cases hinfo : uri.userInfo with
  | none =>
      rw [userText, hinfo, Option.elim_none, List.map_eq_nil_iff] at huser
      subst huser
      exact ⟨⟨scheme, none, host, rest, hschemeText, hhostText, hafterHost⟩, rfl, rfl⟩
  | some info =>
      rw [userText, hinfo, Option.elim_some] at huser
      obtain ⟨info', rfl⟩ := UserInfo.of_lowercase huser
      exact ⟨⟨scheme, some info', host, rest, hschemeText, hhostText, hafterHost⟩, rfl, rfl⟩

/-- What is kept of a URI with a user: everything but the user is put in lower case. -/
def normal (uri : SipUri) (info : UserInfo) : SipUri where
  scheme := lowercase uri.scheme
  userInfo := some ⟨info.user, [], info.nonempty, info.chars, rfl⟩
  host := lowercase uri.host
  rest := []
  schemeText := by
    rw [lowercase_lowercase]
    exact uri.schemeText
  hostText := uri.hostText.lowercase
  afterHost := rfl

theorem text_normal (uri : SipUri) (info : UserInfo) :
    (uri.normal info).text =
      lowercase uri.scheme ++ bytes ":" ++ info.user ++ bytes "@" ++ lowercase uri.host := by
  simp only [text, userText, normal, Option.elim_some, UserInfo.text, List.append_assoc,
    List.nil_append, List.append_nil]
  rfl

theorem text_normal_normal {uri : SipUri} {info info' : UserInfo}
    (h : (uri.normal info).userInfo = some info') :
    ((uri.normal info).normal info').text = (uri.normal info).text := by
  obtain rfl := Option.some.inj h
  rw [text_normal, text_normal]
  simp only [normal, lowercase_lowercase]

theorem length_text_normal_le {uri : SipUri} {info : UserInfo} (h : uri.userInfo = some info) :
    (uri.normal info).text.length ≤ uri.text.length := by
  simp only [text, userText, normal, h, Option.elim_some, UserInfo.text, List.length_append,
    List.length_cons, length_lowercase, List.length_nil]
  omega

/-- The scheme of telephone numbers is another one. -/
theorem not_isPrefixOf_tel (uri : SipUri) :
    (bytes "tel:").isPrefixOf (lowercase uri.text) = false := by
  obtain ⟨rest, hrest⟩ : ∃ rest, lowercase uri.text = 's'.toUInt8 :: rest := by
    rw [text, lowercase_append]
    obtain hscheme | hscheme := uri.schemeText <;>
    · rw [hscheme]
      exact ⟨_, rfl⟩
  rw [hrest]
  exact not_isPrefixOf_of_ne (by decide) rest

theorem trim_text (uri : SipUri) : trim uri.text = uri.text :=
  trim_eq_self fun c hc => (uri.chars c hc).1

/-- A text is a URI with a user, or no such URI has this text. -/
theorem exists_userInfo_or (text : Bytes) :
    (∃ uri : SipUri, ∃ info, uri.text = text ∧ uri.userInfo = some info) ∨
      ∀ uri : SipUri, uri.text = text → uri.userInfo = none := by
  by_cases h : ∃ uri : SipUri, ∃ info, uri.text = text ∧ uri.userInfo = some info
  · exact .inl h
  · refine .inr fun uri huri => Option.eq_none_iff_forall_not_mem.mpr fun info hinfo => ?_
    exact h ⟨uri, info, huri, hinfo⟩

end SipUri

/-! ## Extraction -/

/-- A telephone number with parameters. -/
def HasTelParameters (text : Bytes) : Prop :=
  (bytes "tel:").isPrefixOf (lowercase text) = true ∧ ';'.toUInt8 ∈ text

instance (text : Bytes) : Decidable (HasTelParameters text) := inferInstanceAs (Decidable (_ ∧ _))

def withoutTelParameters (text : Bytes) : Bytes :=
  if (bytes "tel:").isPrefixOf (lowercase text) then text.takeWhile (· != ';'.toUInt8) else text

/-- No closing bracket comes after an opening one. -/
def Unbracketed (text : Bytes) : Prop := ¬ ['<'.toUInt8, '>'.toUInt8].Sublist text

section

variable {text : Bytes}

theorem prefix_withoutTelParameters (text : Bytes) : withoutTelParameters text <+: text := by
  rw [withoutTelParameters]
  split
  · exact List.takeWhile_prefix _
  · exact List.prefix_rfl

theorem withoutTelParameters_eq_self_iff :
    withoutTelParameters text = text ↔ ¬ HasTelParameters text := by
  rw [withoutTelParameters, HasTelParameters]
  split
  · rename_i htel
    rw [List.takeWhile_eq_self_iff, not_and]
    constructor
    · intro hall _ hmem
      exact absurd (hall _ hmem) (by decide)
    · intro hnot c hc
      rw [bne_iff_ne]
      exact fun heq => hnot htel (heq ▸ hc)
  · rename_i htel
    exact ⟨fun _ h => htel h.1, fun _ => rfl⟩

theorem withoutTelParameters_lowercase (text : Bytes) :
    withoutTelParameters (lowercase text) = lowercase (withoutTelParameters text) := by
  have hsemicolon : ((· != ';'.toUInt8) : UInt8 → Bool) ∘ toLower = (· != ';'.toUInt8) := by
    funext c
    rw [Function.comp_apply, Bool.eq_iff_iff, bne_iff_ne, bne_iff_ne]
    exact not_congr (toLower_eq_iff (by decide))
  rw [withoutTelParameters, withoutTelParameters, lowercase_lowercase]
  split
  · rw [lowercase, List.takeWhile_map, hsemicolon, lowercase]
  · rfl

/-- The code finds the first semicolon. -/
theorem withoutTelParameters_eq (text : Bytes) :
    withoutTelParameters text =
      if (bytes "tel:").isPrefixOf (lowercase text) then
        match find text ';'.toUInt8 0 with
        | some semi => text.take semi
        | none => text
      else text := by
  rw [withoutTelParameters]
  split
  · by_cases hmem : ';'.toUInt8 ∈ text
    · obtain ⟨before, after, rfl, hbefore⟩ := List.eq_append_cons_of_mem hmem
      have htake : (before ++ ';'.toUInt8 :: after).takeWhile (· != ';'.toUInt8) = before := by
        rw [List.takeWhile_append_of_pos, List.takeWhile_cons_of_neg (by decide), List.append_nil]
        intro c hc
        rw [bne_iff_ne]
        exact fun heq => hbefore (heq ▸ hc)
      rw [htake]
      simp only [find_append hbefore, List.take_left]
    · simp only [find_eq_none_of_not_mem hmem]
      rw [List.takeWhile_eq_self_iff]
      intro c hc
      rw [bne_iff_ne]
      exact fun heq => hmem (heq ▸ hc)
  · rfl

theorem Unbracketed.sublist {t : Bytes} (h : Unbracketed text) (hsub : t.Sublist text) :
    Unbracketed t := fun hbrackets => h (hbrackets.trans hsub)

theorem Unbracketed.lowercase (h : Unbracketed text) : Unbracketed (lowercase text) := by
  intro hbrackets
  obtain ⟨pair, hpair, heq⟩ := List.sublist_map_iff.mp hbrackets
  obtain ⟨c, rest, rfl, hc, hrest⟩ := List.map_eq_cons_iff.mp heq.symm
  obtain ⟨d, rfl, hd⟩ := List.map_eq_singleton_iff.mp hrest
  rw [toLower_eq_iff (by decide)] at hc hd
  subst hc hd
  exact h hpair

theorem unbracketed_of_not_mem (h : '>'.toUInt8 ∉ text) : Unbracketed text :=
  fun hbrackets => h (hbrackets.mem (List.mem_cons_of_mem _ List.mem_cons_self))

/-- The first opening bracket decides. -/
theorem unbracketed_append_iff {before after : Bytes} (h : '<'.toUInt8 ∉ before) :
    Unbracketed (before ++ '<'.toUInt8 :: after) ↔ '>'.toUInt8 ∉ after := by
  rw [Unbracketed, not_iff_not, List.sublist_append_iff]
  constructor
  · rintro ⟨front, back, heq, hfront, hback⟩
    cases front with
    | nil =>
        rw [List.nil_append] at heq
        rw [← heq, List.cons_sublist_cons, List.singleton_sublist] at hback
        exact hback
    | cons c front =>
        rw [← (List.cons.inj heq).1] at hfront
        exact absurd (hfront.mem List.mem_cons_self) h
  · intro hmem
    refine ⟨[], _, rfl, List.nil_sublist before, ?_⟩
    rw [List.cons_sublist_cons, List.singleton_sublist]
    exact hmem

end

section

variable {value before inner after : Bytes}

theorem find_eq_none_of_not_mem_drop {s : Bytes} {c : UInt8} {pos : Nat} (h : c ∉ s.drop pos) :
    find s c pos = none := by
  rw [find, Option.map_eq_none_iff, List.findIdx?_eq_none_iff]
  intro d hd
  rw [beq_eq_false_iff_ne]
  exact fun heq => h (heq ▸ hd)

theorem extractUriFromNameAddr_of_unbracketed (h : Unbracketed (trim value)) :
    extractUriFromNameAddr value = withoutTelParameters (trim value) := by
  rw [extractUriFromNameAddr]
  dsimp only
  split
  · rename_i hshort
    obtain hshort | hshort := hshort <;>
    · rw [hshort]
      decide
  · by_cases hmem : '<'.toUInt8 ∈ trim value
    · obtain ⟨before, after, heq, hbefore⟩ := List.eq_append_cons_of_mem hmem
      rw [heq, unbracketed_append_iff hbefore] at h
      have hdrop : (before ++ '<'.toUInt8 :: after).drop (before.length + 1) = after := by
        rw [← List.drop_drop, List.drop_left]
        rfl
      rw [← hdrop] at h
      simp only [heq, find_append hbefore, find_eq_none_of_not_mem_drop h]
      exact (withoutTelParameters_eq _).symm
    · simp only [find_eq_none_of_not_mem hmem]
      exact (withoutTelParameters_eq _).symm

theorem extractUriFromNameAddr_of_bracketed
    (h : trim value = before ++ '<'.toUInt8 :: (inner ++ '>'.toUInt8 :: after))
    (hbefore : '<'.toUInt8 ∉ before) (hinner : '>'.toUInt8 ∉ inner) :
    extractUriFromNameAddr value = inner := by
  have hlong : ¬(trim value = [] ∨ trim value = bytes "*") := by
    have hlength := congrArg List.length h
    rw [List.length_append, List.length_cons, List.length_append, List.length_cons] at hlength
    have hstar : (bytes "*").length = 1 := by decide
    rintro (hshort | hshort) <;> rw [hshort] at hlength
    · rw [List.length_nil] at hlength
      omega
    · omega
  have hat : At (trim value) (0 + before.length + 1) (inner ++ '>'.toUInt8 :: after) := by
    have hwhole := at_zero (trim value)
    rw [h] at hwhole ⊢
    exact hwhole.right.tail
  rw [Nat.zero_add] at hat
  have hstart : find (trim value) '<'.toUInt8 0 = some before.length := by
    rw [h]
    exact find_append hbefore
  have hcount : before.length + 1 + inner.length - before.length - 1 = inner.length := by omega
  rw [extractUriFromNameAddr]
  simp only [if_neg hlong, hstart, hat.find_eq hinner, hcount, hat.left.substr_eq]

theorem SipUri.not_hasTelParameters (uri : SipUri) : ¬ HasTelParameters uri.text := by
  rintro ⟨htel, -⟩
  rw [uri.not_isPrefixOf_tel] at htel
  cases htel

theorem SipUri.extractUriFromNameAddr_text (uri : SipUri) :
    extractUriFromNameAddr uri.text = uri.text := by
  have hplain : Unbracketed uri.text :=
    unbracketed_of_not_mem fun hmem => (uri.chars _ hmem).2.2 rfl
  rw [extractUriFromNameAddr_of_unbracketed (by rwa [uri.trim_text]), uri.trim_text,
    withoutTelParameters_eq_self_iff.mpr uri.not_hasTelParameters]

/-- What is left of a text has no pair of brackets. -/
theorem unbracketed_extractUriFromNameAddr (value : Bytes) :
    Unbracketed (extractUriFromNameAddr value) := by
  by_cases h : Unbracketed (trim value)
  · rw [extractUriFromNameAddr_of_unbracketed h]
    exact h.sublist (prefix_withoutTelParameters _).sublist
  · have hmem : '<'.toUInt8 ∈ trim value := (not_not.mp h).mem List.mem_cons_self
    obtain ⟨before, after, heq, hbefore⟩ := List.eq_append_cons_of_mem hmem
    rw [heq, unbracketed_append_iff hbefore, not_not] at h
    obtain ⟨inner, after, rfl, hinner⟩ := List.eq_append_cons_of_mem h
    rw [extractUriFromNameAddr_of_bracketed heq hbefore hinner]
    exact unbracketed_of_not_mem hinner

end

/-! ## Normalisation -/

/-- The parser splits SIP and SIPS URIs as RFC 3261 says, and nothing else is taken for one. -/
structure ParsesRfc3261Uris [OsipParser] : Prop where
  splits : ∀ sip : SipUri, ∃ uri, OsipParser.uriParse sip.text = some uri ∧
    uri.scheme = some sip.scheme ∧ uri.username = sip.userInfo.map UserInfo.user ∧
      uri.host = some sip.host
  only : ∀ text uri scheme, OsipParser.uriParse text = some uri → uri.scheme = some scheme →
    lowercase scheme = bytes "sip" ∨ lowercase scheme = bytes "sips" →
      ∃ sip : SipUri, sip.text = text
  schemes : SchemesComeFirst

section

variable [OsipParser]

/-- The normalisation of what was extracted. -/
def normalizeUriText (uriText : Bytes) : Bytes :=
  if uriText = [] ∨ uriText = bytes "*" then uriText
  else
    let lowered := lowercase uriText
    if (bytes "tel:").isPrefixOf lowered then lowered
    else
      match OsipParser.uriParse uriText with
      | none => lowered
      | some uri =>
          let scheme := lowercase (uri.scheme.getD [])
          if scheme = bytes "tel" then bytes "tel:" ++ uri.username.getD []
          else if scheme ≠ bytes "sip" ∧ scheme ≠ bytes "sips" then lowered
          else
            match uri.username, uri.host with
            | some username, some host =>
                scheme ++ bytes ":" ++ username ++ bytes "@" ++ lowercase host
            | _, _ => lowered

theorem normalizeImpuUri_eq (value : Bytes) :
    normalizeImpuUri value = normalizeUriText (extractUriFromNameAddr value) := rfl

variable (hparser : ParsesRfc3261Uris)

include hparser

theorem normalizeUriText_sipUri {uri : SipUri} {info : UserInfo}
    (hinfo : uri.userInfo = some info) :
    normalizeUriText uri.text = (uri.normal info).text := by
  obtain ⟨parsed, hparse, hscheme, husername, hhost⟩ := hparser.splits uri
  rw [hinfo, Option.map_some] at husername
  have hlong : ¬(uri.text = [] ∨ uri.text = bytes "*") := by
    have hcolon : ':'.toUInt8 ∈ uri.text := List.mem_append_right _ List.mem_cons_self
    rintro (hshort | hshort) <;>
    · rw [hshort] at hcolon
      revert hcolon
      decide
  have hnottel : lowercase uri.scheme ≠ bytes "tel" := by
    obtain hscheme | hscheme := uri.schemeText <;>
    · rw [hscheme]
      decide
  have hsip : ¬(lowercase uri.scheme ≠ bytes "sip" ∧ lowercase uri.scheme ≠ bytes "sips") := by
    rw [not_and_or, not_not, not_not]
    exact uri.schemeText
  rw [normalizeUriText, SipUri.text_normal]
  simp only [if_neg hlong, uri.not_isPrefixOf_tel, Bool.false_eq_true, if_false, hparse, hscheme,
    Option.getD_some, if_neg hnottel, if_neg hsip, husername, hhost]

theorem normalizeUriText_eq_lowercase {text : Bytes}
    (h : ∀ uri : SipUri, uri.text = text → uri.userInfo = none) :
    normalizeUriText text = lowercase text := by
  rw [normalizeUriText]
  split
  · rename_i hshort
    obtain rfl | rfl := hshort
    · rfl
    · decide
  · dsimp only
    split
    · rfl
    · rename_i htel
      split
      · rfl
      · rename_i parsed hparse
        obtain ⟨scheme, rest, hscheme, htext⟩ := hparser.schemes text parsed hparse
        have hnottel : lowercase scheme ≠ bytes "tel" := by
          intro heq
          apply htel
          rw [htext, lowercase_append, heq]
          exact List.isPrefixOf_iff_prefix.mpr ⟨lowercase rest, rfl⟩
        rw [hscheme, Option.getD_some, if_neg hnottel]
        split
        · rfl
        · rename_i hsip
          rw [not_and_or, not_not, not_not] at hsip
          obtain ⟨uri, huri⟩ := hparser.only text parsed scheme hparse hscheme hsip
          obtain ⟨parsed', hparse', -, husername, -⟩ := hparser.splits uri
          rw [huri, hparse, Option.some.injEq] at hparse'
          subst hparse'
          rw [husername, h uri huri, Option.map_none]

theorem length_normalizeUriText_le (text : Bytes) :
    (normalizeUriText text).length ≤ text.length := by
  obtain ⟨uri, info, rfl, hinfo⟩ | hnone := SipUri.exists_userInfo_or text
  · rw [normalizeUriText_sipUri hparser hinfo]
    exact SipUri.length_text_normal_le hinfo
  · rw [normalizeUriText_eq_lowercase hparser hnone, length_lowercase]

theorem normalizeUriText_lowercase {text : Bytes}
    (h : ∀ uri : SipUri, uri.text = text → uri.userInfo = none) :
    normalizeUriText (lowercase text) = lowercase text := by
  rw [normalizeUriText_eq_lowercase hparser, lowercase_lowercase]
  intro uri huri
  obtain ⟨uri', htext, hsome⟩ := SipUri.of_lowercase huri.symm
  rw [h uri' htext, Option.isSome_none] at hsome
  exact Option.isSome_eq_false_iff.mp hsome.symm |> Option.isNone_iff_eq_none.mp

/-- The first call leaves a text that the second one does not touch, except for blanks and
parameters of a telephone number that stood between the brackets. -/
theorem normalizeImpuUri_idempotent_iff (value : Bytes) :
    normalizeImpuUri (normalizeImpuUri value) = normalizeImpuUri value ↔
      trim (extractUriFromNameAddr value) = extractUriFromNameAddr value ∧
        ¬ HasTelParameters (extractUriFromNameAddr value) := by
  have hplain := unbracketed_extractUriFromNameAddr value
  rw [normalizeImpuUri_eq value]
  generalize extractUriFromNameAddr value = text at hplain
  obtain ⟨uri, info, rfl, hinfo⟩ | hnone := SipUri.exists_userInfo_or text
  · have hfixed : normalizeImpuUri (uri.normal info).text = (uri.normal info).text := by
      rw [normalizeImpuUri_eq, SipUri.extractUriFromNameAddr_text,
        normalizeUriText_sipUri hparser rfl, SipUri.text_normal_normal rfl]
    rw [normalizeUriText_sipUri hparser hinfo]
    exact ⟨fun _ => ⟨uri.trim_text, uri.not_hasTelParameters⟩, fun _ => hfixed⟩
  · have hextract : extractUriFromNameAddr (lowercase text) =
        lowercase (withoutTelParameters (trim text)) := by
      rw [extractUriFromNameAddr_of_unbracketed, trim_lowercase, withoutTelParameters_lowercase]
      exact hplain.lowercase.sublist (trim_sublist _)
    rw [normalizeUriText_eq_lowercase hparser hnone, normalizeImpuUri_eq, hextract]
    constructor
    · intro heq
      have hlength := length_normalizeUriText_le hparser
        (lowercase (withoutTelParameters (trim text)))
      rw [heq, length_lowercase, length_lowercase] at hlength
      have hfront := prefix_withoutTelParameters (trim text)
      have htrim : trim text = text := (trim_sublist text).eq_of_length
        (Nat.le_antisymm (trim_sublist text).length_le (hlength.trans hfront.length_le))
      rw [htrim] at hfront hlength
      exact ⟨htrim, withoutTelParameters_eq_self_iff.mp (hfront.eq_of_length_le hlength)⟩
    · rintro ⟨htrim, htel⟩
      rw [htrim, withoutTelParameters_eq_self_iff.mpr htel]
      exact normalizeUriText_lowercase hparser hnone

/-- The parameters of a telephone number are only dropped where there are no brackets. -/
theorem normalizeImpuUri_brackets_iff {text : Bytes} (hclosing : '>'.toUInt8 ∉ text)
    (htrim : trim text = text) :
    normalizeImpuUri ('<'.toUInt8 :: (text ++ ['>'.toUInt8])) = normalizeImpuUri text ↔
      ¬ HasTelParameters text := by
  have hplain : Unbracketed (trim text) := by
    rw [htrim]
    exact unbracketed_of_not_mem hclosing
  rw [normalizeImpuUri_eq, normalizeImpuUri_eq, extractUriFromNameAddr_brackets hclosing,
    extractUriFromNameAddr_of_unbracketed hplain, htrim]
  constructor
  · intro heq htel
    have hnone : ∀ uri : SipUri, uri.text = text → uri.userInfo = none := by
      rintro uri rfl
      exact absurd htel uri.not_hasTelParameters
    have hlength := length_normalizeUriText_le hparser (withoutTelParameters text)
    rw [← heq, normalizeUriText_eq_lowercase hparser hnone, length_lowercase] at hlength
    have hsame := (prefix_withoutTelParameters text).eq_of_length_le hlength
    exact withoutTelParameters_eq_self_iff.mp hsame htel
  · intro htel
    rw [withoutTelParameters_eq_self_iff.mpr htel]

end

/-! ## A parser -/

section

variable {c : UInt8} {before after : Bytes}

def upTo (c : UInt8) (s : Bytes) : Bytes := s.takeWhile (· != c)

def behind (c : UInt8) (s : Bytes) : Bytes := (s.dropWhile (· != c)).tail

private theorem forall_bne (h : c ∉ before) : ∀ d ∈ before, (d != c) = true := by
  intro d hd
  rw [bne_iff_ne]
  exact fun heq => h (heq ▸ hd)

theorem upTo_append (h : c ∉ before) : upTo c (before ++ c :: after) = before := by
  rw [upTo, List.takeWhile_append_of_pos (forall_bne h), List.takeWhile_cons_of_neg (by simp),
    List.append_nil]

theorem behind_append (h : c ∉ before) : behind c (before ++ c :: after) = after := by
  rw [behind, List.dropWhile_append_of_pos (forall_bne h), List.dropWhile_cons_of_neg (by simp),
    List.tail_cons]

end

instance (host : Bytes) : Decidable (HostText host) :=
  decidable_of_iff ((host ≠ [] ∧ host.all isHostChar = true) ∨
    (host.dropLast.tail ≠ [] ∧ host.dropLast.tail.all isReferenceChar = true ∧
      host = '['.toUInt8 :: (host.dropLast.tail ++ [']'.toUInt8]))) <| by
    rw [List.all_eq_true, List.all_eq_true]
    constructor
    · rintro (⟨hne, h⟩ | ⟨hne, h, heq⟩)
      · exact .name ⟨hne, h⟩
      · rw [heq]
        exact .reference hne h
    · intro h
      cases h with
      | name h => exact .inl ⟨h.nonempty, h.chars⟩
      | @reference address hne h =>
          have haddress : ('['.toUInt8 :: (address ++ [']'.toUInt8])).dropLast.tail = address := by
            rw [← List.cons_append, List.dropLast_concat, List.tail_cons]
          rw [haddress]
          exact .inr ⟨hne, h, rfl⟩

def UserInfo.ofParts (user password : Bytes) : Option UserInfo :=
  if h : user ≠ [] ∧ user.all isSipUserChar = true ∧ isPassword password = true then
    some ⟨user, password, h.1, List.all_eq_true.mp h.2.1, h.2.2⟩
  else none

def SipUri.ofParts (scheme : Bytes) (userInfo : Option UserInfo) (host rest : Bytes) :
    Option SipUri :=
  if h : (lowercase scheme = bytes "sip" ∨ lowercase scheme = bytes "sips") ∧ HostText host ∧
      isAfterHost rest = true then
    some ⟨scheme, userInfo, host, rest, h.1, h.2.1, h.2.2⟩
  else none

def readUserInfo (text : Bytes) : Option UserInfo :=
  let user := upTo ':'.toUInt8 text
  UserInfo.ofParts user (text.drop user.length)

def readHost (text : Bytes) : Bytes :=
  if text.head? = some '['.toUInt8 then upTo ']'.toUInt8 text ++ [']'.toUInt8]
  else text.takeWhile isHostChar

/-- The parts between the separators, if together they are the whole text. -/
def readSipUri (text : Bytes) : Option SipUri :=
  let scheme := upTo ':'.toUInt8 text
  let afterScheme := behind ':'.toUInt8 text
  let userInfo :=
    if '@'.toUInt8 ∈ afterScheme then readUserInfo (upTo '@'.toUInt8 afterScheme) else none
  let afterUser :=
    if '@'.toUInt8 ∈ afterScheme then behind '@'.toUInt8 afterScheme else afterScheme
  let host := readHost afterUser
  (SipUri.ofParts scheme userInfo host (afterUser.drop host.length)).filter (·.text = text)

/-- A parser for the URIs of RFC 3261. Of other URIs it only has the scheme. -/
@[reducible] def rfcUris : OsipParser where
  uriParse text :=
    let scheme := upTo ':'.toUInt8 text
    if ':'.toUInt8 ∉ text then none
    else if lowercase scheme = bytes "sip" ∨ lowercase scheme = bytes "sips" then
      (readSipUri text).map fun sip =>
        { scheme := some sip.scheme, username := sip.userInfo.map UserInfo.user
          host := some sip.host }
    else some { scheme := some scheme, username := none, host := none }

theorem text_of_readSipUri {text : Bytes} {uri : SipUri} (h : readSipUri text = some uri) :
    uri.text = text :=
  of_decide_eq_true (Option.filter_eq_some_iff.mp h).2

theorem readUserInfo_append (info : UserInfo) :
    readUserInfo (info.user ++ info.password) = some info := by
  have hcolon : ':'.toUInt8 ∉ info.user := fun hmem => absurd (info.chars _ hmem) (by decide)
  have huser : upTo ':'.toUInt8 (info.user ++ info.password) = info.user := by
    cases hpassword : info.password with
    | nil =>
        rw [List.append_nil, upTo, List.takeWhile_eq_self_iff]
        exact forall_bne hcolon
    | cons c password =>
        have htext := info.passwordText
        rw [hpassword, isPassword, Bool.and_eq_true, beq_iff_eq] at htext
        rw [htext.1]
        exact upTo_append hcolon
  rw [readUserInfo]
  simp only [huser, List.drop_left]
  exact dif_pos ⟨info.nonempty, List.all_eq_true.mpr info.chars, info.passwordText⟩

theorem readHost_append {host rest : Bytes} (hhost : HostText host)
    (hrest : isAfterHost rest = true) : readHost (host ++ rest) = host := by
  cases hhost with
  | name h =>
      obtain ⟨c, host, rfl⟩ := List.exists_cons_of_ne_nil h.nonempty
      have hc := h.chars c List.mem_cons_self
      have hbracket : (c :: host ++ rest).head? ≠ some '['.toUInt8 := by
        rw [List.cons_append, List.head?_cons, ne_eq, Option.some.injEq]
        rintro rfl
        revert hc
        decide
      rw [readHost, if_neg hbracket, List.takeWhile_append_of_pos h.chars]
      cases rest with
      | nil => exact List.append_nil _
      | cons d rest =>
          have hd : isHostChar d = false := by
            rw [isAfterHost] at hrest
            split at hrest
            · rename_i heq
              rw [heq]
              decide
            · rw [isParameters, Bool.and_eq_true, Bool.or_eq_true, beq_iff_eq, beq_iff_eq] at hrest
              obtain heq | heq := hrest.1 <;>
              · rw [heq]
                decide
          rw [List.takeWhile_cons_of_neg (by rw [hd]; decide), List.append_nil]
  | @reference address hne h =>
      have hclosing : ']'.toUInt8 ∉ '['.toUInt8 :: address := by
        rw [List.mem_cons, not_or]
        exact ⟨by decide, fun hmem => absurd (h _ hmem) (by decide)⟩
      have htext : '['.toUInt8 :: (address ++ [']'.toUInt8]) ++ rest =
          '['.toUInt8 :: address ++ ']'.toUInt8 :: rest := by
        simp only [List.cons_append, List.append_assoc, List.nil_append]
      rw [htext, readHost, List.cons_append, List.head?_cons, if_pos rfl, ← List.cons_append,
        upTo_append hclosing, List.cons_append]

theorem SipUri.colon_not_mem_scheme (uri : SipUri) : ':'.toUInt8 ∉ uri.scheme :=
  fun hmem => absurd (uri.isHostChar_scheme _ hmem) (by decide)

theorem readSipUri_text (uri : SipUri) : readSipUri uri.text = some uri := by
  have hscheme : upTo ':'.toUInt8 uri.text = uri.scheme := upTo_append uri.colon_not_mem_scheme
  have hafter : behind ':'.toUInt8 uri.text = uri.userText ++ (uri.host ++ uri.rest) :=
    behind_append uri.colon_not_mem_scheme
  have hat : '@'.toUInt8 ∉ uri.host ++ uri.rest := by
    rw [List.mem_append, not_or]
    exact ⟨fun hmem => (uri.hostText.isPartChar _ hmem).2.2.2 rfl,
      fun hmem => (isPartChar_of_isAfterHost uri.afterHost _ hmem).2.2.2 rfl⟩
  have hparts : SipUri.ofParts uri.scheme uri.userInfo uri.host uri.rest = some uri :=
    dif_pos ⟨uri.schemeText, uri.hostText, uri.afterHost⟩
  have hfilter : (some uri).filter (·.text = uri.text) = some uri :=
    Option.filter_eq_some_iff.mpr ⟨rfl, decide_eq_true rfl⟩
  rw [readSipUri]
  simp only [hscheme, hafter]
  cases hinfo : uri.userInfo with
  | none =>
      rw [hinfo] at hparts
      simp only [SipUri.userText, hinfo, Option.elim_none, List.nil_append, if_neg hat,
        readHost_append uri.hostText uri.afterHost, List.drop_left, hparts, hfilter]
  | some info =>
      have huser : '@'.toUInt8 ∉ info.user ++ info.password :=
        fun hmem => (info.isPartChar _ hmem).2.2.2 rfl
      have htext : uri.userText ++ (uri.host ++ uri.rest) =
          (info.user ++ info.password) ++ '@'.toUInt8 :: (uri.host ++ uri.rest) := by
        simp only [SipUri.userText, hinfo, Option.elim_some, UserInfo.text, List.append_assoc,
          List.cons_append, List.nil_append]
      have hmem : '@'.toUInt8 ∈
          (info.user ++ info.password) ++ '@'.toUInt8 :: (uri.host ++ uri.rest) :=
        List.mem_append_right _ List.mem_cons_self
      rw [hinfo] at hparts
      simp only [htext, if_pos hmem, upTo_append huser, behind_append huser,
        readUserInfo_append info, readHost_append uri.hostText uri.afterHost, List.drop_left,
        hparts, hfilter]

theorem rfcUris_uriParse_text (sip : SipUri) :
    rfcUris.uriParse sip.text =
      some { scheme := some sip.scheme, username := sip.userInfo.map UserInfo.user
             host := some sip.host } := by
  have hmem : ¬ ':'.toUInt8 ∉ sip.text :=
    not_not.mpr (List.mem_append_right _ List.mem_cons_self)
  have hscheme : upTo ':'.toUInt8 sip.text = sip.scheme := upTo_append sip.colon_not_mem_scheme
  simp only [OsipParser.uriParse, if_neg hmem, hscheme, if_pos sip.schemeText, readSipUri_text,
    Option.map_some]

/-- What is parsed has the text of a URI, or a scheme of its own. -/
theorem rfcUris_cases {text : Bytes} {uri : OsipUri} (h : rfcUris.uriParse text = some uri) :
    (∃ sip : SipUri, sip.text = text ∧ uri.scheme = some sip.scheme) ∨
      ∃ scheme rest, text = scheme ++ ':'.toUInt8 :: rest ∧ uri.scheme = some scheme ∧
        ¬(lowercase scheme = bytes "sip" ∨ lowercase scheme = bytes "sips") := by
  simp only [OsipParser.uriParse] at h
  split at h
  · cases h
  · rename_i hmem
    obtain ⟨scheme, rest, rfl, hcolon⟩ := List.eq_append_cons_of_mem (not_not.mp hmem)
    rw [upTo_append hcolon] at h
    split at h
    · obtain ⟨sip, hread, rfl⟩ := Option.map_eq_some_iff.mp h
      exact .inl ⟨sip, text_of_readSipUri hread, rfl⟩
    · rename_i hother
      cases h
      exact .inr ⟨scheme, rest, rfl, rfl, hother⟩

theorem rfcUris_parsesRfc3261Uris : @ParsesRfc3261Uris rfcUris := by
  refine @ParsesRfc3261Uris.mk rfcUris ?_ ?_ ?_
  · exact fun sip => ⟨_, rfcUris_uriParse_text sip, rfl, rfl, rfl⟩
  · intro text uri scheme hparse hscheme hsip
    obtain ⟨sip, htext, -⟩ | ⟨other, rest, -, hother, hnot⟩ := rfcUris_cases hparse
    · exact ⟨sip, htext⟩
    · rw [hscheme, Option.some.injEq] at hother
      exact absurd hsip (hother ▸ hnot)
  · intro text uri hparse
    obtain ⟨sip, htext, hscheme⟩ | ⟨scheme, rest, htext, hscheme, -⟩ := rfcUris_cases hparse
    · exact ⟨sip.scheme, _, hscheme, htext.symm⟩
    · exact ⟨scheme, rest, hscheme, htext⟩

/-! ## Normal forms -/

/-- Normalisation is idempotent, and angle brackets make no difference, exactly as long as no blanks
stand around the URI that is extracted and it is not a telephone number with parameters. -/
theorem normalizeImpuUri_normalForm_iff [OsipParser] (hparser : ParsesRfc3261Uris) :
    (∀ value, normalizeImpuUri (normalizeImpuUri value) = normalizeImpuUri value ↔
      trim (extractUriFromNameAddr value) = extractUriFromNameAddr value ∧
        ¬ HasTelParameters (extractUriFromNameAddr value)) ∧
    ∀ uri, '<'.toUInt8 ∉ uri → '>'.toUInt8 ∉ uri → trim uri = uri →
      (normalizeImpuUri ('<'.toUInt8 :: (uri ++ ['>'.toUInt8])) = normalizeImpuUri uri ↔
        ¬ HasTelParameters uri) :=
  ⟨normalizeImpuUri_idempotent_iff hparser,
    fun _ _ hclosing htrim => normalizeImpuUri_brackets_iff hparser hclosing htrim⟩

/-- The alias of a subscriber with parameters of its URI. -/
def phoneAlias : Bytes := bytes "sip:+8613824122023@IMS.OPERATOR.COM;user=phone"

theorem normalForm_phoneAlias :
    let _ : OsipParser := rfcUris
    normalizeImpuUri (normalizeImpuUri ('<'.toUInt8 :: (phoneAlias ++ ['>'.toUInt8]))) =
        normalizeImpuUri ('<'.toUInt8 :: (phoneAlias ++ ['>'.toUInt8])) ∧
      normalizeImpuUri ('<'.toUInt8 :: (phoneAlias ++ ['>'.toUInt8])) =
        normalizeImpuUri phoneAlias := by
  intro _
  obtain ⟨hidempotent, hbrackets⟩ := normalizeImpuUri_normalForm_iff rfcUris_parsesRfc3261Uris
  exact ⟨(hidempotent _).mpr (by decide +kernel),
    (hbrackets phoneAlias (by decide +kernel) (by decide +kernel) (by decide +kernel)).mpr
      (by decide +kernel)⟩

/-- A telephone number with parameters. -/
def phoneNumber : Bytes := bytes "tel:+8613824122023;phone-context=ims.operator.com"

/-- In brackets the parameters stay, and the next call drops them. -/
theorem not_normalForm_phoneNumber :
    let _ : OsipParser := rfcUris
    normalizeImpuUri (normalizeImpuUri ('<'.toUInt8 :: (phoneNumber ++ ['>'.toUInt8]))) ≠
        normalizeImpuUri ('<'.toUInt8 :: (phoneNumber ++ ['>'.toUInt8])) ∧
      normalizeImpuUri ('<'.toUInt8 :: (phoneNumber ++ ['>'.toUInt8])) ≠
        normalizeImpuUri phoneNumber := by
  decide +kernel

end SimIms.Sip
