import SimIms.Db.SubscriberRepository
import SimIms.Sip.PlainIdentities

/-!
# Which subscriber an identity of the simplest form stands for

Whatever the form, the user is looked up. It counts as a telephone number where it begins with
`+` or the scheme is `tel`, and as an IMSI everywhere else.
-/

namespace SimIms.Db

open Cxx Lib Sip

/-! ## Users -/

/-- Whether a user is looked up as a telephone number. -/
def isTel (user : Bytes) : Bool := (bytes "+").isPrefixOf user

/-- What is tried for a user. -/
def userCandidates (user : Bytes) : List Bytes × List Bytes :=
  if isTel user then ([], [user]) else ([user], [])

section

variable {user host number : Bytes}

/-- A text that begins like a user has no scheme. -/
theorem stripScheme_of_user (hu : PlainUser user) (rest : Bytes) :
    stripScheme (user ++ rest) = user ++ rest := by
  obtain ⟨c, hc, user, rfl⟩ := hu.exists_cons
  rw [stripScheme]
  have hsip : (bytes "sip:").isPrefixOf (c :: user ++ rest) = false :=
    not_isPrefixOf_of_isUserChar (by decide) hc _
  have hsips : (bytes "sips:").isPrefixOf (c :: user ++ rest) = false :=
    not_isPrefixOf_of_isUserChar (by decide) hc _
  have htel : (bytes "tel:").isPrefixOf (c :: user ++ rest) = false :=
    not_isPrefixOf_of_isUserChar (by decide) hc _
  rw [hsip, hsips, htel]
  rfl

/-- Parameters of the host do not matter. -/
theorem userPart_of_stripScheme {value : Bytes} (hu : PlainUser user)
    (h : stripScheme value = userAtHostText user host) : userPart value = user := by
  have hat : ∀ rest, find (userAtHostText user rest) '@'.toUInt8 0 = some user.length :=
    fun _ => find_append fun hmem => (hu.inert _ hmem).2.2.2.1 rfl
  rw [userPart, h]
  cases hsemicolon : find (userAtHostText user host) ';'.toUInt8 0 with
  | none =>
      simp only [hat]
      exact List.take_left
  | some semicolon =>
      obtain ⟨-, hget, -⟩ := find_eq_some_iff.mp hsemicolon
      have hafter : user.length < semicolon := by
        by_contra hle
        obtain hlt | heq := Nat.lt_or_eq_of_le (Nat.le_of_not_lt hle)
        · rw [userAtHostText, List.getElem?_append_left hlt] at hget
          exact (hu.inert _ (List.mem_of_getElem? hget)).2.2.1 rfl
        · rw [heq, userAtHostText, List.getElem?_append_right (Nat.le_refl _), Nat.sub_self] at hget
          have hchar : '@'.toUInt8 = ';'.toUInt8 := Option.some.inj hget
          revert hchar
          decide
      obtain ⟨more, rfl⟩ := Nat.exists_eq_add_of_lt hafter
      have htake : (userAtHostText user host).take (user.length + more + 1) =
          userAtHostText user (host.take more) := by
        rw [userAtHostText, Nat.add_assoc, List.take_length_add_append, List.take_succ_cons]
        rfl
      simp only [htake, hat]
      exact List.take_left

theorem userPart_of_stripScheme_user {value : Bytes} (hu : PlainUser user)
    (h : stripScheme value = user) : userPart value = user := by
  have hsemicolon : find user ';'.toUInt8 0 = none :=
    find_eq_none_of_not_mem fun hmem => (hu.inert _ hmem).2.2.1 rfl
  have hat : find user '@'.toUInt8 0 = none :=
    find_eq_none_of_not_mem fun hmem => (hu.inert _ hmem).2.2.2.1 rfl
  rw [userPart, h]
  simp only [hsemicolon, hat]

@[simp] theorem stripScheme_sipUri (user host : Bytes) :
    stripScheme (sipUri user host) = userAtHostText user host := by
  have hsip : (bytes "sip:").isPrefixOf (sipUri user host) = true :=
    List.isPrefixOf_iff_prefix.mpr ⟨_, rfl⟩
  rw [stripScheme, hsip]
  rfl

@[simp] theorem stripScheme_telUri (number : Bytes) : stripScheme (telUri number) = number := by
  have hsip : (bytes "sip:").isPrefixOf (telUri number) = false := rfl
  have hsips : (bytes "sips:").isPrefixOf (telUri number) = false := rfl
  have htel : (bytes "tel:").isPrefixOf (telUri number) = true :=
    List.isPrefixOf_iff_prefix.mpr ⟨_, rfl⟩
  rw [stripScheme, hsip, hsips, htel]
  rfl

theorem userPart_sipUri (hu : PlainUser user) (host : Bytes) :
    userPart (sipUri user host) = user := userPart_of_stripScheme hu (stripScheme_sipUri _ _)

theorem userPart_telUri (hn : PlainUser number) : userPart (telUri number) = number :=
  userPart_of_stripScheme_user hn (stripScheme_telUri _)

theorem userPart_userAtHostText (hu : PlainUser user) (host : Bytes) :
    userPart (userAtHostText user host) = user :=
  userPart_of_stripScheme hu (stripScheme_of_user hu _)

theorem userPart_user (hu : PlainUser user) : userPart user = user := by
  have hstrip := stripScheme_of_user hu []
  rw [List.append_nil] at hstrip
  exact userPart_of_stripScheme_user hu hstrip

theorem addUniqueCandidate_nil (hne : user ≠ []) : addUniqueCandidate [] user = [user] := by
  rw [addUniqueCandidate, if_neg]
  · rfl
  · rw [not_or]
    exact ⟨hne, List.not_mem_nil⟩

/-! ## Candidates -/

variable [OsipParser]

/-- An identity with a normal form of this user that is not a `tel` URI. -/
theorem identityCandidates_of_normalized {identity normalized : Bytes} (hu : PlainUser user)
    (hidentity : identity ≠ []) (hnormalized : normalizeImpuUri identity = normalized)
    (hne : normalized ≠ []) (hnottel : (bytes "tel:").isPrefixOf normalized = false)
    (huser : userPart normalized = user) : identityCandidates identity = userCandidates user := by
  rw [identityCandidates, if_neg hidentity, hnormalized]
  simp only [if_neg hne, hnottel, huser, addUniqueCandidate_nil hu.nonempty]
  refine if_congr ?_ rfl rfl
  rw [isTel, or_iff_right Bool.false_ne_true]

theorem identityCandidates_sipUri (hparser : ParsesSipUris) (hu : PlainUser user)
    (hh : PlainHost host) : identityCandidates (sipUri user host) = userCandidates user :=
  identityCandidates_of_normalized hu (List.cons_ne_nil _ _) (normalizeImpuUri_sipUri hparser hu hh)
    (List.cons_ne_nil _ _) rfl (userPart_sipUri hu _)

theorem identityCandidates_telUri (hn : PlainUser number) :
    identityCandidates (telUri number) = ([], [number]) := by
  have hne : telUri number ≠ [] := List.cons_ne_nil _ _
  have htel : (bytes "tel:").isPrefixOf (telUri number) = true :=
    List.isPrefixOf_iff_prefix.mpr ⟨_, rfl⟩
  rw [identityCandidates, if_neg hne, normalizeImpuUri_telUri hn]
  simp only [if_neg hne, htel, userPart_telUri hn, true_or, if_true,
    addUniqueCandidate_nil hn.nonempty]

/-! ## Usernames -/

omit [OsipParser] in
theorem isPrefixOf_plus_userAtHostText (hu : PlainUser user) (host : Bytes) :
    (bytes "+").isPrefixOf (userAtHostText user host) = isTel user := by
  obtain ⟨c, -, user, rfl⟩ := hu.exists_cons
  rfl

theorem privateIdentityImsi_userAtHostText (hparser : SchemesComeFirst) (hu : PlainUser user)
    {realm : Bytes} (hrealm : '<'.toUInt8 ∉ realm) :
    privateIdentityImsi (userAtHostText user realm) = some user := by
  have hne : userAtHostText user realm ≠ [] := List.append_ne_nil_of_left_ne_nil hu.nonempty _
  rw [privateIdentityImsi, if_neg hne, normalizeImpuUri_userAtHostText hparser hu hrealm,
    userPart_userAtHostText hu]
  simp only [if_neg hu.nonempty]

/-- With or without the realm, the user is looked up as an IMSI, and then as the telephone number
that it looks like. -/
theorem usernameCandidates_eq (hparser : SchemesComeFirst) (hu : PlainUser user)
    {realm username : Bytes} (hrealm : '<'.toUInt8 ∉ realm)
    (husername : username = user ∨ username = userAtHostText user realm) :
    usernameCandidates username realm = ([user], if isTel user then [user] else []) := by
  have hat : '@'.toUInt8 ∉ user := fun hmem => (hu.inert _ hmem).2.2.2.1 rfl
  have himsi := privateIdentityImsi_userAtHostText hparser hu hrealm
  have hknown : addUniqueCandidate [user] user = [user] := by
    rw [addUniqueCandidate, if_pos (.inr List.mem_cons_self)]
  obtain ⟨c, hc, rest, heq⟩ := hu.exists_cons
  have htel : ∀ text, (bytes "tel:").isPrefixOf (c :: text) = false :=
    fun _ => not_isPrefixOf_of_isUserChar (by decide) hc _
  obtain rfl | rfl := husername
  · have himpi : username ++ bytes "@" ++ realm = userAtHostText username realm :=
      List.append_assoc _ _ _
    have hnotel : (bytes "tel:").isPrefixOf username = false := heq ▸ htel rest
    rw [usernameCandidates, userPart_user hu, addUniqueCandidate_nil hu.nonempty, if_neg hat, himpi,
      himsi, hnotel]
    simp only [hknown]
    exact congrArg ([username], ·) (if_congr (or_iff_left Bool.false_ne_true) rfl rfl)
  · have hmem : '@'.toUInt8 ∈ userAtHostText user realm :=
      List.mem_append_right _ List.mem_cons_self
    have hnotel : (bytes "tel:").isPrefixOf (userAtHostText user realm) = false := by
      rw [heq]
      exact htel _
    rw [usernameCandidates, userPart_userAtHostText hu, addUniqueCandidate_nil hu.nonempty,
      if_pos hmem, himsi, hnotel, isPrefixOf_plus_userAtHostText hu]
    simp only [hknown]
    exact congrArg ([user], ·) (if_congr (or_iff_left Bool.false_ne_true) rfl rfl)

end

end SimIms.Db
