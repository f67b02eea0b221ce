import SimIms.SCscf.AuthManager

/-!
# The nonce of a challenge

A nonce is the base64 text of what the challenge was made of. The text is read back as these bytes,
so an accepted response carries the nonce of one RAND || AUTN only.
-/

namespace SimIms.SCscf

open Cxx Sip Diameter

namespace AuthManager

/-! ## The base64 text -/

/-- A character is read back as the six bits it was made of, and is no padding. -/
theorem base64Value_base64Char (n shift : Nat) :
    base64Value (base64Char n shift) = n / 2 ^ shift % 64 ∧ base64Char n shift ≠ '='.toUInt8 := by
  have htable : ∀ i < 64, base64Value (kBase64Chars.getD i 0) = i ∧
      kBase64Chars.getD i 0 ≠ '='.toUInt8 := by decide +kernel
  exact htable _ (Nat.mod_lt _ (by decide))

/-- The three bytes of a group, from the number that they make. -/
theorem group_bytes (a b c : UInt8) :
    UInt8.ofNat ((a.toNat * 2 ^ 16 + b.toNat * 2 ^ 8 + c.toNat) / 2 ^ 16) = a ∧
      UInt8.ofNat ((a.toNat * 2 ^ 16 + b.toNat * 2 ^ 8 + c.toNat) / 2 ^ 8) = b ∧
        UInt8.ofNat (a.toNat * 2 ^ 16 + b.toNat * 2 ^ 8 + c.toNat) = c := by
  have ha := a.toNat_lt
  have hb := b.toNat_lt
  have hc := c.toNat_lt
  refine ⟨UInt8.toNat_inj.mp ?_, UInt8.toNat_inj.mp ?_, UInt8.toNat_inj.mp ?_⟩
  · rw [UInt8.toNat_ofNat']
    omega
  · rw [UInt8.toNat_ofNat']
    omega
  · rw [UInt8.toNat_ofNat']
    omega

/-- Three bytes make a number of 24 bits. -/
theorem group_lt (a b c : UInt8) : a.toNat * 2 ^ 16 + b.toNat * 2 ^ 8 + c.toNat < 2 ^ 24 := by
  have ha := a.toNat_lt
  have hb := b.toNat_lt
  have hc := c.toNat_lt
  omega

/-- The characters of a number of 24 bits are read back as this number. Padding in the place of a
character counts as no bits, as that character does. -/
theorem base64Value_group {n : Nat} (hn : n < 2 ^ 24) {third fourth : UInt8}
    (hthird : third = base64Char n 6 ∨ third = '='.toUInt8 ∧ n % 2 ^ 12 = 0)
    (hfourth : fourth = base64Char n 0 ∨ fourth = '='.toUInt8 ∧ n % 2 ^ 6 = 0) :
    base64Value (base64Char n 18) * 2 ^ 18 + base64Value (base64Char n 12) * 2 ^ 12 +
      base64Value third * 2 ^ 6 + base64Value fourth = n := by
  have hpadding : base64Value '='.toUInt8 = 0 := rfl
  have hthird' : base64Value third = n / 2 ^ 6 % 64 := by
    obtain rfl | ⟨rfl, hzero⟩ := hthird
    · exact (base64Value_base64Char n 6).1
    · rw [hpadding]
      omega
  have hfourth' : base64Value fourth = n % 64 := by
    obtain rfl | ⟨rfl, hzero⟩ := hfourth
    · rw [(base64Value_base64Char n 0).1, pow_zero, Nat.div_one]
    · rw [hpadding]
      omega
  rw [(base64Value_base64Char n 18).1, (base64Value_base64Char n 12).1, hthird', hfourth']
  omega

/-- Decoding inverts encoding, group by group. -/
theorem base64Decode_base64Encode : ∀ b, base64Decode (base64Encode b) = b
  | [] => rfl
  | [a] => by
      have hgroup : a.toNat * 2 ^ 16 =
          a.toNat * 2 ^ 16 + (0 : UInt8).toNat * 2 ^ 8 + (0 : UInt8).toNat := by
        rw [UInt8.toNat_zero, Nat.zero_mul, Nat.add_zero]
      have hbytes := group_bytes a 0 0
      rw [← hgroup] at hbytes
      have hlt := group_lt a 0 0
      rw [← hgroup] at hlt
      rw [base64Encode, base64Decode, base64Value_group hlt (.inr ⟨rfl, by omega⟩)
        (.inr ⟨rfl, by omega⟩), if_neg (not_not.mpr rfl), if_neg (not_not.mpr rfl), hbytes.1]
      rfl
  | [a, b] => by
      have hgroup : a.toNat * 2 ^ 16 + b.toNat * 2 ^ 8 =
          a.toNat * 2 ^ 16 + b.toNat * 2 ^ 8 + (0 : UInt8).toNat := (Nat.add_zero _).symm
      have hbytes := group_bytes a b 0
      rw [← hgroup] at hbytes
      have hlt := group_lt a b 0
      rw [← hgroup] at hlt
      rw [base64Encode, base64Decode, base64Value_group hlt (.inl rfl) (.inr ⟨rfl, by omega⟩),
        if_pos (base64Value_base64Char _ 6).2, if_neg (not_not.mpr rfl), hbytes.1, hbytes.2.1]
      rfl
  | a :: b :: c :: rest => by
      have hbytes := group_bytes a b c
      rw [base64Encode, base64Decode, base64Decode_base64Encode rest,
        base64Value_group (group_lt a b c) (.inl rfl) (.inl rfl),
        if_pos (base64Value_base64Char _ 6).2, if_pos (base64Value_base64Char _ 0).2, hbytes.1,
        hbytes.2.1, hbytes.2.2]
      rfl

theorem base64Encode_injective : Function.Injective base64Encode :=
  Function.LeftInverse.injective base64Decode_base64Encode

/-! ## The nonce of an accepted response -/

/-- The challenge for AKA with this nonce. -/
def akaChallenge (realm nonce : Bytes) : Bytes :=
  bytes "Digest realm=" ++ quoted realm ++ bytes ", nonce=" ++ quoted nonce ++
    bytes ", algorithm=AKAv1-MD5, qop=\"auth\""

theorem akaChallenge_injective {realm nonce nonce' : Bytes}
    (h : akaChallenge realm nonce = akaChallenge realm nonce') : nonce = nonce' := by
  rw [akaChallenge, akaChallenge, List.append_left_inj, List.append_right_inj] at h
  exact List.append_cancel_left (List.append_cancel_right h)

/-- The schemes by which a response to an AKA vector is verified. -/
def IsAka (scheme : Bytes) : Prop := scheme = bytes "AKAv1-MD5" ∨ scheme = bytes "Digest-AKAv1-MD5"

theorem IsAka.ne_digest {scheme : Bytes} (h : IsAka scheme) : scheme ≠ bytes "Digest-MD5" := by
  obtain rfl | rfl := h
  · decide
  · decide

/-- A challenge for any scheme but digest carries the text of RAND || AUTN. -/
theorem buildChallenge_of_ne {scheme : Bytes} (h : scheme ≠ bytes "Digest-MD5") (av : AuthVector)
    (realm : Bytes) :
    buildChallenge av realm scheme = akaChallenge realm (base64Encode (av.rand ++ av.autn)) := by
  rw [buildChallenge, if_neg h, akaChallenge]

section

variable [Md5]

/-- An accepted response carries the nonce that its vector is issued with. -/
theorem nonce_of_verifyResponse {scheme header method : Bytes} {av : AuthVector}
    {params : DigestAuthFields} (hscheme : IsAka scheme)
    (hparse : parseAuthorization header = .ok params)
    (h : verifyResponse header av method scheme = true) :
    params.nonce = base64Encode (av.rand ++ av.autn) := by
  obtain ⟨accepted, nonce, haccepted, hnonce, hcorrect, -⟩ := verifyResponse_eq_true_iff.mp h
  cases hparse.symm.trans haccepted
  rw [expectedNonce, if_neg hscheme.ne_digest] at hnonce
  rw [IsAka] at hscheme
  rw [if_pos hscheme] at hnonce
  cases hnonce
  exact hcorrect.nonce

/-- Decoding inverts encoding, so that the encoding is injective; and where a response to an AKA
vector is accepted, its nonce is the one of exactly the challenges for this RAND || AUTN. -/
theorem base64_identifiesChallenges :
    (∀ b, base64Decode (base64Encode b) = b) ∧ Function.Injective base64Encode ∧
      ∀ (header method scheme : Bytes) (av : AuthVector) (params : DigestAuthFields),
        IsAka scheme → parseAuthorization header = .ok params →
          verifyResponse header av method scheme = true →
            ∀ (issued : AuthVector) (realm issuedScheme : Bytes),
              issuedScheme ≠ bytes "Digest-MD5" →
              (buildChallenge issued realm issuedScheme = akaChallenge realm params.nonce ↔
                issued.rand ++ issued.autn = av.rand ++ av.autn) := by
  refine ⟨base64Decode_base64Encode, base64Encode_injective, ?_⟩
  intro header method scheme av params hscheme hparse hverify issued realm issuedScheme hissued
  rw [buildChallenge_of_ne hissued, nonce_of_verifyResponse hscheme hparse hverify]
  constructor
  · intro h
    exact base64Encode_injective (akaChallenge_injective h)
  · intro h
    rw [h]

end

/-! ### Alice answers a vector -/

@[reducible] def nonceDigests : Md5 := .ofTable
  [(bytes "alice@ims.local:ims.local:xres",
      "9191794ed729e8862f75b05959c22901"),
    (bytes "REGISTER:sip:ims",
      "70669cdb31465552b99cd8a2ce6533df"),
    (bytes "9191794ed729e8862f75b05959c22901:cm5kYXV0:70669cdb31465552b99cd8a2ce6533df",
      "8c054c003e69117fe480cbee616e2d95")]

def answeredVector : AuthVector := ⟨bytes "rnd", bytes "aut", bytes "xres", [], []⟩

def answeringHeader : Bytes :=
  bytes ("Digest username=alice@ims.local,realm=ims.local,nonce=cm5kYXV0,uri=sip:ims," ++
    "response=8c054c003e69117fe480cbee616e2d95")

/-- The nonce of her response is the one of the challenge with this vector, and of no challenge with
another token. -/
theorem base64_identifiesChallenges_alice :
    ∃ params, parseAuthorization answeringHeader = .ok params ∧
      @verifyResponse nonceDigests answeringHeader answeredVector (bytes "REGISTER")
        (bytes "AKAv1-MD5") = true ∧
      buildChallenge answeredVector (bytes "ims.local") (bytes "Digest-AKAv1-MD5") =
        akaChallenge (bytes "ims.local") params.nonce ∧
      buildChallenge { answeredVector with autn := bytes "aux" } (bytes "ims.local")
        (bytes "Digest-AKAv1-MD5") ≠ akaChallenge (bytes "ims.local") params.nonce := by
  have hverify : @verifyResponse nonceDigests answeringHeader answeredVector (bytes "REGISTER")
      (bytes "AKAv1-MD5") = true := by decide +kernel
  obtain ⟨params, _, hparse, -⟩ := (@verifyResponse_eq_true_iff nonceDigests _ _ _ _).mp hverify
  have hidentifies := (@base64_identifiesChallenges nonceDigests).2.2 answeringHeader
    (bytes "REGISTER") (bytes "AKAv1-MD5") answeredVector params (.inl rfl) hparse hverify
  refine ⟨params, hparse, hverify, ?_, ?_⟩
  · exact (hidentifies answeredVector (bytes "ims.local") (bytes "Digest-AKAv1-MD5")
      (by decide)).mpr rfl
  · intro h
    have hsame := (hidentifies { answeredVector with autn := bytes "aux" } (bytes "ims.local")
      (bytes "Digest-AKAv1-MD5") (by decide)).mp h
    revert hsame
    decide

end AuthManager
end SimIms.SCscf
