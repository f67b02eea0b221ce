import SimIms.Diameter.AkaVector
import SimIms.Sip.UriUtils

/-!
# Digest challenges and responses

The nonce of a challenge is the base64 text of random data, to which AKA adds the network's
authentication token. A response is checked against the expected answer of the vector. MD5
enters as `Md5`.
-/

namespace SimIms.SCscf

open Cxx Sip Diameter

/-- The MD5 digest of a text, in hexadecimal. -/
class Md5 where
  md5Hex : Bytes → Bytes

/-- The digests of some texts only. -/
@[reducible] def Md5.ofTable (digests : List (Bytes × String)) : Md5 where
  md5Hex text := ((digests.find? (·.1 == text)).map fun entry => bytes entry.2).getD []

namespace AuthManager

def kBase64Chars : Bytes :=
  bytes "ABCDEFGHIJKLMNOPQRSTUVWXYZabcdefghijklmnopqrstuvwxyz0123456789+/"

/-- The character for the six bits of `n` that stand above the lowest `shift` bits. -/
def base64Char (n shift : Nat) : UInt8 := kBase64Chars.getD (n / 2 ^ shift % 64) 0

def base64Encode : Bytes → Bytes
  | a :: b :: c :: rest =>
      let n := a.toNat * 2 ^ 16 + b.toNat * 2 ^ 8 + c.toNat
      base64Char n 18 :: base64Char n 12 :: base64Char n 6 :: base64Char n 0 :: base64Encode rest
  | [a, b] =>
      let n := a.toNat * 2 ^ 16 + b.toNat * 2 ^ 8
      [base64Char n 18, base64Char n 12, base64Char n 6, '='.toUInt8]
  | [a] =>
      let n := a.toNat * 2 ^ 16
      [base64Char n 18, base64Char n 12, '='.toUInt8, '='.toUInt8]
  | [] => []

/-- The six bits that a character stands for. -/
def base64Value (ch : UInt8) : Nat :=
  if 'A'.toUInt8 ≤ ch ∧ ch ≤ 'Z'.toUInt8 then ch.toNat - 'A'.toNat
  else if 'a'.toUInt8 ≤ ch ∧ ch ≤ 'z'.toUInt8 then ch.toNat - 'a'.toNat + 26
  else if '0'.toUInt8 ≤ ch ∧ ch ≤ '9'.toUInt8 then ch.toNat - '0'.toNat + 52
  else if ch = '+'.toUInt8 then 62
  else if ch = '/'.toUInt8 then 63
  else 0

/-- Groups of four characters; what remains of the text after them is not read. -/
def base64Decode : Bytes → Bytes
  | a :: b :: c :: d :: rest =>
      let n := base64Value a * 2 ^ 18 + base64Value b * 2 ^ 12 + base64Value c * 2 ^ 6 +
        base64Value d
      [UInt8.ofNat (n / 2 ^ 16)] ++ (if c ≠ '='.toUInt8 then [UInt8.ofNat (n / 2 ^ 8)] else []) ++
        (if d ≠ '='.toUInt8 then [UInt8.ofNat n] else []) ++ base64Decode rest
  | _ => []

def quoted (value : Bytes) : Bytes := bytes "\"" ++ value ++ bytes "\""

def buildDigestChallenge (realm nonce : Bytes) : Bytes :=
  bytes "Digest realm=" ++ quoted realm ++ bytes ", domain=" ++ quoted (bytes "sip:" ++ realm) ++
    bytes ", nonce=" ++ quoted nonce ++ bytes ", algorithm=MD5, qop=\"auth\", stale=FALSE"

def buildChallenge (av : AuthVector) (realm scheme : Bytes) : Bytes :=
  if scheme = bytes "Digest-MD5" then buildDigestChallenge realm (base64Encode av.rand)
  else
    bytes "Digest realm=" ++ quoted realm ++ bytes ", nonce=" ++
      quoted (base64Encode (av.rand ++ av.autn)) ++ bytes ", algorithm=AKAv1-MD5, qop=\"auth\""

def parseAuthorization (header : Bytes) : Result DigestAuthFields := parseDigestAuthorization header

/-- `{}:{}: … :{}`. -/
def colons (parts : List Bytes) : Bytes := (bytes ":").intercalate parts

/-- The digest that the client should have computed, or none where `nc` or `cnonce` is
missing. -/
def expectedResponse [Md5] (params : DigestAuthFields) (secret method : Bytes) : Option Bytes :=
  let ha1 := Md5.md5Hex (colons [params.username, params.realm, secret])
  let ha2 := Md5.md5Hex (colons [method, params.uri])
  if params.qop ≠ [] then
    if params.nc = [] ∨ params.cnonce = [] then none
    else some (Md5.md5Hex (colons [ha1, params.nonce, params.nc, params.cnonce, params.qop, ha2]))
  else some (Md5.md5Hex (colons [ha1, params.nonce, ha2]))

/-- The nonce of a challenge with this vector, where the scheme is supported. -/
def expectedNonce (av : AuthVector) (scheme : Bytes) : Option Bytes :=
  if scheme = bytes "Digest-MD5" then some (base64Encode av.rand)
  else if scheme = bytes "AKAv1-MD5" ∨ scheme = bytes "Digest-AKAv1-MD5" then
    some (base64Encode (av.rand ++ av.autn))
  else none

def verifyResponse [Md5] (authHeader : Bytes) (av : AuthVector) (method scheme : Bytes) : Bool :=
  match parseAuthorization authHeader with
  | .error _ => false
  | .ok params =>
      if params.response = [] ∨ params.nonce = [] ∨ params.uri = [] then false
      else
        match expectedNonce av scheme with
        | none => false
        | some nonce =>
            if params.nonce ≠ nonce then false
            else
              match expectedResponse params av.xres method with
              | none => false
              | some response => lowercase params.response == lowercase response

def verifyDigestPassword [Md5] (authHeader password method expectedNonce : Bytes) : Bool :=
  match parseAuthorization authHeader with
  | .error _ => false
  | .ok params =>
      if params.username = [] ∨ params.realm = [] ∨ params.uri = [] ∨ params.response = [] then
        false
      else if params.nonce ≠ expectedNonce then false
      else
        match expectedResponse params password method with
        | none => false
        | some response => lowercase params.response == lowercase response

/-- The nonce can be read off a challenge. -/
theorem buildDigestChallenge_injective {realm nonce nonce' : Bytes}
    (h : buildDigestChallenge realm nonce = buildDigestChallenge realm nonce') :
    nonce = nonce' := by
  rw [buildDigestChallenge, buildDigestChallenge, List.append_left_inj, List.append_right_inj] at h
  exact List.append_cancel_left (List.append_cancel_right h)

/-! ## Correct responses -/

/-- The credentials answer a challenge with this nonce for who knows this secret. -/
structure CorrectResponse [Md5] (params : DigestAuthFields) (secret nonce method : Bytes) :
    Prop where
  nonce : params.nonce = nonce
  response : ∃ response, expectedResponse params secret method = some response ∧
    lowercase params.response = lowercase response

variable [Md5] {authHeader method : Bytes}

/-- The last two checks of both verifications. -/
theorem correctResponse_iff {params : DigestAuthFields} {secret nonce : Bytes} :
    (if params.nonce ≠ nonce then false
      else
        match expectedResponse params secret method with
        | none => false
        | some response => lowercase params.response == lowercase response) = true ↔
      CorrectResponse params secret nonce method := by
  by_cases hnonce : params.nonce = nonce
  · rw [if_neg (not_not.mpr hnonce)]
    cases hexpected : expectedResponse params secret method with
    | none =>
        refine ⟨fun h => (Bool.false_ne_true h).elim, fun h => ?_⟩
        obtain ⟨response, hresponse, -⟩ := h.response
        rw [hexpected] at hresponse
        cases hresponse
    | some response =>
        refine ⟨fun h => ⟨hnonce, response, hexpected, beq_iff_eq.mp h⟩, fun h => ?_⟩
        obtain ⟨response', hresponse, hsame⟩ := h.response
        rw [hexpected] at hresponse
        cases hresponse
        exact beq_iff_eq.mpr hsame
  · rw [if_pos hnonce]
    exact ⟨fun h => (Bool.false_ne_true h).elim, fun h => (hnonce h.nonce).elim⟩

theorem verifyResponse_eq_true_iff {av : AuthVector} {scheme : Bytes} :
    verifyResponse authHeader av method scheme = true ↔
      ∃ params nonce, parseAuthorization authHeader = .ok params ∧
        expectedNonce av scheme = some nonce ∧ CorrectResponse params av.xres nonce method ∧
        params.response ≠ [] ∧ params.nonce ≠ [] ∧ params.uri ≠ [] := by
  rw [verifyResponse]
  cases parseAuthorization authHeader with
  | error error =>
      exact ⟨fun h => (Bool.false_ne_true h).elim, fun ⟨_, _, hparse, _⟩ => by cases hparse⟩
  | ok params =>
      simp only [Except.ok.injEq]
      by_cases hempty : params.response = [] ∨ params.nonce = [] ∨ params.uri = []
      · rw [if_pos hempty]
        refine ⟨fun h => (Bool.false_ne_true h).elim, ?_⟩
        rintro ⟨_, _, rfl, _, _, hresponse, hnonce, huri⟩
        obtain h | h | h := hempty
        · exact (hresponse h).elim
        · exact (hnonce h).elim
        · exact (huri h).elim
      · rw [if_neg hempty]
        rw [not_or, not_or] at hempty
        cases expectedNonce av scheme with
        | none =>
            exact ⟨fun h => (Bool.false_ne_true h).elim, fun ⟨_, _, _, hnonce, _⟩ => by
              cases hnonce⟩
        | some nonce =>
            refine correctResponse_iff.trans
              ⟨fun h => ⟨params, nonce, rfl, rfl, h, hempty.1, hempty.2.1, hempty.2.2⟩, ?_⟩
            rintro ⟨_, _, rfl, hnonce, hcorrect, -⟩
            cases hnonce
            exact hcorrect

theorem correctResponse_of_verifyDigestPassword {password nonce : Bytes}
    (h : verifyDigestPassword authHeader password method nonce = true) :
    ∃ params, parseAuthorization authHeader = .ok params ∧
      CorrectResponse params password nonce method := by
  rw [verifyDigestPassword] at h
  cases hparse : parseAuthorization authHeader with
  | error error =>
      rw [hparse] at h
      cases h
  | ok params =>
      simp only [hparse] at h
      split at h
      · cases h
      · exact ⟨params, rfl, correctResponse_iff.mp h⟩

/-- A correct response of complete credentials is accepted. -/
theorem verifyDigestPassword_of_correctResponse {params : DigestAuthFields}
    {password nonce : Bytes} (hparse : parseAuthorization authHeader = .ok params)
    (hcomplete : params.username ≠ [] ∧ params.realm ≠ [] ∧ params.uri ≠ [] ∧ params.response ≠ [])
    (hcorrect : CorrectResponse params password nonce method) :
    verifyDigestPassword authHeader password method nonce = true := by
  have hnone : ¬(params.username = [] ∨ params.realm = [] ∨ params.uri = [] ∨
      params.response = []) := by
    rw [not_or, not_or, not_or]
    exact hcomplete
  rw [verifyDigestPassword, hparse]
  simp only [if_neg hnone]
  exact correctResponse_iff.mpr hcorrect

end AuthManager
end SimIms.SCscf
