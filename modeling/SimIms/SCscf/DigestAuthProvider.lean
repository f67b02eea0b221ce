import SimIms.Common.Environment
import SimIms.Lib.Table
import SimIms.SCscf.AuthProvider

/-!
# The digest authentication provider

Challenges wait under a key of the Call-ID and the private identity of the credential. The
credential store is asked outside of the lock, and so is a digest checked; each stretch under
`mutex_` is one operation. The credential store is one of which nothing is known but its
answers.
-/

namespace SimIms.SCscf

open Cxx Lib Sip

structure DigestCredential where
  username : Bytes
  realm : Bytes
  password : Bytes
  impi : Bytes
  impu : Bytes
  associatedImpus : List Bytes
deriving DecidableEq, Repr

/-- `IDigestCredentialStore`. -/
inductive CredentialOp where
  | findByUsername (username realm : Bytes)
  | findByIdentity (identity : Bytes)

abbrev CredentialAnswer : CredentialOp → Type
  | .findByUsername _ _ => Result (Option DigestCredential)
  | .findByIdentity _ => Result (Option DigestCredential)

def credentialStore : Interface := ⟨CredentialOp, CredentialAnswer⟩

/-- A challenge that waits for its answer. -/
structure PendingDigest where
  nonce : Bytes
  credential : DigestCredential
  expiresAt : Nat
deriving DecidableEq, Repr

/-! ## Operations -/

inductive PendingDigestOp where
  | contains (key : Bytes)
  | find (key : Bytes)
  | store (key nonce : Bytes) (credential : DigestCredential)
  | consume (key nonce : Bytes)

/-- What is found under the key; a challenge is stored where there is none. -/
abbrev PendingDigestAnswer : PendingDigestOp → Type
  | .contains _ => Bool
  | .find _ => Option PendingDigest
  | .store _ _ _ => Option PendingDigest
  | .consume _ _ => Bool

def pendingDigests : Interface := ⟨PendingDigestOp, PendingDigestAnswer⟩

abbrev PendingDigests := Table Bytes PendingDigest

namespace PendingDigests

def kPendingAuthTtl : Nat := 120000

def purgeExpiredLocked (pendingAuth : PendingDigests) (now : Nat) : PendingDigests :=
  pendingAuth.eraseIf fun _ pending => pending.expiresAt ≤ now

def serve (pendingAuth : PendingDigests) (now : Nat) :
    (op : PendingDigestOp) → PendingDigests × PendingDigestAnswer op
  | .contains key =>
      let pendingAuth := pendingAuth.purgeExpiredLocked now
      (pendingAuth, Table.contains pendingAuth key)
  | .find key =>
      let pendingAuth := pendingAuth.purgeExpiredLocked now
      (pendingAuth, Table.find pendingAuth key)
  | .store key nonce credential =>
      let pendingAuth := pendingAuth.purgeExpiredLocked now
      match Table.find pendingAuth key with
      | some pending => (pendingAuth, some pending)
      | none =>
          (Table.insert pendingAuth key { nonce, credential, expiresAt := now + kPendingAuthTtl },
            none)
  | .consume key nonce =>
      match Table.find pendingAuth key with
      | none => (pendingAuth, false)
      | some found =>
          if found.nonce ≠ nonce then (pendingAuth, false)
          else (Table.erase pendingAuth key, true)

end PendingDigests

section

variable {G : Interface}

section

variable [Includes credentialStore G]

def findByUsername (username realm : Bytes) :
    Program G Exception (Result (Option DigestCredential)) :=
  Program.perform (F := credentialStore) (CredentialOp.findByUsername username realm)

def findByIdentity (identity : Bytes) : Program G Exception (Result (Option DigestCredential)) :=
  Program.perform (F := credentialStore) (CredentialOp.findByIdentity identity)

end

variable [Includes pendingDigests G]

def containsPendingDigest (key : Bytes) : Program G Exception Bool :=
  Program.perform (F := pendingDigests) (PendingDigestOp.contains key)

def findPendingDigest (key : Bytes) : Program G Exception (Option PendingDigest) :=
  Program.perform (F := pendingDigests) (PendingDigestOp.find key)

def storePendingDigest (key nonce : Bytes) (credential : DigestCredential) :
    Program G Exception (Option PendingDigest) :=
  Program.perform (F := pendingDigests) (PendingDigestOp.store key nonce credential)

def consumePendingDigest (key nonce : Bytes) : Program G Exception Bool :=
  Program.perform (F := pendingDigests) (PendingDigestOp.consume key nonce)

end

/-! ## The provider -/

namespace DigestAuthProvider

variable [OsipParser] [Md5] {G : Interface} [Includes environment G] [Includes credentialStore G]
variable [Includes pendingDigests G] (realm : Bytes)

def extractIdentity (request : SipMessage) : Bytes :=
  normalizeImpuUri ((request.impiFromAuthorizationOrFrom.or request.impuFromTo).getD
    request.toHeader)

def makePendingKey (callId impi : Bytes) : Bytes := callId ++ [0x1f] ++ normalizeImpuUri impi

/-- Two random words in hexadecimal. -/
def makeNonce : Program G Exception Bytes := do
  let first ← randomWord
  let second ← randomWord
  return hexDigits 16 first.toNat ++ hexDigits 16 second.toNat

def canHandleInitialRegister (request : SipMessage) : Program G Exception Bool :=
  if request.method ≠ bytes "REGISTER" then .pure false
  else if extractIdentity request = [] then .pure false
  else do
    match ← findByIdentity (extractIdentity request) with
    | .ok (some _) => return true
    | _ => return false

def canHandleAuthorization (request : SipMessage) : Program G Exception Bool :=
  match request.getHeader (bytes "Authorization") with
  | none => .pure false
  | some authHeader =>
      match AuthManager.parseAuthorization authHeader with
      | .error _ => .pure false
      | .ok params =>
          if params.algorithm ≠ [] ∧ params.algorithm ≠ bytes "MD5" then .pure false
          else do
            match ← findByUsername params.username params.realm with
            | .ok (some credential) =>
                -- Whether the challenge is there makes no difference.
                let _ ← containsPendingDigest (makePendingKey request.callId credential.impi)
                return true
            | _ => return false

def buildChallenge (callId nonce : Bytes) (credential : DigestCredential) : AuthChallenge :=
  { sessionKey := callId
    impi := credential.impi
    impu := credential.impu
    scheme := bytes "Digest-MD5"
    realm
    wwwAuthenticate := AuthManager.buildDigestChallenge realm nonce }

def createChallenge (request : SipMessage) : Program G Exception (Result AuthChallenge) := do
  match ← findByIdentity (extractIdentity request) with
  | .error error => return .error error
  | .ok none =>
      return .error { code := .diameterUserNotFound
                      message := bytes "digest credential not found" }
  | .ok (some credential) =>
      let key := makePendingKey request.callId credential.impi
      match ← findPendingDigest key with
      | some pending =>
          return .ok (buildChallenge realm request.callId pending.nonce pending.credential)
      | none =>
          let nonce ← makeNonce
          match ← storePendingDigest key nonce credential with
          | some pending =>
              return .ok (buildChallenge realm request.callId pending.nonce pending.credential)
          | none => return .ok (buildChallenge realm request.callId nonce credential)

/-- `verifyAuthorization` from the check of the digest on. -/
def verifyPending (request : SipMessage) (authHeader key : Bytes) (pending : PendingDigest) :
    Program G Exception (Result AuthVerificationResult) :=
  if AuthManager.verifyDigestPassword authHeader pending.credential.password request.method
      pending.nonce then do
    if ← consumePendingDigest key pending.nonce then
      return .ok { sessionKey := request.callId, impi := pending.credential.impi
                   impu := pending.credential.impu, scheme := bytes "Digest-MD5" }
    else return .error (authError "no pending auth state")
  else .pure (.error (authError "authorization verification failed"))

def verifyAuthorization (request : SipMessage) :
    Program G Exception (Result AuthVerificationResult) :=
  match request.getHeader (bytes "Authorization") with
  | none => .pure (.error (authError "missing Authorization header"))
  | some authHeader =>
      match AuthManager.parseAuthorization authHeader with
      | .error error => .pure (.error error)
      | .ok params => do
          match ← findByUsername params.username params.realm with
          | .error error => return .error error
          | .ok none => return .error (authError "credential not found")
          | .ok (some credential) =>
              let key := makePendingKey request.callId credential.impi
              match ← findPendingDigest key with
              | none => return .error (authError "no pending auth state")
              | some pending => verifyPending request authHeader key pending

/-- The provider as the registrar sees it. -/
def provider : AuthProvider G :=
  { canHandleInitialRegister
    canHandleAuthorization
    createChallenge := createChallenge realm
    verifyAuthorization }

end DigestAuthProvider
end SimIms.SCscf
