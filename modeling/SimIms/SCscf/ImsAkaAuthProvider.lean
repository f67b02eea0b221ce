import SimIms.Common.Environment
import SimIms.Lib.Table
import SimIms.SCscf.AuthProvider

/-!
# The AKA authentication provider

Challenges that wait for their answer are kept under a key of the Call-ID and the two
identities; while one is being built, its key is in flight and later callers wait for it.
Each stretch under `auth_mutex_` is one operation. What the HSS does in between, and the
check of a digest, are not locked.
-/

namespace SimIms.SCscf

open Cxx Lib Sip Db Diameter

/-- A challenge that waits for its answer. The record that the vector belongs to is kept for
statements. -/
structure PendingAuth where
  vector : AuthVector
  impi : Bytes
  impu : Bytes
  scheme : Bytes
  expiresAt : Nat
  subscriber : SubscriberRecord
deriving DecidableEq, Repr

def kPendingAuthTtl : Nat := 120000

/-! ## Operations -/

/-- What `createChallenge` finds for its key. A promise is named by its number. -/
inductive Begun where
  | pending (pending : PendingAuth)
  | inFlight (promise : Nat)
  | owner (promise : Nat)

inductive PendingAuthOp where
  | hasPending (callId impi : Bytes)
  | begin (key : Bytes)
  | complete (key : Bytes) (result : Result PendingAuth)
  | setValue (promise : Nat) (result : Result PendingAuth)
  | get (promise : Nat)
  | findPending (callId impi : Bytes)
  | consume (key : Bytes) (pending : PendingAuth)

abbrev PendingAuthAnswer : PendingAuthOp → Type
  | .hasPending _ _ => Bool
  | .begin _ => Begun
  | .complete _ _ => Unit
  | .setValue _ _ => Unit
  | .get _ => Result PendingAuth
  | .findPending _ _ => Option (Bytes × PendingAuth)
  | .consume _ _ => Bool

def pendingAuths : Interface := ⟨PendingAuthOp, PendingAuthAnswer⟩

section

variable {G : Interface} [Includes pendingAuths G]

def hasPending (callId impi : Bytes) : Program G Exception Bool :=
  Program.perform (F := pendingAuths) (PendingAuthOp.hasPending callId impi)

def begin (key : Bytes) : Program G Exception Begun :=
  Program.perform (F := pendingAuths) (PendingAuthOp.begin key)

def complete (key : Bytes) (result : Result PendingAuth) : Program G Exception Unit :=
  Program.perform (F := pendingAuths) (PendingAuthOp.complete key result)

def setValue (promise : Nat) (result : Result PendingAuth) : Program G Exception Unit :=
  Program.perform (F := pendingAuths) (PendingAuthOp.setValue promise result)

def get (promise : Nat) : Program G Exception (Result PendingAuth) :=
  Program.perform (F := pendingAuths) (PendingAuthOp.get promise)

def findPending (callId impi : Bytes) : Program G Exception (Option (Bytes × PendingAuth)) :=
  Program.perform (F := pendingAuths) (PendingAuthOp.findPending callId impi)

def consume (key : Bytes) (pending : PendingAuth) : Program G Exception Bool :=
  Program.perform (F := pendingAuths) (PendingAuthOp.consume key pending)

end

structure PendingAuths where
  pendingAuth : Table Bytes PendingAuth
  inFlightAuth : Table Bytes Nat
  promises : Table Nat (Result PendingAuth)
  nextPromise : Nat

namespace PendingAuths

def init : PendingAuths :=
  { pendingAuth := .empty, inFlightAuth := .empty, promises := .empty, nextPromise := 0 }

def purgeExpiredLocked (s : PendingAuths) (now : Nat) : PendingAuths :=
  { s with pendingAuth := s.pendingAuth.eraseIf fun _ pending => pending.expiresAt ≤ now }

/-- The entries that an authorization with this Call-ID and private identity may answer. -/
def candidates (s : PendingAuths) (callId impi : Bytes) : List (Bytes × PendingAuth) :=
  (s.pendingAuth.entries.map fun entry => (entry.1, entry.2)).filter fun entry =>
    entry.2.impi == impi && (callId ++ [0x1f]).isPrefixOf entry.1

/-- One of them: which comes first in the hash table is not determined. -/
def findPendingForAuthorizationLocked (s : PendingAuths) (callId impi : Bytes) (choice : Nat) :
    Option (Bytes × PendingAuth) :=
  let candidates := s.candidates callId impi
  candidates[choice % candidates.length]?

def serve (s : PendingAuths) (now choice : Nat) :
    (op : PendingAuthOp) → Option (PendingAuths × PendingAuthAnswer op)
  | .hasPending callId impi =>
      let s := s.purgeExpiredLocked now
      some (s, !(s.candidates callId impi).isEmpty)
  | .begin key =>
      let s := s.purgeExpiredLocked now
      match s.pendingAuth.find key with
      | some pending => some (s, .pending pending)
      | none =>
          match s.inFlightAuth.find key with
          | some promise => some (s, .inFlight promise)
          | none =>
              some ({ s with
                inFlightAuth := s.inFlightAuth.insert key s.nextPromise
                nextPromise := s.nextPromise + 1 }, .owner s.nextPromise)
  | .complete key result =>
      let s := match result with
        | .error _ => s
        | .ok pending => { s with pendingAuth := s.pendingAuth.insert key pending }
      some ({ s with inFlightAuth := s.inFlightAuth.erase key }, ())
  | .setValue promise result =>
      some ({ s with promises := s.promises.insert promise result }, ())
  | .get promise =>
      match s.promises.find promise with
      | none => none
      | some result => some (s, result)
  | .findPending callId impi =>
      let s := s.purgeExpiredLocked now
      some (s, s.findPendingForAuthorizationLocked callId impi choice)
  | .consume key pending =>
      match s.pendingAuth.find key with
      | none => some (s, false)
      | some found =>
          if found.vector.rand = pending.vector.rand ∧ found.vector.autn = pending.vector.autn then
            some ({ s with pendingAuth := s.pendingAuth.erase key }, true)
          else some (s, false)

end PendingAuths

/-! ## The provider -/

namespace ImsAkaAuthProvider

variable [OsipParser] [Md5] {G : Interface} [Includes environment G] [Includes pendingAuths G]
variable (hss : HssClient G) (domain : Bytes)

def makePendingKey (callId impi impu : Bytes) : Bytes :=
  callId ++ [0x1f] ++ normalizeImpuUri impi ++ [0x1f] ++ normalizeImpuUri impu

def normalizeAuthorizationImpi (username : Bytes) : Bytes :=
  let normalized := normalizeImpuUri username
  if find normalized '@'.toUInt8 0 = none ∧ ¬ (bytes "tel:").isPrefixOf normalized ∧
      ¬ (bytes "sip:").isPrefixOf normalized ∧ ¬ (bytes "sips:").isPrefixOf normalized then
    normalized ++ bytes "@" ++ domain
  else normalized

def canHandleAuthorization (request : SipMessage) : Program G Exception Bool :=
  match request.getHeader (bytes "Authorization") with
  | none => .pure false
  | some authHeader =>
      match AuthManager.parseAuthorization authHeader with
      | .error _ => .pure false
      | .ok params => do
          let pending ← hasPending request.callId
            (normalizeAuthorizationImpi domain params.username)
          return pending || params.algorithm.isEmpty || params.algorithm == bytes "AKAv1-MD5" ||
            params.algorithm == bytes "Digest-AKAv1-MD5"

def buildChallenge (callId : Bytes) (pending : PendingAuth) : AuthChallenge :=
  { sessionKey := callId
    impi := pending.impi
    impu := pending.impu
    scheme := pending.scheme
    realm := domain
    wwwAuthenticate := AuthManager.buildChallenge pending.vector domain pending.scheme }

/-- The challenge that the owner of a key builds. -/
def requestVector (impi impu : Bytes) : Program G Exception (Result PendingAuth) :=
  (hss.multimediaAuth
    { impi, impu, sipAuthScheme := bytes "Digest-AKAv1-MD5"
      serverName := bytes "sip:scscf." ++ domain }).andThen fun maa => do
    let now ← clock
    return .ok { vector := maa.authVector, impi, impu, scheme := maa.sipAuthScheme
                 expiresAt := now + kPendingAuthTtl, subscriber := maa.subscriber }

def createChallenge (request : SipMessage) : Program G Exception (Result AuthChallenge) := do
  let impi := extractImpi request
  let impu := extractImpu request
  let key := makePendingKey request.callId impi impu
  match ← begin key with
  | .pending pending => return .ok (buildChallenge domain request.callId pending)
  | .inFlight promise =>
      let result ← get promise
      return result.map (buildChallenge domain request.callId)
  | .owner promise =>
      let result ← requestVector hss domain impi impu
      complete key result
      setValue promise result
      return result.map (buildChallenge domain request.callId)

/-- `verifyAuthorization` from the check of the digest on. -/
def verifyPending (request : SipMessage) (authHeader key : Bytes) (pending : PendingAuth) :
    Program G Exception (Result AuthVerificationResult) :=
  if AuthManager.verifyResponse authHeader pending.vector request.method pending.scheme then do
    if ← consume key pending then
      return .ok { sessionKey := request.callId, impi := pending.impi, impu := pending.impu
                   scheme := pending.scheme }
    else return .error (authError "no pending auth state")
  else .pure (.error (authError "authorization verification failed"))

def verifyAuthorization (request : SipMessage) :
    Program G Exception (Result AuthVerificationResult) :=
  match request.getHeader (bytes "Authorization") with
  | none => .pure (.error (authError "missing Authorization header"))
  | some authHeader =>
      match AuthManager.parseAuthorization authHeader with
      | .error error => .pure (.error error)
      | .ok params => do
          match ← findPending request.callId
              (normalizeAuthorizationImpi domain params.username) with
          | none => return .error (authError "no pending auth state")
          | some (key, pending) => verifyPending request authHeader key pending

/-- The provider as the registrar sees it. -/
def provider : AuthProvider G :=
  { canHandleInitialRegister := fun request => .pure (request.method == bytes "REGISTER")
    canHandleAuthorization := canHandleAuthorization domain
    createChallenge := createChallenge hss domain
    verifyAuthorization := verifyAuthorization domain }

end ImsAkaAuthProvider
end SimIms.SCscf
