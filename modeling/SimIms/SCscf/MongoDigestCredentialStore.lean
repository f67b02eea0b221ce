import SimIms.Db.Identities
import SimIms.SCscf.DigestCalls

/-!
# The credential store over the subscriber repository

A username is looked up with its realm; where there is no such subscriber, a telephone number is
tried once more with its scheme. The digest provider over this store issues the operations of the
repository instead of those of a credential store.
-/

namespace SimIms.SCscf

open Cxx Lib Sip Db

namespace MongoDigestCredentialStore

def toDigestCredential (record : SubscriberRecord) : DigestCredential :=
  { impi := record.identities.impi
    impu := record.identities.canonicalImpu
    realm := record.identities.realm
    associatedImpus := record.identities.associatedImpus
    username := match find record.identities.impi '@'.toUInt8 0 with
      | some atSign => record.identities.impi.take atSign
      | none => record.identities.impi
    password := record.auth.password }

/-- A username that may be a telephone number without its scheme. -/
def retriesTel (username : Bytes) : Bool :=
  '@'.toUInt8 ∉ username && username.head? == some '+'.toUInt8

section

variable [OsipParser] {G : Interface} [Includes repository G]

open MongoSubscriberRepository (Query)

def tryLookup (candidate realm : Bytes) : Query G (Option DigestCredential) :=
  (MongoSubscriberRepository.findByUsernameRealm candidate realm).andThen fun record =>
    .pure (.ok (record.map toDigestCredential))

def findByUsername (username realm : Bytes) : Query G (Option DigestCredential) :=
  (tryLookup username realm).andThen fun
    | some credential => .pure (.ok (some credential))
    | none =>
        if retriesTel username then tryLookup (bytes "tel:" ++ username) realm
        else .pure (.ok none)

def findByIdentity (identity : Bytes) : Query G (Option DigestCredential) :=
  (MongoSubscriberRepository.findByIdentity (normalizeImpuUri identity)).andThen fun record =>
    .pure (.ok (record.map toDigestCredential))

end

end MongoDigestCredentialStore

/-! ## Operations -/

inductive MongoDigestOp where
  | pendingDigests (op : PendingDigestOp)
  | environment (op : EnvironmentOp)
  | repository (op : RepositoryOp)

abbrev MongoDigestOp.Answer : MongoDigestOp → Type
  | .pendingDigests op => PendingDigestAnswer op
  | .environment op => EnvironmentAnswer op
  | .repository op => RepositoryAnswer op

def mongoDigestOps : Interface := ⟨MongoDigestOp, MongoDigestOp.Answer⟩

instance : Includes pendingDigests mongoDigestOps := ⟨.pendingDigests, fun _ answer => answer⟩
instance : Includes environment mongoDigestOps := ⟨.environment, fun _ answer => answer⟩
instance : Includes repository mongoDigestOps := ⟨.repository, fun _ answer => answer⟩

structure MongoDigestState where
  pendingAuth : PendingDigests
  now : Nat
  collection : Collection

/-- What is not determined by the state. Any operation on the collection may fail. -/
structure MongoDigestEnvironment where
  surroundings : Surroundings := {}
  failure : Option ErrorInfo := none

def MongoDigestState.serve (s : MongoDigestState) :
    (op : MongoDigestOp) → MongoDigestEnvironment →
      Option (MongoDigestState × op.Answer × List PendingDigestEvent)
  | .pendingDigests op, _ =>
      let result := s.pendingAuth.serve s.now op
      some ({ s with pendingAuth := result.1 }, result.2, s.pendingAuth.occurred s.now op result.2)
  | .environment op, environment => some (s, environment.surroundings.answer s.now op, [])
  | .repository op, environment =>
      let result := s.collection.serve op environment.failure
      some ({ s with collection := result.1 }, result.2, [])

/-! ## The provider -/

/-- Time passes, and others update the collection. -/
inductive MongoDigestBackground where
  | elapse (duration : Nat)
  | update (op : RepositoryOp) (failure : Option ErrorInfo)

def MongoDigestState.background (s : MongoDigestState) : MongoDigestBackground → MongoDigestState
  | .elapse duration => { s with now := s.now + duration }
  | .update op failure => { s with collection := (s.collection.serve op failure).1 }

/-- A call, and what its challenge has been built from: the key, the nonce and the credential. -/
structure MongoDigestThread where
  call : DigestCall
  shown : Option (Bytes × Bytes × DigestCredential) := none

def MongoDigestThread.trackPending (thread : MongoDigestThread) :
    (op : PendingDigestOp) → PendingDigestAnswer op → MongoDigestThread
  | .find key, answer =>
      match answer with
      | none => thread
      | some pending => { thread with shown := some (key, pending.nonce, pending.credential) }
  | .store key nonce credential, answer =>
      match answer with
      | none => { thread with shown := some (key, nonce, credential) }
      | some pending => { thread with shown := some (key, pending.nonce, pending.credential) }
  | .contains _, _ => thread
  | .consume _ _, _ => thread

def MongoDigestThread.track (thread : MongoDigestThread) :
    (op : MongoDigestOp) → op.Answer → MongoDigestThread
  | .pendingDigests op, answer => thread.trackPending op answer
  | .environment _, _ => thread
  | .repository _, _ => thread

namespace DigestAuthProvider

variable [OsipParser] [Md5] (realm : Bytes)

/-- Each operation of the provider over this store. -/
def storeOps : (op : DigestOp) → Program mongoDigestOps Exception op.Answer
  | .pendingDigests op => Program.perform (F := pendingDigests) op
  | .environment op => Program.perform (F := environment) op
  | .credentials (.findByUsername username realm) =>
      MongoDigestCredentialStore.findByUsername username realm
  | .credentials (.findByIdentity identity) => MongoDigestCredentialStore.findByIdentity identity

def mongoService : Service MongoDigestState mongoDigestOps Exception MongoDigestThread DigestResult
    MongoDigestEnvironment DigestCall MongoDigestBackground PendingDigestEvent where
  serve := MongoDigestState.serve
  begin call := (begin realm call).translate storeOps
  background s event := some (s.background event)
  fresh call := { call }
  track := MongoDigestThread.track

end DigestAuthProvider

end SimIms.SCscf
