import SimIms.Lib.OneTime
import SimIms.SCscf.ImsAkaAuthProvider

/-!
# Calls of the AKA provider

Any number of calls share the tables of the provider. Each stretch under the lock is one
operation, the HSS answers whatever and whenever it likes, and time passes. The events record
which call began, joined, completed and published a challenge, and which consumed one.

What a call may rely on depends on how far it has come. The owner of a key finds its promise in
flight until it completes; a promise belongs to one owner; and the challenges that wait are
those that were stored and neither consumed nor expired.
-/

namespace SimIms.SCscf

open Cxx Lib Sip Diameter

/-! ## Operations and events -/

inductive AkaOp where
  | pendingAuths (op : PendingAuthOp)
  | environment (op : EnvironmentOp)
  | hss (op : HssOp)

abbrev AkaOp.Answer : AkaOp → Type
  | .pendingAuths op => PendingAuthAnswer op
  | .environment op => EnvironmentAnswer op
  | .hss op => HssAnswer op

def akaOps : Interface := ⟨AkaOp, AkaOp.Answer⟩

instance : Includes pendingAuths akaOps := ⟨.pendingAuths, fun _ answer => answer⟩
instance : Includes environment akaOps := ⟨.environment, fun _ answer => answer⟩
instance : Includes hssRequests akaOps := ⟨.hss, fun _ answer => answer⟩

/-- The tables of the provider and the steady clock. -/
structure AkaState where
  auths : PendingAuths
  now : Nat

inductive PendingAuthEvent where
  | began (key : Bytes) (promise : Nat)
  | joined (key : Bytes) (promise : Nat)
  | completed (key : Bytes) (result : Result PendingAuth)
  | published (promise : Nat) (result : Result PendingAuth)
  | consumed (key : Bytes) (pending : PendingAuth)

/-- What has happened in an operation. The challenge consumed is the one that was stored. -/
def PendingAuths.occurred (s : PendingAuths) :
    (op : PendingAuthOp) → PendingAuthAnswer op → List PendingAuthEvent
  | .begin key, answer =>
      match answer with
      | .pending _ => []
      | .inFlight promise => [.joined key promise]
      | .owner promise => [.began key promise]
  | .complete key result, _ => [.completed key result]
  | .setValue promise result, _ => [.published promise result]
  | .consume key _, answer =>
      match answer, s.pendingAuth.find key with
      | true, some found => [.consumed key found]
      | _, _ => []
  | .hasPending _ _, _ => []
  | .get _, _ => []
  | .findPending _ _, _ => []

/-- What is not determined by the state: which entry of the hash table comes first, and what
the surroundings and the HSS answer. -/
structure AkaEnvironment where
  choice : Nat := 0
  surroundings : Surroundings := {}
  hss : (op : HssOp) → HssAnswer op

/-- An HSS that answers with this vector, for the scheme that it is asked for. -/
def AkaEnvironment.ofVector (authVector : AuthVector) : AkaEnvironment where
  hss
    | .multimediaAuth params =>
        .ok { sipAuthScheme := params.sipAuthScheme, authVector
              subscriber :=
                { imsi := [], tel := [], assignedScscf := []
                  identities :=
                    { impi := [], canonicalImpu := [], associatedImpus := [], realm := [] }
                  auth := { ki := [], operatorCodeType := [], opc := [], op := [], sqn := 0
                            amf := [] } } }
    | .serverAssignment params => .ok { impu := params.impu, associatedImpus := [] }

def AkaState.serve (s : AkaState) :
    (op : AkaOp) → AkaEnvironment → Option (AkaState × op.Answer × List PendingAuthEvent)
  | .pendingAuths op, environment =>
      (s.auths.serve s.now environment.choice op).map fun result =>
        ({ s with auths := result.1 }, result.2, s.auths.occurred op result.2)
  | .environment op, environment => some (s, environment.surroundings.answer s.now op, [])
  | .hss op, environment => some (s, environment.hss op, [])

/-- Only time moves the clock. -/
theorem AkaState.now_eq_of_serve {s t : AkaState} {op : AkaOp} {environment : AkaEnvironment}
    {answer : op.Answer} {out : List PendingAuthEvent}
    (h : s.serve op environment = some (t, answer, out)) : t.now = s.now := by
  cases op with
  | pendingAuths op =>
      obtain ⟨result, -, heq⟩ := Option.map_eq_some_iff.mp h
      cases heq
      rfl
  | environment op | hss op =>
      cases h
      rfl

/-! ## Calls -/

inductive AkaCall where
  | canHandleAuthorization (request : SipMessage)
  | createChallenge (request : SipMessage)
  | verifyAuthorization (request : SipMessage)

def AkaCall.request : AkaCall → SipMessage
  | .canHandleAuthorization request => request
  | .createChallenge request => request
  | .verifyAuthorization request => request

inductive AkaResult where
  | flag (value : Bool)
  | challenge (result : Result AuthChallenge)
  | verification (result : Result AuthVerificationResult)

/-- How far a call has come. -/
inductive AkaProgress where
  | fresh
  | challenged (key : Bytes) (pending : PendingAuth)
  | joined (key : Bytes) (promise : Nat)
  | received (key : Bytes) (promise : Nat) (result : Result PendingAuth)
  | owner (key : Bytes) (promise : Nat)
  | completed (key : Bytes) (promise : Nat) (result : Result PendingAuth)
  | published (key : Bytes) (promise : Nat) (result : Result PendingAuth)
  | found (key : Bytes) (pending : PendingAuth)
  | consumed (key : Bytes) (pending : PendingAuth)

namespace AkaProgress

def receive (result : Result PendingAuth) : AkaProgress → AkaProgress
  | .joined key promise => .received key promise result
  | progress => progress

def complete (result : Result PendingAuth) : AkaProgress → AkaProgress
  | .owner key promise => .completed key promise result
  | progress => progress

def publish : AkaProgress → AkaProgress
  | .completed key promise result => .published key promise result
  | progress => progress

def track (progress : AkaProgress) : (op : PendingAuthOp) → PendingAuthAnswer op → AkaProgress
  | .begin key, answer =>
      match answer with
      | .pending pending => .challenged key pending
      | .inFlight promise => .joined key promise
      | .owner promise => .owner key promise
  | .complete _ result, _ => progress.complete result
  | .setValue _ _, _ => progress.publish
  | .get _, result => progress.receive result
  | .findPending _ _, answer =>
      match answer with
      | none => progress
      | some (key, pending) => .found key pending
  | .consume key pending, answer => if answer then .consumed key pending else progress
  | .hasPending _ _, _ => progress

/-- The challenge that the call answers with, or the error. -/
def result : AkaProgress → Option (Result PendingAuth)
  | .challenged _ pending => some (.ok pending)
  | .received _ _ result => some result
  | .published _ _ result => some result
  | _ => none

/-- The key of that challenge. -/
def key : AkaProgress → Option Bytes
  | .challenged key _ => some key
  | .received key _ _ => some key
  | .published key _ _ => some key
  | _ => none

end AkaProgress

structure AkaThread where
  call : AkaCall
  progress : AkaProgress

def AkaThread.track (thread : AkaThread) : (op : AkaOp) → op.Answer → AkaThread
  | .pendingAuths op, answer => { thread with progress := thread.progress.track op answer }
  | .environment _, _ => thread
  | .hss _, _ => thread

namespace ImsAkaAuthProvider

variable [OsipParser] [Md5] (domain : Bytes)

def begin : AkaCall → Program akaOps Exception AkaResult
  | .canHandleAuthorization request => do
      return .flag (← canHandleAuthorization domain request)
  | .createChallenge request => do
      return .challenge (← createChallenge HssClient.remote domain request)
  | .verifyAuthorization request => do
      return .verification (← verifyAuthorization domain request)

/-- The provider with a remote HSS. The background event is the time that passes. -/
def service : Service AkaState akaOps Exception AkaThread AkaResult AkaEnvironment AkaCall Nat
    PendingAuthEvent where
  serve := AkaState.serve
  begin := begin domain
  background s elapsed := some { s with now := s.now + elapsed }
  fresh call := ⟨call, .fresh⟩
  track := AkaThread.track

end ImsAkaAuthProvider

abbrev AkaThreads := Threads AkaState akaOps Exception AkaThread AkaResult

/-! ## What a call may do -/

/-- The request carries the correct response to the challenge, for the nonce that it was sent
with and the secret of its vector. -/
def CorrectDigest [Md5] (request : SipMessage) (pending : PendingAuth) : Prop :=
  ∃ header params nonce, request.getHeader (bytes "Authorization") = some header ∧
    AuthManager.parseAuthorization header = .ok params ∧
    AuthManager.expectedNonce pending.vector pending.scheme = some nonce ∧
    AuthManager.CorrectResponse params pending.vector.xres nonce request.method

section

variable [OsipParser]

/-- The key under which the challenge of a request is kept. -/
def pendingKey (request : SipMessage) : Bytes :=
  ImsAkaAuthProvider.makePendingKey request.callId (extractImpi request) (extractImpu request)

def AkaThread.Allows (thread : AkaThread) : AkaOp → Prop
  | .pendingAuths (.hasPending _ _) => thread.progress = .fresh
  | .pendingAuths (.begin key) => thread.progress = .fresh ∧ key = pendingKey thread.call.request
  | .pendingAuths (.get promise) => ∃ key, thread.progress = .joined key promise
  | .pendingAuths (.complete key _) => ∃ promise, thread.progress = .owner key promise
  | .pendingAuths (.setValue promise result) =>
      ∃ key, thread.progress = .completed key promise result
  | .pendingAuths (.findPending _ _) => thread.progress = .fresh
  | .pendingAuths (.consume key pending) => thread.progress = .found key pending
  | .environment _ => ∃ key promise, thread.progress = .owner key promise
  | .hss (.multimediaAuth _) =>
      ∃ promise, thread.progress = .owner (pendingKey thread.call.request) promise
  | .hss (.serverAssignment _) => False

/-- From where a call goes on. -/
theorem AkaThread.Allows.progress_cases {thread : AkaThread} {op : AkaOp}
    (h : thread.Allows op) :
    thread.progress = .fresh ∨
      (∃ key promise, thread.progress = .joined key promise ∧ op = .pendingAuths (.get promise)) ∨
      (∃ key promise, thread.progress = .owner key promise) ∨
      (∃ key promise result, thread.progress = .completed key promise result) ∨
      ∃ key pending, thread.progress = .found key pending := by
  cases op with
  | environment op => exact .inr (.inr (.inl h))
  | hss op =>
      cases op with
      | multimediaAuth params =>
          obtain ⟨promise, howner⟩ := h
          exact .inr (.inr (.inl ⟨_, promise, howner⟩))
      | serverAssignment params => exact h.elim
  | pendingAuths op =>
      cases op with
      | hasPending | findPending => exact .inl h
      | begin key => exact .inl h.1
      | get promise =>
          obtain ⟨key, hjoined⟩ := h
          exact .inr (.inl ⟨key, promise, hjoined, rfl⟩)
      | complete key result =>
          obtain ⟨promise, howner⟩ := h
          exact .inr (.inr (.inl ⟨key, promise, howner⟩))
      | setValue promise result =>
          obtain ⟨key, hcompleted⟩ := h
          exact .inr (.inr (.inr (.inl ⟨key, promise, result, hcompleted⟩)))
      | consume key pending => exact .inr (.inr (.inr (.inr ⟨key, pending, h⟩)))

def AkaThread.contract : Contract akaOps AkaThread where
  Allows := AkaThread.Allows
  Expects _ _ := True
  Throws _ := False
  track := AkaThread.track

variable [Md5] (domain : Bytes)

/-- What a call has ended with, by how far it has come. -/
def AkaThread.Ends (thread : AkaThread) : AkaResult → Prop
  | .flag _ => thread.progress = .fresh
  | .challenge result => ∃ request found, thread.call = .createChallenge request ∧
      thread.progress.key = some (pendingKey request) ∧ thread.progress.result = some found ∧
      result = found.map (ImsAkaAuthProvider.buildChallenge domain request.callId)
  | .verification (.ok verification) => ∃ request key pending,
      thread.call = .verifyAuthorization request ∧ thread.progress = .consumed key pending ∧
      CorrectDigest request pending ∧
      verification = { sessionKey := request.callId, impi := pending.impi, impu := pending.impu,
                       scheme := pending.scheme }
  | .verification (.error _) =>
      thread.progress = .fresh ∨ ∃ key pending, thread.progress = .found key pending

namespace ImsAkaAuthProvider

theorem canHandleAuthorization_meets (request : SipMessage) :
    (begin domain (.canHandleAuthorization request)).Meets AkaThread.contract
      ⟨.canHandleAuthorization request, .fresh⟩ (AkaThread.Ends domain) := by
  change (canHandleAuthorization domain request >>= fun value =>
    Pure.pure (AkaResult.flag value)).Meets _ _ _
  rw [canHandleAuthorization]
  cases request.getHeader (bytes "Authorization") with
  | none => rfl
  | some header =>
      cases hparse : AuthManager.parseAuthorization header with
      | error error =>
          simp only [hparse]
          rfl
      | ok params =>
          simp only [hparse]
          exact ⟨rfl, fun _ _ => rfl⟩

theorem createChallenge_meets (request : SipMessage) :
    (begin domain (.createChallenge request)).Meets AkaThread.contract
      ⟨.createChallenge request, .fresh⟩ (AkaThread.Ends domain) := by
  refine ⟨⟨rfl, rfl⟩, fun begun _ => ?_⟩
  cases begun with
  | pending pending => exact ⟨request, _, rfl, rfl, rfl, rfl⟩
  | inFlight promise => exact ⟨⟨_, rfl⟩, fun result _ => ⟨request, _, rfl, rfl, rfl, rfl⟩⟩
  | owner promise =>
      refine ⟨⟨promise, rfl⟩, fun maa _ => ?_⟩
      cases maa with
      | error error =>
          exact ⟨⟨promise, rfl⟩, fun _ _ => ⟨⟨_, rfl⟩, fun _ _ => ⟨request, _, rfl, rfl, rfl, rfl⟩⟩⟩
      | ok maa =>
          refine ⟨⟨_, promise, rfl⟩, fun now _ => ?_⟩
          exact ⟨⟨promise, rfl⟩, fun _ _ => ⟨⟨_, rfl⟩, fun _ _ => ⟨request, _, rfl, rfl, rfl, rfl⟩⟩⟩

theorem verifyPending_meets {request : SipMessage} {header : Bytes}
    (hheader : request.getHeader (bytes "Authorization") = some header) (key : Bytes)
    (pending : PendingAuth) :
    (verifyPending request header key pending >>= fun result =>
      Pure.pure (AkaResult.verification result)).Meets AkaThread.contract
      ⟨.verifyAuthorization request, .found key pending⟩ (AkaThread.Ends domain) := by
  rw [verifyPending]
  by_cases hverify : AuthManager.verifyResponse header pending.vector request.method
      pending.scheme = true
  · rw [if_pos hverify]
    refine ⟨rfl, fun consumed _ => ?_⟩
    cases consumed with
    | false => exact .inr ⟨key, pending, rfl⟩
    | true =>
        obtain ⟨params, nonce, hparse, hnonce, hcorrect, -⟩ :=
          AuthManager.verifyResponse_eq_true_iff.mp hverify
        exact ⟨request, key, pending, rfl, rfl,
          ⟨header, params, nonce, hheader, hparse, hnonce, hcorrect⟩, rfl⟩
  · rw [if_neg hverify]
    exact .inr ⟨key, pending, rfl⟩

theorem verifyAuthorization_meets (request : SipMessage) :
    (begin domain (.verifyAuthorization request)).Meets AkaThread.contract
      ⟨.verifyAuthorization request, .fresh⟩ (AkaThread.Ends domain) := by
  change (verifyAuthorization domain request >>= fun result =>
    Pure.pure (AkaResult.verification result)).Meets _ _ _
  rw [verifyAuthorization]
  cases hheader : request.getHeader (bytes "Authorization") with
  | none => exact .inl rfl
  | some header =>
      cases hparse : AuthManager.parseAuthorization header with
      | error error =>
          simp only [hparse]
          exact .inl rfl
      | ok params =>
          simp only [hparse]
          refine ⟨rfl, fun found _ => ?_⟩
          match found with
          | none => exact .inl rfl
          | some (key, pending) => exact verifyPending_meets domain hheader key pending

end ImsAkaAuthProvider

end

end SimIms.SCscf
