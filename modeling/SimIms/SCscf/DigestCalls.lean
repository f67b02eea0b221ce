import SimIms.Lib.OneTime
import SimIms.SCscf.DigestAuthProvider

/-!
# Calls of the digest provider

Any number of calls share the table of the provider, as in the AKA provider; the credential
store answers whatever it likes. The challenges are the tokens of a ledger, and a call that has
consumed one has checked the digest for it.
-/

namespace SimIms.SCscf

open Cxx Lib Sip

/-! ## Operations and events -/

inductive DigestOp where
  | pendingDigests (op : PendingDigestOp)
  | environment (op : EnvironmentOp)
  | credentials (op : CredentialOp)

abbrev DigestOp.Answer : DigestOp → Type
  | .pendingDigests op => PendingDigestAnswer op
  | .environment op => EnvironmentAnswer op
  | .credentials op => CredentialAnswer op

def digestOps : Interface := ⟨DigestOp, DigestOp.Answer⟩

instance : Includes pendingDigests digestOps := ⟨.pendingDigests, fun _ answer => answer⟩
instance : Includes environment digestOps := ⟨.environment, fun _ answer => answer⟩
instance : Includes credentialStore digestOps := ⟨.credentials, fun _ answer => answer⟩

structure DigestState where
  pendingAuth : PendingDigests
  now : Nat

inductive PendingDigestEvent where
  | stored (key : Bytes) (pending : PendingDigest)
  | consumed (key : Bytes) (pending : PendingDigest)

def PendingDigests.occurred (pendingAuth : PendingDigests) (now : Nat) :
    (op : PendingDigestOp) → PendingDigestAnswer op → List PendingDigestEvent
  | .store key nonce credential, answer =>
      match answer with
      | none => [.stored key { nonce, credential, expiresAt := now + kPendingAuthTtl }]
      | some _ => []
  | .consume key _, answer =>
      match answer, Table.find pendingAuth key with
      | true, some found => [.consumed key found]
      | _, _ => []
  | .contains _, _ => []
  | .find _, _ => []

/-- What is not determined by the state. -/
structure DigestEnvironment where
  surroundings : Surroundings := {}
  credentials : (op : CredentialOp) → CredentialAnswer op

def DigestState.serve (s : DigestState) :
    (op : DigestOp) → DigestEnvironment →
      Option (DigestState × op.Answer × List PendingDigestEvent)
  | .pendingDigests op, _ =>
      let result := s.pendingAuth.serve s.now op
      some ({ s with pendingAuth := result.1 }, result.2, s.pendingAuth.occurred s.now op result.2)
  | .environment op, environment => some (s, environment.surroundings.answer s.now op, [])
  | .credentials op, environment => some (s, environment.credentials op, [])

/-! ## Calls -/

inductive DigestCall where
  | canHandleInitialRegister (request : SipMessage)
  | canHandleAuthorization (request : SipMessage)
  | createChallenge (request : SipMessage)
  | verifyAuthorization (request : SipMessage)

inductive DigestResult where
  | flag (value : Bool)
  | challenge (result : Result AuthChallenge)
  | verification (result : Result AuthVerificationResult)

/-- How far a call has come, as far as it can consume a challenge. -/
inductive DigestProgress where
  | fresh
  | found (key : Bytes) (pending : PendingDigest)
  | consumed (key : Bytes) (pending : PendingDigest)

def DigestProgress.track (progress : DigestProgress) :
    (op : PendingDigestOp) → PendingDigestAnswer op → DigestProgress
  | .find key, answer =>
      match answer with
      | none => progress
      | some pending => .found key pending
  | .consume key _, answer =>
      match answer, progress with
      | true, .found _ pending => .consumed key pending
      | _, _ => progress
  | .contains _, _ => progress
  | .store _ _ _, _ => progress

structure DigestThread where
  call : DigestCall
  progress : DigestProgress

def DigestThread.track (thread : DigestThread) : (op : DigestOp) → op.Answer → DigestThread
  | .pendingDigests op, answer => { thread with progress := thread.progress.track op answer }
  | .environment _, _ => thread
  | .credentials _, _ => thread

namespace DigestAuthProvider

variable [OsipParser] [Md5] (realm : Bytes)

def begin : DigestCall → Program digestOps Exception DigestResult
  | .canHandleInitialRegister request => do
      return .flag (← canHandleInitialRegister request)
  | .canHandleAuthorization request => do
      return .flag (← canHandleAuthorization request)
  | .createChallenge request => do
      return .challenge (← createChallenge realm request)
  | .verifyAuthorization request => do
      return .verification (← verifyAuthorization request)

/-- The provider. The background event is the time that passes. -/
def service : Service DigestState digestOps Exception DigestThread DigestResult DigestEnvironment
    DigestCall Nat PendingDigestEvent where
  serve := DigestState.serve
  begin := begin realm
  background s elapsed := some { s with now := s.now + elapsed }
  fresh call := ⟨call, .fresh⟩
  track := DigestThread.track

end DigestAuthProvider

/-! ## What a call may do -/

/-- The request carries the correct response to the challenge, for its nonce and the password of
its credential. -/
def CorrectPassword [Md5] (request : SipMessage) (pending : PendingDigest) : Prop :=
  ∃ header params, request.getHeader (bytes "Authorization") = some header ∧
    AuthManager.parseAuthorization header = .ok params ∧
    AuthManager.CorrectResponse params pending.credential.password pending.nonce request.method

def DigestThread.Allows (thread : DigestThread) : DigestOp → Prop
  | .pendingDigests (.find _) => thread.progress = .fresh
  | .pendingDigests (.consume key nonce) =>
      ∃ pending, thread.progress = .found key pending ∧ nonce = pending.nonce
  | _ => ∀ key pending, thread.progress ≠ .consumed key pending

def DigestThread.contract : Contract digestOps DigestThread where
  Allows := DigestThread.Allows
  Expects _ _ := True
  Throws _ := False
  track := DigestThread.track

/-- What a call has ended with. Only a successful verification has consumed a challenge. -/
def DigestThread.Ends [Md5] (thread : DigestThread) : DigestResult → Prop
  | .verification (.ok verification) => ∃ request key pending,
      thread.call = .verifyAuthorization request ∧ thread.progress = .consumed key pending ∧
      CorrectPassword request pending ∧
      verification = { sessionKey := request.callId, impi := pending.credential.impi
                       impu := pending.credential.impu, scheme := bytes "Digest-MD5" }
  | _ => ∀ key pending, thread.progress ≠ .consumed key pending

namespace DigestAuthProvider

variable [Md5]

theorem verifyPending_meets {request : SipMessage} {header : Bytes}
    (hheader : request.getHeader (bytes "Authorization") = some header) (key : Bytes)
    (pending : PendingDigest) :
    (verifyPending request header key pending >>= fun result =>
      Pure.pure (DigestResult.verification result)).Meets DigestThread.contract
      ⟨.verifyAuthorization request, .found key pending⟩ DigestThread.Ends := by
  rw [verifyPending]
  by_cases hverify : AuthManager.verifyDigestPassword header pending.credential.password
      request.method pending.nonce = true
  · rw [if_pos hverify]
    refine ⟨⟨pending, rfl, rfl⟩, fun consumed _ => ?_⟩
    cases consumed with
    | false => exact fun _ _ => nofun
    | true =>
        obtain ⟨params, hparse, hcorrect⟩ :=
          AuthManager.correctResponse_of_verifyDigestPassword hverify
        exact ⟨request, key, pending, rfl, rfl, ⟨header, params, hheader, hparse, hcorrect⟩, rfl⟩
  · rw [if_neg hverify]
    exact fun _ _ => nofun

variable [OsipParser] (realm : Bytes)

theorem canHandleInitialRegister_meets (request : SipMessage) :
    (begin realm (.canHandleInitialRegister request)).Meets DigestThread.contract
      ⟨.canHandleInitialRegister request, .fresh⟩ DigestThread.Ends := by
  change (canHandleInitialRegister request >>= fun value =>
    Pure.pure (DigestResult.flag value)).Meets _ _ _
  rw [canHandleInitialRegister]
  split
  · exact fun _ _ => nofun
  · split
    · exact fun _ _ => nofun
    · refine ⟨fun _ _ => nofun, fun found _ => ?_⟩
      match found with
      | .ok (some credential) => exact fun _ _ => nofun
      | .ok none => exact fun _ _ => nofun
      | .error error => exact fun _ _ => nofun

theorem canHandleAuthorization_meets (request : SipMessage) :
    (begin realm (.canHandleAuthorization request)).Meets DigestThread.contract
      ⟨.canHandleAuthorization request, .fresh⟩ DigestThread.Ends := by
  change (canHandleAuthorization request >>= fun value =>
    Pure.pure (DigestResult.flag value)).Meets _ _ _
  rw [canHandleAuthorization]
  cases request.getHeader (bytes "Authorization") with
  | none => exact fun _ _ => nofun
  | some header =>
      cases hparse : AuthManager.parseAuthorization header with
      | error error =>
          simp only [hparse]
          exact fun _ _ => nofun
      | ok params =>
          simp only [hparse]
          split
          · exact fun _ _ => nofun
          · refine ⟨fun _ _ => nofun, fun found _ => ?_⟩
            match found with
            | .ok (some credential) => exact ⟨fun _ _ => nofun, fun _ _ _ _ => nofun⟩
            | .ok none => exact fun _ _ => nofun
            | .error error => exact fun _ _ => nofun

theorem createChallenge_meets (request : SipMessage) :
    (begin realm (.createChallenge request)).Meets DigestThread.contract
      ⟨.createChallenge request, .fresh⟩ DigestThread.Ends := by
  refine ⟨fun _ _ => nofun, fun credential _ => ?_⟩
  match credential with
  | .error error => exact fun _ _ => nofun
  | .ok none => exact fun _ _ => nofun
  | .ok (some credential) =>
      refine ⟨rfl, fun found _ => ?_⟩
      match found with
      | some pending => exact fun _ _ => nofun
      | none =>
          refine ⟨fun _ _ => nofun, fun first _ => ⟨fun _ _ => nofun, fun second _ => ?_⟩⟩
          refine ⟨fun _ _ => nofun, fun stored _ => ?_⟩
          match stored with
          | some pending => exact fun _ _ => nofun
          | none => exact fun _ _ => nofun

theorem verifyAuthorization_meets (request : SipMessage) :
    (begin realm (.verifyAuthorization request)).Meets DigestThread.contract
      ⟨.verifyAuthorization request, .fresh⟩ DigestThread.Ends := by
  change (verifyAuthorization request >>= fun result =>
    Pure.pure (DigestResult.verification result)).Meets _ _ _
  rw [verifyAuthorization]
  cases hheader : request.getHeader (bytes "Authorization") with
  | none => exact fun _ _ => nofun
  | some header =>
      cases hparse : AuthManager.parseAuthorization header with
      | error error =>
          simp only [hparse]
          exact fun _ _ => nofun
      | ok params =>
          simp only [hparse]
          refine ⟨fun _ _ => nofun, fun credential _ => ?_⟩
          match credential with
          | .error error => exact fun _ _ => nofun
          | .ok none => exact fun _ _ => nofun
          | .ok (some credential) =>
              refine ⟨rfl, fun found _ => ?_⟩
              match found with
              | none => exact fun _ _ => nofun
              | some pending => exact verifyPending_meets hheader _ pending

end DigestAuthProvider

/-! ## The table -/

namespace PendingDigests

variable {pendingAuth after : PendingDigests} {now : Nat} {key nonce : Bytes}

theorem serve_store_cases {credential : DigestCredential} {answer : Option PendingDigest}
    (h : pendingAuth.serve now (.store key nonce credential) = (after, answer)) :
    (∃ pending, answer = some pending ∧
      Table.find (pendingAuth.purgeExpiredLocked now) key = some pending ∧
      after = pendingAuth.purgeExpiredLocked now) ∨
    (answer = none ∧ Table.find (pendingAuth.purgeExpiredLocked now) key = none ∧
      after = Table.insert (pendingAuth.purgeExpiredLocked now) key
        { nonce, credential, expiresAt := now + kPendingAuthTtl }) := by
  rw [serve] at h
  cases hfind : Table.find (pendingAuth.purgeExpiredLocked now) key with
  | some pending =>
      simp only [hfind, Prod.mk.injEq] at h
      exact .inl ⟨pending, h.2.symm, rfl, h.1.symm⟩
  | none =>
      simp only [hfind, Prod.mk.injEq] at h
      exact .inr ⟨h.2.symm, rfl, h.1.symm⟩

theorem serve_consume_cases {consumed : Bool}
    (h : pendingAuth.serve now (.consume key nonce) = (after, consumed)) :
    (consumed = false ∧ after = pendingAuth) ∨
    ∃ found, consumed = true ∧ Table.find pendingAuth key = some found ∧ found.nonce = nonce ∧
      after = Table.erase pendingAuth key := by
  rw [serve] at h
  cases hfind : Table.find pendingAuth key with
  | none =>
      simp only [hfind, Prod.mk.injEq] at h
      exact .inl ⟨h.2.symm, h.1.symm⟩
  | some found =>
      by_cases hnonce : found.nonce = nonce
      · simp only [hfind, if_neg (not_not.mpr hnonce), Prod.mk.injEq] at h
        exact .inr ⟨found, h.2.symm, rfl, hnonce, h.1.symm⟩
      · simp only [hfind, if_pos hnonce, Prod.mk.injEq] at h
        exact .inl ⟨h.2.symm, h.1.symm⟩

end PendingDigests

def digestTokens : TokenEvents PendingDigestEvent Bytes PendingDigest where
  issues
    | .stored key pending => some (key, pending)
    | .consumed _ _ => none
  takes
    | .stored _ _ => none
    | .consumed key pending => some (key, pending)

/-- What any operation on the table does to the ledger of its challenges. -/
theorem PendingDigests.ledger_serve {pendingAuth after : PendingDigests} {now : Nat}
    {op : PendingDigestOp} {answer : PendingDigestAnswer op} {log : List (Nat × PendingDigestEvent)}
    (id : Nat)
    (h : Ledger PendingDigest.nonce PendingDigest.expiresAt (digestTokens.issued log)
      (digestTokens.taken log) now pendingAuth)
    (hserve : pendingAuth.serve now op = (after, answer)) :
    Ledger PendingDigest.nonce PendingDigest.expiresAt
      (digestTokens.issued (log ++ (pendingAuth.occurred now op answer).map (id, ·)))
      (digestTokens.taken (log ++ (pendingAuth.occurred now op answer).map (id, ·))) now after := by
  rw [digestTokens.issued_append, digestTokens.taken_append]
  cases op with
  | contains key =>
      cases hserve
      rw [occurred, List.map_nil]
      exact (List.append_nil (digestTokens.issued log)).symm ▸
        (List.append_nil (digestTokens.taken log)).symm ▸ h.purge
  | find key =>
      cases hserve
      rw [occurred, List.map_nil]
      exact (List.append_nil (digestTokens.issued log)).symm ▸
        (List.append_nil (digestTokens.taken log)).symm ▸ h.purge
  | store key nonce credential =>
      obtain ⟨pending, rfl, -, rfl⟩ | ⟨rfl, hfree, rfl⟩ := serve_store_cases hserve
      · exact (List.append_nil (digestTokens.issued log)).symm ▸
          (List.append_nil (digestTokens.taken log)).symm ▸ h.purge
      · exact (List.append_nil (digestTokens.taken log)).symm ▸ h.purge.issue hfree
  | consume key nonce =>
      obtain ⟨rfl, rfl⟩ | ⟨stored, rfl, hfind, -, rfl⟩ := serve_consume_cases hserve
      · exact (List.append_nil (digestTokens.issued log)).symm ▸
          (List.append_nil (digestTokens.taken log)).symm ▸ h
      · simp only [occurred, hfind]
        exact (List.append_nil (digestTokens.issued log)).symm ▸ h.take hfind

/-- The challenges are the tokens of a ledger. -/
def DigestState.Recorded (s : DigestState) (log : List (Nat × PendingDigestEvent)) : Prop :=
  Ledger PendingDigest.nonce PendingDigest.expiresAt (digestTokens.issued log)
    (digestTokens.taken log) s.now s.pendingAuth

/-- A call has consumed nothing, or a challenge with the nonce that it has found. -/
def DigestThread.Linked (log : List (Nat × PendingDigestEvent)) (id : Nat)
    (thread : DigestThread) : Prop :=
  match thread.progress with
  | .fresh => digestTokens.takenBy log id = []
  | .found key pending =>
      (key, pending) ∈ digestTokens.issued log ∧ digestTokens.takenBy log id = []
  | .consumed key pending => (key, pending) ∈ digestTokens.issued log ∧
      ∃ found, digestTokens.takenBy log id = [(key, found)] ∧ found.nonce = pending.nonce

theorem DigestState.Recorded.init (now : Nat) : DigestState.Recorded ⟨.empty, now⟩ [] :=
  (Ledger.empty : Ledger PendingDigest.nonce PendingDigest.expiresAt [] [] now
    (.empty : Table Bytes PendingDigest))

def digestDiscipline [Md5] :
    Discipline DigestState digestOps DigestThread DigestResult PendingDigestEvent where
  contract := DigestThread.contract
  assumes _ _ := True
  shared := DigestState.Recorded
  linked _ := DigestThread.Linked
  result := DigestThread.Ends

section

variable {s t : DigestState} {log : List (Nat × PendingDigestEvent)} {id : Nat}
variable {out : List PendingDigestEvent} {thread : DigestThread}

/-- A call keeps what it relies on while it takes nothing. -/
theorem DigestThread.Linked.append {other : Nat} (h : thread.Linked log other)
    (htaken : digestTokens.takenBy (log ++ out.map (id, ·)) other =
      digestTokens.takenBy log other) : thread.Linked (log ++ out.map (id, ·)) other := by
  have hissued : ∀ entry ∈ digestTokens.issued log,
      entry ∈ digestTokens.issued (log ++ out.map (id, ·)) := by
    intro entry hmem
    rw [digestTokens.issued_append]
    exact List.mem_append_left _ hmem
  obtain ⟨call, progress⟩ := thread
  cases progress with
  | fresh => exact htaken.trans h
  | found key pending => exact ⟨hissued _ h.1, htaken.trans h.2⟩
  | consumed key pending =>
      obtain ⟨hmem, found, htaking, hsame⟩ := h
      exact ⟨hissued _ hmem, found, htaken.trans htaking, hsame⟩

/-- What an operation has to keep. -/
def DigestThread.Served (thread : DigestThread) (t : DigestState)
    (log : List (Nat × PendingDigestEvent)) (id : Nat) (op : DigestOp) (answer : op.Answer)
    (out : List PendingDigestEvent) : Prop :=
  t.Recorded (log ++ out.map (id, ·)) ∧
    (thread.track op answer).Linked (log ++ out.map (id, ·)) id

theorem DigestThread.Served.of_quiet {op : DigestOp} {answer : op.Answer} {out}
    (hshared : t.Recorded log) (hout : out = [])
    (hlinked : (thread.track op answer).Linked log id) :
    thread.Served t log id op answer out := by
  cases hout
  rw [Served, List.map_nil, List.append_nil]
  exact ⟨hshared, hlinked⟩

theorem DigestThread.serves {op : DigestOp} {environment : DigestEnvironment}
    {answer : op.Answer} (h : s.Recorded log) (hlinked : thread.Linked log id)
    (hallows : thread.Allows op) (hserve : s.serve op environment = some (t, answer, out)) :
    thread.Served t log id op answer out := by
  cases op with
  | environment op =>
      cases hserve
      exact .of_quiet h rfl hlinked
  | credentials op =>
      cases hserve
      exact .of_quiet h rfl hlinked
  | pendingDigests op =>
      obtain ⟨after, found, hafter⟩ : ∃ after found,
          s.pendingAuth.serve s.now op = (after, found) :=
        ⟨_, _, rfl⟩
      rw [DigestState.serve, hafter] at hserve
      cases hserve
      refine ⟨PendingDigests.ledger_serve id h hafter, ?_⟩
      obtain ⟨call, progress⟩ := thread
      cases op with
      | contains key =>
          rw [PendingDigests.occurred, List.map_nil, List.append_nil]
          exact hlinked
      | find key =>
          cases hallows
          cases hafter
          rw [PendingDigests.occurred, List.map_nil, List.append_nil]
          cases hfind : Table.find (s.pendingAuth.purgeExpiredLocked s.now) key with
          | none => exact hlinked
          | some pending => exact ⟨h.purge.issued_of_find key pending hfind, hlinked⟩
      | store key nonce credential =>
          apply hlinked.append
          rw [digestTokens.takenBy_append_self]
          cases found with
          | none => exact List.append_nil _
          | some pending => exact List.append_nil _
      | consume key nonce =>
          obtain ⟨pending, rfl, rfl⟩ := hallows
          obtain ⟨rfl, rfl⟩ | ⟨stored, rfl, hfind, hsame, rfl⟩ :=
            PendingDigests.serve_consume_cases hafter
          · rw [PendingDigests.occurred, List.map_nil, List.append_nil]
            · exact hlinked
            · exact fun _ h => by cases h
          · simp only [PendingDigests.occurred, hfind]
            refine ⟨?_, stored, ?_, hsame⟩
            · rw [digestTokens.issued_append]
              exact List.mem_append_left _ hlinked.1
            · rw [digestTokens.takenBy_append_self]
              exact congrArg (· ++ [(key, stored)]) hlinked.2

end

theorem digestDiscipline_sound [OsipParser] [Md5] (realm : Bytes) :
    digestDiscipline.Sound (DigestAuthProvider.service realm) where
  track _ _ _ := rfl
  begins call :=
    match call with
    | .canHandleInitialRegister request =>
        DigestAuthProvider.canHandleInitialRegister_meets realm request
    | .canHandleAuthorization request =>
        DigestAuthProvider.canHandleAuthorization_meets realm request
    | .createChallenge request => DigestAuthProvider.createChallenge_meets realm request
    | .verifyAuthorization request => DigestAuthProvider.verifyAuthorization_meets realm request
  fresh s log id call _ hnumbered := by
    change (eventsOf log id).filterMap _ = []
    rw [eventsOf_eq_nil hnumbered]
    rfl
  serves s log id thread op environment t answer out h hlinked hallows hserve _ := by
    obtain ⟨hshared, hown⟩ := DigestThread.serves h hlinked hallows hserve
    exact ⟨hshared, trivial, hown, fun other thread' hne hother =>
      hother.append (digestTokens.takenBy_append_of_ne log hne)⟩
  background s log elapsed t h hbackground := by
    cases hbackground
    exact ⟨h.elapse (Nat.le_add_right s.now elapsed), fun _ _ hlinked => hlinked⟩

end SimIms.SCscf
