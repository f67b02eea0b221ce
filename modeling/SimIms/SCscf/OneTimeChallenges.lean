import SimIms.SCscf.AkaCoordination
import SimIms.SCscf.DigestCalls

/-!
# A challenge is good for one answer

Both providers look a challenge up, check the digest and take the challenge out in separate
steps. Whatever happens in between, a verification that succeeds has consumed one challenge, the
one that its digest answers, which no other consumes; one that fails has consumed none.
-/

namespace SimIms.SCscf

open Cxx Lib Sip

/-! ## The AKA provider -/

/-- A successful verification. -/
def AkaResult.verified (answer : AkaResult) : Prop :=
  ∃ verification, answer = .verification (.ok verification)

/-- The call has verified the response to this challenge, and answers with its identities. -/
def AkaThread.Accepts [Md5] (thread : AkaThread) (answer : AkaResult) (_ : Bytes)
    (pending : PendingAuth) : Prop :=
  ∃ request, thread.call = .verifyAuthorization request ∧ CorrectDigest request pending ∧
    answer = .verification (.ok
      { sessionKey := request.callId, impi := pending.impi, impu := pending.impu
        scheme := pending.scheme })

/-- What a call has taken, by how far it has come. -/
theorem AkaProgress.Caused.takes {progress : AkaProgress} {events : List PendingAuthEvent}
    (h : progress.Caused events) :
    events.filterMap akaTokens.takes = [] ∨ ∃ key pending found,
      progress = .consumed key pending ∧
        events.filterMap akaTokens.takes = [(key, found)] ∧ found.ident = pending.ident := by
  cases progress with
  | consumed key pending =>
      obtain ⟨found, rfl, hsame⟩ := h
      exact .inr ⟨key, pending, found, rfl, rfl, hsame⟩
  | fresh | challenged | joined | received | owner | completed | published | found =>
      rw [show events = _ from h]
      exact .inl rfl

section

variable [OsipParser] [Md5] {domain : Bytes} {thread : AkaThread} {answer : AkaResult}

theorem AkaThread.Ends.verified {key : Bytes} {pending : PendingAuth}
    (h : thread.Ends domain answer) (hconsumed : thread.progress = .consumed key pending) :
    answer.verified := by
  obtain ⟨call, progress⟩ := thread
  cases hconsumed
  cases answer with
  | flag value => cases h
  | challenge result =>
      obtain ⟨_, _, _, _, hresult, _⟩ := h
      cases hresult
  | verification result =>
      cases result with
      | ok verification => exact ⟨verification, rfl⟩
      | error error => obtain h | ⟨_, _, h⟩ := h <;> cases h

theorem AkaThread.Ends.accepts (h : thread.Ends domain answer) (hverified : answer.verified) :
    ∃ key pending, thread.progress = .consumed key pending ∧ thread.Accepts answer key pending := by
  obtain ⟨verification, rfl⟩ := hverified
  obtain ⟨request, key, pending, hcall, hconsumed, hcorrect, rfl⟩ := h
  exact ⟨key, pending, hconsumed, request, hcall, hcorrect, rfl⟩

end

section

variable [OsipParser]

/-- A call that has consumed a challenge has nothing more to do. -/
theorem AkaThread.Allows.not_consumed {thread : AkaThread} {op : AkaOp} (h : thread.Allows op)
    (key : Bytes) (pending : PendingAuth) : thread.progress ≠ .consumed key pending := by
  obtain hprogress | ⟨_, _, hprogress, -⟩ | ⟨_, _, hprogress⟩ | ⟨_, _, _, hprogress⟩ |
    ⟨_, _, hprogress⟩ := h.progress_cases <;>
  · rw [hprogress]
    nofun

variable [Md5] {domain : Bytes} {s : AkaThreads} {log : List (Nat × PendingAuthEvent)}
variable (h : s.Inv (akaDiscipline domain) log)

include h

theorem aka_takesBySuccess : TakesBySuccess akaTokens AkaResult.verified s log := by
  intro id htaken
  obtain ⟨⟨thread, program⟩, hfind⟩ := h.exists_of_eventsOf_ne_nil
    fun hnil => htaken (by rw [TokenEvents.takenBy, hnil]; rfl)
  have hlinked : thread.Linked s.shared log id := h.linked id _ hfind
  have hmeets : program.Meets AkaThread.contract thread (AkaThread.Ends domain) :=
    h.meets id _ hfind
  obtain hnone | ⟨key, pending, found, hconsumed, -, -⟩ := hlinked.caused.takes
  · exact (htaken hnone).elim
  · rw [Threads.outcome, hfind]
    cases program with
    | pure answer => exact ⟨thread, answer, rfl, AkaThread.Ends.verified hmeets hconsumed⟩
    | throw error => exact hmeets.elim
    | call op next => exact (AkaThread.Allows.not_consumed hmeets.1 key pending hconsumed).elim

theorem aka_success {id : Nat} {thread : AkaThread} {answer : AkaResult}
    (houtcome : s.outcome id = some (thread, answer)) (hverified : answer.verified) :
    ∃ key pending found, akaTokens.takenBy log id = [(key, found)] ∧
      found.ident = pending.ident ∧ (key, pending) ∈ akaTokens.issued log ∧
      thread.Accepts answer key pending := by
  have hends : thread.Ends domain answer := h.result houtcome
  have hlinked : thread.Linked s.shared log id := h.linked_outcome houtcome
  obtain ⟨key, pending, hconsumed, haccepts⟩ := hends.accepts hverified
  obtain ⟨hrelies, hcaused⟩ := hlinked
  rw [hconsumed] at hrelies hcaused
  obtain ⟨found, hevents, hsame⟩ := hcaused
  refine ⟨key, pending, found, ?_, hsame, hrelies, haccepts⟩
  rw [TokenEvents.takenBy, hevents]
  rfl

theorem aka_oneTime (hdistinct : AllDistinct PendingAuth.ident (akaTokens.issued log)) :
    OneTime (ImsAkaAuthProvider.service domain) akaTokens (·.auths.pendingAuth)
      (fun s pending => s.now < pending.expiresAt) AkaResult.verified AkaThread.Accepts s log := by
  apply OneTime.of_ledger h.shared.ledger hdistinct
  · exact fun _ _ _ houtcome hverified => aka_success h houtcome hverified
  · exact aka_takesBySuccess h
  · intro id environment t out hstep
    have hnext : Threads.Inv (akaDiscipline domain) t (log ++ out) :=
      h.next (akaDiscipline_sound domain) (fun _ _ => trivial) hstep
    refine ⟨?_, aka_takesBySuccess hnext⟩
    have hnow : t.shared.now = s.shared.now := by
      obtain ⟨_, op, _, shared, answer, events, _, hserve, -, rfl⟩ :=
        Threads.runThread_eq_some hstep
      exact AkaState.now_eq_of_serve hserve
    rw [← hnow]
    exact hnext.shared.ledger

end

/-! ## The digest provider -/

abbrev DigestThreads := Threads DigestState digestOps Exception DigestThread DigestResult

def DigestResult.verified (answer : DigestResult) : Prop :=
  ∃ verification, answer = .verification (.ok verification)

def DigestThread.Accepts [Md5] (thread : DigestThread) (answer : DigestResult) (_ : Bytes)
    (pending : PendingDigest) : Prop :=
  ∃ request, thread.call = .verifyAuthorization request ∧ CorrectPassword request pending ∧
    answer = .verification (.ok
      { sessionKey := request.callId, impi := pending.credential.impi
        impu := pending.credential.impu, scheme := bytes "Digest-MD5" })

section

variable [Md5] {thread : DigestThread} {answer : DigestResult}

theorem DigestThread.Ends.accepts (h : thread.Ends answer) (hverified : answer.verified) :
    ∃ key pending, thread.progress = .consumed key pending ∧ thread.Accepts answer key pending := by
  obtain ⟨verification, rfl⟩ := hverified
  obtain ⟨request, key, pending, hcall, hconsumed, hcorrect, rfl⟩ := h
  exact ⟨key, pending, hconsumed, request, hcall, hcorrect, rfl⟩

theorem DigestThread.Ends.verified {key : Bytes} {pending : PendingDigest}
    (h : thread.Ends answer) (hconsumed : thread.progress = .consumed key pending) :
    answer.verified := by
  cases answer with
  | flag value => exact (h key pending hconsumed).elim
  | challenge result => exact (h key pending hconsumed).elim
  | verification result =>
      cases result with
      | ok verification => exact ⟨verification, rfl⟩
      | error error => exact (h key pending hconsumed).elim

omit [Md5] in
theorem DigestThread.Allows.not_consumed {op : DigestOp} (h : thread.Allows op) (key : Bytes)
    (pending : PendingDigest) : thread.progress ≠ .consumed key pending := by
  cases op with
  | environment op => exact h key pending
  | credentials op => exact h key pending
  | pendingDigests op =>
      cases op with
      | contains | store => exact h key pending
      | find key =>
          rw [show thread.progress = .fresh from h]
          nofun
      | consume key nonce =>
          obtain ⟨found, hfound, -⟩ := h
          rw [hfound]
          nofun

variable {s : DigestThreads} {log : List (Nat × PendingDigestEvent)}
variable (h : s.Inv digestDiscipline log)

include h

theorem digest_takesBySuccess : TakesBySuccess digestTokens DigestResult.verified s log := by
  intro id htaken
  obtain ⟨⟨⟨call, progress⟩, program⟩, hfind⟩ := h.exists_of_eventsOf_ne_nil
    fun hnil => htaken (by rw [TokenEvents.takenBy, hnil]; rfl)
  have hlinked : DigestThread.Linked log id ⟨call, progress⟩ := h.linked id _ hfind
  have hmeets : program.Meets DigestThread.contract ⟨call, progress⟩ DigestThread.Ends :=
    h.meets id _ hfind
  cases progress with
  | fresh => exact (htaken hlinked).elim
  | found key pending => exact (htaken hlinked.2).elim
  | consumed key pending =>
      rw [Threads.outcome, hfind]
      cases program with
      | pure answer => exact ⟨_, answer, rfl, DigestThread.Ends.verified hmeets rfl⟩
      | throw error => exact hmeets.elim
      | call op next => exact (DigestThread.Allows.not_consumed hmeets.1 key pending rfl).elim

theorem digest_success {id : Nat} (houtcome : s.outcome id = some (thread, answer))
    (hverified : answer.verified) :
    ∃ key pending found, digestTokens.takenBy log id = [(key, found)] ∧
      found.nonce = pending.nonce ∧ (key, pending) ∈ digestTokens.issued log ∧
      thread.Accepts answer key pending := by
  have hends : thread.Ends answer := h.result houtcome
  have hlinked : thread.Linked log id := h.linked_outcome houtcome
  obtain ⟨key, pending, hconsumed, haccepts⟩ := hends.accepts hverified
  rw [DigestThread.Linked, hconsumed] at hlinked
  obtain ⟨hissued, found, htaken, hsame⟩ := hlinked
  exact ⟨key, pending, found, htaken, hsame, hissued, haccepts⟩

theorem digest_oneTime [OsipParser] {realm : Bytes}
    (hdistinct : AllDistinct PendingDigest.nonce (digestTokens.issued log)) :
    OneTime (DigestAuthProvider.service realm) digestTokens (·.pendingAuth)
      (fun s pending => s.now < pending.expiresAt) DigestResult.verified DigestThread.Accepts s
      log := by
  have hledger : Ledger PendingDigest.nonce PendingDigest.expiresAt (digestTokens.issued log)
      (digestTokens.taken log) (DigestState.now s.shared) s.shared.pendingAuth := h.shared
  apply OneTime.of_ledger hledger hdistinct
  · exact fun _ _ _ houtcome hverified => digest_success h houtcome hverified
  · exact digest_takesBySuccess h
  · intro id environment t out hstep
    have hnext : Threads.Inv digestDiscipline t (log ++ out) :=
      h.next (digestDiscipline_sound realm) (fun _ _ => trivial) hstep
    refine ⟨?_, digest_takesBySuccess hnext⟩
    have hnow : t.shared.now = s.shared.now := by
      obtain ⟨_, op, _, shared, answer, events, _, hserve, -, rfl⟩ :=
        Threads.runThread_eq_some hstep
      cases op <;> cases hserve <;> rfl
    rw [← hnow]
    exact hnext.shared

end

/-! ## Both -/

/-- Challenges are one-time, whatever calls of either provider interleave, as long as no two of
the challenges that have been stored have the same random number and token, or nonce. -/
theorem challenges_oneTime [OsipParser] [Md5] (domain realm : Bytes) (now : Nat) :
    (∀ (as : List (ThreadAction AkaEnvironment AkaCall Nat)) (s : AkaThreads)
      (log : List (Nat × PendingAuthEvent)),
      (threadsMachine (ImsAkaAuthProvider.service domain)).exec (.init ⟨.init, now⟩) as =
        some (s, log) →
      AllDistinct PendingAuth.ident (akaTokens.issued log) →
      OneTime (ImsAkaAuthProvider.service domain) akaTokens (·.auths.pendingAuth)
        (fun s pending => s.now < pending.expiresAt) AkaResult.verified AkaThread.Accepts s log) ∧
    ∀ (as : List (ThreadAction DigestEnvironment DigestCall Nat)) (s : DigestThreads)
      (log : List (Nat × PendingDigestEvent)),
      (threadsMachine (DigestAuthProvider.service realm)).exec (.init ⟨.empty, now⟩) as =
        some (s, log) →
      AllDistinct PendingDigest.nonce (digestTokens.issued log) →
      OneTime (DigestAuthProvider.service realm) digestTokens (·.pendingAuth)
        (fun s pending => s.now < pending.expiresAt) DigestResult.verified DigestThread.Accepts s
        log := by
  constructor
  · intro as s log hrun hdistinct
    exact aka_oneTime ((akaDiscipline_sound domain).exec_of_forall (fun _ _ => trivial)
      (Coordinated.init now) hrun) hdistinct
  · intro as s log hrun hdistinct
    exact digest_oneTime ((digestDiscipline_sound realm).exec_of_forall (fun _ _ => trivial)
      (DigestState.Recorded.init now) hrun) hdistinct

/-! ### Alice answers once by each provider, and tries again -/

@[reducible] def aliceDigests : Md5 := .ofTable
  [(bytes "alice@ims.local:ims.local:xres",
      "9191794ed729e8862f75b05959c22901"),
    (bytes "REGISTER:sip:ims",
      "70669cdb31465552b99cd8a2ce6533df"),
    (bytes "9191794ed729e8862f75b05959c22901:cm5kYXV0:70669cdb31465552b99cd8a2ce6533df",
      "8c054c003e69117fe480cbee616e2d95"),
    (bytes "alice:ims.local:secret",
      "ef102b3c5a614402ac7ce92cd0d019f4"),
    (bytes ("ef102b3c5a614402ac7ce92cd0d019f4:00000000000000010000000000000002:" ++
        "70669cdb31465552b99cd8a2ce6533df"),
      "cecfc407d7f90c4ff144481d10fd4c59")]

def aliceRegister : SipMessage := .register "sip:alice@ims.local" "sip:alice@ims.local"

def aliceVector : Diameter.AuthVector := ⟨bytes "rnd", bytes "aut", bytes "xres", [], []⟩

def akaAnswer : SipMessage :=
  { aliceRegister with
    authorizations := [bytes ("Digest username=alice@ims.local,realm=ims.local," ++
      "nonce=cm5kYXV0,uri=sip:ims,response=8c054c003e69117fe480cbee616e2d95")] }

def akaRetry : List (ThreadAction AkaEnvironment AkaCall Nat) :=
  let environment := AkaEnvironment.ofVector aliceVector
  [.start (.createChallenge aliceRegister), .run 0 environment, .run 0 environment,
    .run 0 environment, .run 0 environment, .run 0 environment,
    .start (.verifyAuthorization akaAnswer), .start (.verifyAuthorization akaAnswer),
    .run 1 environment, .run 2 environment, .run 1 environment, .run 2 environment]

def aliceCredential : DigestCredential :=
  { username := bytes "alice", realm := bytes "ims.local", password := bytes "secret"
    impi := bytes "alice@ims.local", impu := bytes "sip:alice@ims.local", associatedImpus := [] }

def digestAnswer : SipMessage :=
  { aliceRegister with
    authorizations := [bytes ("Digest username=alice,realm=ims.local," ++
      "nonce=00000000000000010000000000000002,uri=sip:ims," ++
      "response=cecfc407d7f90c4ff144481d10fd4c59")] }

def digestRetry : List (ThreadAction DigestEnvironment DigestCall Nat) :=
  let environment (word : UInt64) : DigestEnvironment :=
    { surroundings := { randomWord := word }
      credentials := fun
        | .findByUsername _ _ => .ok (some aliceCredential)
        | .findByIdentity _ => .ok (some aliceCredential) }
  [.start (.createChallenge aliceRegister), .run 0 (environment 0), .run 0 (environment 0),
    .run 0 (environment 1), .run 0 (environment 2), .run 0 (environment 0),
    .start (.verifyAuthorization digestAnswer), .start (.verifyAuthorization digestAnswer),
    .run 1 (environment 0), .run 2 (environment 0), .run 1 (environment 0),
    .run 2 (environment 0), .run 1 (environment 0), .run 2 (environment 0)]

instance (answer : AkaResult) : Decidable answer.verified :=
  match answer with
  | .verification (.ok verification) => isTrue ⟨verification, rfl⟩
  | .verification (.error _) => isFalse nofun
  | .challenge _ => isFalse nofun
  | .flag _ => isFalse nofun

instance (answer : DigestResult) : Decidable answer.verified :=
  match answer with
  | .verification (.ok verification) => isTrue ⟨verification, rfl⟩
  | .verification (.error _) => isFalse nofun
  | .challenge _ => isFalse nofun
  | .flag _ => isFalse nofun

/-- The first answer is accepted, the second is not. -/
theorem challenges_oneTime_retry :
    (∃ s log, (threadsMachine (@ImsAkaAuthProvider.service plainUris aliceDigests
        (bytes "ims.local"))).exec (.init ⟨.init, 0⟩) akaRetry = some (s, log) ∧
      ((s.outcome 1).map fun outcome => decide outcome.2.verified) = some true ∧
      ((s.outcome 2).map fun outcome => decide outcome.2.verified) = some false ∧
      OneTime (@ImsAkaAuthProvider.service plainUris aliceDigests (bytes "ims.local")) akaTokens
        (·.auths.pendingAuth) (fun s pending => s.now < pending.expiresAt) AkaResult.verified
        (@AkaThread.Accepts aliceDigests) s log) ∧
    ∃ s log, (threadsMachine (@DigestAuthProvider.service plainUris aliceDigests
        (bytes "ims.local"))).exec (.init ⟨.empty, 0⟩) digestRetry = some (s, log) ∧
      ((s.outcome 1).map fun outcome => decide outcome.2.verified) = some true ∧
      ((s.outcome 2).map fun outcome => decide outcome.2.verified) = some false ∧
      OneTime (@DigestAuthProvider.service plainUris aliceDigests (bytes "ims.local")) digestTokens
        (·.pendingAuth) (fun s pending => s.now < pending.expiresAt) DigestResult.verified
        (@DigestThread.Accepts aliceDigests) s log := by
  have haka : (((threadsMachine (@ImsAkaAuthProvider.service plainUris aliceDigests
      (bytes "ims.local"))).exec (.init ⟨.init, 0⟩) akaRetry).map fun run =>
        ((run.1.outcome 1).map fun outcome => decide outcome.2.verified,
          (run.1.outcome 2).map fun outcome => decide outcome.2.verified,
          decide (AllDistinct PendingAuth.ident (akaTokens.issued run.2)))) =
      some (some true, some false, true) := by
    unfold akaRetry akaAnswer aliceDigests
    rw [bytes_append]
    repeat rw [bytes_ofList]
    decide +kernel
  have hdigest : (((threadsMachine (@DigestAuthProvider.service plainUris aliceDigests
      (bytes "ims.local"))).exec (.init ⟨.empty, 0⟩) digestRetry).map fun run =>
        ((run.1.outcome 1).map fun outcome => decide outcome.2.verified,
          (run.1.outcome 2).map fun outcome => decide outcome.2.verified,
          decide (AllDistinct PendingDigest.nonce (digestTokens.issued run.2)))) =
      some (some true, some false, true) := by
    unfold digestRetry digestAnswer aliceCredential aliceDigests
    rw [bytes_append, bytes_append]
    repeat rw [bytes_ofList]
    decide +kernel
  obtain ⟨⟨s, log⟩, hrun, heq⟩ := Option.map_eq_some_iff.mp haka
  obtain ⟨⟨s', log'⟩, hrun', heq'⟩ := Option.map_eq_some_iff.mp hdigest
  simp only [Prod.mk.injEq, decide_eq_true_eq] at heq heq'
  have h := @challenges_oneTime plainUris aliceDigests (bytes "ims.local") (bytes "ims.local") 0
  exact ⟨⟨s, log, hrun, heq.1, heq.2.1, h.1 akaRetry s log hrun heq.2.2⟩,
    s', log', hrun', heq'.1, heq'.2.1, h.2 digestRetry s' log' hrun' heq'.2.2⟩

end SimIms.SCscf
