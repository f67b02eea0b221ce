import SimIms.SCscf.Coalescing

/-!
# Answers to challenges

A request is challenged under the username of its own credentials, or else under the user and
the host of its From. The challenge is stored under the private identity made of that text. An
answer with the same username looks it up under an identity that is made in another way, and
takes whichever entry with that identity and the Call-ID the hash table gives first. So an
answer is accepted where the two identities agree and every other such entry would do as well.
-/

namespace SimIms.SCscf

open Cxx Lib Sip Diameter ImsAkaAuthProvider

/-! ## The table of challenges -/

/-- Which entries an authorization may answer. -/
theorem PendingAuths.mem_candidates_iff {s : PendingAuths} {callId impi key : Bytes}
    {pending : PendingAuth} :
    (key, pending) ∈ s.candidates callId impi ↔ s.pendingAuth.find key = some pending ∧
      pending.impi = impi ∧ (callId ++ [0x1f]).isPrefixOf key = true := by
  rw [candidates, List.mem_filter, List.mem_map, Bool.and_eq_true, beq_iff_eq]
  refine and_congr_left fun _ => ?_
  rw [Table.find_eq_some_iff_mem]
  constructor
  · rintro ⟨⟨key, pending⟩, hmem, heq⟩
    cases heq
    exact hmem
  · exact fun hmem => ⟨⟨key, pending⟩, hmem, rfl⟩

/-- Any of them may come first. -/
theorem PendingAuths.exists_choice {s : PendingAuths} {callId impi : Bytes}
    {entry : Bytes × PendingAuth} (hmem : entry ∈ s.candidates callId impi) :
    ∃ choice, s.findPendingForAuthorizationLocked callId impi choice = some entry := by
  obtain ⟨choice, hget⟩ := List.mem_iff_getElem?.mp hmem
  refine ⟨choice, ?_⟩
  rw [findPendingForAuthorizationLocked, Nat.mod_eq_of_lt (List.getElem?_eq_some_iff.mp hget).1]
  exact hget

/-- One of them comes first. -/
theorem PendingAuths.exists_candidate {s : PendingAuths} {callId impi : Bytes}
    {entry : Bytes × PendingAuth} (hmem : entry ∈ s.candidates callId impi) (choice : Nat) :
    ∃ first ∈ s.candidates callId impi,
      s.findPendingForAuthorizationLocked callId impi choice = some first := by
  have hlt : choice % (s.candidates callId impi).length < (s.candidates callId impi).length :=
    Nat.mod_lt _ (List.length_pos_of_mem hmem)
  exact ⟨_, List.getElem_mem hlt, List.getElem?_eq_getElem hlt⟩

section

variable [OsipParser]

/-! ## Challenges and answers -/

/-- The user and the host of a URI. -/
def userAtHost (uri : OsipUri) : Option Bytes := do
  let username ← uri.username
  let host ← uri.host
  return username ++ bytes "@" ++ host

/-- The username that the sender of a request has to answer with. -/
def challengedUsername (request : SipMessage) : Option Bytes :=
  let fromFrom := (request.fromUri.bind OsipParser.uriParse).bind userAtHost
  match request.getHeader (bytes "Authorization") with
  | none => fromFrom
  | some header =>
      match AuthManager.parseAuthorization header with
      | .error _ => fromFrom
      | .ok params => if params.username = [] then fromFrom else some params.username

variable [Md5] (domain : Bytes)

/-- This request has been answered with this challenge, for the scheme that the HSS was asked
for, and the challenge is neither consumed nor expired. -/
structure ChallengeOpen (s : AkaThreads) (log : List (Nat × PendingAuthEvent))
    (request : SipMessage) (pending : PendingAuth) : Prop where
  answered : ∃ id thread, s.outcome id = some (thread, .challenge (.ok
      (buildChallenge domain request.callId pending))) ∧
    thread.call = .createChallenge request ∧ thread.progress.result = some (.ok pending)
  scheme : pending.scheme = bytes "Digest-AKAv1-MD5"
  unconsumed : (pendingKey request, pending) ∉ akaTokens.taken log
  unexpired : s.shared.now < pending.expiresAt

/-- What the answer to a challenge carries. -/
structure AnswersChallenge (request answer : SipMessage) (pending : PendingAuth) (header : Bytes)
    (params : DigestAuthFields) : Prop where
  callId : answer.callId = request.callId
  carries : answer.getHeader (bytes "Authorization") = some header
  parses : AuthManager.parseAuthorization header = .ok params
  username : challengedUsername request = some params.username
  correct : AuthManager.CorrectResponse params pending.vector.xres
    (AuthManager.base64Encode (pending.vector.rand ++ pending.vector.autn)) answer.method

/-- The answer is verified for the identities of the challenge, whichever entry of the hash
table comes first. -/
def Verifies (s : AkaState) (answer : SipMessage) (pending : PendingAuth) : Prop :=
  ∀ environment, ∃ t verification out,
    (verifyAuthorization (G := akaOps) domain answer).alone AkaState.serve environment s =
      some (t, .ok (.ok verification), out) ∧
    verification.impi = pending.impi ∧ verification.impu = pending.impu

/-- The answer finds the challenge, and would do for every other entry that it may find. -/
structure FindsChallenge (s : AkaState) (request answer : SipMessage) (pending : PendingAuth)
    (header : Bytes) (params : DigestAuthFields) : Prop where
  identity : normalizeAuthorizationImpi domain params.username = pending.impi
  complete : params.response ≠ [] ∧ params.nonce ≠ [] ∧ params.uri ≠ []
  others : ∀ key other, s.auths.pendingAuth.find key = some other → s.now < other.expiresAt →
    key ≠ pendingKey request → other.impi = pending.impi →
    (answer.callId ++ [0x1f]).isPrefixOf key = true →
    AuthManager.verifyResponse header other.vector answer.method other.scheme = true ∧
      other.impu = pending.impu

/-! ## One verification -/

variable {domain}
variable {s : AkaState} {answer : SipMessage} {header key : Bytes} {pending : PendingAuth}
variable {params : DigestAuthFields}

omit [OsipParser] in
/-- What the verification of an entry ends with, as long as the entry stays. -/
theorem verifyPending_alone (environment : AkaEnvironment) (answer : SipMessage) (header : Bytes)
    (hstored : s.auths.pendingAuth.find key = some pending) :
    ∃ t out, (verifyPending (G := akaOps) answer header key pending).alone AkaState.serve
        environment s =
      some (t, .ok (
        if AuthManager.verifyResponse header pending.vector answer.method pending.scheme then
          .ok { sessionKey := answer.callId, impi := pending.impi, impu := pending.impu
                scheme := pending.scheme }
        else .error (authError "authorization verification failed")), out) := by
  rw [verifyPending]
  split
  · have hserve : s.serve (.pendingAuths (.consume key pending)) environment =
        some ({ s with auths := { s.auths with pendingAuth := s.auths.pendingAuth.erase key } },
          true, [.consumed key pending]) := by
      rw [AkaState.serve, PendingAuths.serve, hstored]
      simp only [and_self, if_true, Option.map_some, PendingAuths.occurred, hstored]
    exact ⟨_, _, Program.alone_call hserve rfl⟩
  · exact ⟨s, [], rfl⟩

/-- The verification of an answer that finds this entry first. -/
theorem verifyAuthorization_alone (environment : AkaEnvironment)
    (hcarries : answer.getHeader (bytes "Authorization") = some header)
    (hparses : AuthManager.parseAuthorization header = .ok params)
    (hfirst : (s.auths.purgeExpiredLocked s.now).findPendingForAuthorizationLocked answer.callId
      (normalizeAuthorizationImpi domain params.username) environment.choice =
        some (key, pending)) :
    ∃ t out, (verifyAuthorization (G := akaOps) domain answer).alone AkaState.serve environment s =
      some (t, .ok (
        if AuthManager.verifyResponse header pending.vector answer.method pending.scheme then
          .ok { sessionKey := answer.callId, impi := pending.impi, impu := pending.impu
                scheme := pending.scheme }
        else .error (authError "authorization verification failed")), out) := by
  obtain ⟨t, out, hverify⟩ := verifyPending_alone environment answer header
    (s := { s with auths := s.auths.purgeExpiredLocked s.now })
      (PendingAuths.find_candidates hfirst)
  have hserve : s.serve (.pendingAuths (.findPending answer.callId
      (normalizeAuthorizationImpi domain params.username))) environment =
        some ({ s with auths := s.auths.purgeExpiredLocked s.now }, some (key, pending), []) := by
    rw [AkaState.serve, PendingAuths.serve, hfirst]
    rfl
  refine ⟨t, [] ++ out, ?_⟩
  rw [verifyAuthorization, hcarries]
  simp only [hparses]
  exact Program.alone_call hserve hverify

theorem verifyAuthorization_alone_none (environment : AkaEnvironment)
    (hcarries : answer.getHeader (bytes "Authorization") = some header)
    (hparses : AuthManager.parseAuthorization header = .ok params)
    (hnone : (s.auths.purgeExpiredLocked s.now).findPendingForAuthorizationLocked answer.callId
      (normalizeAuthorizationImpi domain params.username) environment.choice = none) :
    ∃ t error out, (verifyAuthorization (G := akaOps) domain answer).alone
      AkaState.serve environment
      s = some (t, .ok (.error error), out) := by
  have hserve : s.serve (.pendingAuths (.findPending answer.callId
      (normalizeAuthorizationImpi domain params.username))) environment =
        some ({ s with auths := s.auths.purgeExpiredLocked s.now }, none, []) := by
    rw [AkaState.serve, PendingAuths.serve, hnone]
    rfl
  rw [verifyAuthorization, hcarries]
  simp only [hparses]
  exact ⟨_, _, _, Program.alone_call hserve rfl⟩

/-- A verification that succeeds has found an entry. -/
theorem Verifies.exists_candidate (h : Verifies domain s answer pending)
    (hcarries : answer.getHeader (bytes "Authorization") = some header)
    (hparses : AuthManager.parseAuthorization header = .ok params) :
    ∃ entry, entry ∈ (s.auths.purgeExpiredLocked s.now).candidates answer.callId
      (normalizeAuthorizationImpi domain params.username) := by
  let environment : AkaEnvironment := .ofVector pending.vector
  obtain ⟨t, verification, out, hrun, -⟩ := h environment
  cases hfirst : (s.auths.purgeExpiredLocked s.now).findPendingForAuthorizationLocked answer.callId
      (normalizeAuthorizationImpi domain params.username) environment.choice with
  | some entry => exact ⟨entry, List.mem_of_getElem? hfirst⟩
  | none =>
      obtain ⟨t', error, out', hrun'⟩ := verifyAuthorization_alone_none environment hcarries
        hparses hfirst
      rw [hrun] at hrun'
      cases hrun'

/-- The answer is accepted where every entry that it may find would accept it. -/
theorem verifies_iff_candidates
    (hcarries : answer.getHeader (bytes "Authorization") = some header)
    (hparses : AuthManager.parseAuthorization header = .ok params) :
    Verifies domain s answer pending ↔
      (∃ entry, entry ∈ (s.auths.purgeExpiredLocked s.now).candidates answer.callId
        (normalizeAuthorizationImpi domain params.username)) ∧
      normalizeAuthorizationImpi domain params.username = pending.impi ∧
        ∀ entry ∈ (s.auths.purgeExpiredLocked s.now).candidates answer.callId
            (normalizeAuthorizationImpi domain params.username),
          AuthManager.verifyResponse header entry.2.vector answer.method entry.2.scheme = true ∧
            entry.2.impu = pending.impu := by
  constructor
  · intro hverifies
    have haccepts : ∀ entry ∈ (s.auths.purgeExpiredLocked s.now).candidates answer.callId
        (normalizeAuthorizationImpi domain params.username),
        AuthManager.verifyResponse header entry.2.vector answer.method entry.2.scheme = true ∧
          entry.2.impi = pending.impi ∧ entry.2.impu = pending.impu := by
      intro entry hmem
      obtain ⟨choice, hfirst⟩ := PendingAuths.exists_choice hmem
      let environment : AkaEnvironment :=
        { AkaEnvironment.ofVector entry.2.vector with choice := choice }
      obtain ⟨t, verification, out, hrun, himpi, himpu⟩ := hverifies environment
      obtain ⟨t', out', hrun'⟩ := verifyAuthorization_alone environment hcarries hparses hfirst
      rw [hrun] at hrun'
      split at hrun'
      · rename_i haccepted
        cases hrun'
        exact ⟨haccepted, himpi, himpu⟩
      · cases hrun'
    obtain ⟨entry, hmem⟩ := hverifies.exists_candidate hcarries hparses
    refine ⟨⟨entry, hmem⟩, ?_, fun entry hmem =>
      ⟨(haccepts entry hmem).1, (haccepts entry hmem).2.2⟩⟩
    rw [← (PendingAuths.mem_candidates_iff.mp hmem).2.1]
    exact (haccepts entry hmem).2.1
  · rintro ⟨⟨entry, hmem⟩, hidentity, haccepts⟩ environment
    obtain ⟨first, hcandidate, hfirst⟩ := PendingAuths.exists_candidate hmem environment.choice
    obtain ⟨haccepted, himpu⟩ := haccepts first hcandidate
    obtain ⟨t, out, hrun⟩ := verifyAuthorization_alone environment hcarries hparses hfirst
    rw [if_pos haccepted] at hrun
    have himpi := (PendingAuths.mem_candidates_iff.mp hcandidate).2.1
    exact ⟨t, _, out, hrun, himpi.trans hidentity, himpu⟩

/-! ## Open challenges -/

section

variable {s : AkaThreads} {log : List (Nat × PendingAuthEvent)} {request : SipMessage}
variable (h : s.Inv (akaDiscipline domain) log)

include h

/-- A challenge that a call has as its result has been issued, by this call or by the owner. -/
theorem issued_of_result {id : Nat} {thread : AkaThread} {result : AkaResult}
    (houtcome : s.outcome id = some (thread, result)) (hkey : thread.progress.key = some key)
    (hresult : thread.progress.result = some (.ok pending)) :
    (key, pending) ∈ akaTokens.issued log := by
  have hlinked : thread.Linked s.shared log id := h.linked_outcome houtcome
  obtain ⟨hrelies, hcaused⟩ := hlinked
  obtain ⟨call, progress⟩ := thread
  cases progress with
  | challenged other found =>
      cases hkey
      cases hresult
      exact hrelies
  | received other promise result =>
      cases hkey
      cases hresult
      obtain ⟨⟨owner, hbegan⟩, publisher, hpublished⟩ := hrelies
      exact List.mem_filterMap.mpr ⟨_, (owner_published domain h hbegan hpublished).1, rfl⟩
  | published other promise result =>
      cases hkey
      cases hresult
      have hevents : eventsOf log id = _ := hcaused
      have hcompleted : (id, .completed key (.ok pending)) ∈ log := by
        rw [← mem_eventsOf, hevents]
        exact .tail _ (.head _)
      exact List.mem_filterMap.mpr ⟨_, hcompleted, rfl⟩
  | fresh | joined | owner | completed | found | consumed => cases hresult

/-- It is in the table for as long as it is open. -/
theorem find_of_challengeOpen (hopen : ChallengeOpen domain s log request pending) :
    s.shared.auths.pendingAuth.find (pendingKey request) = some pending := by
  obtain ⟨id, thread, houtcome, hcall, hresult⟩ := hopen.answered
  have hends : thread.Ends domain _ := h.result houtcome
  obtain ⟨request', found, hcall', hkey, hresult', -⟩ := hends
  rw [hcall] at hcall'
  cases hcall'
  exact h.shared.ledger.kept (pendingKey request) pending
    (issued_of_result h houtcome hkey hresult) hopen.unconsumed hopen.unexpired

theorem verifies_iff_findsChallenge {answer : SipMessage} {header : Bytes}
    {params : DigestAuthFields} (hopen : ChallengeOpen domain s log request pending)
    (hanswers : AnswersChallenge request answer pending header params) :
    Verifies domain s.shared answer pending ↔
      FindsChallenge domain s.shared request answer pending header params := by
  have hstored := find_of_challengeOpen h hopen
  have hlive : ∀ key other,
      (s.shared.auths.purgeExpiredLocked s.shared.now).pendingAuth.find key = some other ↔
        s.shared.auths.pendingAuth.find key = some other ∧ s.shared.now < other.expiresAt := by
    intro key other
    refine Table.find_eraseIf_eq_some_iff.trans (and_congr_right fun _ => ?_)
    rw [decide_eq_false_iff_not, Nat.not_le]
  have hprefix : (answer.callId ++ [0x1f]).isPrefixOf (pendingKey request) = true := by
    rw [hanswers.callId, pendingKey, makePendingKey, List.append_assoc, List.append_assoc,
      List.isPrefixOf_iff_prefix]
    exact List.prefix_append _ _
  have hown : normalizeAuthorizationImpi domain params.username = pending.impi →
      (pendingKey request, pending) ∈ (s.shared.auths.purgeExpiredLocked s.shared.now).candidates
        answer.callId (normalizeAuthorizationImpi domain params.username) := fun hidentity =>
    PendingAuths.mem_candidates_iff.mpr
      ⟨(hlive _ _).mpr ⟨hstored, hopen.unexpired⟩, hidentity.symm, hprefix⟩
  rw [verifies_iff_candidates hanswers.carries hanswers.parses]
  constructor
  · rintro ⟨-, hidentity, haccepts⟩
    obtain ⟨hverified, -⟩ := haccepts _ (hown hidentity)
    obtain ⟨params', nonce, hparses, -, -, hcomplete⟩ :=
      AuthManager.verifyResponse_eq_true_iff.mp hverified
    rw [hanswers.parses] at hparses
    cases hparses
    refine ⟨hidentity, hcomplete, ?_⟩
    intro key other hfind hunexpired _ himpi hbegins
    exact haccepts (key, other) (PendingAuths.mem_candidates_iff.mpr
      ⟨(hlive key other).mpr ⟨hfind, hunexpired⟩, himpi.trans hidentity.symm, hbegins⟩)
  · rintro ⟨hidentity, hcomplete, hothers⟩
    refine ⟨⟨_, hown hidentity⟩, hidentity, ?_⟩
    rintro ⟨key, other⟩ hmem
    obtain ⟨hfind, himpi, hbegins⟩ := PendingAuths.mem_candidates_iff.mp hmem
    obtain ⟨hfind, hunexpired⟩ := (hlive key other).mp hfind
    by_cases hkey : key = pendingKey request
    · subst hkey
      rw [hstored] at hfind
      cases hfind
      refine ⟨AuthManager.verifyResponse_eq_true_iff.mpr
        ⟨params, _, hanswers.parses, ?_, hanswers.correct, hcomplete⟩, rfl⟩
      rw [hopen.scheme]
      rfl
    · exact hothers key other hfind hunexpired hkey (himpi.trans hidentity) hbegins

end

/-- In every state that calls of the provider reach, however they interleave and whatever the HSS
answers, an open challenge can be answered just where the answer finds it. -/
theorem verifyAuthorization_completes_iff (domain : Bytes) (now : Nat)
    (as : List (ThreadAction AkaEnvironment AkaCall Nat)) (s : AkaThreads)
    (log : List (Nat × PendingAuthEvent))
    (hrun : (threadsMachine (ImsAkaAuthProvider.service domain)).exec (.init ⟨.init, now⟩) as =
      some (s, log))
    (request answer : SipMessage) (pending : PendingAuth) (header : Bytes)
    (params : DigestAuthFields) (hopen : ChallengeOpen domain s log request pending)
    (hanswers : AnswersChallenge request answer pending header params) :
    Verifies domain s.shared answer pending ↔
      FindsChallenge domain s.shared request answer pending header params :=
  verifies_iff_findsChallenge ((akaDiscipline_sound domain).exec_of_forall (fun _ _ => trivial)
    (Coordinated.init now) hrun) hopen hanswers

end

/-! ## Alice without her domain -/

/-- Alice sends her name in placeholder credentials, and answers under the same name. -/
def namedRegister (username : String) : SipMessage :=
  { SipMessage.register "sip:alice@ims.local" "sip:alice@ims.local" with
    authorizations := [bytes "Digest username=" ++ bytes username] }

def namedHeader (username response : String) : Bytes :=
  bytes "Digest username=" ++ bytes username ++
    bytes ",realm=ims.local,nonce=cm5kYXV0,uri=sip:ims," ++ bytes "response=" ++ bytes response

def namedAnswer (username response : String) : SipMessage :=
  { namedRegister username with authorizations := [namedHeader username response] }

def namedParams (username response : String) : DigestAuthFields :=
  { username := bytes username, realm := bytes "ims.local", nonce := bytes "cm5kYXV0"
    response := bytes response, uri := bytes "sip:ims" }

@[reducible] def namedDigests : Md5 := .ofTable
  [(bytes "alice:ims.local:xres", "308e825af987d92d6503fc7dc31d1ea4"),
    (bytes "alice@ims.local:ims.local:xres", "9191794ed729e8862f75b05959c22901"),
    (bytes "REGISTER:sip:ims", "70669cdb31465552b99cd8a2ce6533df"),
    (bytes "308e825af987d92d6503fc7dc31d1ea4:cm5kYXV0:70669cdb31465552b99cd8a2ce6533df",
      "ce791f37c5438b7f7cbb927426e21f01"),
    (bytes "9191794ed729e8862f75b05959c22901:cm5kYXV0:70669cdb31465552b99cd8a2ce6533df",
      "8c054c003e69117fe480cbee616e2d95")]

def namedVector : AuthVector := ⟨bytes "rnd", bytes "aut", bytes "xres", [], []⟩

/-- The challenge, with the record that comes with `AkaEnvironment.ofVector`. -/
def namedPending (username : String) : PendingAuth :=
  { vector := namedVector, impi := bytes username, impu := bytes "sip:alice@ims.local"
    scheme := bytes "Digest-AKAv1-MD5", expiresAt := 120000
    subscriber :=
      { imsi := [], tel := [], assignedScscf := []
        identities := { impi := [], canonicalImpu := [], associatedImpus := [], realm := [] }
        auth := { ki := [], operatorCodeType := [], opc := [], op := [], sqn := 0, amf := [] } } }

def namedChallenge (username : String) : List (ThreadAction AkaEnvironment AkaCall Nat) :=
  let environment := AkaEnvironment.ofVector namedVector
  [.start (.createChallenge (namedRegister username)), .run 0 environment, .run 0 environment,
    .run 0 environment, .run 0 environment, .run 0 environment]

deriving instance DecidableEq for AkaCall, AkaResult

/-- Alice has been challenged, and nobody else. -/
def namedOutcome [OsipParser] (username : String) (s : AkaThreads)
    (log : List (Nat × PendingAuthEvent)) : Bool :=
  let pending := namedPending username
  ((s.outcome 0).map fun outcome =>
      (outcome.1.call, outcome.1.progress.result, outcome.2)) ==
    some (.createChallenge (namedRegister username), some (.ok pending), .challenge (.ok
      (buildChallenge (bytes "ims.local") (bytes "call") pending))) &&
  s.shared.auths.pendingAuth.entries == [⟨pendingKey (namedRegister username), pending⟩] &&
  s.shared.now == 0 && (akaTokens.taken log).isEmpty

theorem challengeOpen_of_namedOutcome [OsipParser] {username : String} {s : AkaThreads}
    {log : List (Nat × PendingAuthEvent)} (h : namedOutcome username s log = true) :
    ChallengeOpen (bytes "ims.local") s log (namedRegister username) (namedPending username) := by
  simp only [namedOutcome, Bool.and_eq_true, beq_iff_eq, List.isEmpty_iff,
    Option.map_eq_some_iff, Prod.mk.injEq] at h
  obtain ⟨⟨⟨⟨⟨thread, answer⟩, houtcome, hcall, hresult, rfl⟩, -⟩, hnow⟩, hnone⟩ := h
  refine ⟨⟨0, thread, houtcome, hcall, hresult⟩, rfl, ?_, ?_⟩
  · rw [hnone]
    exact List.not_mem_nil
  · rw [hnow]
    exact Nat.zero_lt_succ _

/-- She is challenged as `alice`, and looked up as `alice@ims.local`. -/
theorem bare_username_is_not_found :
    ∃ s log, (threadsMachine (@ImsAkaAuthProvider.service plainUris namedDigests
        (bytes "ims.local"))).exec (.init ⟨.init, 0⟩) (namedChallenge "alice") = some (s, log) ∧
      @ChallengeOpen plainUris (bytes "ims.local") s log (namedRegister "alice")
        (namedPending "alice") ∧
      @AnswersChallenge plainUris namedDigests (namedRegister "alice")
        (namedAnswer "alice" "ce791f37c5438b7f7cbb927426e21f01") (namedPending "alice")
        (namedHeader "alice" "ce791f37c5438b7f7cbb927426e21f01")
        (namedParams "alice" "ce791f37c5438b7f7cbb927426e21f01") ∧
      ¬ @Verifies plainUris namedDigests (bytes "ims.local") s.shared
        (namedAnswer "alice" "ce791f37c5438b7f7cbb927426e21f01") (namedPending "alice") := by
  let _ : OsipParser := plainUris
  let _ : Md5 := namedDigests
  have hsummary : ((threadsMachine (ImsAkaAuthProvider.service
      (bytes "ims.local"))).exec (.init ⟨.init, 0⟩) (namedChallenge "alice")).map
        (fun run => namedOutcome "alice" run.1 run.2) = some true := by decide +kernel
  obtain ⟨⟨s, log⟩, hrun, houtcome⟩ := Option.map_eq_some_iff.mp hsummary
  have hopen := challengeOpen_of_namedOutcome houtcome
  have hanswers : AnswersChallenge (namedRegister "alice")
      (namedAnswer "alice" "ce791f37c5438b7f7cbb927426e21f01") (namedPending "alice")
      (namedHeader "alice" "ce791f37c5438b7f7cbb927426e21f01")
      (namedParams "alice" "ce791f37c5438b7f7cbb927426e21f01") :=
    ⟨rfl, by decide +kernel, by decide +kernel, by decide +kernel, by decide +kernel,
      bytes "ce791f37c5438b7f7cbb927426e21f01", by decide +kernel, by decide +kernel⟩
  refine ⟨s, log, hrun, hopen, hanswers, ?_⟩
  have hinv := (akaDiscipline_sound (bytes "ims.local")).exec_of_forall
    (fun _ _ => trivial) (Coordinated.init 0) hrun
  rw [verifies_iff_findsChallenge hinv hopen hanswers]
  intro hfinds
  have hidentity := hfinds.identity
  revert hidentity
  decide +kernel

/-- With her domain, her answer is accepted. -/
theorem verifyAuthorization_completes_iff_named :
    ∃ s log, (threadsMachine (@ImsAkaAuthProvider.service plainUris namedDigests
        (bytes "ims.local"))).exec (.init ⟨.init, 0⟩) (namedChallenge "alice@ims.local") =
          some (s, log) ∧
      @Verifies plainUris namedDigests (bytes "ims.local") s.shared
        (namedAnswer "alice@ims.local" "8c054c003e69117fe480cbee616e2d95")
        (namedPending "alice@ims.local") := by
  let _ : OsipParser := plainUris
  let _ : Md5 := namedDigests
  have hsummary : ((threadsMachine (ImsAkaAuthProvider.service
      (bytes "ims.local"))).exec (.init ⟨.init, 0⟩) (namedChallenge "alice@ims.local")).map
        (fun run => namedOutcome "alice@ims.local" run.1 run.2) = some true := by
    decide +kernel
  obtain ⟨⟨s, log⟩, hrun, houtcome⟩ := Option.map_eq_some_iff.mp hsummary
  refine ⟨s, log, hrun, ?_⟩
  have hanswers : AnswersChallenge (namedRegister "alice@ims.local")
      (namedAnswer "alice@ims.local" "8c054c003e69117fe480cbee616e2d95")
      (namedPending "alice@ims.local")
      (namedHeader "alice@ims.local" "8c054c003e69117fe480cbee616e2d95")
      (namedParams "alice@ims.local" "8c054c003e69117fe480cbee616e2d95") :=
    ⟨rfl, by decide +kernel, by decide +kernel, by decide +kernel, by decide +kernel,
      bytes "8c054c003e69117fe480cbee616e2d95", by decide +kernel, by decide +kernel⟩
  rw [verifyAuthorization_completes_iff (bytes "ims.local") 0 _ s log hrun _ _ _ _ _
    (challengeOpen_of_namedOutcome houtcome) hanswers]
  refine ⟨by decide +kernel, by decide +kernel, ?_⟩
  intro key other hfind _ hne
  simp only [namedOutcome, Bool.and_eq_true, beq_iff_eq] at houtcome
  rw [Table.find_eq_some_iff_mem, houtcome.1.1.2] at hfind
  cases List.mem_singleton.mp hfind
  exact (hne rfl).elim

end SimIms.SCscf
