import SimIms.SCscf.DigestAuthProvider
import SimIms.SCscf.ImsAkaAuthProvider
import SimIms.SCscf.Registrar

/-!
# Falling back on another provider

The configuration names the authentication providers in the order in which they are to be tried.
The registrar asks the first one that is for the request, and no other one if that fails.
-/

namespace SimIms.SCscf

open Cxx Lib Sip Diameter Registration

/-! ## The S-CSCF with both providers -/

inductive ScscfOp where
  | store (op : StoreOp)
  | hss (op : HssOp)
  | pendingAuths (op : PendingAuthOp)
  | pendingDigests (op : PendingDigestOp)
  | credentials (op : CredentialOp)
  | environment (op : EnvironmentOp)
  | respond (response : Nat × SipMessage)

abbrev ScscfOp.Answer : ScscfOp → Type
  | .store op => StoreAnswer op
  | .hss op => HssAnswer op
  | .pendingAuths op => PendingAuthAnswer op
  | .pendingDigests op => PendingDigestAnswer op
  | .credentials op => CredentialAnswer op
  | .environment op => EnvironmentAnswer op
  | .respond _ => Unit

def scscfOps : Interface := ⟨ScscfOp, ScscfOp.Answer⟩

instance : Includes registrationStore scscfOps := ⟨.store, fun _ answer => answer⟩
instance : Includes hssRequests scscfOps := ⟨.hss, fun _ answer => answer⟩
instance : Includes pendingAuths scscfOps := ⟨.pendingAuths, fun _ answer => answer⟩
instance : Includes pendingDigests scscfOps := ⟨.pendingDigests, fun _ answer => answer⟩
instance : Includes credentialStore scscfOps := ⟨.credentials, fun _ answer => answer⟩
instance : Includes environment scscfOps := ⟨.environment, fun _ answer => answer⟩
instance : Includes responses scscfOps := ⟨.respond, fun _ answer => answer⟩

section

variable [OsipParser] [Md5]

/-- Without a credential store there is no digest provider. -/
def buildAuthProviders (authMode : Bytes) (digestStore : Bool) (hss : HssClient scscfOps)
    (domain : Bytes) : List (AuthProvider scscfOps) :=
  let ims : List (AuthProvider scscfOps) := [ImsAkaAuthProvider.provider hss domain]
  let digest : List (AuthProvider scscfOps) :=
    if digestStore then [DigestAuthProvider.provider domain] else []
  if authMode = bytes "digest_only" then digest
  else if authMode = bytes "hybrid_fallback" then ims ++ digest
  else ims

/-- The registrar of a configuration. -/
def scscfRegistrar (authMode : Bytes) (digestStore : Bool) (hss : HssClient scscfOps)
    (domain : Bytes) : Registrar scscfOps :=
  { authProviders := buildAuthProviders authMode digestStore hss domain, hss, domain }

end

/-! ## What is to happen, and what does -/

section

variable {G : Interface} (request : SipMessage)

/-- The challenge of the first provider that is for the request and has one. -/
def firstChallenge : List (AuthProvider G) → Program G Exception (Option AuthChallenge)
  | [] => .pure none
  | provider :: providers => do
      if ← provider.canHandleInitialRegister request then
        match ← provider.createChallenge request with
        | .error _ => firstChallenge providers
        | .ok challenge => return some challenge
      else firstChallenge providers

/-- The challenge of a provider that has been chosen. -/
def challengeOf : Option (AuthProvider G) → Program G Exception (Option AuthChallenge)
  | none => .pure none
  | some provider => do
      match ← provider.createChallenge request with
      | .error _ => return none
      | .ok challenge => return some challenge

/-- What `sendChallenge` has when it answers. -/
def chosenChallenge (providers : List (AuthProvider G)) :
    Program G Exception (Option AuthChallenge) :=
  Registrar.findProvider (·.canHandleInitialRegister request) providers >>= challengeOf request

theorem chosenChallenge_cons (provider : AuthProvider G) (providers : List (AuthProvider G)) :
    chosenChallenge request (provider :: providers) =
      provider.canHandleInitialRegister request >>= fun handles =>
        if handles then challengeOf request (some provider)
        else chosenChallenge request providers := by
  rw [chosenChallenge, Registrar.findProvider, Program.bind_assoc]
  congr 1
  funext handles
  cases handles
  · rfl
  · rfl

end

/-- How the registrar answers with a challenge, or without one. -/
def answerChallenge (request : SipMessage) (txn : Nat) :
    Option AuthChallenge → Registrar.Handler scscfOps
  | none => Registrar.respond request txn 501 "Not Implemented"
  | some challenge => do
      let tag ← generateTag
      let resp := createResponse request 401 (bytes "Unauthorized") tag
      let resp := resp.addHeader (bytes "WWW-Authenticate") challenge.wwwAuthenticate
      let resp := addSecurityAgreementHeaders request resp false
      let date ← formatGmtDate
      Registrar.sendResponse txn (resp.addHeader (bytes "Date") date)

theorem sendChallenge_eq (registrar : Registrar scscfOps) (request : SipMessage) (txn : Nat) :
    registrar.sendChallenge request txn =
      chosenChallenge request registrar.authProviders >>= answerChallenge request txn := by
  rw [Registrar.sendChallenge, Registrar.selectProviderForInitialRegister, chosenChallenge,
    Program.bind_assoc]
  congr 1
  funext chosen
  cases chosen with
  | none => rfl
  | some provider =>
      rw [challengeOf, Program.bind_assoc]
      refine congrArg (provider.createChallenge request >>= ·) (funext fun result => ?_)
      cases result with
      | error error => rfl
      | ok challenge => rfl

/-! ## In a world -/

/-- The answers that there are for the operations of the S-CSCF. -/
abbrev ScscfWorld (σ : Type) := σ → (op : ScscfOp) → σ × op.Answer

section

variable {σ : Type} (world : ScscfWorld σ) (request : SipMessage)

/-- The request is answered with a 401 that has a challenge. -/
def Challenged (registrar : Registrar scscfOps) (txn : Nat) (s : σ) : Prop :=
  ((registrar.sendChallenge request txn).runIn world s).result = .ok () ∧
    ∃ (response : SipMessage) (challenge : AuthChallenge),
      ((registrar.sendChallenge request txn).runIn world s).issued.getLast? =
        some (.respond (txn, response)) ∧ response.statusCode = 401 ∧
      ⟨bytes "WWW-Authenticate", some challenge.wwwAuthenticate⟩ ∈ response.headers

/-- Some provider that is for the request has a challenge when it is its turn. -/
def Succeeds (providers : List (AuthProvider scscfOps)) (s : σ) : Prop :=
  ∃ challenge, ((firstChallenge request providers).runIn world s).result = .ok (some challenge)

/-- The provider that is chosen fails, and one after it would have had a challenge. -/
def Preempted : List (AuthProvider scscfOps) → σ → Prop
  | [], _ => False
  | provider :: providers, s =>
      let asked := (provider.canHandleInitialRegister request).runIn world s
      let tried := (provider.createChallenge request).runIn world asked.state
      asked.result = .ok false ∧ Preempted providers asked.state ∨
        asked.result = .ok true ∧ (∃ error, tried.result = .ok (.error error)) ∧
          Succeeds world request providers tried.state

variable {world request} {s : σ}

/-- Without a challenge the request is rejected. -/
theorem issued_answer_none (world : ScscfWorld σ) (request : SipMessage) (txn : Nat) (t : σ) :
    ∃ (earlier : List scscfOps.Op) (response : SipMessage),
      ((answerChallenge request txn none).runIn world t).issued =
        earlier ++ [.respond (txn, response)] ∧ response.statusCode = 501 :=
  ⟨[.environment .generateTag], _, rfl, statusCode_createResponse _ _ _ _⟩

theorem issued_answer_some (world : ScscfWorld σ) (request : SipMessage) (txn : Nat) (t : σ)
    (challenge : AuthChallenge) :
    ∃ (earlier : List scscfOps.Op) (response : SipMessage),
      ((answerChallenge request txn (some challenge)).runIn world t).issued =
        earlier ++ [.respond (txn, response)] ∧ response.statusCode = 401 ∧
        ⟨bytes "WWW-Authenticate", some challenge.wwwAuthenticate⟩ ∈ response.headers := by
  refine ⟨[.environment .generateTag, .environment .formatGmtDate], _, rfl, ?_, ?_⟩
  · exact (statusCode_addSecurityAgreementHeaders _ _ _).trans (statusCode_createResponse _ _ _ _)
  · apply SipMessage.mem_headers_addHeader
    apply mem_headers_addSecurityAgreementHeaders
    exact List.mem_append_right _ (List.mem_singleton.mpr rfl)

/-- The answer is a 401 exactly where there is a challenge to send. -/
theorem challenged_iff (registrar : Registrar scscfOps) (txn : Nat) :
    Challenged world request registrar txn s ↔
      ∃ challenge, ((chosenChallenge request registrar.authProviders).runIn world s).result =
        .ok (some challenge) := by
  rw [Challenged, sendChallenge_eq]
  cases hchosen : ((chosenChallenge request registrar.authProviders).runIn world s).result with
  | error e =>
      rw [Program.runIn_bind_of_error hchosen]
      exact iff_of_false (fun h => by cases h.1) fun ⟨_, h⟩ => by cases h
  | ok chosen =>
      rw [Program.runIn_bind_of_ok hchosen]
      cases chosen with
      | none =>
          obtain ⟨earlier, rejection, hissued, hrejected⟩ := issued_answer_none world request txn
            ((chosenChallenge request registrar.authProviders).runIn world s).state
          refine iff_of_false ?_ fun ⟨_, h⟩ => by cases h
          rintro ⟨-, response, _, hlast, hcode, -⟩
          dsimp only at hlast
          rw [hissued, ← List.append_assoc] at hlast
          have hsame : some (ScscfOp.respond (txn, rejection)) = some (.respond (txn, response)) :=
            List.getLast?_concat.symm.trans hlast
          cases hsame
          rw [hrejected] at hcode
          exact absurd hcode (by decide)
      | some challenge =>
          obtain ⟨earlier, response, hissued, hcode, hheader⟩ :=
            issued_answer_some world request txn
            ((chosenChallenge request registrar.authProviders).runIn world s).state challenge
          refine iff_of_true ⟨rfl, response, challenge, ?_, hcode, hheader⟩ ⟨challenge, rfl⟩
          dsimp only
          rw [hissued, ← List.append_assoc]
          exact List.getLast?_concat

/-! ## The providers one by one -/

variable {provider : AuthProvider scscfOps} {providers : List (AuthProvider scscfOps)}

/-- The request is not for the provider. -/
theorem runIn_of_false
    (h : ((provider.canHandleInitialRegister request).runIn world s).result = .ok false) :
    (((chosenChallenge request (provider :: providers)).runIn world s).result =
      ((chosenChallenge request providers).runIn world
        ((provider.canHandleInitialRegister request).runIn world s).state).result) ∧
    (((firstChallenge request (provider :: providers)).runIn world s).result =
      ((firstChallenge request providers).runIn world
        ((provider.canHandleInitialRegister request).runIn world s).state).result) := by
  rw [chosenChallenge_cons, firstChallenge, Program.runIn_bind_of_ok h, Program.runIn_bind_of_ok h]
  exact ⟨rfl, rfl⟩

/-- The request is for the provider. -/
theorem runIn_of_true
    (h : ((provider.canHandleInitialRegister request).runIn world s).result = .ok true) :
    (((chosenChallenge request (provider :: providers)).runIn world s).result =
      ((challengeOf request (some provider)).runIn world
        ((provider.canHandleInitialRegister request).runIn world s).state).result) ∧
    (((firstChallenge request (provider :: providers)).runIn world s).result =
      ((provider.createChallenge request >>= fun
        | .error _ => firstChallenge request providers
        | .ok challenge => return some challenge).runIn world
        ((provider.canHandleInitialRegister request).runIn world s).state).result) := by
  rw [chosenChallenge_cons, firstChallenge, Program.runIn_bind_of_ok h, Program.runIn_bind_of_ok h]
  exact ⟨rfl, rfl⟩

/-- Trying one provider is as good as trying those after it as well, unless it fails and one of
those has a challenge. -/
theorem chosen_iff_tried_iff (providers : List (AuthProvider scscfOps)) (s : σ) :
    ((∃ challenge, ((challengeOf request (some provider)).runIn world s).result =
        .ok (some challenge)) ↔
      ∃ challenge, ((provider.createChallenge request >>= fun
        | .error _ => firstChallenge request providers
        | .ok challenge => return some challenge).runIn world s).result = .ok (some challenge)) ↔
      ¬ ((∃ error, ((provider.createChallenge request).runIn world s).result = .ok (.error error)) ∧
        Succeeds world request providers ((provider.createChallenge request).runIn world
          s).state) := by
  rw [challengeOf]
  cases htried : ((provider.createChallenge request).runIn world s).result with
  | error e =>
      rw [Program.runIn_bind_of_error htried, Program.runIn_bind_of_error htried]
      refine iff_of_true Iff.rfl ?_
      rintro ⟨⟨_, h⟩, -⟩
      cases h
  | ok result =>
      rw [Program.runIn_bind_of_ok htried, Program.runIn_bind_of_ok htried]
      cases result with
      | ok challenge =>
          refine iff_of_true (iff_of_true ⟨challenge, rfl⟩ ⟨challenge, rfl⟩) ?_
          rintro ⟨⟨_, h⟩, -⟩
          cases h
      | error error =>
          have hnone : ¬ ∃ challenge : AuthChallenge,
              (Except.ok none : Except Exception (Option AuthChallenge)) =
                .ok (some challenge) := by
            rintro ⟨_, h⟩
            cases h
          refine (iff_congr (iff_false_intro hnone) Iff.rfl).trans ?_
          rw [false_iff]
          exact not_congr ⟨fun h => ⟨⟨error, rfl⟩, h⟩, And.right⟩

/-- A challenge is chosen exactly where there is one, unless the choice has been preempted. -/
theorem chosen_iff_succeeds_iff (providers : List (AuthProvider scscfOps)) (s : σ) :
    ((∃ challenge, ((chosenChallenge request providers).runIn world s).result =
        .ok (some challenge)) ↔ Succeeds world request providers s) ↔
      ¬ Preempted world request providers s := by
  induction providers generalizing s with
  | nil =>
      refine iff_of_true (iff_of_false ?_ ?_) id
      · rintro ⟨_, h⟩
        cases h
      · rintro ⟨_, h⟩
        cases h
  | cons provider providers ih =>
      cases hasked : ((provider.canHandleInitialRegister request).runIn world s).result with
      | error e =>
          rw [Succeeds, chosenChallenge_cons, firstChallenge, Program.runIn_bind_of_error hasked,
            Program.runIn_bind_of_error hasked]
          refine iff_of_true Iff.rfl ?_
          rintro (⟨hfalse, -⟩ | ⟨htrue, -⟩)
          · rw [hasked] at hfalse
            cases hfalse
          · rw [hasked] at htrue
            cases htrue
      | ok handles =>
          cases handles with
          | false =>
              rw [Succeeds, (runIn_of_false hasked).1, (runIn_of_false hasked).2]
              refine (ih _).trans (not_congr ?_)
              constructor
              · exact fun h => .inl ⟨hasked, h⟩
              · rintro (⟨-, h⟩ | ⟨htrue, -⟩)
                · exact h
                · rw [hasked] at htrue
                  cases htrue
          | true =>
              rw [Succeeds, (runIn_of_true hasked).1, (runIn_of_true hasked).2]
              refine (chosen_iff_tried_iff providers _).trans (not_congr ?_)
              constructor
              · exact fun h => .inr ⟨hasked, h⟩
              · rintro (⟨hfalse, -⟩ | ⟨-, h⟩)
                · rw [hasked] at hfalse
                  cases hfalse
                · exact h

theorem not_succeeds_nil : ¬ Succeeds world request [] s := by
  rintro ⟨_, h⟩
  cases h

theorem not_preempted_singleton : ¬ Preempted world request [provider] s := by
  rintro (⟨-, h⟩ | ⟨-, -, h⟩)
  · exact h
  · exact not_succeeds_nil h

end

/-! ## The providers of a configuration -/

section

variable [OsipParser] [Md5] {σ : Type} (world : ScscfWorld σ) (s : σ) (hss : HssClient scscfOps)
variable (domain : Bytes) (request : SipMessage)

/-- The HSS has no vector for the subscriber, who has a password. -/
def DigestLeftOut : Prop :=
  (∃ error, ((ImsAkaAuthProvider.createChallenge hss domain request).runIn world s).result =
      .ok (.error error)) ∧
    Succeeds world request [DigestAuthProvider.provider domain]
      ((ImsAkaAuthProvider.createChallenge hss domain request).runIn world s).state

/-- AKA is for every REGISTER. -/
theorem preempted_both_iff (hregister : request.method = bytes "REGISTER") :
    Preempted world request
        [ImsAkaAuthProvider.provider hss domain, DigestAuthProvider.provider domain] s ↔
      DigestLeftOut world s hss domain request := by
  have hasked : ((ImsAkaAuthProvider.provider hss domain).canHandleInitialRegister request).runIn
      world s = ⟨s, .ok true, []⟩ := by
    change Program.runIn world (.pure (request.method == bytes "REGISTER")) s = _
    rw [hregister, beq_self_eq_true]
    rfl
  rw [Preempted, hasked]
  constructor
  · rintro (⟨hfalse, -⟩ | ⟨-, h⟩)
    · cases hfalse
    · exact h
  · exact fun h => .inr ⟨rfl, h⟩

/-- A REGISTER is challenged exactly where some provider has a challenge for it, unless both
providers are configured and the first one fails where the second one would not. -/
theorem challenged_iff_succeeds_iff (authMode : Bytes) (digestStore : Bool) (txn : Nat)
    (hregister : request.method = bytes "REGISTER") :
    (Challenged world request (scscfRegistrar authMode digestStore hss domain) txn s ↔
        Succeeds world request (buildAuthProviders authMode digestStore hss domain) s) ↔
      ¬ (authMode = bytes "hybrid_fallback" ∧ digestStore = true ∧
        DigestLeftOut world s hss domain request) := by
  rw [challenged_iff]
  refine (chosen_iff_succeeds_iff _ s).trans (not_congr ?_)
  by_cases hdigest : authMode = bytes "digest_only"
  · have hother : authMode ≠ bytes "hybrid_fallback" := by
      rw [hdigest]
      decide
    refine iff_of_false ?_ fun h => hother h.1
    simp only [scscfRegistrar, buildAuthProviders, if_pos hdigest]
    cases digestStore
    · exact id
    · exact not_preempted_singleton
  · by_cases hboth : authMode = bytes "hybrid_fallback"
    · simp only [scscfRegistrar, buildAuthProviders, if_neg hdigest, if_pos hboth]
      cases digestStore with
      | false => exact iff_of_false not_preempted_singleton fun h => Bool.false_ne_true h.2.1
      | true =>
          refine (preempted_both_iff world s hss domain request hregister).trans ?_
          exact ⟨fun h => ⟨hboth, rfl, h⟩, fun h => h.2.2⟩
    · refine iff_of_false ?_ fun h => hboth h.1
      simp only [scscfRegistrar, buildAuthProviders, if_neg hdigest, if_neg hboth]
      exact not_preempted_singleton

end

/-! ## A subscriber without a vector -/

/-- What a request for a table is answered that has to wait. -/
def PendingAuthOp.waiting : (op : PendingAuthOp) → PendingAuthAnswer op
  | .hasPending _ _ => false
  | .begin _ => .owner 0
  | .complete _ _ => ()
  | .setValue _ _ => ()
  | .get _ => .error (authError "no result")
  | .findPending _ _ => none
  | .consume _ _ => false

/-- The HSS refuses everything, and the credential store has a password for everybody. -/
def passwordWorld (credential : DigestCredential) : ScscfWorld (PendingAuths × PendingDigests)
  | s, .store op => (s, (serveStore .init 0 none op).2)
  | s, .hss (.multimediaAuth _) => (s, .error (authError "unknown user"))
  | s, .hss (.serverAssignment _) => (s, .error (authError "unknown user"))
  | s, .pendingAuths op =>
      match s.1.serve 0 0 op with
      | none => (s, op.waiting)
      | some (auths, answer) => ((auths, s.2), answer)
  | s, .pendingDigests op => ((s.1, (s.2.serve 0 op).1), (s.2.serve 0 op).2)
  | s, .credentials (.findByUsername _ _) => (s, .ok (some credential))
  | s, .credentials (.findByIdentity _) => (s, .ok (some credential))
  | s, .environment op => (s, ({} : Surroundings).answer 0 op)
  | s, .respond _ => (s, ())

/-- A soft phone and its user. -/
def softPhone : DigestCredential :=
  { username := bytes "alice", realm := bytes "ims.local", password := bytes "secret"
    impi := bytes "alice@ims.local", impu := bytes "sip:alice@ims.local", associatedImpus := [] }

def softRegister : SipMessage := .register "sip:alice@ims.local" "sip:alice@ims.local"

@[reducible] def noDigests : Md5 := .ofTable []

theorem digestLeftOut_softRegister :
    @DigestLeftOut plainUris noDigests _ (passwordWorld softPhone) (.init, .empty) HssClient.remote
      (bytes "ims.local") softRegister :=
  ⟨⟨_, rfl⟩, _, rfl⟩

theorem challenged_iff_succeeds_iff_softRegister :
    let _ : OsipParser := plainUris
    let _ : Md5 := noDigests
    (Challenged (passwordWorld softPhone) softRegister
        (scscfRegistrar (bytes "digest_only") true HssClient.remote (bytes "ims.local")) 0
        (.init, .empty) ↔
      Succeeds (passwordWorld softPhone) softRegister
        (buildAuthProviders (bytes "digest_only") true HssClient.remote (bytes "ims.local"))
        (.init, .empty)) ↔
      ¬ (bytes "digest_only" = bytes "hybrid_fallback" ∧ true = true ∧
        DigestLeftOut (passwordWorld softPhone) (.init, .empty) HssClient.remote
          (bytes "ims.local") softRegister) := by
  let _ : OsipParser := plainUris
  let _ : Md5 := noDigests
  exact challenged_iff_succeeds_iff (passwordWorld softPhone) (.init, .empty) HssClient.remote
    (bytes "ims.local") softRegister (bytes "digest_only") true 0 rfl

/-- The soft phone is rejected although both modes of authentication are configured. -/
theorem soft_phone_is_rejected :
    let _ : OsipParser := plainUris
    let _ : Md5 := noDigests
    ¬ ∀ (σ : Type) (world : ScscfWorld σ) (s : σ) (hss : HssClient scscfOps)
      (domain : Bytes) (request : SipMessage) (authMode : Bytes) (digestStore : Bool) (txn : Nat),
      request.method = bytes "REGISTER" →
      (Challenged world request (scscfRegistrar authMode digestStore hss domain) txn s ↔
        Succeeds world request (buildAuthProviders authMode digestStore hss domain) s) := by
  let _ : OsipParser := plainUris
  let _ : Md5 := noDigests
  change ¬ _
  intro h
  have hfollows := h _ (passwordWorld softPhone) (.init, .empty) HssClient.remote
    (bytes "ims.local") softRegister (bytes "hybrid_fallback") true 0 rfl
  rw [challenged_iff] at hfollows
  refine (chosen_iff_succeeds_iff _ _).mp hfollows ?_
  exact (preempted_both_iff _ _ _ _ _ rfl).mpr digestLeftOut_softRegister

end SimIms.SCscf
