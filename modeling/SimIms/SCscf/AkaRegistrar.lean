import SimIms.Db.Identities
import SimIms.Diameter.MongoHssClient
import SimIms.SCscf.AkaCalls
import SimIms.SCscf.RegistrarCalls

/-!
# The registrar with the AKA provider

Requests share the memory store, the challenges of the provider and the collection of
subscribers, which the HSS client of both reads. A challenge belongs to the subscriber that the
identities of its request stand for, and a registration to the challenge that it has answered.
-/

namespace SimIms.SCscf

open Cxx Lib Sip Db Diameter Registration

/-! ## Operations -/

inductive AkaRegistrarOp where
  | store (op : StoreOp)
  | pendingAuths (op : PendingAuthOp)
  | repository (op : RepositoryOp)
  | environment (op : EnvironmentOp)
  | respond (response : Nat × SipMessage)

abbrev AkaRegistrarOp.Answer : AkaRegistrarOp → Type
  | .store op => StoreAnswer op
  | .pendingAuths op => PendingAuthAnswer op
  | .repository op => RepositoryAnswer op
  | .environment op => EnvironmentAnswer op
  | .respond _ => Unit

def akaRegistrarOps : Interface := ⟨AkaRegistrarOp, AkaRegistrarOp.Answer⟩

instance : Includes registrationStore akaRegistrarOps := ⟨.store, fun _ answer => answer⟩
instance : Includes pendingAuths akaRegistrarOps := ⟨.pendingAuths, fun _ answer => answer⟩
instance : Includes repository akaRegistrarOps := ⟨.repository, fun _ answer => answer⟩
instance : Includes environment akaRegistrarOps := ⟨.environment, fun _ answer => answer⟩
instance : Includes responses akaRegistrarOps := ⟨.respond, fun _ answer => answer⟩

structure AkaRegistrarState where
  store : MemoryRegistrationStore
  auths : PendingAuths
  collection : Collection
  now : Nat

/-- What is not determined by the state: which entry of a hash table comes first, what the
surroundings answer, and whether the database fails. -/
structure AkaRegistrarEnvironment where
  choice : Nat := 0
  surroundings : Surroundings := {}
  failure : Option ErrorInfo := none

def AkaRegistrarState.serve (s : AkaRegistrarState) :
    (op : AkaRegistrarOp) → AkaRegistrarEnvironment →
      Option (AkaRegistrarState × op.Answer × List (Nat × SipMessage))
  | .store op, environment =>
      let result := serveStore s.store s.now environment.surroundings.follower op
      some ({ s with store := result.1 }, result.2, [])
  | .pendingAuths op, environment =>
      (s.auths.serve s.now environment.choice op).map fun result =>
        ({ s with auths := result.1 }, result.2, [])
  | .repository op, environment =>
      let result := s.collection.serve op environment.failure
      some ({ s with collection := result.1 }, result.2, [])
  | .environment op, environment => some (s, environment.surroundings.answer s.now op, [])
  | .respond response, _ => some (s, (), [response])

def AkaRegistrarState.background (s : AkaRegistrarState) : RegistrarBackground → AkaRegistrarState
  | .elapse milliseconds => { s with now := s.now + milliseconds }
  | .purgeExpired => { s with store := (s.store.purgeExpired s.now).1 }
  | .lookup impu => { s with store := (s.store.lookup s.now impu none).1 }

/-! ## Requests -/

/-- A request on its way, with the challenge that it has answered. -/
structure AkaRegistrarThread where
  request : SipMessage
  verified : Option PendingAuth := none

def AkaRegistrarThread.track (thread : AkaRegistrarThread) :
    (op : AkaRegistrarOp) → op.Answer → AkaRegistrarThread
  | .pendingAuths (.consume _ pending), answer =>
      if answer then { thread with verified := some pending } else thread
  | _, _ => thread

section

variable [OsipParser] [Md5] [Milenage] (domain : Bytes)

/-- The registrar with the AKA provider, both with the HSS client over the repository. -/
def Registrar.aka : Registrar akaRegistrarOps :=
  { authProviders := [ImsAkaAuthProvider.provider MongoHssClient.client domain]
    hss := MongoHssClient.client
    domain }

def Registrar.akaService : Service AkaRegistrarState akaRegistrarOps Exception AkaRegistrarThread
    Unit AkaRegistrarEnvironment (SipMessage × Nat) RegistrarBackground (Nat × SipMessage) where
  serve := AkaRegistrarState.serve
  begin request := (Registrar.aka domain).handleRegister request.1 request.2
  background s event := some (s.background event)
  fresh request := { request := request.1 }
  track := AkaRegistrarThread.track

end

abbrev AkaRegistrarThreads :=
  Threads AkaRegistrarState akaRegistrarOps Exception AkaRegistrarThread Unit

/-! ## What a request may do -/

section

variable [OsipParser] (views : List SubscriberView)

/-- The challenge has the vector of the subscriber that its identities stand for. -/
def PendingAuth.Owned (pending : PendingAuth) : Prop :=
  Collection.resolve views pending.impi (normalizeImpuUri pending.impu) =
    some pending.subscriber.view

/-- The request has answered this challenge correctly. -/
structure AkaRegistrarThread.VerifiedAgainst [Md5] (thread : AkaRegistrarThread)
    (pending : PendingAuth) : Prop where
  verified : thread.verified = some pending
  correct : CorrectDigest thread.request pending

variable [Md5]

/-- A batch that may add contacts is for the identity of the challenge answered, and for those
of its subscriber. -/
def AkaRegistrarThread.Registers (thread : AkaRegistrarThread) (batch : ContactBatchUpsert) :
    Prop :=
  ∃ pending, thread.VerifiedAgainst pending ∧ pending.Owned views ∧ ∀ impu,
    impu ∈ batch.impus.elems ↔
      impu = pending.impu ∨ impu ∈ pending.subscriber.identities.associatedImpus

def AkaRegistrarThread.Allows (thread : AkaRegistrarThread) : AkaRegistrarOp → Prop
  | .store (.upsertContacts batch) =>
      batch.requireExistingMatch = true ∨ thread.Registers views batch
  | .pendingAuths (.complete _ result) => ∀ pending, result = .ok pending → pending.Owned views
  | .pendingAuths (.consume _ pending) =>
      pending.Owned views ∧ CorrectDigest thread.request pending
  | _ => True

def AkaRegistrarOp.Expects : (op : AkaRegistrarOp) → op.Answer → Prop
  | .repository (.findOneByField field value), answer => ∀ found, answer = .ok found →
      found.map SubscriberRecord.view = Collection.findView views field value
  | .pendingAuths (.findPending _ _), answer => ∀ key pending, answer = some (key, pending) →
      pending.Owned views
  | _, _ => True

def AkaRegistrarThread.contract : Contract akaRegistrarOps AkaRegistrarThread where
  Allows := AkaRegistrarThread.Allows views
  Expects := AkaRegistrarOp.Expects views
  Throws _ := True
  track := AkaRegistrarThread.track

end

/-! ## The subscriber of a pair of identities -/

namespace AkaRegistrar

section

variable [OsipParser] [Md5] {views : List SubscriberView} {thread : AkaRegistrarThread}

/-- The triple of a query, which leaves the history alone. -/
abbrev Finds (views : List SubscriberView) (thread : AkaRegistrarThread) {α : Type}
    (query : Program akaRegistrarOps Exception (Result α)) (found : α → Prop) : Prop :=
  Program.Returns (AkaRegistrarThread.contract views) thread query
    fun g answer => g = thread ∧ found answer

theorem findFirst_finds (field : Field) (values : List Bytes) :
    Finds views thread (MongoSubscriberRepository.findFirst field values) fun found =>
      found.map SubscriberRecord.view = values.findSome? (Collection.findView views field) := by
  induction values with
  | nil => exact Program.returns_pure fun found hfound => by cases hfound; exact ⟨rfl, rfl⟩
  | cons value values ih =>
      have hone : Finds views thread (MongoSubscriberRepository.findOneByField field value)
          fun found => found.map SubscriberRecord.view = Collection.findView views field value :=
        ⟨trivial, fun _ hanswer found hfound => ⟨rfl, hanswer found hfound⟩⟩
      refine hone.andThen ?_
      rintro g found ⟨rfl, hfound⟩
      rw [List.findSome?_cons, ← hfound]
      cases found with
      | none => exact ih
      | some record => exact Program.returns_pure fun _ heq => by cases heq; exact ⟨rfl, rfl⟩

theorem findByImpiOrImpu_finds (impi impu : Bytes) :
    Finds views thread (MongoSubscriberRepository.findByImpiOrImpu impi impu) fun found =>
      found.map SubscriberRecord.view = Collection.resolve views impi impu := by
  refine (findFirst_finds .imsi _).andThen ?_
  rintro g found ⟨rfl, hfound⟩
  rw [Collection.resolve, ← hfound]
  cases found with
  | none => exact findFirst_finds .tel _
  | some record => exact Program.returns_pure fun _ heq => by cases heq; exact ⟨rfl, rfl⟩

theorem findSubscriber_finds (message : String) (impi impu : Bytes) :
    Finds views thread (MongoHssClient.findSubscriber message impi impu) fun subscriber =>
      Collection.resolve views impi (normalizeImpuUri impu) = some subscriber.view := by
  refine (findByImpiOrImpu_finds impi (normalizeImpuUri impu)).andThen ?_
  rintro g found ⟨rfl, hfound⟩
  cases found with
  | none => exact Program.returns_pure fun _ => nofun
  | some record => exact Program.returns_pure fun _ heq => by cases heq; exact ⟨rfl, hfound.symm⟩

theorem advanceSqn_finds (impi : Bytes) (step mask : UInt64) :
    Finds views thread (MongoSubscriberRepository.advanceSqn impi step mask) fun _ => True := by
  suffices hrounds : ∀ rounds imsi, Finds views thread
      (MongoSubscriberRepository.advanceSqnRounds imsi step mask rounds) fun _ => True from
    hrounds 5 _
  intro rounds imsi
  induction rounds with
  | zero => exact Program.returns_pure fun _ => nofun
  | succ rounds ih =>
      refine ⟨trivial, fun found _ => ?_⟩
      match found with
      | .error _ => exact fun _ => nofun
      | .ok none => exact fun _ => nofun
      | .ok (some record) =>
          refine ⟨trivial, fun updated _ => ?_⟩
          match updated with
          | .error _ => exact fun _ => nofun
          | .ok true => exact fun _ _ => ⟨rfl, trivial⟩
          | .ok false => exact ih

/-- The vector is that of the subscriber whom the identities stand for. -/
theorem multimediaAuth_finds [Milenage] (params : MarParams) :
    Finds views thread (MongoHssClient.multimediaAuth params) fun maa =>
      Collection.resolve views params.impi (normalizeImpuUri params.impu) =
        some maa.subscriber.view := by
  refine (findSubscriber_finds "Subscriber not found for MAR" params.impi params.impu).andThen ?_
  rintro g subscriber ⟨rfl, hsubscriber⟩
  refine (advanceSqn_finds subscriber.identities.impi kSqnStep kSqnMask).andThen ?_
  rintro g oldSqn ⟨rfl, -⟩
  simp only
  split
  · exact Program.returns_pure fun _ => nofun
  · rename_i material _
    refine ⟨trivial, fun rand _ maa hmaa => ⟨rfl, ?_⟩⟩
    change (akaVector material rand).map _ = _ at hmaa
    cases hvector : akaVector material rand with
    | error error =>
        rw [hvector] at hmaa
        cases hmaa
    | ok authVector =>
        rw [hvector] at hmaa
        cases hmaa
        exact hsubscriber

/-- The identities assigned are those of the subscriber whom the pair stands for. -/
theorem serverAssignment_finds (params : SarParams) :
    Finds views thread (MongoHssClient.serverAssignment params) fun profile =>
      ∃ view, Collection.resolve views params.impi (normalizeImpuUri params.impu) = some view ∧
        profile.associatedImpus = view.identities.associatedImpus := by
  refine (findSubscriber_finds "Subscriber not found for SAR" params.impi params.impu).andThen ?_
  rintro g subscriber ⟨rfl, hsubscriber⟩
  have hserving : Finds views g (MongoSubscriberRepository.setServingScscf
      subscriber.identities.impi params.serverName) fun _ => True := by
    refine ⟨trivial, fun updated _ => ?_⟩
    match updated with
    | .error _ => exact fun _ => nofun
    | .ok true => exact fun _ _ => ⟨rfl, trivial⟩
    | .ok false => exact fun _ => nofun
  refine hserving.andThen ?_
  rintro g _ ⟨rfl, -⟩
  refine Program.returns_pure fun profile hprofile => ?_
  cases hprofile
  exact ⟨rfl, subscriber.view, hsubscriber, rfl⟩

/-! ## The provider -/

variable {domain : Bytes} {request : SipMessage} {txn : Nat}

/-- A request is verified for the identities of the challenge that it has answered. -/
theorem verifyAuthorization_returns :
    Program.Returns (AkaRegistrarThread.contract views) thread
      (ImsAkaAuthProvider.verifyAuthorization domain thread.request) fun g verification =>
        ∃ pending, g = { thread with verified := some pending } ∧ pending.Owned views ∧
          CorrectDigest thread.request pending ∧ verification.impi = pending.impi ∧
          verification.impu = pending.impu := by
  rw [ImsAkaAuthProvider.verifyAuthorization]
  cases hheader : thread.request.getHeader (bytes "Authorization") with
  | none => exact Program.returns_error
  | some header =>
      cases hparse : AuthManager.parseAuthorization header with
      | error error =>
          simp only [hparse]
          exact Program.returns_error
      | ok params =>
          simp only [hparse]
          refine ⟨trivial, fun found hfound => ?_⟩
          cases found with
          | none => exact Program.returns_error
          | some found =>
              obtain ⟨key, pending⟩ := found
              change Program.Returns _ thread (ImsAkaAuthProvider.verifyPending
                thread.request header
                key pending) _
              rw [ImsAkaAuthProvider.verifyPending]
              split
              · rename_i hverify
                obtain ⟨params, nonce, hparse, hnonce, hcorrect, -⟩ :=
                  AuthManager.verifyResponse_eq_true_iff.mp hverify
                have hdigest : CorrectDigest thread.request pending :=
                  ⟨header, params, nonce, hheader, hparse, hnonce, hcorrect⟩
                have howned : pending.Owned views := hfound key pending rfl
                refine ⟨⟨howned, hdigest⟩, fun consumed _ => ?_⟩
                cases consumed with
                | false => exact Program.returns_error
                | true =>
                    intro verification hverification
                    cases hverification
                    exact ⟨pending, rfl, howned, hdigest, rfl, rfl⟩
              · exact Program.returns_error

theorem canHandleAuthorization_meets :
    (ImsAkaAuthProvider.canHandleAuthorization domain request).Meets
      (AkaRegistrarThread.contract views) thread fun g _ => g = thread := by
  rw [ImsAkaAuthProvider.canHandleAuthorization]
  cases request.getHeader (bytes "Authorization") with
  | none => rfl
  | some header =>
      cases hparse : AuthManager.parseAuthorization header with
      | error error =>
          simp only [hparse]
          rfl
      | ok params =>
          simp only [hparse]
          exact ⟨trivial, fun _ _ => rfl⟩

/-- There is one provider to be found. -/
theorem findProvider_meets {provider : AuthProvider akaRegistrarOps}
    {condition : AuthProvider akaRegistrarOps → Program akaRegistrarOps Exception Bool}
    (h : (condition provider).Meets (AkaRegistrarThread.contract views) thread
      fun g _ => g = thread) :
    (Registrar.findProvider condition [provider]).Meets (AkaRegistrarThread.contract views) thread
      fun g found => g = thread ∧ ∀ p, found = some p → p = provider := by
  refine Program.Meets.bind h ?_
  rintro g suits rfl
  cases suits with
  | true => exact ⟨rfl, fun p hp => (Option.some.inj hp).symm⟩
  | false => exact ⟨rfl, fun p => nofun⟩

theorem makeContactBinding_meets (contact : Option Bytes) (expires : UInt32)
    (previous : Option ContactBinding) :
    (makeContactBinding (G := akaRegistrarOps) request contact expires previous).Meets
      (AkaRegistrarThread.contract views) thread fun g _ => g = thread := by
  refine ⟨trivial, fun now _ => ?_⟩
  change Program.Meets _ thread (Program.ofExcept request.cseq >>= fun cseq => Pure.pure _) _
  cases request.cseq with
  | error error => exact trivial
  | ok cseq => rfl

theorem findExisting_meets (selector : ContactBindingSelector) (contacts : List ContactBinding) :
    (Registrar.findExisting (G := akaRegistrarOps) selector contacts).Meets
      (AkaRegistrarThread.contract views) thread fun g _ => g = thread := by
  induction contacts with
  | nil => rfl
  | cons candidate candidates ih =>
      refine ⟨trivial, fun now _ => ?_⟩
      change Program.Meets _ thread
        (if candidate.live now && matchesSelector candidate selector then
          Pure.pure (some candidate) else Registrar.findExisting selector candidates) _
      split
      · rfl
      · exact ih

/-- Nothing is asked of how a program ends. -/
abbrev Goes (views : List SubscriberView) (thread : AkaRegistrarThread) {α : Type}
    (program : Program akaRegistrarOps Exception α) : Prop :=
  program.Meets (AkaRegistrarThread.contract views) thread fun _ _ => True

theorem respond_goes {statusCode : Int} {reason : String} :
    Goes views thread (Registrar.respond request txn statusCode reason) :=
  ⟨trivial, fun _ _ => ⟨trivial, fun _ _ => trivial⟩⟩

theorem sendRegisterOk_goes {expires : UInt32} {associatedImpus : List Bytes} :
    Goes views thread (Registrar.sendRegisterOk request txn expires associatedImpus) :=
  ⟨trivial, fun _ _ => ⟨trivial, fun _ _ => ⟨trivial, fun _ _ => trivial⟩⟩⟩

/-- After a removal, whatever it has removed, comes the answer. -/
theorem confirm_goes : Goes views thread (do
    let tag ← generateTag
    let resp := createResponse request 200 (bytes "OK") tag
    let date ← formatGmtDate
    Registrar.sendResponse txn (resp.addHeader (bytes "Date") date)) :=
  ⟨trivial, fun _ _ => ⟨trivial, fun _ _ => ⟨trivial, fun _ _ => trivial⟩⟩⟩

section

variable [Milenage]

theorem requestVector_finds (impi impu : Bytes) :
    Finds views thread (ImsAkaAuthProvider.requestVector MongoHssClient.client domain impi impu)
      fun pending => pending.Owned views := by
  refine (multimediaAuth_finds _).andThen ?_
  rintro g maa ⟨rfl, hmaa⟩
  refine ⟨trivial, fun now _ pending hpending => ?_⟩
  cases hpending
  exact ⟨rfl, hmaa⟩

theorem createChallenge_goes :
    Goes views thread (ImsAkaAuthProvider.createChallenge MongoHssClient.client domain
      request) := by
  rw [ImsAkaAuthProvider.createChallenge]
  refine Program.Meets.bind (Q := fun _ _ => True) ⟨trivial, fun _ _ => trivial⟩ ?_
  rintro g begun -
  cases begun with
  | pending pending => exact trivial
  | inFlight promise => exact ⟨trivial, fun _ _ => trivial⟩
  | owner promise =>
      -- Only syntactically: the program must not be run here.
      with_reducible refine Program.Returns.bind (requestVector_finds _ _) ?_
      intro g result hresult
      exact ⟨fun pending hpending => (hresult pending hpending).2, fun _ _ =>
        ⟨trivial, fun _ _ => trivial⟩⟩

/-! ## The handlers -/

theorem sendChallenge_goes :
    Goes views thread ((Registrar.aka domain).sendChallenge request txn) := by
  rw [Registrar.sendChallenge]
  refine Program.Meets.bind (findProvider_meets rfl) ?_
  rintro g found ⟨rfl, hfound⟩
  cases found with
  | none => exact respond_goes
  | some provider =>
      cases hfound provider rfl
      with_reducible refine Program.Meets.bind createChallenge_goes ?_
      rintro g challenge -
      cases challenge with
      | error error => exact respond_goes
      | ok challenge =>
          exact ⟨trivial, fun _ _ => ⟨trivial, fun _ _ => ⟨trivial, fun _ _ => trivial⟩⟩⟩

theorem assignment_finds (params : SarParams) :
    Finds views thread ((Registrar.aka domain).hss.serverAssignment params) fun profile =>
      ∃ view, Collection.resolve views params.impi (normalizeImpuUri params.impu) = some view ∧
        profile.associatedImpus = view.identities.associatedImpus := serverAssignment_finds params

/-- A refresh requires a match. -/
theorem refresh_goes {binding : RegistrationBinding} {contact : Bytes} {existing : ContactBinding} :
    Goes views thread ((Registrar.aka domain).refresh request txn binding contact existing) := by
  rw [Registrar.refresh]
  refine Program.Meets.bind (makeContactBinding_meets _ _ _) ?_
  rintro g refreshed rfl
  with_reducible refine Program.Returns.bind (assignment_finds _) ?_
  intro g saa _
  refine ⟨.inl rfl, fun result _ => ?_⟩
  match result with
  | .ok (n + 1) => exact sendRegisterOk_goes
  | .ok 0 => exact respond_goes
  | .error _ => exact respond_goes

/-- A request that is not handled is on its way as before. -/
theorem tryHandleReregister_meets :
    ((Registrar.aka domain).tryHandleReregister request txn).Meets
      (AkaRegistrarThread.contract views) thread fun g handled => handled = false → g = thread := by
  refine ⟨trivial, fun found _ => ?_⟩
  cases found with
  | error error => exact fun _ => rfl
  | ok binding =>
      change Program.Meets _ thread
        (if binding.state ≠ .registered then Pure.pure false else _) _
      split
      · exact fun _ => rfl
      · cases request.contact with
        | none => exact fun _ => rfl
        | some contact =>
            refine Program.Meets.bind (findExisting_meets _ _) ?_
            rintro g existing rfl
            cases existing with
            | none => exact fun _ => rfl
            | some existing =>
                refine Program.Meets.bind refresh_goes ?_
                exact fun _ _ _ => nofun

/-- A registration is for the identities of the challenge that was answered. -/
theorem register_goes {verification : AuthVerificationResult} {profile : UserProfile}
    {pending : PendingAuth} (hverified : thread.VerifiedAgainst pending)
    (howned : pending.Owned views) (himpu : verification.impu = pending.impu)
    (hprofile : profile.associatedImpus = pending.subscriber.identities.associatedImpus) :
    Goes views thread ((Registrar.aka domain).register request txn verification profile) := by
  rw [Registrar.register]
  refine Program.Meets.bind (makeContactBinding_meets _ _ _) ?_
  rintro g made rfl
  have hregisters : ∀ batch : ContactBatchUpsert,
      batch.impus = makeImpuSet profile.associatedImpus verification.impu →
      g.Registers views batch := by
    intro batch hbatch
    refine ⟨pending, hverified, howned, fun impu => ?_⟩
    rw [hbatch, mem_makeImpuSet_iff, himpu, hprofile]
  refine ⟨.inr (hregisters _ rfl), fun result _ => ?_⟩
  cases result with
  | error error => exact respond_goes
  | ok n => exact sendRegisterOk_goes

theorem verifyAndRegister_goes (hrequest : thread.request = request) :
    Goes views thread ((Registrar.aka domain).verifyAndRegister request txn) := by
  subst hrequest
  rw [Registrar.verifyAndRegister]
  refine Program.Meets.bind (findProvider_meets canHandleAuthorization_meets) ?_
  rintro g found ⟨rfl, hfound⟩
  cases found with
  | none => exact respond_goes
  | some provider =>
      cases hfound provider rfl
      refine Program.Returns.bind verifyAuthorization_returns ?_
      intro h verified hverified
      cases verified with
      | error error =>
          change Goes views h (if error.message = bytes "no pending auth state" then _ else _)
          split
          · exact sendChallenge_goes
          · exact respond_goes
      | ok verification =>
          obtain ⟨pending, rfl, howned, hcorrect, himpi, himpu⟩ := hverified verification rfl
          with_reducible refine Program.Returns.bind (assignment_finds _) ?_
          intro h saa hsaa
          cases saa with
          | error error => exact respond_goes
          | ok profile =>
              obtain ⟨rfl, view, hview, hprofile⟩ := hsaa profile rfl
              rw [himpi, himpu, howned] at hview
              cases hview
              exact register_goes ⟨rfl, hcorrect⟩ howned himpu hprofile

theorem handleDeregister_goes :
    Goes views thread ((Registrar.aka domain).handleDeregister request txn) := by
  rw [Registrar.handleDeregister]
  with_reducible refine Program.Returns.bind (assignment_finds _) ?_
  intro g saa _
  cases request.contact with
  | none => exact ⟨trivial, fun _ _ => confirm_goes⟩
  | some contact =>
      by_cases hwildcard : contact = bytes "*"
      · simp only [if_pos hwildcard]
        exact ⟨trivial, fun _ _ => confirm_goes⟩
      · simp only [if_neg hwildcard]
        cases request.cseq with
        | error error => exact trivial
        | ok cseq => exact ⟨trivial, fun _ _ => confirm_goes⟩

theorem handleRegister_goes (hrequest : thread.request = request) :
    Goes views thread ((Registrar.aka domain).handleRegister request txn) := by
  rw [Registrar.handleRegister]
  split
  · with_reducible exact handleDeregister_goes
  · with_reducible refine Program.Meets.bind tryHandleReregister_meets ?_
    intro g handled hhandled
    cases handled with
    | true => exact trivial
    | false =>
        cases hhandled rfl
        change Goes views thread (if hasAuthorization request then
          (Registrar.aka domain).verifyAndRegister request txn
          else (Registrar.aka domain).sendChallenge request txn)
        split
        · with_reducible exact verifyAndRegister_goes hrequest
        · with_reducible exact sendChallenge_goes

end

end

end AkaRegistrar

end SimIms.SCscf
