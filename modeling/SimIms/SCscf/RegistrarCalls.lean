import SimIms.Lib.Threads
import SimIms.Registration.StoreContents
import SimIms.SCscf.Registrar

/-!
# Requests to the registrar

Any number of requests share the memory store. The providers and the HSS answer whatever they
like, and time passes; besides, the store is purged and sessions look bindings up.

A request writes the store at most once. Which write it is follows from what the request has
found and been answered before, and a 200 is sent only after it.
-/

namespace SimIms.SCscf

open Cxx Lib Sip Diameter Registration

/-! ## Operations -/

inductive RegistrarOp where
  | store (op : StoreOp)
  | hss (op : HssOp)
  | provider (op : ProviderOp)
  | environment (op : EnvironmentOp)
  | respond (response : Nat × SipMessage)

abbrev RegistrarOp.Answer : RegistrarOp → Type
  | .store op => StoreAnswer op
  | .hss op => HssAnswer op
  | .provider op => ProviderAnswer op
  | .environment op => EnvironmentAnswer op
  | .respond _ => Unit

def registrarOps : Interface := ⟨RegistrarOp, RegistrarOp.Answer⟩

instance : Includes registrationStore registrarOps := ⟨.store, fun _ answer => answer⟩
instance : Includes hssRequests registrarOps := ⟨.hss, fun _ answer => answer⟩
instance : Includes providerRequests registrarOps := ⟨.provider, fun _ answer => answer⟩
instance : Includes environment registrarOps := ⟨.environment, fun _ answer => answer⟩
instance : Includes responses registrarOps := ⟨.respond, fun _ answer => answer⟩

/-- The store and the steady clock. -/
structure RegistrarState where
  store : MemoryRegistrationStore
  now : Nat

/-- What the surroundings, the HSS and the providers answer. -/
structure RegistrarEnvironment where
  surroundings : Surroundings := {}
  hss : (op : HssOp) → HssAnswer op
  provider : (op : ProviderOp) → ProviderAnswer op

/-- A provider that accepts everything, and an HSS that knows this set of identities only. -/
def RegistrarEnvironment.accepting (verification : AuthVerificationResult)
    (associatedImpus : List Bytes) : RegistrarEnvironment where
  hss
    | .multimediaAuth _ => .error { code := .diameterAuthFailed, message := [] }
    | .serverAssignment params => .ok
        { impu := params.impu
          associatedImpus := if associatedImpus.contains params.impu then associatedImpus else [] }
  provider
    | .canHandleInitialRegister _ _ => true
    | .canHandleAuthorization _ _ => true
    | .createChallenge _ _ => .error { code := .diameterAuthFailed, message := [] }
    | .verifyAuthorization _ _ => .ok verification

/-- The events are the responses, each with its transaction. -/
def RegistrarState.serve (s : RegistrarState) : (op : RegistrarOp) → RegistrarEnvironment →
    Option (RegistrarState × op.Answer × List (Nat × SipMessage))
  | .store op, environment =>
      let result := serveStore s.store s.now environment.surroundings.follower op
      some ({ s with store := result.1 }, result.2, [])
  | .hss op, environment => some (s, environment.hss op, [])
  | .provider op, environment => some (s, environment.provider op, [])
  | .environment op, environment => some (s, environment.surroundings.answer s.now op, [])
  | .respond response, _ => some (s, (), [response])

inductive RegistrarBackground where
  | elapse (milliseconds : Nat)
  | purgeExpired
  | lookup (impu : Bytes)

def RegistrarState.background (s : RegistrarState) : RegistrarBackground → RegistrarState
  | .elapse milliseconds => { s with now := s.now + milliseconds }
  | .purgeExpired => { s with store := (s.store.purgeExpired s.now).1 }
  | .lookup impu => { s with store := (s.store.lookup s.now impu none).1 }

/-! ## Requests -/

/-- A request on its way: what it has found, verified, been assigned and written. -/
structure RegistrarThread where
  request : SipMessage
  found : Option (Result RegistrationBinding) := none
  verification : Option AuthVerificationResult := none
  assignment : Option (SarParams × Result UserProfile) := none
  wrote : Option (StoreOp × Result Nat) := none

namespace RegistrarThread

def trackStore (thread : RegistrarThread) : (op : StoreOp) → StoreAnswer op → RegistrarThread
  | .lookup _, answer => { thread with found := some answer }
  | .upsertContacts batch, answer => { thread with wrote := some (.upsertContacts batch, answer) }
  | .removeContacts batch, answer => { thread with wrote := some (.removeContacts batch, answer) }
  | .removeBindings impus, answer => { thread with wrote := some (.removeBindings impus, answer) }

def track (thread : RegistrarThread) : (op : RegistrarOp) → op.Answer → RegistrarThread
  | .store op, answer => thread.trackStore op answer
  | .hss (.serverAssignment params), answer =>
      { thread with assignment := some (params, answer) }
  | .hss (.multimediaAuth _), _ => thread
  | .provider (.verifyAuthorization _ _), answer =>
      match answer with
      | .ok verification => { thread with verification := some verification }
      | .error _ => thread
  | .provider (.canHandleInitialRegister _ _), _ => thread
  | .provider (.canHandleAuthorization _ _), _ => thread
  | .provider (.createChallenge _ _), _ => thread
  | .environment _, _ => thread
  | .respond _, _ => thread

end RegistrarThread

section

variable [OsipParser] (providers : List Nat) (domain : Bytes)

/-- The registrar with these providers and a remote HSS. -/
def Registrar.remote : Registrar registrarOps :=
  { authProviders := providers.map AuthProvider.remote, hss := HssClient.remote, domain }

def Registrar.service : Service RegistrarState registrarOps Exception RegistrarThread Unit
    RegistrarEnvironment (SipMessage × Nat) RegistrarBackground (Nat × SipMessage) where
  serve := RegistrarState.serve
  begin request := (Registrar.remote providers domain).handleRegister request.1 request.2
  background s event := some (s.background event)
  fresh request := { request := request.1 }
  track := RegistrarThread.track

end

abbrev RegistrarThreads := Threads RegistrarState registrarOps Exception RegistrarThread Unit

/-! ## What a request may write -/

/-- The contact that `makeContactBinding` makes at this time. -/
def madeContact (request : SipMessage) (contact : Option Bytes) (expires : UInt32)
    (previous : Option ContactBinding) (now : Nat) (cseq : UInt32) : ContactBinding :=
  let or (value : Option Bytes) (field : ContactBinding → Bytes) : Bytes :=
    value.getD ((previous.map field).getD [])
  { contactUri := or contact ContactBinding.contactUri
    instanceId := or (request.contactParam (bytes "+sip.instance")) ContactBinding.instanceId
    regId := or (request.contactParam (bytes "reg-id")) ContactBinding.regId
    path := or (request.getHeader (bytes "Path")) ContactBinding.path
    expires := now + 1000 * expires.toNat
    userAgent := or (request.getHeader (bytes "User-Agent")) ContactBinding.userAgent
    callId := request.callId
    cseq }

/-- A contact that is made for a request is one that its selector matches. -/
theorem matchesSelector_madeContact (request : SipMessage) (contact : Bytes) (expires : UInt32)
    (previous : Option ContactBinding) (now : Nat) (cseq : UInt32) :
    matchesSelector (madeContact request (some contact) expires previous now cseq)
      (makeContactSelector request (some contact)) = true := by
  rw [makeContactSelector]
  simp only
  split
  · rename_i huses
    rw [matchesSelector, if_pos huses]
    simp only [ContactBindingSelector.usesInstanceAndRegId, Bool.and_eq_true,
      Bool.not_eq_true', List.isEmpty_eq_false_iff] at huses
    obtain ⟨hinstance, hregId⟩ := huses
    cases hi : request.contactParam (bytes "+sip.instance") with
    | none => exact (hinstance (by rw [hi]; rfl)).elim
    | some instanceId =>
        cases hr : request.contactParam (bytes "reg-id") with
        | none => exact (hregId (by rw [hr]; rfl)).elim
        | some regId => simp [madeContact, hi, hr]
  · simp [matchesSelector, ContactBindingSelector.usesInstanceAndRegId, madeContact]

/-- The identities under which a contact is refreshed. -/
def refreshedImpus (binding : RegistrationBinding) : Result UserProfile → List Bytes
  | .ok profile =>
      if profile.associatedImpus = [] then [binding.impu] else profile.associatedImpus
  | .error _ => [binding.impu]

/-- The identities from which a contact is removed, besides that of the request. -/
def deregisteredImpus : Result UserProfile → List Bytes
  | .ok profile => profile.associatedImpus
  | .error _ => []

theorem mem_makeImpuSet_iff {associated : List Bytes} {primary impu : Bytes} :
    impu ∈ (makeImpuSet associated primary).elems ↔ impu = primary ∨ impu ∈ associated := by
  rw [makeImpuSet, List.mem_insert_iff, List.mem_dedup]

theorem mem_refreshedImpus_iff {binding : RegistrationBinding} {saa : Result UserProfile}
    {impu : Bytes} :
    impu ∈ (makeImpuSet (refreshedImpus binding saa) binding.impu).elems ↔
      impu ∈ (makeImpuSet (deregisteredImpus saa) binding.impu).elems := by
  rw [mem_makeImpuSet_iff, mem_makeImpuSet_iff]
  cases saa with
  | error error => simp [refreshedImpus, deregisteredImpus]
  | ok profile =>
      rw [refreshedImpus, deregisteredImpus]
      split
      · rename_i hnone
        simp [hnone]
      · rfl

/-- A registrar, and the answers that its requests may get. -/
structure RegistrarSetting where
  providers : List Nat
  domain : Bytes
  expects : (op : RegistrarOp) → op.Answer → Prop

def RegistrarSetting.serverName (setting : RegistrarSetting) : Bytes :=
  bytes "sip:scscf." ++ setting.domain

/-- The first of the providers that answers with `true`. -/
def Chosen (answers : Nat → Bool → Prop) (providers : List Nat) (n : Nat) : Prop :=
  ∃ before after, providers = before ++ n :: after ∧ (∀ m ∈ before, answers m false) ∧
    answers n true

section

variable [OsipParser]

/-- The request has looked its binding up, and found no contact to refresh. -/
structure RegistrarThread.FindsNone (thread : RegistrarThread) (setting : RegistrarSetting)
    (found : Result RegistrationBinding) : Prop where
  looked : thread.found = some found
  lookup : setting.expects (.store (.lookup (extractImpu thread.request))) found
  none_matches : ∀ binding contact, found = .ok binding → binding.state = .registered →
    thread.request.contact = some contact → ∀ existing ∈ binding.contacts,
      matchesSelector existing (makeContactSelector thread.request (some contact)) = true →
      ∃ instant, setting.expects (.environment .clock) instant ∧ existing.live instant = false

/-- The writes of a request. -/
inductive RegistrarThread.Writes (thread : RegistrarThread) (setting : RegistrarSetting) :
    StoreOp → Prop
  | refresh {binding : RegistrationBinding} {contact : Bytes} {existing : ContactBinding}
      {instant now : Nat} {cseq : UInt32} {saa : Result UserProfile}
      (hregisters : isDeregister thread.request = false)
      (hfound : thread.found = some (.ok binding))
      (hlookup : setting.expects (.store (.lookup (extractImpu thread.request))) (.ok binding))
      (hstate : binding.state = .registered)
      (hcontact : thread.request.contact = some contact)
      (hexisting : existing ∈ binding.contacts)
      (hinstant : setting.expects (.environment .clock) instant)
      (hlive : existing.live instant = true)
      (hmatches : matchesSelector existing
        (makeContactSelector thread.request (some contact)) = true)
      (hunverified : thread.verification = none)
      (hassigned : thread.assignment = some
        (⟨binding.impi, binding.impu, setting.serverName⟩, saa))
      (hsaa : setting.expects (.hss (.serverAssignment
        ⟨binding.impi, binding.impu, setting.serverName⟩)) saa)
      (hnow : setting.expects (.environment .clock) now)
      (hcseq : thread.request.cseq = .ok cseq) :
      Writes thread setting (.upsertContacts
        { impus := makeImpuSet (refreshedImpus binding saa) binding.impu
          selector := makeContactSelector thread.request (some contact)
          contact := madeContact thread.request (some contact)
            (determineRegisterExpires thread.request) (some existing) now cseq
          impi := binding.impi
          scscfUri := binding.scscfUri
          state := .registered
          requireExistingMatch := true
          rejectOlderCseq := true })
  | register {found : Result RegistrationBinding} {verification : AuthVerificationResult}
      {profile : UserProfile} {n now : Nat} {cseq : UInt32}
      (hregisters : isDeregister thread.request = false)
      (hnone : thread.FindsNone setting found)
      (hchosen : Chosen
        (fun m => setting.expects (.provider (.canHandleAuthorization m thread.request)))
        setting.providers n)
      (hverified : thread.verification = some verification)
      (hverifies : setting.expects (.provider (.verifyAuthorization n thread.request))
        (.ok verification))
      (hassigned : thread.assignment = some
        (⟨verification.impi, verification.impu, setting.serverName⟩, .ok profile))
      (hsaa : setting.expects (.hss (.serverAssignment
        ⟨verification.impi, verification.impu, setting.serverName⟩)) (.ok profile))
      (hnow : setting.expects (.environment .clock) now)
      (hcseq : thread.request.cseq = .ok cseq) :
      Writes thread setting (.upsertContacts
        { impus := makeImpuSet profile.associatedImpus verification.impu
          selector := makeContactSelector thread.request thread.request.contact
          contact := madeContact thread.request thread.request.contact
            (determineRegisterExpires thread.request) none now cseq
          impi := verification.impi
          scscfUri := setting.serverName
          state := .registered
          requireExistingMatch := false
          rejectOlderCseq := true })
  | removeContacts {contact : Bytes} {cseq : UInt32} {saa : Result UserProfile}
      (hderegisters : isDeregister thread.request = true)
      (hcontact : thread.request.contact = some contact)
      (hnamed : contact ≠ bytes "*")
      (hassigned : thread.assignment = some
        (⟨extractImpi thread.request, extractImpu thread.request, setting.serverName⟩, saa))
      (hsaa : setting.expects (.hss (.serverAssignment
        ⟨extractImpi thread.request, extractImpu thread.request, setting.serverName⟩)) saa)
      (hcseq : thread.request.cseq = .ok cseq) :
      Writes thread setting (.removeContacts
        { impus := makeImpuSet (deregisteredImpus saa) (extractImpu thread.request)
          selector := makeContactSelector thread.request (some contact)
          callId := thread.request.callId
          cseq
          rejectOlderCseq := true })
  | removeBindings {saa : Result UserProfile}
      (hderegisters : isDeregister thread.request = true)
      (hcontact : ∀ contact, thread.request.contact = some contact → contact = bytes "*")
      (hassigned : thread.assignment = some
        (⟨extractImpi thread.request, extractImpu thread.request, setting.serverName⟩, saa))
      (hsaa : setting.expects (.hss (.serverAssignment
        ⟨extractImpi thread.request, extractImpu thread.request, setting.serverName⟩)) saa) :
      Writes thread setting (.removeBindings
        (makeImpuSet (deregisteredImpus saa) (extractImpu thread.request)))

/-- What has been written does not matter. -/
theorem RegistrarThread.Writes.afterwards {thread : RegistrarThread} {setting : RegistrarSetting}
    {op : StoreOp} (h : thread.Writes setting op) (wrote : Option (StoreOp × Result Nat)) :
    RegistrarThread.Writes { thread with wrote } setting op := by
  cases h with
  | refresh hregisters hfound hlookup hstate hcontact hexisting hinstant hlive hmatches hunverified
      hassigned hsaa hnow hcseq =>
      exact .refresh hregisters hfound hlookup hstate hcontact hexisting hinstant hlive hmatches
        hunverified hassigned hsaa hnow hcseq
  | register hregisters hnone hchosen hverified hverifies hassigned hsaa hnow hcseq =>
      exact .register hregisters ⟨hnone.looked, hnone.lookup, hnone.none_matches⟩ hchosen hverified
        hverifies hassigned hsaa hnow hcseq
  | removeContacts hderegisters hcontact hnamed hassigned hsaa hcseq =>
      exact .removeContacts hderegisters hcontact hnamed hassigned hsaa hcseq
  | removeBindings hderegisters hcontact hassigned hsaa =>
      exact .removeBindings hderegisters hcontact hassigned hsaa

/-- The request has written, and an upsert has gone through. -/
def RegistrarThread.Succeeded (thread : RegistrarThread) (setting : RegistrarSetting) : Prop :=
  ∃ op result, thread.wrote = some (op, result) ∧ thread.Writes setting op ∧
    ∀ batch, op = .upsertContacts batch →
      ∃ n, result = .ok n ∧ (batch.requireExistingMatch = true → 0 < n)

def RegistrarThread.Allows (thread : RegistrarThread) (setting : RegistrarSetting) :
    RegistrarOp → Prop
  | .store (.lookup impu) => isDeregister thread.request = false ∧
      impu = extractImpu thread.request ∧ thread.found = none ∧ thread.wrote = none
  | .store (.upsertContacts batch) =>
      thread.Writes setting (.upsertContacts batch) ∧ thread.wrote = none
  | .store (.removeContacts batch) =>
      thread.Writes setting (.removeContacts batch) ∧ thread.wrote = none
  | .store (.removeBindings impus) =>
      thread.Writes setting (.removeBindings impus) ∧ thread.wrote = none
  | .hss _ => thread.wrote = none
  | .provider (.verifyAuthorization _ request) =>
      request = thread.request ∧ thread.wrote = none
  | .provider _ => True
  | .environment _ => True
  | .respond (_, response) => response.statusCode = 200 → thread.Succeeded setting

def RegistrarThread.contract (setting : RegistrarSetting) :
    Contract registrarOps RegistrarThread where
  Allows thread op := thread.Allows setting op
  Expects := setting.expects
  Throws _ := True
  track := RegistrarThread.track

/-! ## The handlers -/

/-- The request is on its way and has not written. -/
structure RegistrarThread.Unwritten (request : SipMessage) (thread : RegistrarThread) : Prop where
  request_eq : thread.request = request
  wrote : thread.wrote = none

namespace Registrar

variable {setting : RegistrarSetting} {thread : RegistrarThread} {request : SipMessage} {txn : Nat}

/-- Nothing is asked of how a handler ends. -/
abbrev Goes (setting : RegistrarSetting) (thread : RegistrarThread) {α : Type}
    (program : Program registrarOps Exception α) : Prop :=
  program.Meets (RegistrarThread.contract setting) thread fun _ _ => True

theorem respond_goes {statusCode : Int} {reason : String} (h : statusCode ≠ 200) :
    Goes setting thread (respond (G := registrarOps) request txn statusCode reason) := by
  refine ⟨trivial, fun tag _ => ⟨?_, fun _ _ => trivial⟩⟩
  exact fun hok => (h ((statusCode_createResponse _ _ _ _).symm.trans hok)).elim

theorem sendRegisterOk_goes {expires : UInt32} {associatedImpus : List Bytes}
    (h : thread.Succeeded setting) :
    Goes setting thread
      (sendRegisterOk (G := registrarOps) request txn expires associatedImpus) :=
  ⟨trivial, fun _ _ => ⟨trivial, fun _ _ => ⟨fun _ => h, fun _ _ => trivial⟩⟩⟩

/-- Asking the providers changes nothing. The one that is found is the first that agrees. -/
theorem findProvider_meets {condition : AuthProvider registrarOps →
    Program registrarOps Exception Bool}
    (answers : Nat → Bool → Prop) (providers : List Nat)
    (hcondition : ∀ n, (condition (.remote n)).Meets (RegistrarThread.contract setting) thread
      fun g suits => g = thread ∧ answers n suits) :
    (findProvider condition (providers.map AuthProvider.remote)).Meets
      (RegistrarThread.contract setting) thread
      fun g provider => g = thread ∧
        ∀ p, provider = some p → ∃ n, p = .remote n ∧ Chosen answers providers n := by
  induction providers with
  | nil => exact ⟨rfl, fun _ => nofun⟩
  | cons first providers ih =>
      rw [List.map_cons, findProvider]
      refine Program.Meets.bind (hcondition first) ?_
      rintro g suits ⟨rfl, hanswer⟩
      cases suits with
      | true =>
          exact ⟨rfl, fun p hp => ⟨first, (Option.some.inj hp).symm, [], providers, rfl,
            fun _ => nofun, hanswer⟩⟩
      | false =>
          refine ih.mono ?_
          rintro g provider ⟨rfl, hfound⟩
          refine ⟨rfl, fun p hp => ?_⟩
          obtain ⟨n, hremote, before, after, rfl, hbefore, hn⟩ := hfound p hp
          refine ⟨n, hremote, first :: before, after, rfl, ?_, hn⟩
          exact List.forall_mem_cons.mpr ⟨hanswer, hbefore⟩

theorem sendChallenge_goes :
    Goes setting thread ((remote setting.providers setting.domain).sendChallenge request txn) := by
  rw [sendChallenge]
  refine Program.Meets.bind (findProvider_meets (fun _ _ => True) _
    fun n => ⟨trivial, fun _ _ => ⟨rfl, trivial⟩⟩) ?_
  rintro g found ⟨rfl, hremote⟩
  cases found with
  | none => exact respond_goes (by decide)
  | some provider =>
      obtain ⟨n, rfl, -⟩ := hremote provider rfl
      refine ⟨trivial, fun challenge _ => ?_⟩
      cases challenge with
      | error error => exact respond_goes (by decide)
      | ok challenge =>
          refine ⟨trivial, fun tag _ => ⟨trivial, fun date _ => ⟨?_, fun _ _ => trivial⟩⟩⟩
          have hstatus : ∀ tag date : Bytes, ((addSecurityAgreementHeaders request
              ((createResponse request 401 (bytes "Unauthorized") tag).addHeader
                (bytes "WWW-Authenticate") challenge.wwwAuthenticate) false).addHeader
                  (bytes "Date") date).statusCode = 401 := by
            intro tag date
            simp
          exact fun hok => absurd ((hstatus tag date).symm.trans hok) (by decide)

/-- The candidate that is found is live and matches. If there is none, none that matches is live. -/
theorem findExisting_meets (selector : ContactBindingSelector) (contacts : List ContactBinding) :
    (findExisting (G := registrarOps) selector contacts).Meets (RegistrarThread.contract setting)
      thread fun g existing => g = thread ∧
        (∀ contact, existing = some contact →
          contact ∈ contacts ∧ matchesSelector contact selector = true ∧
            ∃ instant, setting.expects (.environment .clock) instant ∧
              contact.live instant = true) ∧
        (existing = none → ∀ contact ∈ contacts, matchesSelector contact selector = true →
          ∃ instant, setting.expects (.environment .clock) instant ∧
            contact.live instant = false) := by
  induction contacts with
  | nil => exact ⟨rfl, fun _ => nofun, fun _ _ => nofun⟩
  | cons candidate candidates ih =>
      refine ⟨trivial, fun now hnow => ?_⟩
      change Program.Meets (RegistrarThread.contract setting) thread
        (if candidate.live now && matchesSelector candidate selector then
          Pure.pure (some candidate) else findExisting selector candidates) _
      split
      · rename_i hsuits
        rw [Bool.and_eq_true] at hsuits
        refine ⟨rfl, fun contact hcontact => ?_, nofun⟩
        cases hcontact
        exact ⟨List.mem_cons_self, hsuits.2, now, hnow, hsuits.1⟩
      · rename_i hsuits
        refine ih.mono ?_
        rintro g existing ⟨rfl, hsome, hnone⟩
        refine ⟨rfl, fun contact hcontact => ⟨List.mem_cons_of_mem _ (hsome contact hcontact).1,
          (hsome contact hcontact).2⟩, fun hexisting =>
            List.forall_mem_cons.mpr ⟨?_, hnone hexisting⟩⟩
        intro hmatches
        rw [hmatches, Bool.and_true, Bool.not_eq_true] at hsuits
        exact ⟨now, hnow, hsuits⟩

theorem makeContactBinding_meets (contact : Option Bytes) (expires : UInt32)
    (previous : Option ContactBinding) :
    (makeContactBinding (G := registrarOps) request contact expires previous).Meets
      (RegistrarThread.contract setting) thread fun g made => g = thread ∧
        ∃ now cseq, setting.expects (.environment .clock) now ∧ request.cseq = .ok cseq ∧
          made = madeContact request contact expires previous now cseq := by
  refine ⟨trivial, fun now hnow => ?_⟩
  change Program.Meets (RegistrarThread.contract setting) thread
    (Program.ofExcept request.cseq >>= fun cseq =>
      Pure.pure (madeContact request contact expires previous now cseq)) _
  cases hcseq : request.cseq with
  | error error => exact trivial
  | ok cseq => exact ⟨rfl, now, cseq, hnow, rfl, rfl⟩

theorem refresh_goes {binding : RegistrationBinding} {contact : Bytes} {existing : ContactBinding}
    (hopen : thread.Unwritten request) (hunverified : thread.verification = none)
    (hregisters : isDeregister request = false) (hfound : thread.found = some (.ok binding))
    (hlookup : setting.expects (.store (.lookup (extractImpu request))) (.ok binding))
    (hstate : binding.state = .registered) (hcontact : request.contact = some contact)
    (hexisting : existing ∈ binding.contacts ∧
      matchesSelector existing (makeContactSelector request (some contact)) = true ∧
      ∃ instant, setting.expects (.environment .clock) instant ∧
        existing.live instant = true) :
    Goes setting thread
      ((remote setting.providers setting.domain).refresh request txn binding contact existing) := by
  obtain ⟨rfl, hwrote⟩ := hopen
  obtain ⟨hmem, hmatches, instant, hinstant, hlive⟩ := hexisting
  refine Program.Meets.bind (makeContactBinding_meets _ _ _) ?_
  rintro g made ⟨rfl, now, cseq, hnow, hcseq, rfl⟩
  refine ⟨hwrote, fun saa hsaa => ?_⟩
  have hwrites : RegistrarThread.Writes
      { g with assignment := some (⟨binding.impi, binding.impu, setting.serverName⟩, saa) }
      setting _ :=
    .refresh hregisters hfound hlookup hstate hcontact hmem hinstant hlive hmatches hunverified rfl
      hsaa hnow hcseq
  refine ⟨⟨hwrites, hwrote⟩, fun result _ => ?_⟩
  match result with
  | .ok (n + 1) =>
      exact sendRegisterOk_goes
        ⟨_, _, rfl, hwrites.afterwards _, fun _ _ => ⟨n + 1, rfl, fun _ => n.succ_pos⟩⟩
  | .ok 0 => exact respond_goes (by decide)
  | .error _ => exact respond_goes (by decide)

/-- A request that is not handled has not written, and there is nothing to refresh. -/
theorem tryHandleReregister_meets (hregisters : isDeregister request = false) :
    ((remote setting.providers setting.domain).tryHandleReregister request txn).Meets
      (RegistrarThread.contract setting) { request }
      fun g handled => handled = false →
        g.Unwritten request ∧ ∃ found, g.FindsNone setting found := by
  refine ⟨⟨hregisters, rfl, rfl, rfl⟩, fun found hlookup => ?_⟩
  cases found with
  | error error =>
      exact fun _ => ⟨⟨rfl, rfl⟩, .error error, rfl, hlookup, fun _ _ => nofun⟩
  | ok binding =>
      have hskips : (∀ contact, binding.state = .registered → request.contact = some contact →
          ∀ existing ∈ binding.contacts,
            matchesSelector existing (makeContactSelector request (some contact)) = true →
            ∃ instant, setting.expects (.environment .clock) instant ∧
              existing.live instant = false) →
          RegistrarThread.FindsNone { request, found := some (.ok binding) } setting
            (.ok binding) := by
        refine fun hnone => ⟨rfl, hlookup, fun other contact heq => ?_⟩
        cases heq
        exact hnone contact
      change Program.Meets (RegistrarThread.contract setting)
        { request, found := some (.ok binding) }
        (if binding.state ≠ .registered then Pure.pure false else _) _
      split
      · rename_i hstate
        exact fun _ => ⟨⟨rfl, rfl⟩, _, hskips fun _ hregistered => (hstate hregistered).elim⟩
      · rename_i hstate
        cases hcontact : request.contact with
        | none =>
            refine fun _ => ⟨⟨rfl, rfl⟩, _, hskips fun contact _ hsome => ?_⟩
            rw [hcontact] at hsome
            cases hsome
        | some contact =>
            refine Program.Meets.bind (findExisting_meets _ _) ?_
            rintro g existing ⟨rfl, hsome, hnone⟩
            cases existing with
            | none =>
                refine fun _ => ⟨⟨rfl, rfl⟩, _, hskips fun other _ hother => ?_⟩
                rw [hcontact] at hother
                cases hother
                exact hnone rfl
            | some existing =>
                refine Program.Meets.bind (refresh_goes ⟨rfl, rfl⟩ rfl hregisters rfl hlookup
                  (not_not.mp hstate) hcontact (hsome existing rfl)) ?_
                exact fun _ _ _ => nofun

theorem register_goes {found : Result RegistrationBinding} {verification : AuthVerificationResult}
    {profile : UserProfile} {n : Nat} (hopen : thread.Unwritten request)
    (hregisters : isDeregister request = false) (hnone : thread.FindsNone setting found)
    (hchosen : Chosen (fun m => setting.expects (.provider (.canHandleAuthorization m request)))
      setting.providers n)
    (hverified : thread.verification = some verification)
    (hverifies : setting.expects (.provider (.verifyAuthorization n request)) (.ok verification))
    (hassigned : thread.assignment = some
      (⟨verification.impi, verification.impu, setting.serverName⟩, .ok profile))
    (hsaa : setting.expects (.hss (.serverAssignment
      ⟨verification.impi, verification.impu, setting.serverName⟩)) (.ok profile)) :
    Goes setting thread
      ((remote setting.providers setting.domain).register request txn verification profile) := by
  obtain ⟨rfl, hwrote⟩ := hopen
  refine Program.Meets.bind (makeContactBinding_meets _ _ _) ?_
  rintro g made ⟨rfl, now, cseq, hnow, hcseq, rfl⟩
  have hwrites : g.Writes setting _ :=
    .register hregisters hnone hchosen hverified hverifies hassigned hsaa hnow hcseq
  refine ⟨⟨hwrites, hwrote⟩, fun result _ => ?_⟩
  cases result with
  | error error => exact respond_goes (by decide)
  | ok n =>
      refine sendRegisterOk_goes
        ⟨_, _, rfl, hwrites.afterwards _, fun batch hbatch => ⟨n, rfl, ?_⟩⟩
      cases hbatch
      nofun

theorem verifyAndRegister_goes {found : Result RegistrationBinding}
    (hopen : thread.Unwritten request) (hregisters : isDeregister request = false)
    (hnone : thread.FindsNone setting found) :
    Goes setting thread ((remote setting.providers setting.domain).verifyAndRegister
      request txn) := by
  obtain ⟨rfl, hwrote⟩ := hopen
  refine Program.Meets.bind (findProvider_meets
    (fun n => setting.expects (.provider (.canHandleAuthorization n thread.request))) _
    fun n => ⟨trivial, fun _ hanswer => ⟨rfl, hanswer⟩⟩) ?_
  rintro g found ⟨rfl, hremote⟩
  cases found with
  | none => exact respond_goes (by decide)
  | some provider =>
      obtain ⟨n, rfl, hchosen⟩ := hremote provider rfl
      refine ⟨⟨rfl, hwrote⟩, fun verified hverifies => ?_⟩
      cases verified with
      | error error =>
          change Goes setting g
            (if error.message = bytes "no pending auth state" then
              (remote setting.providers setting.domain).sendChallenge g.request txn
            else respond g.request txn 403 "Forbidden")
          split
          · exact sendChallenge_goes
          · exact respond_goes (by decide)
      | ok verification =>
          refine ⟨hwrote, fun saa hsaa => ?_⟩
          cases saa with
          | error error => exact respond_goes (by decide)
          | ok profile =>
              exact register_goes ⟨rfl, hwrote⟩ hregisters
                ⟨hnone.looked, hnone.lookup, hnone.none_matches⟩ hchosen rfl hverifies rfl hsaa

/-- After a removal, whatever it has removed, comes the answer. -/
theorem confirm_goes {op : StoreOp} (hwrites : thread.Writes setting op)
    (hremoves : ∀ batch, op ≠ .upsertContacts batch) (result : Result Nat) :
    Goes setting { thread with wrote := some (op, result) } (do
      let tag ← generateTag
      let resp := createResponse request 200 (bytes "OK") tag
      let date ← formatGmtDate
      sendResponse txn (resp.addHeader (bytes "Date") date)) := by
  refine ⟨trivial, fun tag _ => ⟨trivial, fun date _ => ⟨fun _ => ?_, fun _ _ => trivial⟩⟩⟩
  exact ⟨op, result, rfl, hwrites.afterwards _, fun batch hbatch => (hremoves batch hbatch).elim⟩

theorem handleDeregister_goes (hopen : thread.Unwritten request)
    (hderegisters : isDeregister request = true) :
    Goes setting thread ((remote setting.providers setting.domain).handleDeregister
      request txn) := by
  obtain ⟨rfl, hwrote⟩ := hopen
  refine ⟨hwrote, fun saa hsaa => ?_⟩
  let assigned : RegistrarThread := { thread with
    assignment := some (⟨extractImpi thread.request, extractImpu thread.request,
      setting.serverName⟩, saa) }
  let confirm : Program registrarOps Exception Unit := do
    let tag ← generateTag
    let resp := createResponse thread.request 200 (bytes "OK") tag
    let date ← formatGmtDate
    sendResponse txn (resp.addHeader (bytes "Date") date)
  let targets := makeImpuSet (deregisteredImpus saa) (extractImpu thread.request)
  have hall : (∀ contact, thread.request.contact = some contact → contact = bytes "*") →
      Goes setting assigned (removeBindings targets >>= fun _ => confirm) := fun hcontact =>
    have hwrites : assigned.Writes setting _ := .removeBindings hderegisters hcontact rfl hsaa
    ⟨⟨hwrites, hwrote⟩, fun result _ => confirm_goes hwrites (fun _ => nofun) result⟩
  cases hcontact : thread.request.contact with
  | none =>
      apply hall
      intro contact hsome
      rw [hcontact] at hsome
      cases hsome
  | some contact =>
      by_cases hwildcard : contact = bytes "*"
      · simp only [if_pos hwildcard]
        apply hall
        intro other hsome
        rw [hcontact] at hsome
        cases hsome
        exact hwildcard
      · simp only [if_neg hwildcard]
        cases hcseq : thread.request.cseq with
        | error error => exact trivial
        | ok cseq =>
            have hwrites : assigned.Writes setting _ :=
              .removeContacts hderegisters hcontact hwildcard rfl hsaa hcseq
            exact ⟨⟨hwrites, hwrote⟩, fun result _ => confirm_goes hwrites (fun _ => nofun) result⟩

/-- Whatever has been found, verified and assigned, a request writes as its contract says. -/
theorem handleRegister_goes :
    Goes setting { request } ((remote setting.providers setting.domain).handleRegister
      request txn) := by
  rw [handleRegister]
  cases hderegister : isDeregister request with
  | true => exact handleDeregister_goes ⟨rfl, rfl⟩ hderegister
  | false =>
      refine Program.Meets.bind (tryHandleReregister_meets hderegister) ?_
      intro g handled hhandled
      cases handled with
      | true => exact trivial
      | false =>
          change Goes setting g
            (if hasAuthorization request then
              (remote setting.providers setting.domain).verifyAndRegister request txn
            else (remote setting.providers setting.domain).sendChallenge request txn)
          split
          · obtain ⟨hopen, found, hnone⟩ := hhandled rfl
            exact verifyAndRegister_goes hopen hderegister hnone
          · exact sendChallenge_goes

end Registrar

end

/-! ## Alice's requests -/

/-- A registrar with one provider. -/
abbrev aliceRegistrar : Machine RegistrarThreads
    (ThreadAction RegistrarEnvironment (SipMessage × Nat) RegistrarBackground)
      (Nat × Nat × SipMessage) :=
  threadsMachine (@Registrar.service plainUris [0] (bytes "ims.local"))

def aliceImpus : List Bytes := [bytes "sip:alice@ims.local", bytes "tel:+1"]

def aliceEnvironment : RegistrarEnvironment :=
  .accepting ⟨bytes "call", bytes "alice@ims.local", bytes "sip:alice@ims.local", []⟩ aliceImpus

/-- A contact at this address, with these parameters. -/
def contactAt (address : String) (params : List Param := []) : NameAddr :=
  ⟨some (bytes address), params, bytes address⟩

/-- A REGISTER with credentials or without. -/
def aliceRequest (contacts : List NameAddr) (authorized : Bool)
    (headers : List Header := []) : SipMessage :=
  { SipMessage.register "sip:alice@ims.local" "sip:alice@ims.local" contacts with
    headers
    authorizations := if authorized then [bytes "Digest username=alice,nonce=n,response=r"]
      else [] }

end SimIms.SCscf
