import SimIms.SCscf.ImplicitSets
import SimIms.SCscf.SpelledIdentities

/-!
# A REGISTER without a contact

Such a request is a query, and a refresh takes it for one. A verified one is stored with an empty
contact, and one that expires at once removes everything. As long as none comes so far, contacts
are left alone by it, and each of them is from a `Contact` field.
-/

namespace SimIms.Registration

open Cxx Lib

theorem ContactUpsert.mem_or_eq_of_mem_write {args : ContactUpsert} {contacts : List ContactBinding}
    {contact : ContactBinding} (h : contact ∈ args.write contacts) :
    contact ∈ contacts ∨ contact = args.contact := by
  cases hmatch : args.hasMatch contacts with
  | true =>
      obtain ⟨before, existing, after, rfl, -, -, hwrite⟩ := exists_first_of_hasMatch hmatch
      rw [hwrite, List.mem_append, List.mem_cons] at h
      rw [List.mem_append, List.mem_cons]
      obtain hbefore | rfl | hafter := h
      · exact .inl (.inl hbefore)
      · split
        · exact .inl (.inr (.inl rfl))
        · exact .inr rfl
      · exact .inl (.inr (.inr hafter))
  | false =>
      rw [write_of_not_hasMatch hmatch] at h
      split at h
      · exact .inl h
      · exact (List.mem_append.mp h).imp_right List.mem_singleton.mp

namespace MemoryRegistrationStore

variable {store : MemoryRegistrationStore} {now : Nat} {impu : Bytes}

theorem liveContacts_pruneExpiredLocked {looked : Bytes} :
    (store.pruneExpiredLocked now looked).liveContacts now impu = store.liveContacts now impu := by
  rw [liveContacts, contacts_pruneExpiredLocked]
  split
  · exact filter_live_filter_live _ (le_refl now)
  · rfl

theorem liveContacts_removeBindings {impus : ImpuSet} :
    (store.removeBindings impus).1.liveContacts now impu =
      if impu ∈ impus.elems then [] else store.liveContacts now impu := by
  rw [liveContacts, contacts, find_removeBindings]
  split
  · rfl
  · rfl

theorem mem_of_mem_upsertContacts {batch : ContactBatchUpsert} {contact : ContactBinding}
    (h : contact ∈ (store.upsertContacts now batch).1.contacts impu) :
    contact ∈ store.contacts impu ∨ contact = batch.contact := by
  have hlive : ∀ {contact}, contact ∈ store.liveContacts now impu → contact ∈ store.contacts impu :=
    fun hmem => (liveContacts_sublist store now impu).subset hmem
  rw [contacts_upsertContacts] at h
  split at h
  · split at h
    · exact (ContactUpsert.mem_or_eq_of_mem_write h).imp_left hlive
    · exact .inl (hlive h)
  · exact .inl h

end MemoryRegistrationStore
end SimIms.Registration

namespace SimIms.SCscf

open Cxx Lib Sip Diameter Registration

/-! ## Contacts from `Contact` fields -/

/-- The text of the contact, where there is one, names a URI or is the wildcard. -/
def PrintsContact (request : SipMessage) : Prop :=
  ∀ contact, request.contact = some contact → extractUriFromNameAddr contact ≠ []

/-- A request of the run has this contact. -/
def Heard (s : RegistrarThreads) (contact : Bytes) : Prop :=
  ∃ id thread, s.threads.find id = some thread ∧ thread.history.request.contact = some contact

def ContactsHeard (s : RegistrarThreads) : Prop :=
  ∀ impu, ∀ contact ∈ s.shared.store.contacts impu,
    contact.contactUri ≠ [] ∧ Heard s contact.contactUri

def AllPrinted (s : RegistrarThreads) : Prop :=
  ∀ id thread, s.threads.find id = some thread → PrintsContact thread.history.request

theorem RegistrarThread.track_request (thread : RegistrarThread) (op : RegistrarOp)
    (answer : op.Answer) : (thread.track op answer).request = thread.request := by
  cases op with
  | store op => cases op <;> rfl
  | hss op => cases op <;> rfl
  | provider op =>
      cases op with
      | verifyAuthorization n request =>
          cases answer with
          | error error => rfl
          | ok verification => rfl
      | canHandleInitialRegister | canHandleAuthorization | createChallenge => rfl
  | environment op => rfl
  | respond response => rfl

/-- A request without a contact selects the contacts that name no URI. -/
theorem matchesSelector_of_contactless {request : SipMessage} (hcontact : request.contact = none)
    (existing : ContactBinding) :
    matchesSelector existing (makeContactSelector request request.contact) =
      (extractUriFromNameAddr existing.contactUri == []) := by
  have hnone : request.contacts.head? = none := Option.map_eq_none_iff.mp hcontact
  have hparam : ∀ key, request.contactParam key = none := fun key => by
    rw [SipMessage.contactParam, hnone]
    rfl
  rw [makeContactSelector, hparam, hparam, hcontact]
  rfl

section

variable [OsipParser]

/-! ## Queries and contacts -/

/-- One step treats contacts rightly: a request without a contact leaves what has not expired as it
is, every stored contact is from a `Contact` field, and where the first active contact of a
callee is a usable endpoint there is a target. -/
structure ContactlessIsQuery (s : RegistrarThreads)
    (a : ThreadAction RegistrarEnvironment (SipMessage × Nat) RegistrarBackground)
    (t : RegistrarThreads) : Prop where
  unchanged : ∀ id thread, a.By id → s.threads.find id = some thread →
    thread.history.request.contact = none → ∀ impu,
      t.shared.store.liveContacts t.shared.now impu = s.shared.store.liveContacts s.shared.now impu
  heard : ContactsHeard t
  target : ∀ uri peerIcscf follower binding contact endpoint,
    (SessionRouter.lookupCallee t.shared.store t.shared.now uri follower).2 = .ok binding →
    (binding.activeContacts t.shared.now).head? = some contact →
    parseEndpointFromUri contact.contactUri = some endpoint → isUsableDestination endpoint = true →
    ∃ dest, SessionRouter.calleeTarget t.shared.store t.shared.now peerIcscf uri follower =
      .ok { calleeImpu := binding.impu, dest }

/-- A request without a contact that is about to write is a de-registration, for identities none
of which has a contact that has not expired. -/
def NothingToWrite (s : RegistrarThreads)
    (a : ThreadAction RegistrarEnvironment (SipMessage × Nat) RegistrarBackground) : Prop :=
  ∀ id thread op next, a.By id → s.operation id = some (thread, ⟨.store op, next⟩) →
    (∀ impu, op ≠ .lookup impu) → thread.request.contact = none →
    isDeregister thread.request = true ∧ ∀ params saa, thread.assignment = some (params, saa) →
      ∀ impu ∈ (makeImpuSet (deregisteredImpus saa) (extractImpu thread.request)).elems,
        s.shared.store.liveContacts s.shared.now impu = []

/-! ## Steps -/

variable {setting : RegistrarSetting} {thread : RegistrarThread} {s t : RegistrarThreads}
variable {log out : List (Nat × Nat × SipMessage)} {contact : Bytes}
variable {a : ThreadAction RegistrarEnvironment (SipMessage × Nat) RegistrarBackground}

theorem Heard.step (h : Heard s contact) (hinv : s.Inv (plainDiscipline setting) log)
    (hstep : s.step (Registrar.service setting.providers setting.domain) a = some (t, out)) :
    Heard t contact := by
  obtain ⟨id, thread, hfind, hcontact⟩ := h
  cases a with
  | start request =>
      cases hstep
      have hlt : id < s.nextThread := (hinv.started id).mpr ⟨thread, hfind⟩
      exact ⟨id, thread, (Table.find_insert_of_ne _ _ (Nat.ne_of_lt hlt)).trans hfind, hcontact⟩
  | background event =>
      cases hstep
      exact ⟨id, thread, hfind, hcontact⟩
  | run other environment =>
      obtain ⟨history, op, next, _, answer, _, hoperation, hserve, -, rfl⟩ :=
        Threads.runThread_eq_some hstep
      by_cases heq : id = other
      · subst heq
        cases hfind.symm.trans (Threads.operation_eq_some hoperation)
        refine ⟨id, _, Table.find_insert_self .., ?_⟩
        exact (congrArg SipMessage.contact (history.track_request op answer)).trans hcontact
      · exact ⟨id, thread, (Table.find_insert_of_ne _ _ heq).trans hfind, hcontact⟩

theorem AllPrinted.step (h : AllPrinted s)
    (hstart : ∀ request, a = .start request → PrintsContact request.1)
    (hstep : s.step (Registrar.service setting.providers setting.domain) a = some (t, out)) :
    AllPrinted t := by
  intro id thread hfind
  cases a with
  | start request =>
      cases hstep
      rw [Table.find_insert] at hfind
      split at hfind
      · cases hfind
        exact hstart request rfl
      · exact h id thread hfind
  | background event =>
      cases hstep
      exact h id thread hfind
  | run other environment =>
      obtain ⟨history, op, next, _, answer, _, hoperation, hserve, -, rfl⟩ :=
        Threads.runThread_eq_some hstep
      rw [Table.find_insert] at hfind
      split at hfind
      · cases hfind
        have hbefore := h other _ (Threads.operation_eq_some hoperation)
        intro contact hcontact
        exact hbefore contact
          ((congrArg SipMessage.contact (history.track_request op answer)).symm.trans hcontact)
      · exact h id thread hfind

/-- A verified request without a contact leaves one that names no URI. -/
theorem not_contactsHeard_of_register {id : Nat} {batch : ContactBatchUpsert}
    {next : Result Nat → Program registrarOps Exception Unit} (hby : a.By id)
    (hoperation : s.operation id = some (thread, ⟨.store (.upsertContacts batch), next⟩))
    (hwrites : thread.Writes setting (.upsertContacts batch)) (hheard : ContactsHeard s)
    (hprinted : AllPrinted s) (hcontact : thread.request.contact = none)
    (hstep : s.step (Registrar.service setting.providers setting.domain) a = some (t, out)) :
    ¬ ContactsHeard t := by
  cases hwrites with
  | refresh _ _ _ _ hsome =>
      rw [hcontact] at hsome
      cases hsome
  | @register _ verification profile _ now cseq _ _ _ _ _ _ _ _ _ =>
      intro hafter
      have hshared := store_of_step hby hoperation hstep
      let batch : ContactBatchUpsert :=
        { impus := makeImpuSet profile.associatedImpus verification.impu
          selector := makeContactSelector thread.request thread.request.contact
          contact := madeContact thread.request thread.request.contact
            (determineRegisterExpires thread.request) none now cseq
          impi := verification.impi
          scscfUri := setting.serverName
          state := .registered
          requireExistingMatch := false
          rejectOlderCseq := true }
      have hmem : verification.impu ∈ batch.impus.elems := mem_makeImpuSet_iff.mpr (.inl rfl)
      have hnone : batch.hasMatch
          (s.shared.store.liveContacts s.shared.now verification.impu) = false := by
        rw [ContactUpsert.hasMatch, List.any_eq_false]
        intro existing hexisting
        obtain ⟨-, other, thread', hfind, huri⟩ := hheard _ existing
          ((MemoryRegistrationStore.liveContacts_sublist _ _ _).subset hexisting)
        rw [matchesSelector_of_contactless hcontact, beq_iff_eq]
        exact hprinted other thread' hfind _ huri
      have hstored : batch.contact ∈ t.shared.store.contacts verification.impu := by
        rw [hshared]
        change batch.contact ∈
          (s.shared.store.upsertContacts s.shared.now batch).1.contacts verification.impu
        rw [MemoryRegistrationStore.contacts_upsertContacts, if_pos hmem,
          if_pos (MemoryRegistrationStore.applies_of_not_requireExistingMatch rfl),
          ContactUpsert.write_of_not_hasMatch hnone]
        exact List.mem_append_right _ List.mem_cons_self
      have huri : batch.contact.contactUri = [] := by
        change (thread.request.contact.getD _ : Bytes) = []
        rw [hcontact]
        rfl
      exact (hafter _ _ hstored).1 huri

theorem writes_of_allows {op : StoreOp} (hallows : thread.Allows setting (.store op))
    (hwrites : ∀ looked, op ≠ .lookup looked) : thread.Writes setting op := by
  cases op with
  | lookup looked => exact (hwrites looked rfl).elim
  | upsertContacts | removeContacts | removeBindings => exact hallows.1

/-- The writes of a request without a contact, where there is nothing to write. -/
theorem liveContacts_of_nothingToWrite {op : StoreOp} {follower : Option Bytes} {impu : Bytes}
    (hwrites : thread.Writes setting op) (hderegisters : isDeregister thread.request = true)
    (hcontact : thread.request.contact = none)
    (hempty : ∀ params saa, thread.assignment = some (params, saa) →
      ∀ impu ∈ (makeImpuSet (deregisteredImpus saa) (extractImpu thread.request)).elems,
        s.shared.store.liveContacts s.shared.now impu = []) :
    (serveStore s.shared.store s.shared.now follower op).1.liveContacts s.shared.now impu =
      s.shared.store.liveContacts s.shared.now impu := by
  cases hwrites with
  | refresh hregisters | register hregisters =>
      rw [hregisters] at hderegisters
      cases hderegisters
  | removeContacts _ hsome =>
      rw [hcontact] at hsome
      cases hsome
  | removeBindings _ _ hassigned _ =>
      refine MemoryRegistrationStore.liveContacts_removeBindings.trans ?_
      split
      · rename_i hmem
        exact (hempty _ _ hassigned impu hmem).symm
      · rfl

theorem ContactsHeard.step (h : ContactsHeard s) (hinv : s.Inv (plainDiscipline setting) log)
    (hprinted : AllPrinted s) (hnothing : NothingToWrite s a)
    (hstep : s.step (Registrar.service setting.providers setting.domain) a = some (t, out)) :
    ContactsHeard t := by
  have hold : ∀ {impu contact}, contact ∈ s.shared.store.contacts impu →
      contact.contactUri ≠ [] ∧ Heard t contact.contactUri := fun hmem =>
    ⟨(h _ _ hmem).1, (h _ _ hmem).2.step hinv hstep⟩
  intro impu contact hmem
  cases a with
  | start request =>
      cases hstep
      exact hold hmem
  | background event =>
      cases hstep
      cases event with
      | elapse milliseconds => exact hold hmem
      | purgeExpired =>
          exact hold ((MemoryRegistrationStore.purgeExpired_shrinks impu).subset hmem)
      | lookup looked =>
          exact hold ((MemoryRegistrationStore.pruneExpiredLocked_shrinks
            s.shared.store s.shared.now
            looked impu).subset hmem)
  | run id environment =>
      obtain ⟨thread, op, next, _, answer, _, hoperation, hserve, -, heq⟩ :=
        Threads.runThread_eq_some hstep
      have hby : (ThreadAction.run id environment : ThreadAction RegistrarEnvironment
        (SipMessage × Nat) RegistrarBackground).By id := ⟨environment, rfl⟩
      cases op with
      | hss op | provider op | environment op | respond response =>
          cases hserve
          rw [heq] at hmem
          exact hold hmem
      | store op =>
          rw [store_of_step hby hoperation hstep] at hmem
          cases op with
          | lookup looked =>
              exact hold ((MemoryRegistrationStore.pruneExpiredLocked_shrinks s.shared.store
                s.shared.now looked impu).subset hmem)
          | removeContacts batch =>
              exact hold ((MemoryRegistrationStore.removeContacts_shrinks batch impu).subset hmem)
          | removeBindings impus =>
              exact hold ((MemoryRegistrationStore.removeBindings_shrinks impus impu).subset hmem)
          | upsertContacts batch =>
              obtain hmem | rfl := MemoryRegistrationStore.mem_of_mem_upsertContacts hmem
              · exact hold hmem
              · have hwrites := (hinv.allows hoperation).1
                obtain ⟨uri, hcontact, huri⟩ : ∃ uri, thread.request.contact = some uri ∧
                    batch.contact.contactUri = uri := by
                  cases hcontact : thread.request.contact with
                  | some uri =>
                      cases hwrites with
                      | refresh _ _ _ _ hsome =>
                          cases hcontact.symm.trans hsome
                          exact ⟨uri, rfl, rfl⟩
                      | register =>
                          refine ⟨uri, rfl, ?_⟩
                          rw [hcontact]
                          rfl
                  | none =>
                      obtain ⟨hderegisters, -⟩ := hnothing id thread _ next hby hoperation
                        (fun _ => nofun) hcontact
                      cases hwrites with
                      | refresh hregisters | register hregisters =>
                          rw [hregisters] at hderegisters
                          cases hderegisters
                subst huri
                have hheard : Heard s batch.contact.contactUri :=
                  ⟨id, _, Threads.operation_eq_some hoperation, hcontact⟩
                refine ⟨fun hempty => ?_, hheard.step hinv hstep⟩
                refine hprinted id _ (Threads.operation_eq_some hoperation) _ hcontact ?_
                rw [hempty]
                rfl

theorem contactlessIsQuery_step_iff (hinv : s.Inv (plainDiscipline setting) log)
    (hheard : ContactsHeard s) (hprinted : AllPrinted s)
    (hstep : s.step (Registrar.service setting.providers setting.domain) a = some (t, out)) :
    ContactlessIsQuery s a t ↔ NothingToWrite s a := by
  constructor
  · intro h id thread op next hby hoperation hnotLookup hcontact
    have hfind := Threads.operation_eq_some hoperation
    cases op with
    | lookup impu => exact (hnotLookup impu rfl).elim
    | upsertContacts batch =>
        exact (not_contactsHeard_of_register hby hoperation (hinv.allows hoperation).1 hheard
          hprinted hcontact hstep h.heard).elim
    | removeContacts batch =>
        cases (hinv.allows hoperation).1 with
        | removeContacts _ hsome =>
            rw [hcontact] at hsome
            cases hsome
    | removeBindings impus =>
        have hshared := store_of_step hby hoperation hstep
        cases (hinv.allows hoperation).1 with
        | removeBindings hderegisters _ hassigned _ =>
            refine ⟨hderegisters, fun params saa hsaa impu hmem => ?_⟩
            cases hassigned.symm.trans hsaa
            rw [← h.unchanged id _ hby hfind hcontact impu, hshared]
            exact MemoryRegistrationStore.liveContacts_removeBindings.trans (if_pos hmem)
  · intro hnothing
    refine ⟨fun id thread hby hfind hcontact impu => ?_, hheard.step hinv hprinted hnothing hstep,
      fun _ _ _ _ _ _ => SessionRouter.calleeTarget_of_contact⟩
    obtain ⟨environment, heq⟩ := hby
    subst heq
    obtain ⟨history, op, next, _, answer, _, hoperation, hserve, -, rfl⟩ :=
      Threads.runThread_eq_some hstep
    cases hfind.symm.trans (Threads.operation_eq_some hoperation)
    cases op with
    | hss op | provider op | environment op | respond response =>
        cases hserve
        rfl
    | store op =>
        cases hserve
        by_cases hlookup : ∃ looked, op = .lookup looked
        · obtain ⟨looked, rfl⟩ := hlookup
          exact MemoryRegistrationStore.liveContacts_pruneExpiredLocked
        · have hwrites : ∀ looked, op ≠ .lookup looked := fun looked heq => hlookup ⟨looked, heq⟩
          obtain ⟨hderegisters, hempty⟩ := hnothing id _ op next ⟨environment, rfl⟩ hoperation
            hwrites hcontact
          exact liveContacts_of_nothingToWrite (writes_of_allows (hinv.allows hoperation) hwrites)
            hderegisters hcontact hempty

/-- Along a run of requests with printed contacts, one without a contact is a query exactly if
whenever it is about to write it is a de-registration with nothing to remove. -/
theorem contactlessIsQuery_iff (providers : List Nat) (domain : Bytes) (now : Nat)
    (as : List (ThreadAction RegistrarEnvironment (SipMessage × Nat) RegistrarBackground))
    (hprints : ∀ request txn, .start (request, txn) ∈ as → PrintsContact request) :
    (threadsMachine (Registrar.service providers domain)).Along
        (fun s a t _ => ContactlessIsQuery s a t) (.init ⟨.init, now⟩) as ↔
      (threadsMachine (Registrar.service providers domain)).Along
        (fun s a _ _ => NothingToWrite s a) (.init ⟨.init, now⟩) as := by
  let setting : RegistrarSetting := ⟨providers, domain, fun _ _ => True⟩
  let machine := threadsMachine (Registrar.service providers domain)
  have hstarts : machine.Along (fun _ a _ _ => ∀ request, a = .start request →
      PrintsContact request.1) (.init ⟨.init, now⟩) as := by
    rw [Machine.along_iff]
    rintro before a after t u first out heq - - request rfl
    refine hprints request.1 request.2 ?_
    rw [heq]
    exact List.mem_append_right before List.mem_cons_self
  have hinit : ContactsHeard (.init ⟨.init, now⟩) ∧ AllPrinted (.init ⟨.init, now⟩) := by
    constructor
    · intro impu contact hmem
      cases hmem
    · intro id thread hfind
      cases hfind
  have hiff : machine.Along (fun s a t _ => ContactlessIsQuery s a t ∧
        ∀ request, a = .start request → PrintsContact request.1) (.init ⟨.init, now⟩) as ↔
      machine.Along (fun s a _ _ => NothingToWrite s a ∧
        ∀ request, a = .start request → PrintsContact request.1) (.init ⟨.init, now⟩) as := by
    refine Machine.along_congr_of_kept
      (I := fun s => (∃ log, s.Inv (plainDiscipline setting) log) ∧ ContactsHeard s ∧ AllPrinted s)
      (fun s a t out h hstep hquery => ?_)
      ⟨⟨[], .init trivial⟩, hinit⟩ fun s a t out h hstep => ?_
    · obtain ⟨⟨log, hinv⟩, -, hprinted⟩ := h
      exact ⟨⟨_, hinv.next (plainDiscipline_sound setting) (fun _ _ => trivial) hstep⟩,
        hquery.1.heard, @AllPrinted.step _ setting _ _ _ _ hprinted hquery.2 hstep⟩
    · obtain ⟨⟨log, hinv⟩, hheard, hprinted⟩ := h
      exact and_congr_left fun _ => contactlessIsQuery_step_iff hinv hheard hprinted hstep
  constructor
  · exact fun h => (hiff.mp (h.and hstarts)).mono fun _ _ _ _ _ h => h.1
  · exact fun h => (hiff.mpr (h.and hstarts)).mono fun _ _ _ _ _ h => h.1

end

/-! ## Alice asks what is registered for her -/

/-- A request without a contact, with credentials or without, and some of its other fields. -/
def contactlessRequest (authorized : Bool) (headers : List Header := []) : SipMessage :=
  aliceRequest [] authorized headers

/-- She registers, and asks. -/
def aliceAsks : List (ThreadAction RegistrarEnvironment (SipMessage × Nat) RegistrarBackground) :=
  aliceRegisters ++ .start (contactlessRequest false, 1) ::
    List.replicate 5 (.run 1 aliceEnvironment)

theorem contactlessIsQuery_iff_asks :
    aliceRegistrar.Along (fun s a t _ => @ContactlessIsQuery plainUris s a t)
        (.init ⟨.init, 0⟩) aliceAsks ↔
      aliceRegistrar.Along (fun s a _ _ => @NothingToWrite plainUris s a)
        (.init ⟨.init, 0⟩) aliceAsks := by
  refine @contactlessIsQuery_iff plainUris [0] (bytes "ims.local") 0 aliceAsks ?_
  intro request txn hmem contact hcontact
  obtain hmem | hmem := List.mem_append.mp hmem
  · obtain hstart | hmem := List.mem_cons.mp hmem
    · cases hstart
      cases hcontact
      decide
    · cases List.eq_of_mem_replicate hmem
  · obtain hstart | hmem := List.mem_cons.mp hmem
    · cases hstart
      cases hcontact
    · cases List.eq_of_mem_replicate hmem

/-- Asked with `Expires: 0`, the registrar removes her contact, and asked with credentials it
stores one without a URI. -/
theorem contactless_writes :
    ∃ s t u log log' log'',
      aliceRegistrar.exec (.init ⟨.init, 0⟩) aliceRegisters = some (s, log) ∧
      aliceRegistrar.exec s (.start (contactlessRequest false
        [⟨bytes "Expires", some (bytes "0")⟩], 1) :: List.replicate 5 (.run 1 aliceEnvironment)) =
          some (t, log') ∧
      aliceRegistrar.exec (.init ⟨.init, 0⟩) (.start (contactlessRequest true, 0) ::
        List.replicate 9 (.run 0 aliceEnvironment)) = some (u, log'') ∧
      (s.shared.store.liveContacts 0 (bytes "sip:alice@ims.local")).length = 1 ∧
      t.shared.store.liveContacts 0 (bytes "sip:alice@ims.local") = [] ∧
      (u.shared.store.contacts (bytes "sip:alice@ims.local")).map ContactBinding.contactUri =
        [[]] := by
  let expires : List Header := [⟨bytes "Expires", some (bytes "0")⟩]
  have hremoved : ((aliceRegistrar.exec (.init ⟨.init, 0⟩) aliceRegisters).bind fun run =>
      (aliceRegistrar.exec run.1 (.start (contactlessRequest false expires, 1) ::
        List.replicate 5 (.run 1 aliceEnvironment))).map fun next =>
          ((run.1.shared.store.liveContacts 0 (bytes "sip:alice@ims.local")).length,
            next.1.shared.store.liveContacts 0 (bytes "sip:alice@ims.local"))) =
        some (1, []) := by
    decide +kernel
  have hstored : (aliceRegistrar.exec (.init ⟨.init, 0⟩) (.start (contactlessRequest true, 0) ::
      List.replicate 9 (.run 0 aliceEnvironment))).map (fun run =>
        (run.1.shared.store.contacts (bytes "sip:alice@ims.local")).map
          ContactBinding.contactUri) = some [[]] := by
    decide +kernel
  obtain ⟨⟨s, log⟩, hregisters, hnext⟩ := Option.bind_eq_some_iff.mp hremoved
  obtain ⟨⟨t, log'⟩, hderegisters, hvalues⟩ := Option.map_eq_some_iff.mp hnext
  obtain ⟨hone, hnone⟩ := Prod.mk.inj hvalues
  obtain ⟨⟨u, log''⟩, hverified, hempty⟩ := Option.map_eq_some_iff.mp hstored
  exact ⟨s, t, u, log, log', log'', hregisters, hderegisters, hverified, hone, hnone, hempty⟩

end SimIms.SCscf
