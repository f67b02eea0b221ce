import SimIms.SCscf.RegistrarRuns

/-!
# What requests may do without verified credentials

Removals and refreshes are handled before any credentials are looked at. A request that is not
verified removes no contact unless it is a de-registration, and then it changes none. Besides, it
replaces one contact under each identity, by one for the same URI or the same instance.
-/

namespace SimIms.SCscf

open Cxx Lib Sip Diameter Registration

/-- The selector of the contacts that a request is about. -/
def RegistrarThread.selector (thread : RegistrarThread) : ContactBindingSelector :=
  makeContactSelector thread.request thread.request.contact

/-- What a refresh puts in the place of a contact: the selector matches both, the request is not
older, and a path that it does not give is that of a contact found before. -/
structure RegistrarThread.Refreshes (thread : RegistrarThread)
    (existing refreshed : ContactBinding) :
    Prop where
  matchesExisting : matchesSelector existing thread.selector = true
  matchesRefreshed : matchesSelector refreshed thread.selector = true
  ordered : existing.callId = refreshed.callId → existing.cseq ≤ refreshed.cseq
  path : ∃ binding previous, thread.found = some (.ok binding) ∧ previous ∈ binding.contacts ∧
    matchesSelector previous thread.selector = true ∧
    refreshed.path = (thread.request.getHeader (bytes "Path")).getD previous.path

/-- The contacts that a request leaves where it refreshes. -/
def RegistrarThread.RefreshesOne (thread : RegistrarThread) (live next : List ContactBinding) :
    Prop :=
  ∃ before existing refreshed after, live = before ++ existing :: after ∧
    next = before ++ refreshed :: after ∧ thread.Refreshes existing refreshed

/-- The identity is that of the request, or is assigned together with it. -/
def RegistrarThread.Assigned [OsipParser] (thread : RegistrarThread) (impu : Bytes) : Prop :=
  impu = extractImpu thread.request ∨ ∃ params profile,
    thread.assignment = some (params, .ok profile) ∧ params.impu = extractImpu thread.request ∧
      impu ∈ profile.associatedImpus

/-- The contact is one that a de-registration asks to remove: all of them, or one that the
selector matches and that is not from a later request of the call. -/
def RegistrarThread.AsksToRemove (thread : RegistrarThread) (contact : ContactBinding) : Prop :=
  (∀ named, thread.request.contact = some named → named = bytes "*") ∨
    matchesSelector contact thread.selector = true ∧ (contact.callId = thread.request.callId →
      ∀ cseq, thread.request.cseq = .ok cseq → contact.cseq ≤ cseq)

/-- What a step of an unverified request does. -/
structure RegistrarThread.UnverifiedStep [OsipParser] (thread : RegistrarThread)
    (s t : RegistrarState) : Prop where
  registers : isDeregister thread.request = false → ∀ impu,
    t.store.contacts impu = s.store.contacts impu ∨
      t.store.contacts impu = s.store.liveContacts s.now impu ∨
      thread.RefreshesOne (s.store.liveContacts s.now impu) (t.store.contacts impu)
  deregisters : isDeregister thread.request = true → ∀ impu,
    (t.store.contacts impu).Sublist (s.store.contacts impu) ∧
      ∀ contact ∈ s.store.liveContacts s.now impu, contact ∈ t.store.contacts impu ∨
        thread.Assigned impu ∧ thread.AsksToRemove contact

/-! ## Refreshes -/

/-- A batch that requires a match refreshes one contact under each identity, or none. -/
theorem refreshesOne_upsertContacts {thread : RegistrarThread} {s : RegistrarState}
    {batch : ContactBatchUpsert} (hrequire : batch.requireExistingMatch = true)
    (hrefreshes : ∀ existing, matchesSelector existing batch.selector = true →
      batch.stale existing = false → thread.Refreshes existing batch.contact) (impu : Bytes) :
    (s.store.upsertContacts s.now batch).1.contacts impu = s.store.contacts impu ∨
      (s.store.upsertContacts s.now batch).1.contacts impu = s.store.liveContacts s.now impu ∨
      thread.RefreshesOne (s.store.liveContacts s.now impu)
        ((s.store.upsertContacts s.now batch).1.contacts impu) := by
  rw [MemoryRegistrationStore.contacts_upsertContacts]
  split
  · right
    split
    · cases hmatch : batch.hasMatch (s.store.liveContacts s.now impu) with
      | false =>
          left
          rw [ContactUpsert.write_of_not_hasMatch hmatch, if_pos hrequire]
      | true =>
          obtain ⟨before, existing, after, hlive, -, hexisting, hwrite⟩ :=
            ContactUpsert.exists_first_of_hasMatch hmatch
          rw [hwrite, hlive]
          cases hstale : batch.stale existing with
          | true =>
              left
              rfl
          | false =>
              right
              exact ⟨before, existing, batch.contact, after, rfl, rfl,
                hrefreshes existing hexisting hstale⟩
    · exact .inl rfl
  · exact .inl rfl

/-- What a removal does not keep, the request has asked to remove. -/
theorem asksToRemove_of_not_kept {thread : RegistrarThread} {contact : Bytes} {cseq : UInt32}
    {candidate : ContactBinding} (hcontact : thread.request.contact = some contact)
    (hcseq : thread.request.cseq = .ok cseq)
    (h : MemoryRegistrationStore.kept (makeContactSelector thread.request (some contact))
      thread.request.callId cseq true candidate = false) : thread.AsksToRemove candidate := by
  rw [MemoryRegistrationStore.kept, Bool.or_eq_false_iff, Bool.not_eq_false'] at h
  refine .inr ⟨by rw [RegistrarThread.selector, hcontact]; exact h.1,
    fun hcallId other hother => ?_⟩
  rw [hcseq] at hother
  cases hother
  have hordered := h.2
  rw [Bool.true_and, beq_iff_eq.mpr hcallId, Bool.true_and, decide_eq_false_iff_not,
    UInt32.not_lt] at hordered
  exact hordered

section

variable [OsipParser]

/-! ## Steps -/

variable {thread : RegistrarThread} {s : RegistrarState} {op : StoreOp}

theorem mem_assigned {serverName impu : Bytes} {saa : Result UserProfile}
    (hassigned : thread.assignment = some
      (⟨extractImpi thread.request, extractImpu thread.request, serverName⟩, saa))
    (hmem : impu ∈ (makeImpuSet (deregisteredImpus saa) (extractImpu thread.request)).elems) :
    thread.Assigned impu := by
  obtain heq | hmem := mem_makeImpuSet_iff.mp hmem
  · exact .inl heq
  · cases saa with
    | error error => cases hmem
    | ok profile => exact .inr ⟨_, profile, hassigned, rfl, hmem⟩

omit [OsipParser] in
/-- The contact that a refresh writes over one that is not from a later request. -/
theorem refreshes_of_not_stale {binding : RegistrationBinding} {contact : Bytes}
    {previous existing : ContactBinding} {now : Nat} {cseq : UInt32} {args : ContactUpsert}
    (hfound : thread.found = some (.ok binding)) (hcontact : thread.request.contact = some contact)
    (hprevious : previous ∈ binding.contacts)
    (hmatches : matchesSelector previous (makeContactSelector thread.request (some contact)) = true)
    (hmade : args.contact = madeContact thread.request (some contact)
      (determineRegisterExpires thread.request) (some previous) now cseq)
    (hrejects : args.rejectOlderCseq = true)
    (hexisting : matchesSelector existing (makeContactSelector thread.request (some contact)) =
      true)
    (hstale : args.stale existing = false) : thread.Refreshes existing args.contact := by
  have hselector : thread.selector = makeContactSelector thread.request (some contact) := by
    rw [RegistrarThread.selector, hcontact]
  refine ⟨by rwa [hselector], ?_, ?_, binding, previous, hfound, hprevious, by rwa [hselector], ?_⟩
  · rw [hselector, hmade]
    exact matchesSelector_madeContact _ _ _ _ _ _
  · intro hcallId
    rw [ContactUpsert.stale, hrejects, Bool.true_and, beq_iff_eq.mpr hcallId, Bool.true_and,
      decide_eq_false_iff_not, UInt32.not_lt] at hstale
    exact hstale
  · rw [hmade]
    rfl

/-- The write of a request that is not verified. -/
theorem unverifiedStep_of_writes {setting : RegistrarSetting} (hwrites : thread.Writes setting op)
    (hunverified : thread.verification = none) :
    thread.UnverifiedStep s { s with store := (serveStore s.store s.now none op).1 } := by
  cases hwrites with
  | register _ _ _ hverified _ _ _ _ _ =>
      rw [hunverified] at hverified
      cases hverified
  | refresh hregisters hfound _ _ hcontact hexisting _ _ hmatches _ _ _ _ _ =>
      refine ⟨fun _ => refreshesOne_upsertContacts rfl fun existing hmatch hstale =>
        refreshes_of_not_stale hfound hcontact hexisting hmatches rfl rfl hmatch hstale,
        fun hderegisters => ?_⟩
      rw [hregisters] at hderegisters
      cases hderegisters
  | removeContacts hderegisters hcontact _ hassigned _ hcseq =>
      refine ⟨fun hregisters => ?_, fun _ impu => ?_⟩
      · rw [hregisters] at hderegisters
        cases hderegisters
      · refine ⟨MemoryRegistrationStore.removeContacts_shrinks _ impu, fun contact hlive => ?_⟩
        change contact ∈ (s.store.removeContacts s.now _).1.contacts impu ∨ _
        rw [MemoryRegistrationStore.contacts_removeContacts]
        split
        · rename_i hmem
          rw [List.mem_filter, and_iff_right hlive]
          refine or_iff_not_imp_left.mpr fun hremoved => ⟨mem_assigned hassigned hmem, ?_⟩
          exact asksToRemove_of_not_kept hcontact hcseq (Bool.eq_false_iff.mpr hremoved)
        · exact .inl (List.mem_filter.mp hlive).1
  | removeBindings hderegisters hcontact hassigned _ =>
      refine ⟨fun hregisters => ?_, fun _ impu => ?_⟩
      · rw [hregisters] at hderegisters
        cases hderegisters
      · refine ⟨MemoryRegistrationStore.removeBindings_shrinks _ impu, fun contact hlive => ?_⟩
        change contact ∈ (s.store.removeBindings _).1.contacts impu ∨ _
        rw [MemoryRegistrationStore.contacts, MemoryRegistrationStore.find_removeBindings]
        split
        · rename_i hmem
          exact .inr ⟨mem_assigned hassigned hmem, .inl hcontact⟩
        · exact .inl (List.mem_filter.mp hlive).1

theorem unverifiedStep_of_eq {t : RegistrarState}
    (h : ∀ impu, t.store.contacts impu = s.store.contacts impu ∨
      t.store.contacts impu = s.store.liveContacts s.now impu) : thread.UnverifiedStep s t := by
  refine ⟨fun _ impu => (h impu).imp_right .inl, fun _ impu => ?_⟩
  obtain heq | heq := h impu
  · rw [heq]
    exact ⟨List.Sublist.refl _, fun contact hlive => .inl (List.mem_filter.mp hlive).1⟩
  · rw [heq]
    exact ⟨List.filter_sublist, fun contact hlive => .inl hlive⟩

/-- Whatever requests interleave, and whatever the providers and the HSS answer, this is all that
the steps of a request do for which no verification has succeeded. -/
theorem unverified_steps (providers : List Nat) (domain : Bytes) (now : Nat)
    (as : List (ThreadAction RegistrarEnvironment (SipMessage × Nat) RegistrarBackground))
    (s : RegistrarThreads) (log : List (Nat × Nat × SipMessage))
    (hrun : (threadsMachine (Registrar.service providers domain)).exec (.init ⟨.init, now⟩) as =
      some (s, log)) (id : Nat) (environment : RegistrarEnvironment) (t : RegistrarThreads)
    (out : List (Nat × Nat × SipMessage))
    (hstep : (threadsMachine (Registrar.service providers domain)).step s (.run id environment) =
      some (t, out)) :
    ∃ thread operation, s.operation id = some (thread, operation) ∧
      (thread.verification = none → thread.UnverifiedStep s.shared t.shared) := by
  have hkept : KeptByRegistrar ⟨providers, domain, fun _ _ => True⟩ (fun _ => True) :=
    ⟨fun _ _ _ => trivial, fun _ _ _ _ _ => trivial⟩
  have hinv := (registrarDiscipline_sound hkept).exec_of_forall (fun _ _ => trivial) trivial hrun
  obtain ⟨thread, op, next, shared, answer, events, hoperation, hserve, -, rfl⟩ :=
    Threads.runThread_eq_some hstep
  refine ⟨thread, ⟨op, next⟩, hoperation, fun hunverified => ?_⟩
  have hallows : thread.Allows ⟨providers, domain, fun _ _ => True⟩ op := hinv.allows hoperation
  cases op with
  | hss op | provider op | environment op | respond response =>
      cases hserve
      exact unverifiedStep_of_eq fun _ => .inl rfl
  | store op =>
      cases hserve
      cases op with
      | upsertContacts | removeContacts | removeBindings =>
          exact unverifiedStep_of_writes hallows.1 hunverified
      | lookup impu =>
          refine unverifiedStep_of_eq fun other => ?_
          have hlookup : (s.shared.store.pruneExpiredLocked s.shared.now impu).contacts other = _ :=
            MemoryRegistrationStore.contacts_pruneExpiredLocked
          by_cases heq : other = impu
          · exact .inr (hlookup.trans (if_pos heq))
          · exact .inl (hlookup.trans (if_neg heq))

end

/-! ## Mallory redirects Alice, and then removes her -/

/-- The instance that Alice registers. -/
def aliceInstance : List Param :=
  [⟨bytes "+sip.instance", some (bytes "ue")⟩, ⟨bytes "reg-id", some (bytes "1")⟩]

def instanceRegisters :
    List (ThreadAction RegistrarEnvironment (SipMessage × Nat) RegistrarBackground) :=
  .start (aliceRequest [contactAt "sip:alice@10.0.0.1" aliceInstance] true, 0) ::
    List.replicate 9 (.run 0 aliceEnvironment)

/-- Without credentials, as far as the step that writes. -/
def malloryRefreshes :
    List (ThreadAction RegistrarEnvironment (SipMessage × Nat) RegistrarBackground) :=
  .start (aliceRequest [contactAt "sip:mallory@6.6.6.6" aliceInstance] false
    [⟨bytes "Path", some (bytes "<sip:evil>")⟩], 1) :: List.replicate 4 (.run 1 aliceEnvironment)

/-- Without credentials, as far as the step that writes. -/
def malloryDeregisters :
    List (ThreadAction RegistrarEnvironment (SipMessage × Nat) RegistrarBackground) :=
  [.start (aliceRequest [contactAt "sip:mallory@6.6.6.6" aliceInstance] false
    [⟨bytes "Expires", some (bytes "0")⟩], 2), .run 2 aliceEnvironment]

/-- Where Alice is reached. -/
def aliceIsAt (s : RegistrarThreads) : List (Bytes × Bytes) :=
  (s.shared.store.liveContacts s.shared.now (bytes "sip:alice@ims.local")).map fun contact =>
    (contact.contactUri, contact.path)

/-- Her first request moves Alice to another address and path, her second removes her; neither
has been verified when it does so. -/
theorem unverified_requests_redirect_and_remove :
    ∃ s t u v log out log' out',
      aliceRegistrar.exec (.init ⟨.init, 0⟩) (instanceRegisters ++ malloryRefreshes) =
        some (s, log) ∧
      aliceRegistrar.step s (.run 1 aliceEnvironment) = some (t, out) ∧
      aliceRegistrar.exec t malloryDeregisters = some (u, log') ∧
      aliceRegistrar.step u (.run 2 aliceEnvironment) = some (v, out') ∧
      (s.operation 1).map (·.1.verification) = some none ∧
      (u.operation 2).map (·.1.verification) = some none ∧
      aliceIsAt s = [(bytes "sip:alice@10.0.0.1", [])] ∧
      aliceIsAt t = [(bytes "sip:mallory@6.6.6.6", bytes "<sip:evil>")] ∧
      aliceIsAt u = aliceIsAt t ∧ aliceIsAt v = [] := by
  have hsummary : ((aliceRegistrar.exec (.init ⟨.init, 0⟩)
    (instanceRegisters ++ malloryRefreshes)).bind
      fun s => (aliceRegistrar.step s.1 (.run 1 aliceEnvironment)).bind fun t =>
        (aliceRegistrar.exec t.1 malloryDeregisters).bind fun u =>
          (aliceRegistrar.step u.1 (.run 2 aliceEnvironment)).map fun v =>
            decide ((s.1.operation 1).map (·.1.verification) = some none ∧
              (u.1.operation 2).map (·.1.verification) = some none ∧
              aliceIsAt s.1 = [(bytes "sip:alice@10.0.0.1", [])] ∧
              aliceIsAt t.1 = [(bytes "sip:mallory@6.6.6.6", bytes "<sip:evil>")] ∧
              aliceIsAt u.1 = aliceIsAt t.1 ∧ aliceIsAt v.1 = [])) = some true := by
    decide +kernel
  obtain ⟨⟨s, log⟩, hregistered, hsummary⟩ := Option.bind_eq_some_iff.mp hsummary
  obtain ⟨⟨t, out⟩, hrefresh, hsummary⟩ := Option.bind_eq_some_iff.mp hsummary
  obtain ⟨⟨u, log'⟩, hderegisters, hsummary⟩ := Option.bind_eq_some_iff.mp hsummary
  obtain ⟨⟨v, out'⟩, hremove, hsummary⟩ := Option.map_eq_some_iff.mp hsummary
  exact ⟨s, t, u, v, log, out, log', out', hregistered, hrefresh, hderegisters, hremove,
    of_decide_eq_true hsummary⟩

/-- The first of them replaces the contact of the instance, and no other. -/
theorem unverified_steps_mallory :
    ∃ s log t out thread operation,
      aliceRegistrar.exec (.init ⟨.init, 0⟩) (instanceRegisters ++ malloryRefreshes) =
        some (s, log) ∧
      aliceRegistrar.step s (.run 1 aliceEnvironment) = some (t, out) ∧
      s.operation 1 = some (thread, operation) ∧
      @RegistrarThread.UnverifiedStep plainUris thread s.shared t.shared := by
  have hsummary : ((aliceRegistrar.exec (.init ⟨.init, 0⟩)
    (instanceRegisters ++ malloryRefreshes)).bind
      fun s => (aliceRegistrar.step s.1 (.run 1 aliceEnvironment)).map fun _ =>
        decide ((s.1.operation 1).map (·.1.verification) = some none)) = some true := by
    decide +kernel
  obtain ⟨⟨s, log⟩, hregistered, hsummary⟩ := Option.bind_eq_some_iff.mp hsummary
  obtain ⟨⟨t, out⟩, hrefresh, hsummary⟩ := Option.map_eq_some_iff.mp hsummary
  obtain ⟨thread, operation, hoperation, hsteps⟩ := @unverified_steps plainUris [0]
    (bytes "ims.local") 0 _ s log hregistered 1 aliceEnvironment t out hrefresh
  have hunverified := of_decide_eq_true hsummary
  simp only [hoperation, Option.map_some, Option.some.injEq] at hunverified
  exact ⟨s, log, t, out, thread, operation, hregistered, hrefresh, hoperation,
    hsteps hunverified⟩

end SimIms.SCscf
