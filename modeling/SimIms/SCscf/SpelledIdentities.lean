import SimIms.Registration.Purging
import SimIms.SCscf.CalleeLookup
import SimIms.SCscf.Refreshes
import SimIms.SCscf.RegistrarRuns

/-!
# Identities under any spelling

Whoever looks an identity up normalises it before. What the registrar stores under is taken as it
is told: the identity that the provider has verified, and those that the HSS has assigned. So all
spellings of an identity are found as long as what is told is in normal form, and as long as a
request does not refresh what its look-up has returned of another identity.
-/

namespace SimIms.Registration

open Cxx Lib Sip

/-- If one of the contacts or the new one is alive, there is one alive after the write. -/
theorem ContactUpsert.exists_live_write {args : ContactUpsert} {contacts : List ContactBinding}
    {now : Nat} (hgoes : args.goesThrough contacts = true) (hlive : args.contact.live now = true)
    (hcontacts : ∀ contact ∈ contacts, contact.live now = true) :
    ∃ contact ∈ args.write contacts, contact.live now = true := by
  cases hmatch : args.hasMatch contacts with
  | true =>
      obtain ⟨before, existing, after, rfl, -, -, hwrite⟩ := exists_first_of_hasMatch hmatch
      refine ⟨if args.stale existing then existing else args.contact, ?_, ?_⟩
      · rw [hwrite]
        exact List.mem_append_right before List.mem_cons_self
      · split
        · exact hcontacts existing (List.mem_append_right before List.mem_cons_self)
        · exact hlive
  | false =>
      rw [goesThrough, hmatch, Bool.or_false, Bool.not_eq_true'] at hgoes
      rw [write_of_not_hasMatch hmatch, hgoes]
      exact ⟨args.contact, List.mem_append_right contacts List.mem_cons_self, hlive⟩

/-! ## Keys -/

namespace MemoryRegistrationStore

variable {store next : MemoryRegistrationStore} {now : Nat} {impu : Bytes}

theorem find_purgeExpired_of_unbound (hfind : store.bindings.find impu = none) :
    (store.purgeExpired now).1.bindings.find impu = none := by
  rw [find_purgeExpired, hfind]
  rfl

theorem find_removeBindings_of_unbound {impus : ImpuSet} (hfind : store.bindings.find impu = none) :
    (store.removeBindings impus).1.bindings.find impu = none := by
  rw [find_removeBindings, hfind, ite_self]

theorem find_removeContactLocked_of_unbound {removed : Bytes} {selector : ContactBindingSelector}
    {callId : Bytes} {cseq : UInt32} {rejectOlderCseq : Bool}
    (hfind : store.bindings.find impu = none) :
    (store.removeContactLocked removed selector callId cseq rejectOlderCseq).1.bindings.find impu =
      none := by
  by_cases heq : impu = removed
  · rw [← heq, removeContactLocked, hfind]
    exact hfind
  · rw [find_removeContactLocked_of_ne heq, hfind]

theorem find_removeContacts_of_unbound {batch : ContactBatchRemove}
    (hfind : store.bindings.find impu = none) :
    (store.removeContacts now batch).1.bindings.find impu = none := by
  have hpruned : (store.pruneAll now batch.impus.elems).bindings.find impu = none := by
    rw [find_pruneAll, hfind]
    exact ite_self none
  have hremoval : ∀ (store : MemoryRegistrationStore) (removed : Bytes),
      store.bindings.find impu = none → (store.removeContactLocked removed batch.selector
        batch.callId batch.cseq batch.rejectOlderCseq).1.bindings.find impu = none :=
    fun _ _ => find_removeContactLocked_of_unbound
  exact performAll_preserves (P := fun store : MemoryRegistrationStore =>
    store.bindings.find impu = none) hremoval batch.impus.elems hpruned 0

theorem exists_find_of_pruned {binding : RegistrationBinding}
    (h : pruned now (store.bindings.find impu) = some binding) :
    ∃ stored, store.bindings.find impu = some stored := by
  cases hfind : store.bindings.find impu with
  | none =>
      rw [hfind] at h
      cases h
  | some stored => exact ⟨stored, rfl⟩

/-- Where something is left after pruning, it is what a look-up returns. -/
theorem lookup_of_pruned {binding : RegistrationBinding}
    (h : pruned now (store.bindings.find impu) = some binding) (follower : Option Bytes) :
    (store.lookup now impu follower).2 = .ok binding := by
  rw [lookup_eq_ok_iff, prunedEntry_of_not_lapsed, h]
  rintro ⟨stored, hfind, hlapsed⟩
  rw [hfind, hlapsed] at h
  cases h

/-- Where a contact is alive, a binding is left after pruning. -/
theorem exists_pruned_of_live {contact : ContactBinding} (hmem : contact ∈ store.contacts impu)
    (hlive : contact.live now = true) :
    ∃ binding, pruned now (store.bindings.find impu) = some binding := by
  cases hfind : store.bindings.find impu with
  | none =>
      rw [contacts, hfind] at hmem
      cases hmem
  | some binding =>
      rw [contacts, hfind, contactsOf_some] at hmem
      have hne : binding.contacts.filter (·.live now) ≠ [] :=
        List.ne_nil_of_mem (List.mem_filter.mpr ⟨hmem, hlive⟩)
      exact ⟨{ binding with contacts := binding.contacts.filter (·.live now) }, if_neg hne⟩

/-- A write that requires no match leaves a binding under each of its identities. -/
theorem exists_find_upsertContacts {batch : ContactBatchUpsert}
    (hadds : batch.requireExistingMatch = false) (hmem : impu ∈ batch.impus.elems) :
    ∃ binding, (store.upsertContacts now batch).1.bindings.find impu = some binding := by
  rw [(upsertContacts_eq store now batch).2, if_pos hmem,
    if_pos (applies_of_not_requireExistingMatch hadds)]
  exact ⟨_, rfl⟩

/-- A write that goes through leaves something alive under each of its identities. -/
theorem exists_pruned_upsertContacts {batch : ContactBatchUpsert}
    (hgoes : batch.requireExistingMatch = true → 0 < (store.upsertContacts now batch).2)
    (hlive : batch.contact.live now = true) (hmem : impu ∈ batch.impus.elems) :
    ∃ binding, pruned now ((store.upsertContacts now batch).1.bindings.find impu) =
      some binding := by
  have happlies : store.applies now batch = true := by
    cases hrequire : batch.requireExistingMatch with
    | false => exact applies_of_not_requireExistingMatch hrequire
    | true =>
        have hpos := hgoes hrequire
        rw [(upsertContacts_eq store now batch).1] at hpos
        by_contra hnot
        rw [if_neg hnot] at hpos
        exact Nat.lt_irrefl 0 hpos
  have hthrough := List.all_eq_true.mp happlies impu hmem
  obtain ⟨contact, hcontact, hcontactLive⟩ := ContactUpsert.exists_live_write hthrough hlive
    fun contact hmem => (List.mem_filter.mp hmem).2
  refine exists_pruned_of_live ?_ hcontactLive
  rwa [contacts_upsertContacts, if_pos hmem, if_pos happlies]

variable [OsipParser]

/-- Every identity that is stored is its own normal form. -/
def NormalKeys (store : MemoryRegistrationStore) : Prop :=
  ∀ impu binding, store.bindings.find impu = some binding → normalizeImpuUri impu = impu

theorem NormalKeys.init : init.NormalKeys := fun _ _ hfind => by cases hfind

theorem NormalKeys.of_unbound (h : store.NormalKeys)
    (hnext : ∀ impu, store.bindings.find impu = none → next.bindings.find impu = none) :
    next.NormalKeys := by
  intro impu binding hfind
  cases hbefore : store.bindings.find impu with
  | none =>
      rw [hnext impu hbefore] at hfind
      cases hfind
  | some stored => exact h impu stored hbefore

end MemoryRegistrationStore

end SimIms.Registration

namespace SimIms.SCscf

open Cxx Lib Sip Diameter Registration

section

variable [OsipParser]

/-! ## What is found and what is told -/

/-- An INVITE for this request URI has this callee, and a SUBSCRIBE is accepted, wherever the map
goes on. -/
structure RegistrarState.Finds (s : RegistrarState) (uri : Bytes) (binding : RegistrationBinding) :
    Prop where
  lookupCallee : ∀ follower,
    (SessionRouter.lookupCallee s.store s.now uri follower).2 = .ok binding
  onSubscribe : ∀ (service : ScscfService) (request : SipMessage) (txn : Nat)
    (environment : SubscribeEnvironment), request.requestUri = uri →
    request.getHeader (bytes "Event") = some (bytes "reg") →
    ∃ t result response, (service.onSubscribe (G := subscribeOps) request txn).alone
        RegistrarState.serveSubscribe environment s = some (t, result, [(txn, response)]) ∧
      response.statusCode = 200

/-- The identities that the HSS has assigned. -/
def RegistrarThread.assigned (thread : RegistrarThread) : List Bytes :=
  match thread.assignment with
  | some (_, .ok profile) => profile.associatedImpus
  | _ => []

/-- The identities of the subscriber: the one that the provider has verified, for a request that is
not verified the one that it is for, and those that the HSS has assigned. -/
def RegistrarThread.told (thread : RegistrarThread) : List Bytes :=
  match thread.verification with
  | some verification => verification.impu :: thread.assigned
  | none => extractImpu thread.request :: thread.assigned

/-- A verified request that is about to store a binding has been told normal forms only. -/
def ToldNormal (s : RegistrarThreads)
    (a : ThreadAction RegistrarEnvironment (SipMessage × Nat) RegistrarBackground) : Prop :=
  ∀ id thread batch next, a.By id →
    s.operation id = some (thread, ⟨.store (.upsertContacts batch), next⟩) →
    batch.requireExistingMatch = false →
    ∀ impu ∈ thread.told, normalizeImpuUri impu = impu

/-- A refresh that is about to be confirmed has found the binding of the identity that it is for,
or this identity is assigned with the one that it has found. -/
def RefreshesOwn (s : RegistrarThreads)
    (a : ThreadAction RegistrarEnvironment (SipMessage × Nat) RegistrarBackground) : Prop :=
  ∀ id thread txn response next binding, a.By id →
    s.operation id = some (thread, ⟨.respond (txn, response), next⟩) →
    response.statusCode = 200 → isDeregister thread.request = false →
    thread.verification = none → thread.found = some (.ok binding) →
    binding.impu = extractImpu thread.request ∨ extractImpu thread.request ∈ thread.assigned

/-- One step keeps the keys in normal form. What is alive is found under every spelling. A write
that goes through leaves something alive under all the identities that it is for. A request that
registers is answered with a 200 only after such a write, for all identities of its subscriber. -/
structure FoundUnderAnySpelling (s : RegistrarThreads)
    (a : ThreadAction RegistrarEnvironment (SipMessage × Nat) RegistrarBackground)
    (t : RegistrarThreads) (out : List (Nat × Nat × SipMessage)) : Prop where
  keys : t.shared.store.NormalKeys
  found : ∀ impu binding uri,
    pruned t.shared.now (t.shared.store.bindings.find impu) = some binding →
    normalizeImpuUri uri = normalizeImpuUri impu → t.shared.Finds uri binding
  written : ∀ id thread batch next, a.By id →
    s.operation id = some (thread, ⟨.store (.upsertContacts batch), next⟩) →
    (batch.requireExistingMatch = true →
      0 < (s.shared.store.upsertContacts s.shared.now batch).2) →
    batch.contact.live t.shared.now = true → ∀ impu ∈ batch.impus.elems,
      ∃ binding, pruned t.shared.now (t.shared.store.bindings.find impu) = some binding
  answered : ∀ id thread txn response next, a.By id →
    s.operation id = some (thread, ⟨.respond (txn, response), next⟩) →
    response.statusCode = 200 → isDeregister thread.request = false →
    ∃ batch n, thread.wrote = some (.upsertContacts batch, .ok n) ∧
      (batch.requireExistingMatch = true → 0 < n) ∧
      ∀ impu ∈ thread.told, impu ∈ batch.impus.elems

theorem RegistrarState.finds_of_pruned {s : RegistrarState} {impu uri : Bytes}
    {binding : RegistrationBinding} (hkeys : s.store.NormalKeys)
    (hpruned : pruned s.now (s.store.bindings.find impu) = some binding)
    (huri : normalizeImpuUri uri = normalizeImpuUri impu) : s.Finds uri binding := by
  obtain ⟨stored, hstored⟩ := MemoryRegistrationStore.exists_find_of_pruned hpruned
  have hnormal := hkeys impu stored hstored
  have hlookup := MemoryRegistrationStore.lookup_of_pruned hpruned
  constructor
  · intro follower
    rw [SessionRouter.lookupCallee_of_normal huri hnormal]
    exact hlookup follower
  · rintro service request txn environment rfl hevent
    obtain ⟨t, result, response, hrun, hstatus⟩ := @ScscfService.onSubscribe_alone service s request
      txn environment _ hevent
    rw [huri, hnormal, hlookup] at hstatus
    exact ⟨t, result, response, hrun, hstatus⟩

/-! ## Writes -/

variable {setting : RegistrarSetting} {thread : RegistrarThread} {s : RegistrarState}

/-- A write that requires no match is that of a verified request, for the identities of its
subscriber. -/
theorem RegistrarThread.Writes.mem_told_iff {batch : ContactBatchUpsert}
    (h : thread.Writes setting (.upsertContacts batch)) (hadds : batch.requireExistingMatch = false)
    (impu : Bytes) : impu ∈ batch.impus.elems ↔ impu ∈ thread.told := by
  cases h with
  | refresh => cases hadds
  | register _ _ _ hverified _ hassigned _ _ _ =>
      rw [RegistrarThread.told, RegistrarThread.assigned, hverified, hassigned, mem_makeImpuSet_iff,
        List.mem_cons]

/-- A write that requires a match is for the identity that has been found and those assigned. -/
theorem RegistrarThread.Writes.mem_refreshed_iff {batch : ContactBatchUpsert}
    (h : thread.Writes setting (.upsertContacts batch))
    (hrequires : batch.requireExistingMatch = true) :
    thread.verification = none ∧ ∃ binding, thread.found = some (.ok binding) ∧
      ∀ impu, impu ∈ batch.impus.elems ↔ impu = binding.impu ∨ impu ∈ thread.assigned := by
  cases h with
  | register => cases hrequires
  | @refresh binding _ _ _ _ _ saa _ hfound _ _ _ _ _ _ _ hunverified hassigned _ _ _ =>
      refine ⟨hunverified, binding, hfound, fun impu => ?_⟩
      rw [RegistrarThread.assigned, hassigned, mem_refreshedImpus_iff, mem_makeImpuSet_iff]
      cases saa with
      | error error => rfl
      | ok profile => rfl

/-- What a write is for are the identities of the subscriber, except where a request refreshes
what it has found of another identity. -/
theorem RegistrarThread.Writes.told_subset_iff {batch : ContactBatchUpsert}
    (h : thread.Writes setting (.upsertContacts batch)) :
    (∀ impu ∈ thread.told, impu ∈ batch.impus.elems) ↔
      ∀ binding, thread.verification = none → thread.found = some (.ok binding) →
        binding.impu = extractImpu thread.request ∨
          extractImpu thread.request ∈ thread.assigned := by
  cases hrequires : batch.requireExistingMatch with
  | false =>
      refine iff_of_true (fun impu => (h.mem_told_iff hrequires impu).mpr) fun _ hunverified => ?_
      cases h with
      | refresh => cases hrequires
      | register _ _ _ hverified =>
          rw [hverified] at hunverified
          cases hunverified
  | true =>
      obtain ⟨hunverified, binding, hfound, hmem⟩ := h.mem_refreshed_iff hrequires
      have htold : thread.told = extractImpu thread.request :: thread.assigned := by
        rw [RegistrarThread.told, hunverified]
      rw [htold, List.forall_mem_cons, hmem]
      constructor
      · rintro ⟨hown, -⟩ other - hother
        rw [hfound] at hother
        cases hother
        exact hown.imp_left Eq.symm
      · intro hown
        exact ⟨(hown binding hunverified hfound).imp_left Eq.symm,
          fun impu hassigned => (hmem impu).mpr (.inr hassigned)⟩

theorem normalKeys_background (h : s.store.NormalKeys) (event : RegistrarBackground) :
    (s.background event).store.NormalKeys := by
  cases event with
  | elapse milliseconds => exact h
  | purgeExpired =>
      exact h.of_unbound fun _ => MemoryRegistrationStore.find_purgeExpired_of_unbound
  | lookup impu =>
      exact h.of_unbound fun _ => MemoryRegistrationStore.find_pruneExpiredLocked_of_unbound

theorem normalKeys_serveStore {op : StoreOp} {follower : Option Bytes} (h : s.store.NormalKeys)
    (hadds : ∀ batch, op = .upsertContacts batch → batch.requireExistingMatch = false →
      ∀ impu ∈ batch.impus.elems, normalizeImpuUri impu = impu) :
    (serveStore s.store s.now follower op).1.NormalKeys := by
  cases op with
  | lookup impu =>
      exact h.of_unbound fun _ => MemoryRegistrationStore.find_pruneExpiredLocked_of_unbound
  | removeContacts batch =>
      exact h.of_unbound fun _ => MemoryRegistrationStore.find_removeContacts_of_unbound
  | removeBindings impus =>
      exact h.of_unbound fun _ => MemoryRegistrationStore.find_removeBindings_of_unbound
  | upsertContacts batch =>
      cases hrequire : batch.requireExistingMatch with
      | true =>
          exact h.of_unbound fun _ =>
            MemoryRegistrationStore.find_upsertContacts_of_unbound hrequire
      | false =>
          intro impu binding hfind
          by_cases hmem : impu ∈ batch.impus.elems
          · exact hadds batch rfl hrequire impu hmem
          · change (s.store.upsertContacts s.now batch).1.bindings.find impu = _ at hfind
            rw [(MemoryRegistrationStore.upsertContacts_eq s.store s.now batch).2,
              if_neg hmem] at hfind
            exact h impu binding hfind

/-! ## Runs -/

/-- The contract of the requests holds in every run. -/
abbrev plainDiscipline (setting : RegistrarSetting) :
    Discipline RegistrarState registrarOps RegistrarThread Unit (Nat × SipMessage) :=
  registrarDiscipline setting fun _ => True

theorem plainDiscipline_sound (setting : RegistrarSetting) :
    (plainDiscipline setting).Sound (Registrar.service setting.providers setting.domain) :=
  registrarDiscipline_sound ⟨fun _ _ _ => trivial, fun _ _ _ _ _ => trivial⟩

variable {t : RegistrarThreads} {log out : List (Nat × Nat × SipMessage)} {r : RegistrarThreads}
variable {a : ThreadAction RegistrarEnvironment (SipMessage × Nat) RegistrarBackground}

/-- The store after a step in which a request calls it. -/
theorem store_of_step {id : Nat} {op : StoreOp}
    {next : StoreAnswer op → Program registrarOps Exception Unit} (hby : a.By id)
    (hoperation : r.operation id = some (thread, ⟨.store op, next⟩))
    (hstep : r.step (Registrar.service setting.providers setting.domain) a = some (t, out)) :
    t.shared = { r.shared with store := (serveStore r.shared.store r.shared.now none op).1 } := by
  obtain ⟨environment, rfl⟩ := hby
  obtain ⟨_, _, _, _, _, _, hother, hserve, -, rfl⟩ := Threads.runThread_eq_some hstep
  cases hoperation.symm.trans hother
  cases hserve
  cases op <;> rfl

theorem normalKeys_step (hinv : r.Inv (plainDiscipline setting) log)
    (hkeys : r.shared.store.NormalKeys) (htold : ToldNormal r a)
    (hstep : r.step (Registrar.service setting.providers setting.domain) a = some (t, out)) :
    t.shared.store.NormalKeys := by
  cases a with
  | start request =>
      cases hstep
      exact hkeys
  | background event =>
      cases hstep
      exact normalKeys_background hkeys event
  | run id environment =>
      obtain ⟨_, op, next, _, _, _, hoperation, hserve, -, rfl⟩ := Threads.runThread_eq_some hstep
      cases op with
      | hss op | provider op | environment op | respond response =>
          cases hserve
          exact hkeys
      | store op =>
          cases hserve
          refine normalKeys_serveStore hkeys fun batch hop hadds impu hmem => ?_
          subst hop
          have hwrites := (hinv.allows hoperation).1
          exact htold id _ batch next ⟨environment, rfl⟩ hoperation hadds impu
            ((hwrites.mem_told_iff hadds impu).mp hmem)

/-- A request that registers and has written has upserted. -/
theorem RegistrarThread.Succeeded.exists_upsert (h : thread.Succeeded setting)
    (hregisters : isDeregister thread.request = false) :
    ∃ batch n, thread.wrote = some (.upsertContacts batch, .ok n) ∧
      thread.Writes setting (.upsertContacts batch) ∧
      (batch.requireExistingMatch = true → 0 < n) := by
  obtain ⟨op, result, hwrote, hwrites, hgone⟩ := h
  cases op with
  | lookup impu => cases hwrites
  | upsertContacts batch =>
      obtain ⟨n, rfl, hpos⟩ := hgone batch rfl
      exact ⟨batch, n, hwrote, hwrites, hpos⟩
  | removeContacts batch =>
      cases hwrites with
      | removeContacts hderegisters => exact absurd (hregisters.symm.trans hderegisters) (by decide)
  | removeBindings impus =>
      cases hwrites with
      | removeBindings hderegisters => exact absurd (hregisters.symm.trans hderegisters) (by decide)

theorem foundUnderAnySpelling_step_iff (hinv : r.Inv (plainDiscipline setting) log)
    (hkeys : r.shared.store.NormalKeys)
    (hstep : r.step (Registrar.service setting.providers setting.domain) a = some (t, out)) :
    FoundUnderAnySpelling r a t out ↔ ToldNormal r a ∧ RefreshesOwn r a := by
  constructor
  · intro h
    constructor
    · intro id thread batch next hby hoperation hadds impu hmem
      have hwrites := (hinv.allows hoperation).1
      obtain ⟨binding, hfind⟩ := MemoryRegistrationStore.exists_find_upsertContacts hadds
        ((hwrites.mem_told_iff hadds impu).mpr hmem)
      apply h.keys impu binding
      rw [store_of_step hby hoperation hstep]
      exact hfind
    · intro id thread txn response next binding hby hoperation hok hregisters
      obtain ⟨batch, n, hwrote, -, htold⟩ :=
        h.answered id thread txn response next hby hoperation hok hregisters
      obtain ⟨other, m, hother, hwrites, -⟩ :=
        RegistrarThread.Succeeded.exists_upsert (hinv.allows hoperation hok) hregisters
      rw [hwrote] at hother
      cases hother
      exact hwrites.told_subset_iff.mp htold binding
  · rintro ⟨htold, hown⟩
    have hnormal := normalKeys_step hinv hkeys htold hstep
    refine ⟨hnormal, fun _ _ _ => RegistrarState.finds_of_pruned hnormal, ?_, ?_⟩
    · intro id thread batch next hby hoperation hgoes hlive impu hmem
      rw [store_of_step hby hoperation hstep] at hlive ⊢
      exact MemoryRegistrationStore.exists_pruned_upsertContacts hgoes hlive hmem
    · intro id thread txn response next hby hoperation hok hregisters
      obtain ⟨batch, n, hwrote, hwrites, hpos⟩ :=
        RegistrarThread.Succeeded.exists_upsert (hinv.allows hoperation hok) hregisters
      refine ⟨batch, n, hwrote, hpos, hwrites.told_subset_iff.mpr fun binding => ?_⟩
      exact hown id thread txn response next binding hby hoperation hok hregisters

/-- Along a run the identities are stored in normal form, and those of a subscriber that is
registered are found under every spelling, exactly if every verified request that stores a binding
has been told normal forms only, and every refresh has found the binding that it is for. -/
theorem foundUnderAnySpelling_iff (providers : List Nat) (domain : Bytes) (now : Nat)
    (as : List (ThreadAction RegistrarEnvironment (SipMessage × Nat) RegistrarBackground)) :
    (threadsMachine (Registrar.service providers domain)).Along FoundUnderAnySpelling
        (.init ⟨.init, now⟩) as ↔
      (threadsMachine (Registrar.service providers domain)).Along
        (fun s a _ _ => ToldNormal s a ∧ RefreshesOwn s a) (.init ⟨.init, now⟩) as := by
  let setting : RegistrarSetting := ⟨providers, domain, fun _ _ => True⟩
  refine Machine.along_congr_of_kept
    (I := fun s => (∃ log, s.Inv (plainDiscipline setting) log) ∧ s.shared.store.NormalKeys)
    (fun s a t out h hstep hfound => ?_) ⟨⟨[], .init trivial⟩, .init⟩ fun s a t out h hstep => ?_
  · obtain ⟨⟨log, hinv⟩, -⟩ := h
    exact ⟨⟨_, hinv.next (plainDiscipline_sound setting) (fun _ _ => trivial) hstep⟩, hfound.keys⟩
  · obtain ⟨⟨log, hinv⟩, hkeys⟩ := h
    exact foundUnderAnySpelling_step_iff hinv hkeys hstep

end

/-! ## Alice is assigned a number with a host in capitals -/

def spelledNumber : Bytes := bytes "sip:+1@IMS.LOCAL"

def spelledEnvironment : RegistrarEnvironment :=
  .accepting ⟨bytes "call", bytes "alice@ims.local", bytes "sip:alice@ims.local", []⟩
    [bytes "sip:alice@ims.local", spelledNumber]

def spelledRegisters :
    List (ThreadAction RegistrarEnvironment (SipMessage × Nat) RegistrarBackground) :=
  .start (aliceRequest [contactAt "sip:alice@10.0.0.1"] true, 0) ::
    List.replicate 9 (.run 0 spelledEnvironment)

/-- She gets a 200. The number is stored as it was assigned, and not found as it is spelled. -/
theorem spelledNumber_lost :
    ∃ s log, aliceRegistrar.exec (.init ⟨.init, 0⟩) spelledRegisters = some (s, log) ∧
      log.map (fun event => event.2.2.statusCode) = [200] ∧
      (s.shared.store.bindings.find spelledNumber).isSome = true ∧
      @normalizeImpuUri plainUris spelledNumber ≠ spelledNumber ∧
      (@SessionRouter.lookupCallee plainUris s.shared.store s.shared.now
        spelledNumber none).2.isOk = false := by
  have hsummary : (aliceRegistrar.exec (.init ⟨.init, 0⟩) spelledRegisters).map (fun run =>
      (run.2.map (fun event => event.2.2.statusCode),
        (run.1.shared.store.bindings.find spelledNumber).isSome,
        (@SessionRouter.lookupCallee plainUris run.1.shared.store run.1.shared.now
          spelledNumber none).2.isOk)) = some ([200], true, false) := by
    decide +kernel
  obtain ⟨⟨s, log⟩, hrun, hvalues⟩ := Option.map_eq_some_iff.mp hsummary
  obtain ⟨hanswered, hrest⟩ := Prod.mk.inj hvalues
  obtain ⟨hstored, hlost⟩ := Prod.mk.inj hrest
  exact ⟨s, log, hrun, hanswered, hstored, by decide +kernel, hlost⟩

end SimIms.SCscf
