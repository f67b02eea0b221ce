import SimIms.Registration.KeyedBindings
import SimIms.Registration.Purging
import SimIms.SCscf.RegistrarCalls

/-!
# What a 200 to a REGISTER promises

A request with one contact asks that the contact be registered for some time, or removed. What
the binding contains after the 200 is compared with that, for a request that is handled alone.
-/

namespace SimIms.SCscf

open Cxx Lib Sip Diameter Registration

/-! ## Promises -/

/-- The number at the start of a text, if it has no sign. -/
def decimalValue (text : Bytes) : Option Nat :=
  (scanNumeral text).bind fun numeral =>
    if numeral.negative then none else some (digitsValue numeral.digits)

/-- The seconds that a request asks for, if what it gives is a number. -/
def promisedExpires (request : SipMessage) : Option Nat :=
  match request.contactParam (bytes "expires") with
  | some text => decimalValue text
  | none =>
      match request.getHeader (bytes "Expires") with
      | some text => decimalValue text
      | none => some 3600

/-- The contact that a request asks for. -/
structure IsPromised (request : SipMessage) (seconds now : Nat) (contact : ContactBinding) :
    Prop where
  contactUri : request.contact = some contact.contactUri
  callId : contact.callId = request.callId
  cseq : request.cseq = .ok contact.cseq
  expires : contact.expires = now + 1000 * seconds

section

variable [OsipParser]

/-- The contacts alive under the identity of a request that its selector matches. -/
def RegistrarState.matched (s : RegistrarState) (request : SipMessage) : List ContactBinding :=
  (s.store.liveContacts s.now (extractImpu request)).filter
    (matchesSelector · (makeContactSelector request request.contact))

/-- The request is older than one of the contacts that it is about. -/
def RegistrarState.Outdates (s : RegistrarState) (request : SipMessage) : Prop :=
  ∃ cseq, request.cseq = .ok cseq ∧
    ∃ contact ∈ s.matched request, contact.callId = request.callId ∧ cseq < contact.cseq

/-- What holds after a request that is answered with a 200 and that has been applied. -/
structure KeepsPromise (request : SipMessage) (before after : RegistrarState) : Prop where
  applied : ¬ before.Outdates request
  removed : promisedExpires request = some 0 →
    ∀ contact ∈ after.store.contacts (extractImpu request),
      matchesSelector contact (makeContactSelector request request.contact) = false
  registered : ∀ seconds, promisedExpires request = some seconds → 0 < seconds →
    ∃ contact, after.matched request = [contact] ∧
      IsPromised request seconds before.now contact

/-! ## Conditions -/

/-- The binding that is refreshed, if a contact is. It is the one that the look-up returns, which
depends on how the map goes on. -/
def RegistrarState.refreshed (s : RegistrarState) (follower : Option Bytes)
    (request : SipMessage) : Option RegistrationBinding :=
  match (s.store.lookup s.now (extractImpu request) follower).2 with
  | .error _ => none
  | .ok binding =>
      if binding.state = .registered ∧ binding.contacts.any fun contact =>
          contact.live s.now &&
            matchesSelector contact (makeContactSelector request request.contact) then
        some binding
      else none

/-- The identities under which a contact is registered. -/
def RegistrarEnvironment.registeredImpus (environment : RegistrarEnvironment)
    (providers : List Nat) (domain : Bytes) (request : SipMessage) : List Bytes :=
  match providers.find? fun n => environment.provider (.canHandleAuthorization n request) with
  | none => []
  | some n =>
      match environment.provider (.verifyAuthorization n request) with
      | .error _ => []
      | .ok verification =>
          match environment.hss (.serverAssignment
              ⟨verification.impi, verification.impu, bytes "sip:scscf." ++ domain⟩) with
          | .error _ => []
          | .ok profile => (makeImpuSet profile.associatedImpus verification.impu).elems

/-- When the contact that a request asks for is left alone. A binding that is refreshed is that of
the request. One contact is written if none or one is there to be replaced, for less than 2^32
seconds; where the request is not registered under its own identity, it is there already. -/
def RegistrarEnvironment.Registers (environment : RegistrarEnvironment) (providers : List Nat)
    (domain : Bytes) (request : SipMessage) (before : RegistrarState) (seconds : Nat) : Prop :=
  match before.refreshed environment.surroundings.follower request with
  | some binding => binding.impu = extractImpu request ∧
      (before.matched request).length ≤ 1 ∧ seconds < 2 ^ 32
  | none =>
      (extractImpu request ∈ environment.registeredImpus providers domain request →
        (before.matched request).length ≤ 1 ∧ seconds < 2 ^ 32) ∧
      (extractImpu request ∉ environment.registeredImpus providers domain request →
        ∃ contact, before.matched request = [contact] ∧
          IsPromised request seconds before.now contact)

section

variable {environment : RegistrarEnvironment} {providers : List Nat} {domain : Bytes}
variable {request : SipMessage} {before : RegistrarState} {seconds : Nat}

theorem RegistrarEnvironment.registers_iff_of_refreshed {binding : RegistrationBinding}
    (h : before.refreshed environment.surroundings.follower request = some binding) :
    environment.Registers providers domain request before seconds ↔
      binding.impu = extractImpu request ∧
        (before.matched request).length ≤ 1 ∧ seconds < 2 ^ 32 := by
  rw [Registers, h]

theorem RegistrarEnvironment.registers_iff_of_assigned
    (h : before.refreshed environment.surroundings.follower request = none)
    (hassigned : extractImpu request ∈ environment.registeredImpus providers domain request) :
    environment.Registers providers domain request before seconds ↔
      (before.matched request).length ≤ 1 ∧ seconds < 2 ^ 32 := by
  rw [Registers, h]
  exact ⟨fun hregisters => hregisters.1 hassigned,
    fun hfits => ⟨fun _ => hfits, fun hnot => (hnot hassigned).elim⟩⟩

theorem RegistrarEnvironment.registers_iff_of_not_assigned
    (h : before.refreshed environment.surroundings.follower request = none)
    (hnot : extractImpu request ∉ environment.registeredImpus providers domain request) :
    environment.Registers providers domain request before seconds ↔
      ∃ contact, before.matched request = [contact] ∧
        IsPromised request seconds before.now contact := by
  rw [Registers, h]
  exact ⟨fun hregisters => hregisters.2 hnot,
    fun hthere => ⟨fun hassigned => (hnot hassigned).elim, fun _ => hthere⟩⟩

end

/-- When a 200 keeps its promise. A contact is removed only if that is asked for. -/
structure PromiseKept (providers : List Nat) (domain : Bytes) (environment : RegistrarEnvironment)
    (request : SipMessage) (before : RegistrarState) : Prop where
  ordered : ¬ before.Outdates request
  removes : isDeregister request = true → ∀ seconds, promisedExpires request = some seconds →
    seconds = 0
  registers : isDeregister request = false → ∀ seconds, promisedExpires request = some seconds →
    environment.Registers providers domain request before seconds

end

/-! ## Numbers -/

theorem parseUintHeader_of_decimalValue {text : Bytes} {n : Nat} (h : decimalValue text = some n) :
    SipMessage.parseUintHeader text = if n < 2 ^ 64 then some (UInt32.ofNat n) else none := by
  obtain ⟨⟨negative, digits⟩, hscan, hvalue⟩ := Option.bind_eq_some_iff.mp h
  cases negative with
  | true => cases hvalue
  | false =>
      cases hvalue
      rw [SipMessage.parseUintHeader, stoul, hscan]
      by_cases hrange : digitsValue digits < 2 ^ 64
      · simp only [if_pos hrange, if_neg (Nat.not_le.mpr hrange), Bool.false_eq_true, if_false]
      · simp only [if_neg hrange, if_pos (Nat.not_lt.mp hrange)]

theorem parseUintHeader_of_lt {text : Bytes} {n : Nat} (h : decimalValue text = some n)
    (hlt : n < 2 ^ 32) : SipMessage.parseUintHeader text = some (UInt32.ofNat n) := by
  rw [parseUintHeader_of_decimalValue h, if_pos (Nat.lt_trans hlt (by decide))]

/-- The seconds that are asked for are those that the registrar determines, unless they do not fit
into 32 bits. -/
theorem determineRegisterExpires_eq_iff {request : SipMessage} {seconds : Nat}
    (h : promisedExpires request = some seconds) :
    (determineRegisterExpires request).toNat = seconds ↔ seconds < 2 ^ 32 := by
  constructor
  · intro heq
    rw [← heq]
    exact UInt32.toNat_lt _
  · intro hlt
    suffices hdetermined : determineRegisterExpires request = UInt32.ofNat seconds by
      rw [hdetermined]
      exact UInt32.toNat_ofNat_of_lt hlt
    rw [promisedExpires] at h
    rw [determineRegisterExpires, SipMessage.contactExpires, SipMessage.expiresValue]
    cases hparam : request.contactParam (bytes "expires") with
    | some text =>
        simp only [hparam] at h
        rw [Option.bind_some, parseUintHeader_of_lt h hlt]
        rfl
    | none =>
        simp only [hparam] at h
        cases hheader : request.getHeader (bytes "Expires") with
        | some text =>
            simp only [hheader] at h
            rw [Option.bind_some, parseUintHeader_of_lt h hlt]
            rfl
        | none =>
            simp only [hheader, Option.some.injEq] at h
            rw [← h]
            rfl

/-- A request for no time at all is a de-registration. -/
theorem isDeregister_of_promisedExpires {request : SipMessage}
    (h : promisedExpires request = some 0) : isDeregister request = true := by
  rw [promisedExpires] at h
  rw [isDeregister, SipMessage.contactExpires, SipMessage.expiresValue]
  cases hparam : request.contactParam (bytes "expires") with
  | some text =>
      simp only [hparam] at h
      rw [Option.bind_some, parseUintHeader_of_lt h (by decide)]
      exact Bool.or_true _
  | none =>
      simp only [hparam] at h
      cases hheader : request.getHeader (bytes "Expires") with
      | some text =>
          simp only [hheader] at h
          rw [Option.bind_some, parseUintHeader_of_lt h (by decide)]
          rfl
      | none =>
          simp only [hheader] at h
          cases h

/-- A request that is not a de-registration is given some time. -/
theorem determineRegisterExpires_pos {request : SipMessage} (h : isDeregister request = false) :
    0 < (determineRegisterExpires request).toNat := by
  rw [isDeregister, Bool.or_eq_false_iff, Bool.or_eq_false_iff, beq_eq_false_iff_ne,
    beq_eq_false_iff_ne] at h
  obtain ⟨⟨hheader, -⟩, hparam⟩ := h
  rw [Nat.pos_iff_ne_zero]
  intro hzero
  have hdetermined : determineRegisterExpires request = 0 := UInt32.toNat_inj.mp hzero
  rw [determineRegisterExpires] at hdetermined
  cases hc : request.contactExpires with
  | some n =>
      rw [hc] at hparam hdetermined
      exact hparam (congrArg some hdetermined)
  | none =>
      cases he : request.expiresValue with
      | some n =>
          rw [he] at hheader
          rw [hc, he] at hdetermined
          exact hheader (congrArg some hdetermined)
      | none =>
          rw [hc, he] at hdetermined
          exact absurd hdetermined (by decide)

/-! ## A request that is handled alone -/

section

variable [OsipParser] (providers : List Nat) (domain : Bytes) (environment : RegistrarEnvironment)
variable (request : SipMessage) (before : RegistrarState)

/-- What a request is answered that starts in this state, and that nothing interferes with. -/
def aloneSetting : RegistrarSetting where
  providers
  domain
  expects
    | .store (.lookup impu), answer =>
        answer = (before.store.lookup before.now impu environment.surroundings.follower).2
    | .hss op, answer => answer = environment.hss op
    | .provider op, answer => answer = environment.provider op
    | .environment .clock, answer => answer = before.now
    | _, _ => True

variable {providers domain environment request before}

/-- How far the request is: until it looks its binding up, nothing has changed, and until it
writes, nothing that is alive. -/
structure Alone (setting : RegistrarSetting) (request : SipMessage) (before : RegistrarState)
    (thread : RegistrarThread) (s : RegistrarState) (done : List (Nat × SipMessage)) : Prop where
  request_eq : thread.request = request
  now_eq : s.now = before.now
  unlooked : thread.found = none → thread.wrote = none → s.store = before.store
  unwritten : thread.wrote = none →
    MemoryRegistrationStore.Agree before.now before.store s.store
  written : ∀ op result, thread.wrote = some (op, result) →
    ∃ store, MemoryRegistrationStore.Agree before.now before.store store ∧
      s.store = (serveStore store before.now none op).1 ∧
      ∀ batch, op = .upsertContacts batch →
        result = .ok (store.upsertContacts before.now batch).2
  answered : ∀ response ∈ done, response.2.statusCode = 200 → thread.Succeeded setting

namespace Alone

variable {setting : RegistrarSetting} {thread : RegistrarThread} {s : RegistrarState}
variable {done : List (Nat × SipMessage)}

/-- A request that has not written has not been answered with a 200. -/
theorem not_succeeded (hopen : thread.wrote = none) : ¬ thread.Succeeded setting := by
  rintro ⟨op, result, hwrote, -⟩
  rw [hopen] at hwrote
  cases hwrote

/-- The look-up prunes. -/
theorem look (h : Alone setting request before thread s done) (hopen : thread.wrote = none)
    (impu : Bytes) (found : Result RegistrationBinding) :
    Alone setting request before { thread with found := some found }
      { s with store := s.store.pruneExpiredLocked s.now impu } done where
  request_eq := h.request_eq
  now_eq := h.now_eq
  unlooked hnone := by cases hnone
  unwritten _ other := by
    rw [h.unwritten hopen other, ← h.now_eq]
    exact MemoryRegistrationStore.agree_lookup s.now s.store impu none other
  written op result hwrote := by
    rw [hopen] at hwrote
    cases hwrote
  answered response hmem hok := (not_succeeded hopen (h.answered response hmem hok)).elim

/-- Until the write, whatever is learned besides. -/
theorem open_step (h : Alone setting request before thread s done) (hopen : thread.wrote = none)
    {thread' : RegistrarThread} (hrequest : thread'.request = thread.request)
    (hfound : thread'.found = thread.found) (hopen' : thread'.wrote = none) :
    Alone setting request before thread' s done where
  request_eq := hrequest.trans h.request_eq
  now_eq := h.now_eq
  unlooked hnone _ := h.unlooked (hfound.symm.trans hnone) hopen
  unwritten _ := h.unwritten hopen
  written op result hwrote := by
    rw [hopen'] at hwrote
    cases hwrote
  answered response hmem hok := (not_succeeded hopen (h.answered response hmem hok)).elim

theorem write (h : Alone setting request before thread s done) {thread' : RegistrarThread}
    (op : StoreOp) (count : Nat) (hopen : thread.wrote = none)
    (hrequest : thread'.request = thread.request) (hwrote : thread'.wrote = some (op, .ok count))
    (hcount : ∀ batch, op = .upsertContacts batch →
      count = (s.store.upsertContacts s.now batch).2) :
    Alone setting request before thread'
      { s with store := (serveStore s.store s.now none op).1 } done where
  request_eq := hrequest.trans h.request_eq
  now_eq := h.now_eq
  unlooked _ hnone := by
    rw [hwrote] at hnone
    cases hnone
  unwritten hnone := by
    rw [hwrote] at hnone
    cases hnone
  written other answer hother := by
    rw [hwrote] at hother
    cases hother
    refine ⟨s.store, h.unwritten hopen, by rw [h.now_eq], fun batch hbatch => ?_⟩
    rw [hcount batch hbatch, h.now_eq]
  answered response hmem hok := (not_succeeded hopen (h.answered response hmem hok)).elim

/-- Every operation that a request may issue is answered as expected, and keeps it so. -/
theorem serve
    (h : Alone (aloneSetting providers domain environment before) request before thread s done)
    {op : RegistrarOp} (hallows : thread.Allows
      (aloneSetting providers domain environment before) op)
    {t : RegistrarState} {answer : op.Answer} {out : List (Nat × SipMessage)}
    (hserve : s.serve op environment = some (t, answer, out)) :
    (aloneSetting providers domain environment before).expects op answer ∧
      Alone (aloneSetting providers domain environment before) request before
        (thread.track op answer) t (done ++ out) := by
  cases op with
  | store op =>
      cases hserve
      rw [List.append_nil]
      cases op with
      | lookup impu =>
          obtain ⟨-, -, hunlooked, hopen⟩ := hallows
          refine ⟨?_, h.look hopen impu _⟩
          change (s.store.lookup s.now impu environment.surroundings.follower).2 =
            (before.store.lookup before.now impu environment.surroundings.follower).2
          rw [h.now_eq, h.unlooked hunlooked hopen]
      | upsertContacts batch =>
          refine ⟨trivial, h.write (.upsertContacts batch) (s.store.upsertContacts s.now batch).2
            hallows.2 rfl rfl ?_⟩
          rintro _ ⟨⟩
          rfl
      | removeContacts batch =>
          exact ⟨trivial, h.write (.removeContacts batch) (s.store.removeContacts s.now batch).2
            hallows.2 rfl rfl fun _ => nofun⟩
      | removeBindings impus =>
          exact ⟨trivial, h.write (.removeBindings impus) (s.store.removeBindings impus).2
            hallows.2 rfl rfl fun _ => nofun⟩
  | hss op =>
      cases hserve
      rw [List.append_nil]
      refine ⟨rfl, h.open_step hallows ?_ ?_ ?_⟩
      · cases op <;> rfl
      · cases op <;> rfl
      · cases op <;> exact hallows
  | provider op =>
      cases hserve
      rw [List.append_nil]
      refine ⟨rfl, ?_⟩
      cases op with
      | canHandleInitialRegister | canHandleAuthorization | createChallenge => exact h
      | verifyAuthorization n asked =>
          generalize environment.provider (.verifyAuthorization n asked) = verified
          cases verified with
          | error error => exact h
          | ok verification =>
              refine h.open_step hallows.2 ?_ ?_ ?_
              · rfl
              · rfl
              · exact hallows.2
  | environment op =>
      cases hserve
      rw [List.append_nil]
      cases op with
      | clock => exact ⟨h.now_eq, h⟩
      | randomBytes | randomWord | generateTag | formatGmtDate => exact ⟨trivial, h⟩
  | respond response =>
      cases hserve
      refine ⟨trivial, h.request_eq, h.now_eq, h.unlooked, h.unwritten, h.written, ?_⟩
      intro other hmem hok
      obtain hmem | hmem := List.mem_append.mp hmem
      · exact h.answered other hmem hok
      · cases List.mem_singleton.mp hmem
        exact hallows hok

end Alone

/-! ## What a write leaves -/

omit [OsipParser] in
/-- A batch that requires no match is written, and one whose count is not zero. -/
theorem applies_of_pos {store : MemoryRegistrationStore} {now : Nat} {batch : ContactBatchUpsert}
    (h : batch.requireExistingMatch = true → 0 < (store.upsertContacts now batch).2) :
    store.applies now batch = true := by
  cases hrequire : batch.requireExistingMatch with
  | false => exact MemoryRegistrationStore.applies_of_not_requireExistingMatch hrequire
  | true =>
      have hpos := h hrequire
      rw [(MemoryRegistrationStore.upsertContacts_eq store now batch).1] at hpos
      by_contra hnot
      rw [if_neg hnot] at hpos
      exact Nat.lt_irrefl 0 hpos

section

variable {store : MemoryRegistrationStore} {batch : ContactBatchUpsert}

/-- The contact that is written comes in the place of the first that was matched. -/
theorem matched_upsertContacts
    (hagree : MemoryRegistrationStore.Agree before.now before.store store)
    (happlies : store.applies before.now batch = true)
    (hmem : extractImpu request ∈ batch.impus.elems)
    (hselector : batch.selector = makeContactSelector request request.contact)
    (hmatches : matchesSelector batch.contact batch.selector = true)
    (hlive : batch.contact.live before.now = true)
    (hfresh : ∀ existing ∈ before.matched request, batch.stale existing = false) :
    RegistrarState.matched ⟨(store.upsertContacts before.now batch).1, before.now⟩ request =
      batch.contact :: (before.matched request).tail := by
  have hbefore : before.matched request =
      (store.liveContacts before.now (extractImpu request)).filter
        (matchesSelector · batch.selector) := by
    rw [RegistrarState.matched, hagree.liveContacts, hselector]
  have hwrite := ContactUpsert.filter_write
    (store.liveContacts before.now (extractImpu request)) hmatches
  rw [← hbefore] at hwrite
  have hwritten : (batch.write (store.liveContacts before.now (extractImpu request))).filter
      (matchesSelector · batch.selector) = batch.contact :: (before.matched request).tail := by
    rw [hwrite]
    cases hmatched : before.matched request with
    | nil =>
        have hgoes := List.all_eq_true.mp happlies _ hmem
        rw [ContactUpsert.goesThrough, ContactUpsert.hasMatch] at hgoes
        rw [hbefore, List.filter_eq_nil_iff, ← List.any_eq_false] at hmatched
        rw [hmatched, Bool.or_false, Bool.not_eq_true'] at hgoes
        simp only [hgoes, Bool.false_eq_true, if_false, List.tail_nil]
    | cons existing rest =>
        have hexisting := hfresh existing (hmatched ▸ List.mem_cons_self)
        simp only [hexisting, Bool.false_eq_true, if_false, List.tail_cons]
  rw [RegistrarState.matched, ← hselector, MemoryRegistrationStore.liveContacts]
  simp only
  rw [MemoryRegistrationStore.contacts_upsertContacts, if_pos hmem, if_pos happlies,
    List.filter_comm, hwritten, List.filter_eq_self]
  intro contact hcontact
  obtain rfl | hcontact := List.mem_cons.mp hcontact
  · exact hlive
  · have hstored := List.mem_of_mem_tail hcontact
    exact (List.mem_filter.mp (List.mem_filter.mp hstored).1).2

theorem matched_upsertContacts_of_not_mem
    (hagree : MemoryRegistrationStore.Agree before.now before.store store)
    (hmem : extractImpu request ∉ batch.impus.elems) :
    RegistrarState.matched ⟨(store.upsertContacts before.now batch).1, before.now⟩ request =
      before.matched request := by
  rw [RegistrarState.matched, RegistrarState.matched, hagree.liveContacts,
    MemoryRegistrationStore.liveContacts, MemoryRegistrationStore.contacts_upsertContacts,
    if_neg hmem]
  rfl

end

/-! ## Registrations -/

variable {contact : Bytes}

omit [OsipParser] in
/-- The contact that is made for a request is the one that it asks for, unless the seconds do not
fit into 32 bits. -/
theorem isPromised_madeContact_iff {previous : Option ContactBinding} {now seconds : Nat}
    {cseq : UInt32} (hcontact : request.contact = some contact) (hcseq : request.cseq = .ok cseq)
    (hpromised : promisedExpires request = some seconds) :
    IsPromised request seconds now (madeContact request (some contact)
      (determineRegisterExpires request) previous now cseq) ↔ seconds < 2 ^ 32 := by
  rw [← determineRegisterExpires_eq_iff hpromised]
  constructor
  · intro h
    have hexpires : now + 1000 * (determineRegisterExpires request).toNat = now + 1000 * seconds :=
      h.expires
    omega
  · intro heq
    refine ⟨hcontact, rfl, hcseq, ?_⟩
    rw [← heq]
    rfl

/-- A request that is not a de-registration keeps its promise if the contacts are right. -/
theorem keepsPromise_iff_of_registers {after : RegistrarState}
    (hregisters : isDeregister request = false)
    (hcontacts : ¬ before.Outdates request → ∀ seconds, promisedExpires request = some seconds →
      ((∃ contact, after.matched request = [contact] ∧
          IsPromised request seconds before.now contact) ↔
        environment.Registers providers domain request before seconds)) :
    KeepsPromise request before after ↔
      PromiseKept providers domain environment request before := by
  have hnonzero : promisedExpires request ≠ some 0 := by
    intro hzero
    rw [isDeregister_of_promisedExpires hzero] at hregisters
    cases hregisters
  constructor
  · intro h
    refine ⟨h.applied, fun hderegisters => ?_, fun _ seconds hseconds => ?_⟩
    · rw [hregisters] at hderegisters
      cases hderegisters
    · refine (hcontacts h.applied seconds hseconds).mp (h.registered seconds hseconds ?_)
      rw [Nat.pos_iff_ne_zero]
      rintro rfl
      exact hnonzero hseconds
  · intro h
    exact ⟨h.ordered, fun hzero => (hnonzero hzero).elim, fun seconds hseconds _ =>
      (hcontacts h.ordered seconds hseconds).mpr (h.registers hregisters seconds hseconds)⟩

/-- One contact is left if there was at most one, and it is the right one if it is made so. -/
theorem keepsPromise_iff_of_upsert {store : MemoryRegistrationStore} {batch : ContactBatchUpsert}
    (previous : Option ContactBinding) {cseq : UInt32} (hregisters : isDeregister request = false)
    (hcontact : request.contact = some contact) (hcseq : request.cseq = .ok cseq)
    (hagree : MemoryRegistrationStore.Agree before.now before.store store)
    (happlies : store.applies before.now batch = true)
    (hmem : extractImpu request ∈ batch.impus.elems)
    (hown : ∀ seconds, environment.Registers providers domain request before seconds ↔
      (before.matched request).length ≤ 1 ∧ seconds < 2 ^ 32)
    (hselector : batch.selector = makeContactSelector request (some contact))
    (hmade : batch.contact = madeContact request (some contact) (determineRegisterExpires request)
      previous before.now cseq) :
    KeepsPromise request before ⟨(store.upsertContacts before.now batch).1, before.now⟩ ↔
      PromiseKept providers domain environment request before := by
  refine keepsPromise_iff_of_registers hregisters fun hordered seconds hseconds => ?_
  have hmatches : matchesSelector batch.contact batch.selector = true := by
    rw [hmade, hselector]
    exact matchesSelector_madeContact _ _ _ _ _ _
  have hlive : batch.contact.live before.now = true := by
    rw [ContactBinding.live, decide_eq_true_eq, hmade]
    have hpos := determineRegisterExpires_pos hregisters
    change before.now < before.now + 1000 * (determineRegisterExpires request).toNat
    omega
  have hfresh : ∀ existing ∈ before.matched request, batch.stale existing = false := by
    intro existing hexisting
    rw [Bool.eq_false_iff, ContactUpsert.stale, hmade]
    intro hstale
    simp only [Bool.and_eq_true, beq_iff_eq, decide_eq_true_eq] at hstale
    exact hordered ⟨cseq, hcseq, existing, hexisting, hstale.1.2, hstale.2⟩
  rw [matched_upsertContacts hagree happlies hmem (hselector.trans (by rw [hcontact])) hmatches
    hlive hfresh, hown seconds, ← isPromised_madeContact_iff hcontact hcseq hseconds, ← hmade]
  constructor
  · rintro ⟨other, heq, hpromised⟩
    obtain ⟨rfl, htail⟩ := List.cons.inj heq
    have hlength := congrArg List.length htail
    rw [List.length_tail, List.length_nil] at hlength
    exact ⟨by omega, hpromised⟩
  · rintro ⟨hlength, hpromised⟩
    refine ⟨batch.contact, ?_, hpromised⟩
    rw [List.cons.injEq, and_iff_right rfl, ← List.length_eq_zero_iff, List.length_tail]
    omega

/-! ## Removals -/

/-- What a removal leaves of the contacts that are matched is from later requests. -/
theorem outdates_of_removeContacts {store : MemoryRegistrationStore} {impus : ImpuSet}
    {cseq : UInt32} (hcseq : request.cseq = .ok cseq)
    (hagree : MemoryRegistrationStore.Agree before.now before.store store)
    (hmem : extractImpu request ∈ impus.elems) {existing : ContactBinding}
    (hexisting : existing ∈ (store.removeContacts before.now
      { impus, selector := makeContactSelector request request.contact,
        callId := request.callId, cseq
        rejectOlderCseq := true }).1.contacts (extractImpu request))
    (hmatches : matchesSelector existing (makeContactSelector request request.contact) = true) :
    before.Outdates request := by
  rw [MemoryRegistrationStore.contacts_removeContacts, if_pos hmem, List.mem_filter,
    ← hagree.liveContacts] at hexisting
  obtain ⟨hlive, hkept⟩ := hexisting
  rw [MemoryRegistrationStore.kept, hmatches] at hkept
  simp only [Bool.not_true, Bool.false_or, Bool.true_and, Bool.and_eq_true, beq_iff_eq,
    decide_eq_true_eq] at hkept
  exact ⟨cseq, hcseq, existing, List.mem_filter.mpr ⟨hlive, hmatches⟩, hkept⟩

theorem keepsPromise_iff_of_removal {store : MemoryRegistrationStore} {impus : ImpuSet}
    {cseq : UInt32} (hderegisters : isDeregister request = true) (hcseq : request.cseq = .ok cseq)
    (hagree : MemoryRegistrationStore.Agree before.now before.store store)
    (hmem : extractImpu request ∈ impus.elems) :
    KeepsPromise request before ⟨(store.removeContacts before.now
        { impus, selector := makeContactSelector request request.contact, callId := request.callId
          cseq, rejectOlderCseq := true }).1, before.now⟩ ↔
      PromiseKept providers domain environment request before := by
  constructor
  · intro h
    refine ⟨h.applied, fun _ seconds hseconds => ?_, fun hregisters => ?_⟩
    · by_contra hne
      obtain ⟨contact, hleft, -⟩ := h.registered seconds hseconds (Nat.pos_of_ne_zero hne)
      have hmatched := hleft ▸ List.mem_singleton_self contact
      obtain ⟨hlive, hmatches⟩ := List.mem_filter.mp hmatched
      exact h.applied
        (outdates_of_removeContacts hcseq hagree hmem (List.mem_filter.mp hlive).1 hmatches)
    · rw [hderegisters] at hregisters
      cases hregisters
  · intro h
    refine ⟨h.ordered, fun _ existing hexisting => ?_, fun seconds hseconds hpos => ?_⟩
    · rw [Bool.eq_false_iff]
      intro hmatches
      exact h.ordered (outdates_of_removeContacts hcseq hagree hmem hexisting hmatches)
    · rw [h.removes hderegisters seconds hseconds] at hpos
      exact (Nat.lt_irrefl 0 hpos).elim

/-! ## The write of a request -/

omit [OsipParser] in
theorem mem_registeredImpus_iff {n : Nat} {verification : AuthVerificationResult}
    {profile : UserProfile}
    (hchosen : Chosen (fun m suits =>
      suits = environment.provider (.canHandleAuthorization m request))
      providers n)
    (hverifies : .ok verification = environment.provider (.verifyAuthorization n request))
    (hsaa : .ok profile = environment.hss (.serverAssignment
      ⟨verification.impi, verification.impu, bytes "sip:scscf." ++ domain⟩)) (impu : Bytes) :
    impu ∈ environment.registeredImpus providers domain request ↔
      impu ∈ (makeImpuSet profile.associatedImpus verification.impu).elems := by
  obtain ⟨skipped, rest, rfl, hskipped, hsuits⟩ := hchosen
  have hfirst : (skipped ++ n :: rest).find? (fun n =>
      environment.provider (.canHandleAuthorization n request)) = some n := by
    rw [List.find?_eq_some_iff_append]
    refine ⟨hsuits.symm, skipped, rest, rfl, fun m hm => ?_⟩
    rw [← hskipped m hm]
    rfl
  rw [RegistrarEnvironment.registeredImpus, hfirst]
  simp only [← hverifies, ← hsaa]

/-- A contact that is refreshed is one of the binding that the look-up has returned. -/
theorem refreshed_of_lookup {follower : Option Bytes} {binding : RegistrationBinding}
    {existing : ContactBinding}
    (hlookup : .ok binding = (before.store.lookup before.now (extractImpu request) follower).2)
    (hstate : binding.state = .registered) (hexisting : existing ∈ binding.contacts)
    (hlive : existing.live before.now = true)
    (hmatches : matchesSelector existing (makeContactSelector request request.contact) = true) :
    before.refreshed follower request = some binding := by
  rw [RegistrarState.refreshed, ← hlookup]
  refine if_pos ⟨hstate, List.any_eq_true.mpr ⟨existing, hexisting, ?_⟩⟩
  rw [hlive, hmatches, Bool.and_self]

theorem refreshed_of_findsNone {thread : RegistrarThread} {found : Result RegistrationBinding}
    (hnone : thread.FindsNone (aloneSetting providers domain environment before) found)
    (hcontact : thread.request.contact = some contact) :
    before.refreshed environment.surroundings.follower thread.request = none := by
  have hlookup : found = (before.store.lookup before.now (extractImpu thread.request)
    environment.surroundings.follower).2 := hnone.lookup
  rw [RegistrarState.refreshed, ← hlookup]
  cases found with
  | error error => rfl
  | ok binding =>
      refine if_neg ?_
      rintro ⟨hstate, hany⟩
      obtain ⟨existing, hexisting, hsuits⟩ := List.any_eq_true.mp hany
      rw [Bool.and_eq_true, hcontact] at hsuits
      obtain ⟨instant, rfl, hexpired⟩ :=
        hnone.none_matches binding contact rfl hstate hcontact existing hexisting hsuits.2
      exact Bool.false_ne_true (hexpired.symm.trans hsuits.1)

omit [OsipParser] in
/-- The binding of another identity is found only where no contact is alive. -/
theorem liveContacts_of_lookup {follower : Option Bytes} {binding : RegistrationBinding}
    {impu : Bytes} (hkeyed : before.store.Keyed)
    (hlookup : .ok binding = (before.store.lookup before.now impu follower).2)
    (hforeign : binding.impu ≠ impu) : before.store.liveContacts before.now impu = [] := by
  obtain hpruned | ⟨⟨stored, hfind, hlapsed⟩, -⟩ := MemoryRegistrationStore.prunedEntry_eq_some
    (MemoryRegistrationStore.lookup_eq_ok_iff.mp hlookup.symm)
  · exact (hforeign (hkeyed.impu_of_pruned hpruned)).elim
  · have hcontacts := contactsOf_pruned before.now (some stored)
    rw [hlapsed] at hcontacts
    rw [MemoryRegistrationStore.liveContacts, MemoryRegistrationStore.contacts, hfind]
    exact hcontacts.symm

/-- A refresh of the binding of another identity leaves nothing under that of the request. -/
theorem keepsPromise_iff_of_foreign {store : MemoryRegistrationStore} {batch : ContactBatchUpsert}
    {binding : RegistrationBinding} (hregisters : isDeregister request = false)
    (hagree : MemoryRegistrationStore.Agree before.now before.store store)
    (happlies : store.applies before.now batch = true)
    (hrequires : batch.requireExistingMatch = true)
    (hnone : before.store.liveContacts before.now (extractImpu request) = [])
    (hrefreshed : before.refreshed environment.surroundings.follower request = some binding)
    (hforeign : binding.impu ≠ extractImpu request) :
    KeepsPromise request before ⟨(store.upsertContacts before.now batch).1, before.now⟩ ↔
      PromiseKept providers domain environment request before := by
  refine keepsPromise_iff_of_registers hregisters fun _ seconds _ => ?_
  have hunbound : extractImpu request ∉ batch.impus.elems := by
    intro hmem
    have hgoes := List.all_eq_true.mp happlies _ hmem
    rw [← hagree.liveContacts, hnone, ContactUpsert.goesThrough, hrequires] at hgoes
    cases hgoes
  rw [matched_upsertContacts_of_not_mem hagree hunbound,
    RegistrarEnvironment.registers_iff_of_refreshed hrefreshed, RegistrarState.matched, hnone]
  refine iff_of_false ?_ fun h => hforeign h.1
  rintro ⟨_, heq, -⟩
  cases heq

/-- The write of a request with one contact, in a store that only has been pruned before. -/
theorem keepsPromise_iff_of_writes {thread : RegistrarThread} {op : StoreOp}
    {store : MemoryRegistrationStore}
    (hwrites : thread.Writes (aloneSetting providers domain environment before) op)
    (hrequest : thread.request = request) (hcontact : request.contact = some contact)
    (hnamed : contact ≠ bytes "*") (hkeyed : before.store.Keyed)
    (hagree : MemoryRegistrationStore.Agree before.now before.store store)
    (happlied : ∀ batch, op = .upsertContacts batch → store.applies before.now batch = true) :
    KeepsPromise request before ⟨(serveStore store before.now none op).1, before.now⟩ ↔
      PromiseKept providers domain environment request before := by
  subst hrequest
  cases hwrites with
  | removeBindings _ hall _ _ => exact (hnamed (hall contact hcontact)).elim
  | removeContacts hderegisters hother _ _ _ hcseq =>
      rw [← hother]
      exact keepsPromise_iff_of_removal hderegisters hcseq hagree
        (mem_makeImpuSet_iff.mpr (.inl rfl))
  | @refresh binding _ _ _ _ _ _ hregisters _ hlookup hstate hother hexisting hinstant hlive
      hmatches _ _ _ hnow hcseq =>
      cases hcontact.symm.trans hother
      cases hnow
      cases hinstant
      rw [← hcontact] at hmatches
      have hrefreshed := refreshed_of_lookup hlookup hstate hexisting hlive hmatches
      by_cases himpu : binding.impu = extractImpu thread.request
      · refine keepsPromise_iff_of_upsert _ hregisters hcontact hcseq hagree (happlied _ rfl)
          (mem_makeImpuSet_iff.mpr (.inl himpu.symm)) (fun seconds => ?_) rfl rfl
        rw [RegistrarEnvironment.registers_iff_of_refreshed hrefreshed]
        exact and_iff_right himpu
      · exact keepsPromise_iff_of_foreign hregisters hagree (happlied _ rfl) rfl
          (liveContacts_of_lookup hkeyed hlookup himpu) hrefreshed himpu
  | register hregisters hnone hchosen _ hverifies _ hsaa hnow hcseq =>
      cases hnow
      have hregistered := mem_registeredImpus_iff hchosen hverifies hsaa
        (extractImpu thread.request)
      have hrefreshed := refreshed_of_findsNone hnone hcontact
      by_cases hmem : extractImpu thread.request ∈
          environment.registeredImpus providers domain thread.request
      · refine keepsPromise_iff_of_upsert none hregisters hcontact hcseq hagree (happlied _ rfl)
          (hregistered.mp hmem) (fun seconds => ?_) ?_ ?_
        · exact RegistrarEnvironment.registers_iff_of_assigned hrefreshed hmem
        · rw [hcontact]
        · rw [hcontact]
      · refine keepsPromise_iff_of_registers hregisters fun _ seconds _ => ?_
        rw [RegistrarEnvironment.registers_iff_of_not_assigned hrefreshed hmem]
        simp only [serveStore]
        rw [matched_upsertContacts_of_not_mem hagree fun h => hmem (hregistered.mpr h)]

/-! ## The answer -/

/-- Immediately after a request with one contact is answered with a 200, its binding contains what
it has asked for, under exactly these conditions. -/
theorem keepsPromise_iff (providers : List Nat) (domain : Bytes)
    (environment : RegistrarEnvironment)
    (calls : List TimedCall) (answers : List (StoreCall × CallAnswer)) (before : RegistrarState)
    (hreached : storeMachine.exec .init calls = some (before.store, answers))
    (request : SipMessage) (txn : Nat) (contact : NameAddr)
    (hcontacts : request.contacts = [contact])
    (hnamed : contact.text ≠ bytes "*") (after : RegistrarState) (result : Except Exception Unit)
    (responses : List (Nat × SipMessage))
    (hrun : ((Registrar.remote providers domain).handleRegister request txn).alone
      RegistrarState.serve environment before = some (after, result, responses))
    (hok : ∃ response ∈ responses, response.2.statusCode = 200) :
    KeepsPromise request before after ↔
      PromiseKept providers domain environment request before := by
  have hcontact : request.contact = some contact.text := by
    rw [SipMessage.contact, hcontacts]
    rfl
  have hgoes : Registrar.Goes (aloneSetting providers domain environment before) { request }
      ((Registrar.remote providers domain).handleRegister request txn) :=
    Registrar.handleRegister_goes
  have hinit : Alone (aloneSetting providers domain environment before) request before { request }
      before [] :=
    ⟨rfl, rfl, fun _ _ => rfl, fun _ _ => rfl, fun _ _ => nofun, fun _ => nofun⟩
  obtain ⟨thread, halone⟩ := hgoes.alone
    (fun g s done op t answer out h hallows hserve => h.serve hallows hserve) hinit hrun
  obtain ⟨response, hmem, hok⟩ := hok
  obtain ⟨op, result, hwrote, hwrites, hsucceeded⟩ := halone.answered response hmem hok
  obtain ⟨store, hagree, hstore, hresult⟩ := halone.written op result hwrote
  have hafter : after = ⟨(serveStore store before.now none op).1, before.now⟩ := by
    rw [← hstore, ← halone.now_eq]
  rw [hafter]
  refine keepsPromise_iff_of_writes hwrites halone.request_eq hcontact hnamed
    (MemoryRegistrationStore.keyed_of_run hreached) hagree fun batch hbatch => ?_
  obtain ⟨n, hn, hpos⟩ := hsucceeded batch hbatch
  rw [hresult batch hbatch] at hn
  cases hn
  exact applies_of_pos hpos

end

/-! ## Alice asks for ten minutes, and for as long as she gets -/

/-- The requests of Alice, each handled in an empty store. -/
def aliceAlone (request : SipMessage) :
    Option (RegistrarState × Except Exception Unit × List (Nat × SipMessage)) :=
  let _ : OsipParser := plainUris
  ((Registrar.remote [0] (bytes "ims.local")).handleRegister request 0).alone RegistrarState.serve
    aliceEnvironment ⟨.init, 0⟩

/-- The contact says ten minutes, the other field that there is nothing to wait for. -/
def tenMinutes : SipMessage :=
  aliceRequest [contactAt "sip:alice@10.0.0.1" [⟨bytes "expires", some (bytes "600")⟩]] true
    [⟨bytes "Expires", some (bytes "0")⟩]

/-- The 200 is for a de-registration, although the expiry of the contact is the one that counts. -/
theorem tenMinutes_removed : ∃ after result responses,
    aliceAlone tenMinutes = some (after, result, responses) ∧
      (∃ response ∈ responses, response.2.statusCode = 200) ∧
      promisedExpires tenMinutes = some 600 ∧
      ¬ @KeepsPromise plainUris tenMinutes ⟨.init, 0⟩ after := by
  have hsummary : (aliceAlone tenMinutes).map (fun run =>
      decide ((∃ response ∈ run.2.2, response.2.statusCode = 200) ∧
        promisedExpires tenMinutes = some 600 ∧
        @RegistrarState.matched plainUris run.1 tenMinutes = [])) = some true := by
    decide +kernel
  obtain ⟨⟨after, result, responses⟩, hrun, hsummary⟩ := Option.map_eq_some_iff.mp hsummary
  obtain ⟨hok, hseconds, hmatched⟩ := of_decide_eq_true hsummary
  refine ⟨after, result, responses, hrun, hok, hseconds, fun hkeeps => ?_⟩
  obtain ⟨contact, heq, -⟩ :=
    @KeepsPromise.registered plainUris _ _ _ hkeeps 600 hseconds (by decide)
  rw [hmatched] at heq
  cases heq

theorem keepsPromise_iff_default : ∃ after result responses,
    aliceAlone (aliceRequest [contactAt "sip:alice@10.0.0.1"] true) =
      some (after, result, responses) ∧
      @KeepsPromise plainUris (aliceRequest [contactAt "sip:alice@10.0.0.1"] true) ⟨.init, 0⟩
        after := by
  have hsummary : (aliceAlone (aliceRequest [contactAt "sip:alice@10.0.0.1"] true)).map (fun run =>
      decide (∃ response ∈ run.2.2, response.2.statusCode = 200)) = some true := by
    decide +kernel
  obtain ⟨⟨after, result, responses⟩, hrun, hok⟩ := Option.map_eq_some_iff.mp hsummary
  refine ⟨after, result, responses, hrun, ?_⟩
  refine (@keepsPromise_iff plainUris [0] (bytes "ims.local") aliceEnvironment [] [] ⟨.init, 0⟩ rfl
    _ 0 _ rfl (by decide) after result responses hrun (of_decide_eq_true hok)).mpr ?_
  have hmatched : @RegistrarState.matched plainUris ⟨.init, 0⟩
      (aliceRequest [contactAt "sip:alice@10.0.0.1"] true) = [] := by
    decide +kernel
  refine @PromiseKept.mk plainUris _ _ _ _ _ ?_ (fun hderegisters => ?_) fun _ seconds hseconds =>
    ?_
  · rintro ⟨cseq, -, contact, hmem, -⟩
    rw [hmatched] at hmem
    cases hmem
  · exact absurd hderegisters (by decide +kernel)
  · have hrefreshed : @RegistrarState.refreshed plainUris ⟨.init, 0⟩
        aliceEnvironment.surroundings.follower
        (aliceRequest [contactAt "sip:alice@10.0.0.1"] true) = none := rfl
    rw [@RegistrarEnvironment.registers_iff_of_assigned plainUris _ _ _ _ _ _ hrefreshed
      (by decide +kernel), hmatched]
    have hdefault :
        promisedExpires (aliceRequest [contactAt "sip:alice@10.0.0.1"] true) = some 3600 := by
      decide +kernel
    rw [hdefault] at hseconds
    cases hseconds
    decide

end SimIms.SCscf
