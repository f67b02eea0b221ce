import SimIms.Registration.Purging
import SimIms.SCscf.AkaCoordination
import SimIms.SCscf.AkaRegistrar

/-!
# For whom requests are registered

A request registers the identity that its challenge was requested for, and those of the
subscriber whose vector it was verified against. These are found by the private identity first,
so the one that the challenge was requested for may be somebody else's.
-/

namespace SimIms.SCscf

open Cxx Lib Sip Db Diameter Registration

/-- More contacts are alive under the identity than before. -/
def Gains (impu : Bytes) (s t : AkaRegistrarState) : Prop :=
  (s.store.liveContacts s.now impu).length < (t.store.liveContacts t.now impu).length

/-- A contact is added only by a request that was verified against a vector of a subscriber who
has the identity. -/
def AddsVerifiedOnly [Md5] (s : AkaRegistrarThreads)
    (a : ThreadAction AkaRegistrarEnvironment (SipMessage × Nat) RegistrarBackground)
    (t : AkaRegistrarThreads) : Prop :=
  ∀ impu, Gains impu s.shared t.shared → ∃ id environment thread operation pending,
    a = .run id environment ∧ s.operation id = some (thread, operation) ∧
      thread.VerifiedAgainst pending ∧ impu ∈ pending.subscriber.impus

/-- A request is about to register the identity that its challenge was requested for, which has no
such contact and is none of those of the subscriber. -/
def AddsForeign (s : AkaRegistrarThreads) :
    ThreadAction AkaRegistrarEnvironment (SipMessage × Nat) RegistrarBackground → Prop
  | .run id _ => ∃ thread batch next pending,
      s.operation id = some (thread, ⟨.store (.upsertContacts batch), next⟩) ∧
        batch.requireExistingMatch = false ∧ thread.verified = some pending ∧
        pending.impu ∉ pending.subscriber.impus ∧
        batch.hasMatch (s.shared.store.liveContacts s.shared.now pending.impu) = false ∧
        batch.contact.live s.shared.now = true
  | _ => False

/-! ## Which operations add contacts -/

section

variable {store : MemoryRegistrationStore} {now : Nat} {impu : Bytes}

/-- An upsert adds a contact where it finds none, if none is required. -/
theorem length_liveContacts_lt_iff {batch : ContactBatchUpsert} :
    (store.liveContacts now impu).length <
        ((store.upsertContacts now batch).1.liveContacts now impu).length ↔
      impu ∈ batch.impus.elems ∧ batch.requireExistingMatch = false ∧
        batch.hasMatch (store.liveContacts now impu) = false ∧ batch.contact.live now = true := by
  have hlive : (store.liveContacts now impu).filter (·.live now) = store.liveContacts now impu :=
    filter_live_filter_live (store.contacts impu) (le_refl now)
  have hafter : (store.upsertContacts now batch).1.liveContacts now impu =
      ((store.upsertContacts now batch).1.contacts impu).filter (·.live now) := rfl
  rw [hafter, MemoryRegistrationStore.contacts_upsertContacts]
  by_cases hmem : impu ∈ batch.impus.elems
  · rw [if_pos hmem, and_iff_right hmem]
    cases hmatch : batch.hasMatch (store.liveContacts now impu) with
    | false =>
        rw [ContactUpsert.write_of_not_hasMatch hmatch]
        cases hrequire : batch.requireExistingMatch with
        | true => simp [hlive]
        | false =>
            rw [if_pos (MemoryRegistrationStore.applies_of_not_requireExistingMatch hrequire)]
            simp only [Bool.false_eq_true, if_false, List.filter_append, hlive, true_and,
              List.length_append, Nat.lt_add_right_iff_pos, List.filter_singleton]
            cases batch.contact.live now <;> simp
    | true =>
        simp only [Bool.true_eq_false, false_and, and_false, iff_false, not_lt]
        split
        · obtain ⟨before, existing, after, heq, -, -, hwrite⟩ :=
            ContactUpsert.exists_first_of_hasMatch hmatch
          rw [hwrite]
          refine Nat.le_trans (List.length_filter_le _ _) ?_
          rw [heq, List.length_append, List.length_append, List.length_cons, List.length_cons]
        · rw [hlive]
  · rw [if_neg hmem]
    simp only [hmem, false_and, iff_false, not_lt]
    exact le_refl _

theorem length_liveContacts_le_of_shrinks {next : MemoryRegistrationStore}
    (h : store.Shrinks next) :
    (next.liveContacts now impu).length ≤ (store.liveContacts now impu).length :=
  ((h impu).filter _).length_le

end

/-! ## What every run keeps -/

section

variable [OsipParser] {views : List SubscriberView}

/-- The subscribers are those of the start, and every challenge that waits is for the one whom its
identities stand for. -/
structure Provisioned (views : List SubscriberView) (s : AkaRegistrarState) : Prop where
  views_eq : s.collection.views = views
  owned : ∀ key pending, s.auths.pendingAuth.find key = some pending → pending.Owned views

namespace Provisioned

variable {s : AkaRegistrarState}

theorem serve_pendingAuths [Md5] {thread : AkaRegistrarThread} (h : Provisioned views s)
    {op : PendingAuthOp} (hallows : thread.Allows views (.pendingAuths op)) {choice : Nat}
    {auths : PendingAuths} {answer : PendingAuthAnswer op}
    (hserve : s.auths.serve s.now choice op = some (auths, answer)) :
    Provisioned views { s with auths } ∧
      AkaRegistrarOp.Expects views (.pendingAuths op) answer := by
  have hpurge : Provisioned views { s with auths := s.auths.purgeExpiredLocked s.now } :=
    ⟨h.views_eq, fun key pending hfind =>
      h.owned key pending (Table.find_eraseIf_eq_some_iff.mp hfind).1⟩
  cases op with
  | hasPending callId impi =>
      cases hserve
      exact ⟨hpurge, trivial⟩
  | begin key =>
      obtain ⟨_, rfl, rfl, -⟩ | ⟨_, rfl, rfl, -⟩ | ⟨rfl, -, -, rfl⟩ :=
        PendingAuths.serve_begin_cases hserve
      · exact ⟨hpurge, trivial⟩
      · exact ⟨hpurge, trivial⟩
      · exact ⟨⟨h.views_eq, hpurge.owned⟩, trivial⟩
  | complete key result =>
      cases hserve
      refine ⟨⟨h.views_eq, fun other pending hfind => ?_⟩, trivial⟩
      cases result with
      | error error => exact h.owned other pending hfind
      | ok completed =>
          simp only [Table.find_insert] at hfind
          split at hfind
          · cases hfind
            exact hallows _ rfl
          · exact h.owned other pending hfind
  | setValue promise result =>
      cases hserve
      exact ⟨⟨h.views_eq, h.owned⟩, trivial⟩
  | get promise =>
      rw [PendingAuths.serve] at hserve
      split at hserve
      · cases hserve
      · cases hserve
        exact ⟨h, trivial⟩
  | findPending callId impi =>
      cases hserve
      refine ⟨hpurge, fun key pending hfind => ?_⟩
      exact hpurge.owned key pending (PendingAuths.find_candidates hfind)
  | consume key pending =>
      obtain ⟨-, rfl⟩ | ⟨found, -, -, -, rfl⟩ := PendingAuths.serve_consume_cases hserve
      · exact ⟨h, trivial⟩
      · exact ⟨⟨h.views_eq, fun other waiting hfind =>
          h.owned other waiting (Table.find_of_find_erase hfind).2⟩, trivial⟩

theorem serve [Md5] {thread : AkaRegistrarThread} (h : Provisioned views s) {op : AkaRegistrarOp}
    (hallows : thread.Allows views op) {environment : AkaRegistrarEnvironment}
    {t : AkaRegistrarState} {answer : op.Answer} {out : List (Nat × SipMessage)}
    (hserve : s.serve op environment = some (t, answer, out)) :
    Provisioned views t ∧ op.Expects views answer := by
  cases op with
  | pendingAuths op =>
      obtain ⟨⟨auths, result⟩, hresult, heq⟩ := Option.map_eq_some_iff.mp hserve
      cases heq
      exact h.serve_pendingAuths hallows hresult
  | repository op =>
      cases hserve
      refine ⟨⟨(s.collection.views_serve op environment.failure).trans h.views_eq, h.owned⟩, ?_⟩
      cases op with
      | updateSqn | updateServing => exact trivial
      | findOneByField field value =>
          intro found hfound
          cases hfailure : environment.failure with
          | some error =>
              rw [hfailure] at hfound
              cases hfound
          | none =>
              rw [hfailure] at hfound
              cases hfound
              rw [← h.views_eq]
              exact s.collection.view_find? field value
  | store op | environment op | respond response =>
      cases hserve
      exact ⟨⟨h.views_eq, h.owned⟩, trivial⟩

end Provisioned

variable [Md5]

def akaRegistrarDiscipline (views : List SubscriberView) :
    Discipline AkaRegistrarState akaRegistrarOps AkaRegistrarThread Unit (Nat × SipMessage) where
  contract := AkaRegistrarThread.contract views
  assumes _ _ := True
  shared s _ := Provisioned views s
  linked _ _ _ _ := True
  result _ _ := True

theorem akaRegistrarDiscipline_sound [Milenage] (domain : Bytes) :
    (akaRegistrarDiscipline views).Sound (Registrar.akaService domain) where
  track _ _ _ := rfl
  begins _ := AkaRegistrar.handleRegister_goes rfl
  fresh _ _ _ _ _ _ := trivial
  serves s log id thread op environment t answer out hshared hlinked hallows hserve _ := by
    obtain ⟨hnext, hexpects⟩ := Provisioned.serve hshared hallows hserve
    exact ⟨hnext, hexpects, trivial, fun _ _ _ h => h⟩
  background s log event t hshared hstep := by
    cases hstep
    cases event <;> exact ⟨⟨hshared.views_eq, hshared.owned⟩, fun _ _ h => h⟩

/-! ## Steps -/

omit [OsipParser] [Md5] in
/-- Nothing in the background adds a contact. -/
theorem not_gains_background (s : AkaRegistrarState) (event : RegistrarBackground) (impu : Bytes) :
    ¬ Gains impu s (s.background event) := by
  rw [Gains, Nat.not_lt]
  cases event with
  | elapse milliseconds =>
      rw [AkaRegistrarState.background, MemoryRegistrationStore.liveContacts,
        ← filter_live_filter_live _ (Nat.le_add_right s.now milliseconds)]
      exact List.length_filter_le _ _
  | purgeExpired =>
      exact length_liveContacts_le_of_shrinks MemoryRegistrationStore.purgeExpired_shrinks
  | lookup impu =>
      exact length_liveContacts_le_of_shrinks
        (MemoryRegistrationStore.pruneExpiredLocked_shrinks s.store s.now impu)

omit [OsipParser] [Md5] in
/-- An operation that adds a contact is an upsert. -/
theorem gains_serve {s t : AkaRegistrarState} {op : AkaRegistrarOp}
    {environment : AkaRegistrarEnvironment} {answer : op.Answer} {out : List (Nat × SipMessage)}
    (hserve : s.serve op environment = some (t, answer, out)) {impu : Bytes}
    (hgains : Gains impu s t) :
    ∃ batch, op = .store (.upsertContacts batch) ∧ impu ∈ batch.impus.elems ∧
      batch.requireExistingMatch = false ∧
      batch.hasMatch (s.store.liveContacts s.now impu) = false ∧
      batch.contact.live s.now = true := by
  have hshrinks : ∀ {store}, s.store.Shrinks store → ¬ Gains impu s { s with store } :=
    fun hshrinks => Nat.not_lt.mpr (length_liveContacts_le_of_shrinks hshrinks)
  cases op with
  | pendingAuths op =>
      obtain ⟨result, -, heq⟩ := Option.map_eq_some_iff.mp hserve
      cases heq
      exact (Nat.lt_irrefl _ hgains).elim
  | repository op | environment op | respond response =>
      cases hserve
      exact (Nat.lt_irrefl _ hgains).elim
  | store op =>
      cases hserve
      cases op with
      | lookup impu =>
          exact (hshrinks
            (MemoryRegistrationStore.pruneExpiredLocked_shrinks s.store s.now impu) hgains).elim
      | removeContacts batch =>
          exact (hshrinks (MemoryRegistrationStore.removeContacts_shrinks batch) hgains).elim
      | removeBindings impus =>
          exact (hshrinks (MemoryRegistrationStore.removeBindings_shrinks impus) hgains).elim
      | upsertContacts batch => exact ⟨batch, rfl, length_liveContacts_lt_iff.mp hgains⟩

variable [Milenage] {domain : Bytes}

/-- A step adds a contact for somebody else if and only if the request registers the identity of
its challenge, and this is not one of the subscriber's. -/
theorem addsVerifiedOnly_step_iff {s t : AkaRegistrarThreads} {log : List (Nat × Nat × SipMessage)}
    (h : s.Inv (akaRegistrarDiscipline views) log)
    {a : ThreadAction AkaRegistrarEnvironment (SipMessage × Nat) RegistrarBackground}
    {out : List (Nat × Nat × SipMessage)}
    (hstep : (threadsMachine (Registrar.akaService domain)).step s a = some (t, out)) :
    AddsVerifiedOnly s a t ↔ ¬ AddsForeign s a := by
  cases a with
  | start request =>
      cases hstep
      exact ⟨fun _ => id, fun _ impu hgains => (Nat.lt_irrefl _ hgains).elim⟩
  | background event =>
      cases hstep
      exact ⟨fun _ => id, fun _ impu hgains => (not_gains_background _ _ _ hgains).elim⟩
  | run id environment =>
      obtain ⟨thread, op, next, shared, answer, events, hoperation, hserve, -, rfl⟩ :=
        Threads.runThread_eq_some hstep
      have hallows : thread.Allows views op := h.allows hoperation
      constructor
      · rintro honly ⟨thread', batch, next', pending, hoperation', hrequire, hverified, hforeign,
          hmatch, hlive⟩
        rw [hoperation] at hoperation'
        cases hoperation'
        obtain hexisting | ⟨pending', hagainst, -, himpus⟩ := hallows
        · rw [hrequire] at hexisting
          cases hexisting
        · cases hagainst.verified.symm.trans hverified
          cases hserve
          have hgains : Gains pending.impu s.shared
              { s.shared with store := (s.shared.store.upsertContacts s.shared.now batch).1 } :=
            length_liveContacts_lt_iff.mpr
              ⟨(himpus pending.impu).mpr (.inl rfl), hrequire, hmatch, hlive⟩
          obtain ⟨id', environment', thread', operation, pending', heq, hoperation', hagainst',
            hmem⟩ := honly pending.impu hgains
          cases heq
          rw [hoperation] at hoperation'
          cases hoperation'
          cases hagainst.verified.symm.trans hagainst'.verified
          exact hforeign hmem
      · intro hown impu hgains
        obtain ⟨batch, rfl, hmem, hrequire, hmatch, hlive⟩ := gains_serve hserve hgains
        obtain hexisting | ⟨pending, hagainst, -, himpus⟩ := hallows
        · rw [hrequire] at hexisting
          cases hexisting
        · refine ⟨id, environment, thread, _, pending, rfl, hoperation, hagainst, ?_⟩
          obtain rfl | hassociated := (himpus impu).mp hmem
          · by_contra hforeign
            exact hown ⟨thread, batch, next, pending, hoperation, hrequire, hagainst.verified,
              hforeign, hmatch, hlive⟩
          · exact List.mem_cons_of_mem _ hassociated

/-- In every run, with any subscribers: contacts are added only for identities of the subscriber
whom the request was verified against, exactly if no step adds one for the identity of a
challenge that is not the subscriber's. -/
theorem addsVerifiedOnly_iff (domain : Bytes) (collection : Collection) (now : Nat)
    (as : List (ThreadAction AkaRegistrarEnvironment (SipMessage × Nat) RegistrarBackground)) :
    (threadsMachine (Registrar.akaService domain)).Along (fun s a t _ => AddsVerifiedOnly s a t)
        (.init ⟨.init, .init, collection, now⟩) as ↔
      (threadsMachine (Registrar.akaService domain)).Along (fun s a _ _ => ¬ AddsForeign s a)
        (.init ⟨.init, .init, collection, now⟩) as := by
  refine Machine.along_congr
    (I := fun s => ∃ log, s.Inv (akaRegistrarDiscipline collection.views) log) ?_ ?_ ?_
  · rintro s a t out ⟨log, h⟩ hstep
    exact ⟨log ++ out, h.next (akaRegistrarDiscipline_sound domain) (fun _ _ => trivial) hstep⟩
  · refine ⟨[], .init ⟨rfl, fun _ _ hfind => ?_⟩⟩
    cases hfind
  · rintro s a t out ⟨log, h⟩ hstep
    exact addsVerifiedOnly_step_iff h hstep

end

/-! ## Mallory registers Alice -/

def hex (digits : String) : Bytes := (hexPairs (bytes digits)).getD []

/-- Alice and Mallory. -/
def aliceAndMallory : Collection :=
  let subscriber (imsi name : String) (sqn : UInt64) : SubscriberRecord :=
    { imsi := bytes imsi, tel := [], assignedScscf := []
      identities :=
        { impi := bytes imsi ++ bytes "@ims.local", canonicalImpu := bytes name
          associatedImpus := [bytes name], realm := bytes "ims.local" }
      auth :=
        { ki := bytes "465b5ce8b199b49faa5f0a2ee238a6bc", operatorCodeType := bytes "opc"
          opc := bytes "cd63cb71954a9f4e48a5994e37a02baf", op := [], sqn, amf := bytes "b9b9" } }
  [subscriber "001010000000001" "sip:alice@ims.local" 0,
    subscriber "001010000000002" "sip:mallory@ims.local" 0xff9bb4d0b607]

/-- What the functions make of the key of Mallory and this random number. -/
@[reducible] def malloryMilenage : Milenage where
  computeOpc _ op := .ok op
  generateVector _ _ _ _ _ := .ok
    { autn := hex "55f328b43577b9b94a9ffac354dfafb3", ck := hex "b40ba9a3c58b2a05bbf0d987b21bf8cb"
      ik := hex "f769bcd751044604127672711c6d3441", xres := hex "a54211d5e3ba50bf" }

@[reducible] def malloryDigests : Md5 := .ofTable
  [(bytes "001010000000002@ims.local:ims.local:" ++ hex "a54211d5e3ba50bf",
      "1904bd7b20f0abd9631bb87e0ee27602"),
    (bytes "REGISTER:sip:ims.local", "2160f61155151141448c74e2c08b234f"),
    (bytes "1904bd7b20f0abd9631bb87e0ee27602:I1U8vpY3qJ0hiuZNrke/NVXzKLQ1d7m5Sp/6w1Tfr7M=:" ++
      bytes "2160f61155151141448c74e2c08b234f", "e370f7f33cc67a4baf681c9d89c7f6df")]

/-- From Mallory, to Alice. -/
def malloryRegister (authorizations : List Bytes) : SipMessage :=
  { SipMessage.register "sip:001010000000002@ims.local" "sip:alice@ims.local"
      [⟨some (bytes "sip:mallory@10.0.0.6"), [], bytes "sip:mallory@10.0.0.6"⟩] with
    authorizations }

def malloryAuthorization : Bytes :=
  bytes "Digest username=\"001010000000002@ims.local\", realm=\"ims.local\", " ++
    bytes "nonce=\"I1U8vpY3qJ0hiuZNrke/NVXzKLQ1d7m5Sp/6w1Tfr7M=\", uri=\"sip:ims.local\", " ++
    bytes "response=\"e370f7f33cc67a4baf681c9d89c7f6df\""

/-- Mallory is challenged, and answers. The next step is the one that writes. -/
def malloryRegisters :
    List (ThreadAction AkaRegistrarEnvironment (SipMessage × Nat) RegistrarBackground) :=
  let environment : AkaRegistrarEnvironment :=
    { surroundings := { randomBytes := hex "23553cbe9637a89d218ae64dae47bf35" } }
  .start (malloryRegister [], 0) :: List.replicate 12 (.run 0 environment) ++
    .start (malloryRegister [malloryAuthorization], 1) :: List.replicate 7 (.run 1 environment)

abbrev malloryRegistrar : Machine AkaRegistrarThreads
    (ThreadAction AkaRegistrarEnvironment (SipMessage × Nat) RegistrarBackground)
      (Nat × Nat × SipMessage) :=
  threadsMachine (@Registrar.akaService plainUris malloryDigests malloryMilenage
    (bytes "ims.local"))

/-- The addresses at which Alice is reached. -/
def aliceAddresses (s : AkaRegistrarThreads) : List Bytes :=
  (s.shared.store.liveContacts s.shared.now (bytes "sip:alice@ims.local")).map
    ContactBinding.contactUri

/-- The public identities of the one whom a request was verified against. -/
def verifiedImpus (s : AkaRegistrarThreads) (id : Nat) : Option (List Bytes) :=
  (s.operation id).bind fun operation => operation.1.verified.map (·.subscriber.impus)

/-- Whoever has the credentials of Mallory can register contacts for Alice. -/
theorem mallory_registers_alice : ∃ s log t out,
    malloryRegistrar.exec (.init ⟨.init, .init, aliceAndMallory, 0⟩) malloryRegisters =
        some (s, log) ∧
      malloryRegistrar.step s (.run 1 {}) = some (t, out) ∧
      aliceAddresses s = [] ∧ aliceAddresses t = [bytes "sip:mallory@10.0.0.6"] ∧
      verifiedImpus s 1 = some [bytes "sip:mallory@ims.local", bytes "sip:mallory@ims.local"] ∧
      ¬ malloryRegistrar.Along (fun s a t _ => @AddsVerifiedOnly malloryDigests s a t)
        (.init ⟨.init, .init, aliceAndMallory, 0⟩) (malloryRegisters ++ [.run 1 {}]) := by
  have hsummary : ((malloryRegistrar.exec (.init ⟨.init, .init, aliceAndMallory, 0⟩)
      malloryRegisters).bind fun run => (malloryRegistrar.step run.1 (.run 1 {})).map fun next =>
        decide (aliceAddresses run.1 = [] ∧
          aliceAddresses next.1 = [bytes "sip:mallory@10.0.0.6"] ∧
          verifiedImpus run.1 1 =
            some [bytes "sip:mallory@ims.local", bytes "sip:mallory@ims.local"])) = some true := by
    unfold malloryRegisters malloryRegister malloryAuthorization malloryRegistrar malloryDigests
      malloryMilenage aliceAndMallory hex SipMessage.register
    repeat rw [bytes_ofList]
    decide +kernel
  obtain ⟨⟨s, log⟩, hrun, hsummary⟩ := Option.bind_eq_some_iff.mp hsummary
  obtain ⟨⟨t, out⟩, hstep, hsummary⟩ := Option.map_eq_some_iff.mp hsummary
  obtain ⟨hbefore, hafter, hverified⟩ := of_decide_eq_true hsummary
  refine ⟨s, log, t, out, hrun, hstep, hbefore, hafter, hverified, fun halong => ?_⟩
  rw [Machine.along_append hrun, Machine.along_cons hstep] at halong
  have hgains : Gains (bytes "sip:alice@ims.local") s.shared t.shared := by
    have hlength := congrArg List.length hbefore
    have hlength' := congrArg List.length hafter
    rw [aliceAddresses, List.length_map] at hlength hlength'
    rw [Gains, hlength, hlength']
    decide
  obtain ⟨id, environment, thread, operation, pending, heq, hoperation, hagainst, hmem⟩ :=
    halong.2.1 _ hgains
  cases heq
  have hpending : thread.verified = some pending := @hagainst.verified
  rw [verifiedImpus, hoperation, Option.bind_some] at hverified
  simp only [hpending, Option.map_some, Option.some.injEq] at hverified
  rw [hverified] at hmem
  revert hmem
  decide

end SimIms.SCscf
