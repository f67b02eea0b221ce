import SimIms.Registration.StoreCalls
import SimIms.SCscf.RegistrarCalls

/-!
# Refreshes beside other users of the store

Any number of re-registrations share the store with whoever calls its methods. Between the lookup
of a refresh and its write the HSS is asked, and the store may become any other. A batch that
requires a match checks all its identities again before it writes the first.
-/

namespace SimIms.Registration

open Cxx Lib

/-! ## The write of a refresh -/

/-- A write that requires a match puts a contact in the place of another. -/
theorem ContactUpsert.length_write {args : ContactUpsert} (h : args.requireExistingMatch = true)
    (contacts : List ContactBinding) : (args.write contacts).length = contacts.length := by
  rw [write]
  cases contacts.findIdx? (matchesSelector · args.selector) with
  | none => simp only [h, if_true]
  | some i =>
      dsimp only
      split
      · rfl
      · exact List.length_set

namespace MemoryRegistrationStore

variable {store : MemoryRegistrationStore} {now : Nat} {batch : ContactBatchUpsert} {impu : Bytes}

/-- An unexpired contact that the selector matches is stored under the identity. -/
def MatchesLive (store : MemoryRegistrationStore) (now : Nat) (selector : ContactBindingSelector)
    (impu : Bytes) : Prop :=
  ∃ contact ∈ store.contacts impu, contact.live now = true ∧
    matchesSelector contact selector = true

theorem goesThrough_liveContacts_iff (h : batch.requireExistingMatch = true) :
    batch.goesThrough (store.liveContacts now impu) = true ↔
      store.MatchesLive now batch.selector impu := by
  rw [ContactUpsert.goesThrough, h, Bool.not_true, Bool.false_or, ContactUpsert.hasMatch,
    List.any_eq_true]
  refine exists_congr fun contact => ?_
  rw [liveContacts, List.mem_filter, and_assoc]

theorem applies_iff (h : batch.requireExistingMatch = true) :
    store.applies now batch = true ↔
      ∀ impu ∈ batch.impus.elems, store.MatchesLive now batch.selector impu := by
  rw [applies, List.all_eq_true]
  exact forall₂_congr fun impu _ => goesThrough_liveContacts_iff h

theorem length_upsertContacts_le (h : batch.requireExistingMatch = true) (impu : Bytes) :
    ((store.upsertContacts now batch).1.contacts impu).length ≤ (store.contacts impu).length := by
  have hlive : (store.liveContacts now impu).length ≤ (store.contacts impu).length :=
    (liveContacts_sublist store now impu).length_le
  rw [contacts_upsertContacts]
  split
  · split
    · rwa [ContactUpsert.length_write h]
    · exact hlive
  · exact le_refl _

theorem find_pruneExpiredLocked_of_unbound {looked : Bytes}
    (hfind : store.bindings.find impu = none) :
    (store.pruneExpiredLocked now looked).bindings.find impu = none := by
  rw [find_pruneExpiredLocked]
  split
  · rename_i heq
    rw [← heq, hfind]
    rfl
  · exact hfind

theorem find_upsertContacts_of_unbound (h : batch.requireExistingMatch = true)
    (hfind : store.bindings.find impu = none) :
    (store.upsertContacts now batch).1.bindings.find impu = none := by
  rw [(upsertContacts_eq store now batch).2 impu, hfind]
  split
  · rename_i hmem
    have hnot : store.applies now batch ≠ true := by
      intro happlies
      obtain ⟨contact, hcontact, -⟩ := (applies_iff h).mp happlies impu hmem
      rw [contacts, hfind] at hcontact
      cases hcontact
    rw [if_neg hnot]
    rfl
  · rfl

/-- Where a match is missing, expired contacts are pruned and nothing else happens. -/
theorem upsertContacts_of_not_matchesLive (h : batch.requireExistingMatch = true)
    (hmem : impu ∈ batch.impus.elems) (hnone : ¬ store.MatchesLive now batch.selector impu) :
    (store.upsertContacts now batch).2 = 0 ∧
      ∀ other, (store.upsertContacts now batch).1.bindings.find other =
        if other ∈ batch.impus.elems then pruned now (store.bindings.find other)
        else store.bindings.find other := by
  have hnot : ¬ store.applies now batch = true := fun happlies =>
    hnone ((applies_iff h).mp happlies impu hmem)
  obtain ⟨hcount, hfind⟩ := upsertContacts_eq store now batch
  rw [if_neg hnot] at hcount
  refine ⟨hcount, fun other => ?_⟩
  rw [hfind other, if_neg hnot]

end MemoryRegistrationStore
end SimIms.Registration

namespace SimIms.SCscf

open Cxx Lib Sip Diameter Registration

/-! ## The machine -/

/-- What happens beside the refreshes: time passes, and the store is called. -/
inductive StoreInterference where
  | elapse (milliseconds : Nat)
  | call (call : StoreCall)

def RegistrarState.interfere (s : RegistrarState) : StoreInterference → RegistrarState
  | .elapse milliseconds => { s with now := s.now + milliseconds }
  | .call call => { s with store := (s.store.call s.now call).1 }

/-- A refresh on its way: what its write has returned and what it has sent. -/
structure RefreshThread where
  txn : Nat
  wrote : Option (Result Nat) := none
  sent : List (Nat × SipMessage) := []

/-- The write has found no match. -/
def RefreshThread.Refused (thread : RefreshThread) : Prop := thread.wrote = some (.ok 0)

def RefreshThread.track (thread : RefreshThread) : (op : RegistrarOp) → op.Answer → RefreshThread
  | .store (.upsertContacts _), answer => { thread with wrote := some answer }
  | .respond response, _ => { thread with sent := thread.sent ++ [response] }
  | _, _ => thread

section

variable [OsipParser] (providers : List Nat) (domain : Bytes)

def Registrar.refreshService : Service RegistrarState registrarOps Exception RefreshThread Bool
    RegistrarEnvironment (SipMessage × Nat) StoreInterference (Nat × SipMessage) where
  serve := RegistrarState.serve
  begin request := (Registrar.remote providers domain).tryHandleReregister request.1 request.2
  background s event := some (s.interfere event)
  fresh request := { txn := request.2 }
  track := RefreshThread.track

end

abbrev RefreshThreads := Threads RegistrarState registrarOps Exception RefreshThread Bool

abbrev RefreshAction := ThreadAction RegistrarEnvironment (SipMessage × Nat) StoreInterference

/-! ## What a refresh does -/

/-- One write, which requires a match, and after it one answer. -/
def RefreshThread.Allows (thread : RefreshThread) : RegistrarOp → Prop
  | .store (.lookup _) => thread.wrote = none
  | .store (.upsertContacts batch) =>
      batch.requireExistingMatch = true ∧ thread.wrote = none ∧ thread.sent = []
  | .store (.removeContacts _) => False
  | .store (.removeBindings _) => False
  | .respond response => response.1 = thread.txn ∧ thread.wrote ≠ none ∧ thread.sent = [] ∧
      (thread.Refused → response.2.statusCode = 500)
  | _ => True

def refreshContract : Contract registrarOps RefreshThread where
  Allows := RefreshThread.Allows
  Expects _ _ := True
  Throws thread := thread.wrote = none
  track := RefreshThread.track

/-- Whoever has written has sent one answer at its end. -/
def RefreshThread.Answered (thread : RefreshThread) : Prop :=
  thread.wrote ≠ none → ∃ response, thread.sent = [response]

section

variable [OsipParser] {providers : List Nat} {domain : Bytes} {thread : RefreshThread}
variable {request : SipMessage} {txn : Nat}

/-- A write has been made, and is yet to be answered. -/
structure RefreshThread.Written (thread : RefreshThread) (txn : Nat) : Prop where
  txn_eq : txn = thread.txn
  wrote : thread.wrote ≠ none
  sent : thread.sent = []

omit [OsipParser] in
/-- The one answer of a refresh. -/
theorem sendResponse_answers {response : SipMessage} (h : thread.Written txn)
    (hrefused : thread.Refused → response.statusCode = 500) :
    (Registrar.sendResponse (G := registrarOps) txn response).Meets refreshContract thread
      fun g _ => g.Answered := by
  refine ⟨⟨h.txn_eq, h.wrote, h.sent, hrefused⟩, fun _ _ _ => ⟨(txn, response), ?_⟩⟩
  change thread.sent ++ [(txn, response)] = _
  rw [h.sent]
  rfl

omit [OsipParser] in
theorem respond_answers {reason : String} (h : thread.Written txn) :
    (Registrar.respond (G := registrarOps) request txn 500 reason).Meets refreshContract thread
      fun g _ => g.Answered :=
  ⟨trivial, fun _ _ => sendResponse_answers h fun _ => statusCode_createResponse _ _ _ _⟩

theorem sendRegisterOk_answers {expires : UInt32} {associatedImpus : List Bytes}
    (h : thread.Written txn) (hgranted : ¬ thread.Refused) :
    (Registrar.sendRegisterOk (G := registrarOps) request txn expires associatedImpus).Meets
      refreshContract thread fun g _ => g.Answered :=
  ⟨trivial, fun _ _ => ⟨trivial, fun _ _ => sendResponse_answers h fun hrefused =>
    (hgranted hrefused).elim⟩⟩

omit [OsipParser] in
theorem findExisting_answers (selector : ContactBindingSelector) (contacts : List ContactBinding) :
    (Registrar.findExisting (G := registrarOps) selector contacts).Meets refreshContract thread
      fun g _ => g = thread := by
  induction contacts with
  | nil => exact rfl
  | cons candidate candidates ih =>
      refine ⟨trivial, fun now _ => ?_⟩
      change Program.Meets refreshContract thread
        (if candidate.live now && matchesSelector candidate selector then
          Pure.pure (some candidate) else Registrar.findExisting selector candidates) _
      split
      · exact rfl
      · exact ih

omit [OsipParser] in
theorem makeContactBinding_answers {contact : Option Bytes} {expires : UInt32}
    {previous : Option ContactBinding} (h : thread.wrote = none) :
    (makeContactBinding (G := registrarOps) request contact expires previous).Meets refreshContract
      thread fun g _ => g = thread := by
  refine ⟨trivial, fun now _ => ?_⟩
  change Program.Meets refreshContract thread
    (Program.ofExcept request.cseq >>= fun cseq =>
      Pure.pure (madeContact request contact expires previous now cseq)) _
  cases request.cseq with
  | error error => exact h
  | ok cseq => exact rfl

/-- The HSS may be asked for anything at any time. -/
theorem refresh_answers {binding : RegistrationBinding} {contact : Bytes}
    {existing : ContactBinding}
    (hwrote : thread.wrote = none) (hsent : thread.sent = []) (htxn : txn = thread.txn) :
    ((Registrar.remote providers domain).refresh request txn binding contact existing).Meets
      refreshContract thread fun g _ => g.Answered := by
  refine Program.Meets.bind (makeContactBinding_answers hwrote) ?_
  rintro g made rfl
  refine ⟨trivial, fun saa _ => ⟨⟨rfl, hwrote, hsent⟩, fun result _ => ?_⟩⟩
  have hwritten : RefreshThread.Written { g with wrote := some result } txn :=
    ⟨htxn, Option.some_ne_none result, hsent⟩
  match result with
  | .ok (n + 1) =>
      refine sendRegisterOk_answers hwritten fun hrefused => ?_
      cases hrefused
  | .ok 0 => exact respond_answers hwritten
  | .error _ => exact respond_answers hwritten

theorem tryHandleReregister_answers (hwrote : thread.wrote = none) (hsent : thread.sent = [])
    (htxn : txn = thread.txn) :
    ((Registrar.remote providers domain).tryHandleReregister request txn).Meets refreshContract
      thread fun g _ => g.Answered := by
  have hunwritten : thread.Answered := fun hne => (hne hwrote).elim
  refine ⟨hwrote, fun found _ => ?_⟩
  cases found with
  | error error => exact hunwritten
  | ok binding =>
      change Program.Meets refreshContract thread
        (if binding.state ≠ .registered then Pure.pure false else _) _
      split
      · exact hunwritten
      · cases request.contact with
        | none => exact hunwritten
        | some contact =>
            refine Program.Meets.bind (findExisting_answers _ _) ?_
            rintro g existing rfl
            cases existing with
            | none => exact hunwritten
            | some existing =>
                exact Program.Meets.bind (refresh_answers hwrote hsent htxn) fun _ _ h => h

/-! ## Runs -/

/-- A refresh has sent what its history says. -/
def refreshDiscipline : Discipline RegistrarState registrarOps RefreshThread Bool
    (Nat × SipMessage) where
  contract := refreshContract
  assumes _ _ := True
  shared _ _ := True
  linked _ log id thread := eventsOf log id = thread.sent
  result thread _ := thread.Answered

variable (providers domain)

theorem refreshDiscipline_sound :
    refreshDiscipline.Sound (Registrar.refreshService providers domain) where
  track _ _ _ := rfl
  begins request := tryHandleReregister_answers rfl rfl rfl
  fresh _ _ _ _ _ hnumbered := eventsOf_eq_nil hnumbered
  serves s log id thread op environment t answer out _ hlinked _ hserve _ := by
    refine ⟨trivial, trivial, ?_, fun other g hne h => (eventsOf_append_of_ne hne).trans h⟩
    change eventsOf _ id = (thread.track op answer).sent
    rw [eventsOf_append_self, hlinked]
    cases op with
    | respond response =>
        cases hserve
        rfl
    | store op =>
        cases hserve
        rw [List.append_nil]
        cases op <;> rfl
    | hss op | provider op | environment op =>
        cases hserve
        exact List.append_nil _
  background s log event t _ hstep := ⟨trivial, fun _ _ h => h⟩

/-- From this state on, whatever happens, all that a refresh sends is one error, in its
transaction, and it sends that with its own next steps. It does not call the store again. -/
structure EndsInError (s : RefreshThreads) (log : List (Nat × Nat × SipMessage)) (id txn : Nat) :
    Prop where
  answers : ∀ as t out, (threadsMachine (Registrar.refreshService providers domain)).exec s as =
    some (t, out) → ∀ response ∈ eventsOf (log ++ out) id,
      response.1 = txn ∧ response.2.statusCode = 500
  ends : ∀ as t out, (threadsMachine (Registrar.refreshService providers domain)).exec s as =
    some (t, out) → ∃ own u more outcome response, (∀ a ∈ own, ThreadAction.By a id) ∧
      (threadsMachine (Registrar.refreshService providers domain)).exec t own = some (u, more) ∧
      u.outcome id = some outcome ∧ eventsOf (log ++ out ++ more) id = [response]
  quiet : ∀ as t out, (threadsMachine (Registrar.refreshService providers domain)).exec s as =
    some (t, out) → ∀ history op next, t.operation id ≠ some (history, ⟨.store op, next⟩)

variable {providers domain}

/-- A refresh that has been refused, and what it has sent so far. -/
structure RefreshThread.Fails (thread : RefreshThread) (txn : Nat) : Prop where
  refused : thread.Refused
  txn_eq : thread.txn = txn
  sent : ∀ response ∈ thread.sent, response.1 = txn ∧ response.2.statusCode = 500

omit [OsipParser] in
theorem RefreshThread.Fails.not_allows_store {op : StoreOp} (h : thread.Fails txn) :
    ¬ thread.Allows (.store op) := by
  have hwrote : thread.wrote ≠ none := by
    rw [h.refused]
    exact Option.some_ne_none _
  intro hallows
  cases op with
  | lookup impu => exact hwrote hallows
  | upsertContacts batch => exact hwrote hallows.2.1
  | removeContacts batch => exact hallows
  | removeBindings impus => exact hallows

omit [OsipParser] in
theorem RefreshThread.Fails.step {op : RegistrarOp} {answer : op.Answer} (h : thread.Fails txn)
    (hallows : thread.Allows op) : (thread.track op answer).Fails txn := by
  cases op with
  | respond response =>
      obtain ⟨htxn, -, -, hstatus⟩ := hallows
      refine ⟨h.refused, h.txn_eq, List.forall_mem_append.mpr ⟨h.sent, ?_⟩⟩
      exact List.forall_mem_singleton.mpr ⟨htxn.trans h.txn_eq, hstatus h.refused⟩
  | store op =>
      cases op with
      | upsertContacts batch => exact (h.not_allows_store hallows).elim
      | lookup impu => exact h
      | removeContacts batch => exact h
      | removeBindings impus => exact h
  | hss op => exact h
  | provider op => exact h
  | environment op => exact h

omit [OsipParser] in
theorem RegistrarState.serves (s : RegistrarState) (op : RegistrarOp) :
    ∃ environment served, s.serve op environment = some served := by
  refine ⟨.accepting ⟨[], [], [], []⟩ [], ?_⟩
  cases op <;> exact ⟨_, rfl⟩

/-- Who is refused ends in an error. -/
theorem endsInError_of_fails {s : RefreshThreads} {log : List (Nat × Nat × SipMessage)} {id : Nat}
    {program : Program registrarOps Exception Bool} (hinv : s.Inv refreshDiscipline log)
    (hfind : s.threads.find id = some ⟨thread, program⟩) (hfails : thread.Fails txn) :
    EndsInError providers domain s log id txn := by
  have sound := refreshDiscipline_sound providers domain
  have hkeeps : ∀ g op answer, RefreshThread.Fails g txn → refreshDiscipline.contract.Allows g op →
      RefreshThread.Fails (refreshDiscipline.contract.track g op answer) txn :=
    fun g op answer hg hop => hg.step hop
  constructor
  · intro as t out hrun response hmem
    obtain ⟨hafter, later, hlater, hlast⟩ :=
      hinv.exec_keeps sound (fun _ _ => trivial) hkeeps hfind hfails hrun
    have hsent : eventsOf (log ++ out) id = later.history.sent := hafter.linked id later hlater
    rw [hsent] at hmem
    exact hlast.sent response hmem
  · intro as t out hrun
    obtain ⟨hafter, later, hlater, hlast⟩ :=
      hinv.exec_keeps sound (fun _ _ => trivial) hkeeps hfind hfails hrun
    obtain ⟨own, u, more, history, hby, hown, hend⟩ := Threads.exists_end
      (Registrar.refreshService providers domain) RegistrarState.serves hlater
    obtain ⟨hlastInv, last, hfound, hkept⟩ :=
      hafter.exec_keeps sound (fun _ _ => trivial) hkeeps hlater hlast hown
    have hsent : eventsOf (log ++ out ++ more) id = last.history.sent :=
      hlastInv.linked id last hfound
    have hwrote : last.history.wrote ≠ none := by
      rw [hkept.refused]
      exact Option.some_ne_none _
    obtain ⟨result, hpure⟩ | ⟨e, hthrow⟩ := hend
    · have houtcome : u.outcome id = some (history, result) := by
        rw [Threads.outcome, hpure]
      rw [hpure] at hfound
      cases hfound
      obtain ⟨response, hresponse⟩ := hlastInv.result houtcome hwrote
      exact ⟨own, u, more, _, response, hby, hown, houtcome, hsent.trans hresponse⟩
    · have hthrows := hlastInv.meets id _ hfound
      rw [hthrow] at hfound
      cases hfound
      exact (hwrote hthrows).elim
  · intro as t out hrun history op next hoperation
    obtain ⟨hafter, later, hlater, hlast⟩ :=
      hinv.exec_keeps sound (fun _ _ => trivial) hkeeps hfind hfails hrun
    rw [Threads.operation_eq_some hoperation] at hlater
    cases hlater
    exact hlast.not_allows_store (hafter.allows hoperation)

/-- A refresh calls the store to look its binding up, which prunes, and to write. Neither adds a
contact or a binding, whatever has happened in between. Where the write finds no match under one
of its identities, it prunes too, and the refresh ends in an error. -/
theorem refresh_never_revives {initial : RegistrarState} {as : List RefreshAction}
    {s t : RefreshThreads} {log out : List (Nat × Nat × SipMessage)} {id : Nat}
    {environment : RegistrarEnvironment} {thread : RefreshThread} {op : StoreOp}
    {next : StoreAnswer op → Program registrarOps Exception Bool}
    (run : (threadsMachine (Registrar.refreshService providers domain)).exec (.init initial) as =
      some (s, log))
    (calls : s.operation id = some (thread, ⟨.store op, next⟩))
    (step : (threadsMachine (Registrar.refreshService providers domain)).step s
      (.run id environment) = some (t, out)) :
    (∀ impu, (t.shared.store.contacts impu).length ≤ (s.shared.store.contacts impu).length ∧
      (s.shared.store.bindings.find impu = none → t.shared.store.bindings.find impu = none)) ∧
    ((∃ batch, op = .upsertContacts batch) ∨
      ∃ impu, t.shared.store = s.shared.store.pruneExpiredLocked s.shared.now impu) ∧
    ∀ batch, op = .upsertContacts batch →
      (∃ impu ∈ batch.impus.elems,
        ¬ s.shared.store.MatchesLive s.shared.now batch.selector impu) →
      (∀ impu, t.shared.store.bindings.find impu =
        if impu ∈ batch.impus.elems then pruned s.shared.now (s.shared.store.bindings.find impu)
        else s.shared.store.bindings.find impu) ∧
      EndsInError providers domain t (log ++ out) id thread.txn := by
  have sound := refreshDiscipline_sound providers domain
  have hinv := sound.exec_of_forall (fun _ _ => trivial) trivial run
  have hallows := hinv.allows calls
  obtain ⟨history, called, next', shared, answer, events, hoperation, hserve, -, rfl⟩ :=
    Threads.runThread_eq_some step
  rw [calls] at hoperation
  cases hoperation
  cases hserve
  cases op with
  | lookup looked =>
      refine ⟨fun impu => ⟨?_, ?_⟩, .inr ⟨looked, rfl⟩, ?_⟩
      · exact (MemoryRegistrationStore.pruneExpiredLocked_shrinks s.shared.store s.shared.now looked
          impu).length_le
      · exact MemoryRegistrationStore.find_pruneExpiredLocked_of_unbound
      · rintro batch ⟨⟩
  | removeContacts batch => exact hallows.elim
  | removeBindings impus => exact hallows.elim
  | upsertContacts batch =>
      obtain ⟨hrequires, -, hunsent⟩ : batch.requireExistingMatch = true ∧ thread.wrote = none ∧
        thread.sent = [] := hallows
      refine ⟨fun impu => ⟨?_, ?_⟩, .inl ⟨batch, rfl⟩, ?_⟩
      · exact MemoryRegistrationStore.length_upsertContacts_le hrequires impu
      · exact MemoryRegistrationStore.find_upsertContacts_of_unbound hrequires
      · rintro _ ⟨⟩ ⟨impu, hmem, hnone⟩
        obtain ⟨hcount, hfind⟩ :=
          MemoryRegistrationStore.upsertContacts_of_not_matchesLive hrequires hmem hnone
        refine ⟨hfind, endsInError_of_fails (hinv.next sound (fun _ _ => trivial) step)
          (Table.find_insert_self _ _ _) ⟨?_, rfl, ?_⟩⟩
        · exact congrArg (fun n => some (Except.ok n)) hcount
        · change ∀ response ∈ thread.sent, _
          rw [hunsent]
          exact fun _ hresponse => (List.not_mem_nil hresponse).elim

end

/-! ## A binding that is removed -/

/-- Alice is registered with one contact. -/
def aliceRegistered : RegistrarState where
  store := MemoryRegistrationStore.init.storeBinding
    { impu := bytes "sip:alice@ims.local"
      impi := bytes "alice@ims.local"
      scscfUri := bytes "sip:scscf.ims.local"
      contacts := [
        { contactUri := bytes "sip:alice@10.0.0.1", instanceId := [], regId := [], path := []
          expires := 5000, userAgent := [], callId := bytes "call", cseq := 1 }]
      state := .registered }
  now := 0

/-- While the HSS is asked, her binding is removed. -/
def removedMeanwhile : List RefreshAction :=
  [.start (aliceRequest [contactAt "sip:alice@10.0.0.1"] false, 7), .run 0 aliceEnvironment,
    .run 0 aliceEnvironment, .run 0 aliceEnvironment, .run 0 aliceEnvironment,
    .background (.call (.remove (bytes "sip:alice@ims.local")))]

/-- The first refresh is about to write, under an identity without a binding. -/
def writesUnbound (s : RefreshThreads) : Bool :=
  match s.operation 0 with
  | some (_, ⟨.store (.upsertContacts batch), _⟩) =>
      batch.impus.elems.any fun impu => (s.shared.store.bindings.find impu).isNone
  | _ => false

theorem refresh_never_revives_removed :
    let _ : OsipParser := plainUris
    ∃ s t log out, ∃ thread : RefreshThread,
      (threadsMachine (Registrar.refreshService [] (bytes "ims.local"))).exec
        (.init aliceRegistered) removedMeanwhile = some (s, log) ∧
      (threadsMachine (Registrar.refreshService [] (bytes "ims.local"))).step s
        (.run 0 aliceEnvironment) = some (t, out) ∧
      EndsInError [] (bytes "ims.local") t (log ++ out) 0 thread.txn := by
  intro parser
  have hsummary : ((threadsMachine (Registrar.refreshService [] (bytes "ims.local"))).exec
      (.init aliceRegistered) removedMeanwhile).map (fun run => writesUnbound run.1) =
        some true := by decide +kernel
  obtain ⟨⟨s, log⟩, hrun, hwrites⟩ := Option.map_eq_some_iff.mp hsummary
  rw [writesUnbound] at hwrites
  split at hwrites
  · rename_i thread batch next hoperation
    obtain ⟨impu, hmem, hnone⟩ := List.any_eq_true.mp hwrites
    have hstep : (threadsMachine (Registrar.refreshService [] (bytes "ims.local"))).step s
        (.run 0 aliceEnvironment) = some _ :=
      Threads.runThread_of_serve (Threads.operation_eq_some hoperation) rfl
    refine ⟨s, _, log, _, thread, hrun, hstep, ?_⟩
    obtain ⟨-, -, hrefused⟩ := refresh_never_revives hrun hoperation hstep
    refine (hrefused batch rfl ⟨impu, hmem, ?_⟩).2
    rintro ⟨contact, hcontact, -⟩
    rw [MemoryRegistrationStore.contacts, Option.isNone_iff_eq_none.mp hnone] at hcontact
    cases hcontact
  · cases hwrites

end SimIms.SCscf
