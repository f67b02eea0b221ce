import SimIms.Sip.ServerLayer

/-!
# ACKs that match no INVITE transaction

`processMessage` gives such an ACK a transaction of its own. Nobody answers an ACK, so neither a
response nor a timer takes the entry away, and it swallows the copies that come later. Every other
entry waits for a final response, or for a timer that takes it away.

Here each call is finished before the next one begins.
-/

namespace SimIms.Sip

open Cxx Lib

/-! ## One call after the other -/

inductive ServerInput where
  | call (call : ServerCall) (accepted : Bool)
  | background (event : ServerBackground)

namespace ServerLayer

def take (s : ServerLayer) : ServerInput → Option (ServerLayer × List ServerEvent)
  | .call call accepted =>
      ((begin call).alone serve accepted s).map fun result => (result.1, result.2.2)
  | .background event => (s.background event).map fun t => (t, [])

/-- There is an INVITE transaction for the ACK. -/
def matchesInvite (s : ServerLayer) (msg : SipMessage) : Bool :=
  ((s.serverTxns.find (transactionKey msg.viaBranch (bytes "INVITE"))).bind s.servers.find).any
    fun txn => txn.request.method == bytes "INVITE"

/-- An ACK is received for which there is none. -/
def receivesUnmatchedAck (s : ServerLayer) : ServerInput → Bool
  | .call (.processRequest msg _) _ =>
      msg.method == bytes "ACK" && !s.shuttingDown && !s.matchesInvite msg
  | _ => false

end ServerLayer

def sequentialMachine : Machine ServerLayer ServerInput ServerEvent := ⟨ServerLayer.take⟩

namespace ServerTransaction

variable {τ : Type}

def AwaitsFinal (txn : ServerTransaction τ) : Prop :=
  txn.state = .trying ∨ txn.state = .proceeding

def WaitsForTimer (txn : ServerTransaction τ) : Prop := txn.timerH.Armed ∨ txn.timerJ.Armed

end ServerTransaction

/-- The handler gets the ACK, and the table stays as it is. -/
def PassesAck (s : ServerLayer) (input : ServerInput) (t : ServerLayer) (out : List ServerEvent) :
    Prop :=
  match input with
  | .call (.processRequest msg _) _ =>
      s.receivesUnmatchedAck input = true →
        (∃ id, .dispatched id msg.requestId ∈ out) ∧ t.serverTxns = s.serverTxns
  | _ => True

/-- No entry is for an ACK, and each one will go. -/
def EntriesGo (s : ServerLayer) : Prop :=
  ∀ key id, s.serverTxns.find key = some id → ∃ txn, s.servers.find id = some txn ∧
    txn.request.method ≠ bytes "ACK" ∧ (txn.AwaitsFinal ∨ txn.WaitsForTimer)

def HandlesAcks (inputs : List ServerInput) : Prop :=
  sequentialMachine.Along (fun s input t out => PassesAck s input t out ∧ EntriesGo t) .init inputs

/-! ## A transaction that is in the table -/

namespace ServerTransaction

variable {τ : Type} {txn : ServerTransaction τ} {response : SipMessage}

/-- It has not been told to go, and it will be. -/
structure Settled (txn : ServerTransaction τ) : Prop where
  kept : txn.terminationNotified = false
  goes : txn.AwaitsFinal ∨ txn.WaitsForTimer

theorem markTerminatedLocked_of_kept (txn : ServerTransaction τ)
    (h : txn.terminationNotified = false) :
    txn.markTerminatedLocked.2 = txn.onTerminated := by
  rw [markTerminatedLocked, h]
  rfl

/-- The timers of a transaction that has recorded a final response. -/
theorem settled_startTimers (h : txn.terminationNotified = false) (now : Nat) (code : Int) :
    (txn.startTimers now code).Settled := by
  rw [startTimers]
  split
  · exact ⟨h, .inr (.inl (.inl rfl))⟩
  · exact ⟨h, .inr (.inr (.inl rfl))⟩

/-- A response that starts no timers leaves the transaction as settled as it was, or ends it. -/
theorem settled_record (h : txn.Settled) (hstart : (txn.record response).2.1 = false) :
    (txn.record response).1.Settled ∧ (txn.record response).2.2 = none ∨
      (txn.record response).2.2 = txn.onTerminated := by
  simp only [record] at hstart ⊢
  split
  · exact .inl ⟨⟨h.kept, .inl (.inr rfl)⟩, rfl⟩
  · rename_i hprovisional
    rw [if_neg hprovisional] at hstart
    split
    · rename_i hfinal
      rw [if_pos hfinal] at hstart
      split
      · exact .inr (markTerminatedLocked_of_kept { txn with
          lastResponse := some response, timerJ := txn.timerJ.cancel, timerH := txn.timerH.cancel
          state := .terminated } h.kept)
      · rename_i hother
        rw [if_neg hother] at hstart
        cases hstart
    · exact .inl ⟨⟨h.kept, h.goes⟩, rfl⟩

theorem kept_record (h : txn.terminationNotified = false)
    (hstart : (txn.record response).2.1 = true) :
    (txn.record response).1.terminationNotified = false := by
  simp only [record] at hstart ⊢
  split
  · exact h
  · rename_i hprovisional
    rw [if_neg hprovisional] at hstart
    split
    · rename_i hfinal
      rw [if_pos hfinal] at hstart
      split
      · rename_i hinvite
        rw [if_pos hinvite] at hstart
        cases hstart
      · exact h
    · exact h

theorem settled_acknowledge (h : txn.Settled) :
    txn.acknowledge.1.Settled ∧ txn.acknowledge.2 = none ∨
      txn.acknowledge.2 = txn.onTerminated := by
  rw [acknowledge]
  split
  · exact .inr (markTerminatedLocked_of_kept { txn with
      timerH := txn.timerH.cancel, state := .terminated } h.kept)
  · exact .inl ⟨h, rfl⟩

theorem timeout_of_kept (h : txn.terminationNotified = false) :
    txn.timeout.2 = txn.onTerminated :=
  markTerminatedLocked_of_kept { txn with state := .terminated } h

end ServerTransaction

/-! ## What every run keeps -/

structure Tidy (s : ServerLayer) : Prop where
  entry : ∀ key id, s.serverTxns.find key = some id → ∃ txn, s.servers.find id = some txn ∧
    txn.onTerminated = some ⟨key, id⟩ ∧ txn.request.method ≠ bytes "ACK" ∧ txn.Settled
  numbered : ∀ id txn, s.servers.find id = some txn → id < s.nextServer
  callback : ∀ id txn callback, s.servers.find id = some txn → txn.onTerminated = some callback →
    callback = ⟨serverKey txn.request, id⟩
  down : s.shuttingDown = true → s.serverTxns = .empty

namespace ServerLayer

/-- The state after a termination callback, if there is one. -/
def ended (s : ServerLayer) : Option TerminationCallback → ServerLayer
  | none => s
  | some callback => s.terminated callback

variable {s t : ServerLayer} {id : Nat} {accepted : Bool} {out : List ServerEvent}
variable {result : Except Exception Unit} {txn txn' : Server}

theorem terminate_alone {callback : Option TerminationCallback}
    (h : (terminate callback).alone serve accepted s = some (t, result, out)) :
    t = s.ended callback ∧ out = [] := by
  cases callback with
  | none =>
      cases h
      exact ⟨rfl, rfl⟩
  | some callback =>
      obtain ⟨_, _, first, rest, hserve, hnext, rfl⟩ := Program.alone_call_eq_some h
      cases hserve
      cases hnext
      exact ⟨rfl, rfl⟩

end ServerLayer

section

variable {s t : ServerLayer} {id : Nat} {accepted : Bool} {out : List ServerEvent}
variable {result : Except Exception Unit} {txn txn' : Server}

/-- A transaction changes, and stays as settled as it was. -/
theorem Tidy.changed (h : Tidy s) {servers : Table Nat Server}
    (hservers : ∀ other,
      servers.find other = if other = id then some txn' else s.servers.find other)
    (hfind : s.servers.find id = some txn) (hfixed : txn'.fixed = txn.fixed)
    (hsettled : s.serverTxns.find (serverKey txn.request) = some id → txn.Settled → txn'.Settled) :
    Tidy { s with servers } := by
  obtain ⟨hrequest, hcallback⟩ := Prod.mk.inj hfixed
  refine ⟨?_, ?_, ?_, h.down⟩
  · intro key other hentry
    obtain ⟨found, hfound, honTerminated, hack, hwas⟩ := h.entry key other hentry
    rw [hservers]
    split
    · rename_i heq
      cases heq
      cases hfind.symm.trans hfound
      refine ⟨txn', rfl, hcallback.trans honTerminated, hrequest ▸ hack, hsettled ?_ hwas⟩
      cases h.callback id txn _ hfind honTerminated
      exact hentry
    · exact ⟨found, hfound, honTerminated, hack, hwas⟩
  · intro other found hfound
    rw [hservers] at hfound
    split at hfound
    · rename_i heq
      rw [heq]
      exact h.numbered id txn hfind
    · exact h.numbered other found hfound
  · intro other found callback hfound honTerminated
    rw [hservers] at hfound
    split at hfound
    · rename_i heq
      cases hfound
      rw [heq, hrequest]
      exact h.callback id txn callback hfind (hcallback.symm.trans honTerminated)
    · exact h.callback other found callback hfound honTerminated

theorem Tidy.change (h : Tidy s) (hfind : s.servers.find id = some txn)
    (hfixed : txn'.fixed = txn.fixed)
    (hsettled : s.serverTxns.find (serverKey txn.request) = some id → txn.Settled → txn'.Settled) :
    Tidy { s with servers := s.servers.insert id txn' } :=
  h.changed (Table.find_insert _ _ _) hfind hfixed hsettled

/-- The entry of a transaction goes. -/
theorem Tidy.terminated (h : Tidy s) {callback : TerminationCallback} :
    Tidy (s.terminated callback) ∧ (s.terminated callback).servers = s.servers := by
  rw [ServerLayer.terminated]
  split
  · exact ⟨h, rfl⟩
  · rename_i hup
    split
    · exact ⟨⟨fun key id hentry => h.entry key id (Table.find_of_find_erase hentry).2, h.numbered,
        h.callback, fun hdown => (hup hdown).elim⟩, rfl⟩
    · exact ⟨h, rfl⟩

/-- After the callback of a transaction there is no entry for it. -/
theorem Tidy.find_terminated (h : Tidy s) {callback : TerminationCallback} :
    (s.terminated callback).serverTxns.find callback.key ≠ some callback.txn := by
  rw [ServerLayer.terminated]
  split
  · rename_i hdown
    rw [h.down hdown]
    exact (Option.some_ne_none _).symm
  · split
    · rw [Table.find_erase_self]
      exact (Option.some_ne_none _).symm
    · assumption

/-- Whatever has become of it: a transaction whose callback is called leaves the table. -/
theorem Tidy.leave (h : Tidy s) {callback : TerminationCallback}
    (hfind : s.servers.find id = some txn) (hfixed : txn'.fixed = txn.fixed)
    (hcallback : txn.onTerminated = some callback) :
    Tidy ({ s with servers := s.servers.insert id txn' }.terminated callback) := by
  have hcomm : { s with servers := s.servers.insert id txn' }.terminated callback =
      { s.terminated callback with servers := s.servers.insert id txn' } := by
    simp only [ServerLayer.terminated]
    split
    · rfl
    · split
      · rfl
      · rfl
  obtain ⟨htidy, hservers⟩ := @Tidy.terminated s h callback
  rw [hcomm, ← hservers]
  refine htidy.change (hservers ▸ hfind) hfixed fun hentry => ?_
  have habsent := @Tidy.find_terminated s h callback
  cases h.callback id txn callback hfind hcallback
  exact (habsent hentry).elim

/-- A transaction changes, and its callback is called if it is to go. -/
theorem Tidy.ended (h : Tidy s) {callback : Option TerminationCallback}
    (hfind : s.servers.find id = some txn) (hfixed : txn'.fixed = txn.fixed)
    (hcallback : ∀ c, callback = some c → txn.onTerminated = some c)
    (hsettled : txn.Settled → txn'.Settled ∧ callback = none ∨ callback = txn.onTerminated) :
    Tidy ({ s with servers := s.servers.insert id txn' }.ended callback) := by
  cases callback with
  | some callback => exact h.leave hfind hfixed (hcallback callback rfl)
  | none =>
      refine h.change hfind hfixed fun hentry hwas => ?_
      obtain ⟨hsettled, -⟩ | hnone := hsettled hwas
      · exact hsettled
      · -- a transaction in the table has its callback
        obtain ⟨found, hfound, honTerminated, -⟩ := h.entry _ id hentry
        cases hfind.symm.trans hfound
        cases hnone.trans honTerminated

/-- A new transaction waits for its final response. -/
theorem Tidy.insert (h : Tidy s) {msg : SipMessage} {source : Endpoint}
    (hup : s.shuttingDown = false) (hack : msg.method ≠ bytes "ACK") :
    Tidy { s with
      serverTxns := s.serverTxns.insert (serverKey msg) s.nextServer
      servers := s.servers.insert s.nextServer (.create msg source ⟨serverKey msg, s.nextServer⟩)
      nextServer := s.nextServer + 1 } := by
  refine ⟨?_, ?_, ?_, fun hdown => by cases hup.symm.trans hdown⟩
  · intro key id hentry
    rw [Table.find_insert] at hentry
    split at hentry
    · rename_i heq
      cases hentry
      exact ⟨_, Table.find_insert_self _ _ _, by rw [heq]; rfl, hack, rfl, .inl (.inl rfl)⟩
    · obtain ⟨found, hfound, hrest⟩ := h.entry key id hentry
      refine ⟨found, ?_, hrest⟩
      rw [Table.find_insert_of_ne _ _ (Nat.ne_of_lt (h.numbered id found hfound))]
      exact hfound
  · intro id found hfound
    rw [Table.find_insert] at hfound
    split at hfound
    · rename_i heq
      rw [heq]
      exact Nat.lt_succ_self _
    · exact Nat.lt_succ_of_lt (h.numbered id found hfound)
  · intro id found callback hfound honTerminated
    rw [Table.find_insert] at hfound
    split at hfound
    · rename_i heq
      cases hfound
      cases honTerminated
      rw [heq]
      rfl
    · exact h.callback id found callback hfound honTerminated

end

/-! ## Calls -/

namespace ServerLayer

variable {s t : ServerLayer} {id : Nat} {accepted : Bool} {out : List ServerEvent}
variable {result : Except Exception Unit} {msg : SipMessage} {source : Endpoint}

theorem sendResponse_tidy {response : SipMessage} (h : Tidy s)
    (hrun : (sendResponse id response).alone serve accepted s = some (t, result, out)) :
    Tidy t := by
  obtain ⟨_, _, _, _, hserve, hrun, -⟩ := Program.alone_call_eq_some hrun
  obtain ⟨txn, hfind, heq⟩ := Option.map_eq_some_iff.mp hserve
  cases heq
  cases accepted with
  | false =>
      cases hrun
      exact h
  | true =>
      obtain ⟨_, _, _, _, hserve, hrun, -⟩ := Program.alone_call_eq_some hrun
      obtain ⟨⟨_, ⟨start, callback⟩, _⟩, hchange, heq⟩ := Option.map_eq_some_iff.mp hserve
      cases heq
      obtain ⟨_, hfind', hchanged⟩ := Option.map_eq_some_iff.mp hchange
      cases hfind.symm.trans hfind'
      obtain ⟨rfl, hanswer⟩ := Prod.mk.inj hchanged
      have hstart : (txn.record response).2.1 = start :=
        congrArg (·.1.1) hanswer
      have hcallback : (txn.record response).2.2 = callback :=
        congrArg (·.1.2) hanswer
      cases start with
      | true =>
          obtain ⟨_, _, _, _, hserve, hrun, -⟩ := Program.alone_call_eq_some hrun
          obtain ⟨_, hchange, heq⟩ := Option.map_eq_some_iff.mp hserve
          cases heq
          obtain ⟨_, hfind', hchanged⟩ := Option.map_eq_some_iff.mp hchange
          rw [Table.find_insert_self] at hfind'
          cases hfind'
          cases hchanged
          obtain ⟨hnone, -⟩ := ServerTransaction.record_starts hstart
          cases hcallback.symm.trans hnone
          obtain ⟨rfl, -⟩ := @terminate_alone _ _ _ _ _ none hrun
          -- the two changes of the transaction are one
          rw [ended, Table.insert_insert]
          refine h.change hfind ?_ fun _ hsettled => ServerTransaction.settled_startTimers
            (ServerTransaction.kept_record hsettled.kept hstart) _ _
          rw [ServerTransaction.fixed_startTimers, ServerTransaction.fixed_record]
      | false =>
          obtain ⟨rfl, -⟩ := terminate_alone hrun
          refine h.ended hfind ServerTransaction.fixed_record (fun c heq => ?_) fun hsettled => ?_
          · exact (ServerTransaction.record_eq_some (hcallback.trans heq)).2.2.2
          · rw [← hcallback]
            exact ServerTransaction.settled_record hsettled hstart

theorem acknowledgeAck_tidy (h : Tidy s)
    (hrun : (acknowledgeAck id).alone serve accepted s = some (t, result, out)) : Tidy t := by
  obtain ⟨_, _, _, _, hserve, hrun, -⟩ := Program.alone_call_eq_some hrun
  obtain ⟨_, hchange, heq⟩ := Option.map_eq_some_iff.mp hserve
  cases heq
  obtain ⟨txn, hfind, hchanged⟩ := Option.map_eq_some_iff.mp hchange
  cases hchanged
  obtain ⟨rfl, -⟩ := terminate_alone hrun
  exact h.ended hfind ServerTransaction.fixed_acknowledge
    (fun c heq => (ServerTransaction.acknowledge_eq_some heq).2)
      ServerTransaction.settled_acknowledge

theorem not_dispatched_of_acknowledgeAck {request : RequestId} {txn : Nat}
    (hrun : (acknowledgeAck id).alone serve accepted s = some (t, result, out)) :
    .dispatched txn request ∉ out := by
  intro hmem
  obtain ⟨_, _, _, _, hserve, hnext, rfl⟩ := Program.alone_call_eq_some hrun
  obtain ⟨⟨_, callback, _⟩, -, heq⟩ := Option.map_eq_some_iff.mp hserve
  cases heq
  obtain ⟨-, rfl⟩ := terminate_alone hnext
  rw [List.append_nil] at hmem
  split at hmem
  · cases List.mem_singleton.mp hmem
  · cases hmem

theorem runTimer_tidy {name : ServerTransaction.TimerName} (h : Tidy s)
    (hrun : (runTimer name id).alone serve accepted s = some (t, result, out)) : Tidy t := by
  obtain ⟨_, _, _, _, hserve, hrun, -⟩ := Program.alone_call_eq_some hrun
  change s.serve (.timeout name id) accepted = _ at hserve
  rw [serve] at hserve
  split at hserve
  · cases hserve
  · rename_i timer hdequeue
    obtain ⟨_, hchange, heq⟩ := Option.map_eq_some_iff.mp hserve
    cases heq
    obtain ⟨txn, hfind, hchanged⟩ := Option.map_eq_some_iff.mp hchange
    cases hchanged
    obtain ⟨rfl, -⟩ := terminate_alone hrun
    have hset : (txn.setTimer timer name).fixed = txn.fixed :=
      ServerTransaction.fixed_setTimer timer name
    refine h.ended hfind ?_ (fun c heq => ?_) fun hsettled => .inr ?_
    · rw [ServerTransaction.fixed_timeout, hset]
    · rw [← (Prod.mk.inj hset).2]
      exact ServerTransaction.timeout_eq_some heq
    · rw [← (Prod.mk.inj hset).2]
      refine ServerTransaction.timeout_of_kept ?_
      cases name
      · exact hsettled.kept
      · exact hsettled.kept

theorem retransmitLastResponse_alone
    (hrun : (retransmitLastResponse id).alone serve accepted s = some (t, result, out)) :
    t = s ∧ ∀ id request, .dispatched id request ∉ out := by
  obtain ⟨_, _, _, _, hserve, hnext, rfl⟩ := Program.alone_call_eq_some hrun
  obtain ⟨txn, -, heq⟩ := Option.map_eq_some_iff.mp hserve
  cases heq
  cases hresponse : txn.lastResponse with
  | none =>
      rw [hresponse] at hnext
      cases hnext
      exact ⟨rfl, fun _ _ => List.not_mem_nil⟩
  | some response =>
      rw [hresponse] at hnext
      obtain ⟨_, _, _, _, hsend, hlast, rfl⟩ := Program.alone_call_eq_some hnext
      obtain ⟨txn, -, heq⟩ := Option.map_eq_some_iff.mp hsend
      cases heq
      cases hlast
      refine ⟨rfl, fun id request hmem => ?_⟩
      rw [List.nil_append, List.append_nil] at hmem
      split at hmem
      · cases List.mem_singleton.mp hmem
      · cases hmem

/-- Either there is an entry for the request, or it gets one. -/
theorem dispatch_alone (hup : s.shuttingDown = false)
    (hrun : (dispatch msg source).alone serve accepted s = some (t, result, out)) :
    (t = s ∧ ∀ id request, .dispatched id request ∉ out) ∨
      s.serverTxns.find (serverKey msg) = none ∧ t = { s with
        serverTxns := s.serverTxns.insert (serverKey msg) s.nextServer
        servers := s.servers.insert s.nextServer (.create msg source ⟨serverKey msg, s.nextServer⟩)
        nextServer := s.nextServer + 1 } := by
  obtain ⟨_, _, _, _, hserve, hnext, rfl⟩ := Program.alone_call_eq_some hrun
  cases hserve
  cases hentry : s.serverTxns.find (serverKey msg) with
  | some existing =>
      rw [hentry] at hnext
      obtain ⟨rfl, hnone⟩ := retransmitLastResponse_alone hnext
      exact .inl ⟨rfl, hnone⟩
  | none =>
      rw [hentry] at hnext
      obtain ⟨_, _, _, _, hserve, hnext, -⟩ := Program.alone_call_eq_some hnext
      change s.serve (.insert (serverKey msg) msg source) accepted = _ at hserve
      rw [serve, if_neg (by rw [hup]; exact Bool.false_ne_true), hentry] at hserve
      cases hserve
      refine .inr ⟨rfl, ?_⟩
      obtain ⟨_, _, _, _, hserve, hnext, -⟩ := Program.alone_call_eq_some hnext
      cases hserve
      cases hhandler : s.requestHandler with
      | false =>
          rw [hhandler] at hnext
          cases hnext
          rfl
      | true =>
          rw [hhandler] at hnext
          obtain ⟨_, _, _, _, hserve, hnext, -⟩ := Program.alone_call_eq_some hnext
          obtain ⟨_, -, heq⟩ := Option.map_eq_some_iff.mp hserve
          cases heq
          cases hnext
          rfl

/-- The ways of a request. -/
theorem processRequest_alone
    (hrun : (processRequest msg source).alone serve accepted s = some (t, result, out)) :
    (s.shuttingDown = true ∧ t = s) ∨ s.shuttingDown = false ∧ ∃ rest,
      out = .received msg.requestId s.now :: rest ∧
      ((∃ invite, msg.method = bytes "ACK" ∧
          s.serverTxns.find (transactionKey msg.viaBranch (bytes "INVITE")) = some invite ∧
          (acknowledgeAck invite).alone serve accepted s = some (t, result, rest)) ∨
        (msg.method = bytes "ACK" →
          s.serverTxns.find (transactionKey msg.viaBranch (bytes "INVITE")) = none) ∧
          (dispatch msg source).alone serve accepted s = some (t, result, rest)) := by
  obtain ⟨_, _, _, rest, hserve, hnext, rfl⟩ := Program.alone_call_eq_some hrun
  cases hserve
  cases hdown : s.shuttingDown with
  | true =>
      rw [hdown] at hnext
      cases hnext
      exact .inl ⟨rfl, rfl⟩
  | false =>
      rw [hdown] at hnext
      change Program.alone serve accepted
        (if msg.method = bytes "ACK" then _ else dispatch msg source) s = _ at hnext
      refine .inr ⟨rfl, rest, rfl, ?_⟩
      split at hnext
      · rename_i hack
        obtain ⟨_, _, _, _, hserve, hlooked, rfl⟩ := Program.alone_call_eq_some hnext
        cases hserve
        cases hentry : s.serverTxns.find (transactionKey msg.viaBranch (bytes "INVITE")) with
        | some invite =>
            rw [hentry] at hlooked
            exact .inl ⟨invite, hack, rfl, hlooked⟩
        | none =>
            rw [hentry] at hlooked
            exact .inr ⟨fun _ => rfl, hlooked⟩
      · rename_i hother
        exact .inr ⟨fun hack => (hother hack).elim, hnext⟩

theorem background_tidy {event : ServerBackground} (h : Tidy s)
    (hbackground : s.background event = some t) : Tidy t := by
  cases event with
  | elapse duration =>
      cases hbackground
      exact ⟨h.entry, h.numbered, h.callback, h.down⟩
  | setRequestHandler =>
      cases hbackground
      exact ⟨h.entry, h.numbered, h.callback, h.down⟩
  | expireTimer name id =>
      rw [background] at hbackground
      split at hbackground
      · cases hbackground
      · rename_i timer hexpire
        cases hbackground
        obtain ⟨txn, hfind, hexpire⟩ := Option.bind_eq_some_iff.mp hexpire
        refine h.changed (fun other => ?_) hfind (ServerTransaction.fixed_setTimer timer name)
          fun _ hsettled => ?_
        · rw [Table.find_modify]
          split
          · rename_i heq
            rw [heq, hfind]
            rfl
          · rfl
        · have harmed := Timer.armed_expire hexpire
          cases name
          · exact ⟨hsettled.kept, .inr (.inr harmed)⟩
          · exact ⟨hsettled.kept, .inr (.inl harmed)⟩
  | shutdown =>
      cases hbackground
      have hservers : ∀ id txn, s.shutdown.servers.find id = some txn → ∃ before,
          s.servers.find id = some before ∧
            ∀ callback, txn.onTerminated = some callback → txn = before := by
        intro id txn hfind
        obtain ⟨before, hfound, rfl⟩ :=
          Option.map_eq_some_iff.mp ((Table.find_mapValues _ _ _).symm.trans hfind)
        refine ⟨before, hfound, fun callback honTerminated => ?_⟩
        split at honTerminated
        · cases honTerminated
        · rename_i hother
          exact if_neg hother
      refine ⟨fun key id hentry => ?_, fun id txn hfind => ?_, fun id txn callback hfind hc => ?_,
        fun _ => rfl⟩
      · cases hentry
      · obtain ⟨before, hfound, -⟩ := hservers id txn hfind
        exact h.numbered id before hfound
      · obtain ⟨before, hfound, hsame⟩ := hservers id txn hfind
        cases hsame callback hc
        exact h.callback id txn callback hfound hc

end ServerLayer

/-! ## Runs -/

section

variable {s t : ServerLayer} {input : ServerInput} {out : List ServerEvent}

theorem Tidy.step (h : Tidy s) (hmatched : s.receivesUnmatchedAck input = false)
    (hstep : sequentialMachine.step s input = some (t, out)) : Tidy t := by
  cases input with
  | background event =>
      obtain ⟨_, hbackground, heq⟩ := Option.map_eq_some_iff.mp hstep
      cases heq
      exact ServerLayer.background_tidy h hbackground
  | call call accepted =>
      obtain ⟨⟨_, result, _⟩, hrun, heq⟩ := Option.map_eq_some_iff.mp hstep
      cases heq
      cases call with
      | sendResponse txn response => exact ServerLayer.sendResponse_tidy h hrun
      | runTimer name txn => exact ServerLayer.runTimer_tidy h hrun
      | processRequest msg source =>
          obtain ⟨-, rfl⟩ | ⟨hup, rest, -, ⟨invite, -, -, hrun⟩ | ⟨hentry, hrun⟩⟩ :=
            ServerLayer.processRequest_alone hrun
          · exact h
          · exact ServerLayer.acknowledgeAck_tidy h hrun
          · obtain ⟨rfl, -⟩ | ⟨-, rfl⟩ := ServerLayer.dispatch_alone hup hrun
            · exact h
            · refine h.insert hup fun hack => ?_
              rw [ServerLayer.receivesUnmatchedAck, ServerLayer.matchesInvite, hup, hack,
                hentry hack] at hmatched
              cases hmatched

/-- An ACK that matches no INVITE transaction changes the table or does not reach the handler. -/
theorem not_passesAck (hunmatched : s.receivesUnmatchedAck input = true)
    (hstep : sequentialMachine.step s input = some (t, out)) : ¬ PassesAck s input t out := by
  intro hpasses
  cases input with
  | background event => cases hunmatched
  | call call accepted =>
      cases call with
      | sendResponse txn response => cases hunmatched
      | runTimer name txn => cases hunmatched
      | processRequest msg source =>
          obtain ⟨⟨id, hmem⟩, hsame⟩ := hpasses hunmatched
          obtain ⟨⟨_, result, _⟩, hrun, heq⟩ := Option.map_eq_some_iff.mp hstep
          cases heq
          rw [ServerLayer.receivesUnmatchedAck, Bool.and_eq_true, Bool.and_eq_true] at hunmatched
          obtain ⟨⟨-, hup⟩, hnomatch⟩ := hunmatched
          obtain ⟨hdown, -⟩ | ⟨hup, rest, rfl, ⟨invite, -, hfind, hrun⟩ | ⟨-, hrun⟩⟩ :=
            ServerLayer.processRequest_alone hrun
          · rw [hdown] at hup
            cases hup
          · obtain hmem | hmem := List.mem_cons.mp hmem
            · cases hmem
            · exact ServerLayer.not_dispatched_of_acknowledgeAck hrun hmem
          · obtain ⟨rfl, hnone⟩ | ⟨hnone, rfl⟩ := ServerLayer.dispatch_alone hup hrun
            · obtain hmem | hmem := List.mem_cons.mp hmem
              · cases hmem
              · exact hnone _ _ hmem
            · have hfound := congrArg (Table.find · (serverKey msg)) hsame
              rw [Table.find_insert_self, hnone] at hfound
              cases hfound

theorem passesAck_of_matched (hmatched : s.receivesUnmatchedAck input = false) :
    PassesAck s input t out := by
  cases input with
  | background event => exact trivial
  | call call accepted =>
      cases call with
      | sendResponse txn response => exact trivial
      | runTimer name txn => exact trivial
      | processRequest msg source => exact fun hunmatched => by cases hmatched.symm.trans hunmatched

theorem Tidy.init : Tidy .init := by
  refine ⟨?_, ?_, ?_, fun hdown => by cases hdown⟩
  · intro key id hentry
    cases hentry
  · intro id txn hfind
    cases hfind
  · intro id txn callback hfind
    cases hfind

theorem Tidy.entriesGo (h : Tidy s) : EntriesGo s := by
  intro key id hentry
  obtain ⟨txn, hfind, -, hack, hsettled⟩ := h.entry key id hentry
  exact ⟨txn, hfind, hack, hsettled.goes⟩

end

theorem matched_of_handlesAcks {inputs : List ServerInput} (h : HandlesAcks inputs) :
    sequentialMachine.Along (fun s input _ _ => s.receivesUnmatchedAck input = false)
      .init inputs := by
  refine h.mono fun s input t out hstep hhandles => ?_
  rw [Bool.eq_false_iff]
  exact fun hunmatched => not_passesAck hunmatched hstep hhandles.1

/-- ACKs that match no INVITE transaction are passed on without an entry, and every entry goes, in
exactly the runs in which no such ACK comes. -/
theorem handlesAcks_iff (inputs : List ServerInput) : HandlesAcks inputs ↔
    sequentialMachine.Along (fun s input _ _ => s.receivesUnmatchedAck input = false)
      .init inputs := by
  refine ⟨matched_of_handlesAcks, fun hmatched => ?_⟩
  have hkept := hmatched.with_invariant (fun s input t out htidy hstep hmatched =>
    htidy.step hmatched hstep) Tidy.init
  refine hkept.mono fun s input t out hstep hboth => ?_
  exact ⟨passesAck_of_matched hboth.2, (hboth.1.step hboth.2 hstep).entriesGo⟩

/-! ## An ACK that stays -/

/-- The ACK of a 2xx comes twice, and then nothing for a minute. -/
def ackRun : List ServerInput :=
  let ack : SipMessage := (dialogRequest "ACK" (bytes "a") []).addVia
    ⟨bytes "UDP", bytes "ue", none, [⟨bytes "branch", some (bytes "z9hG4bK1")⟩]⟩
  let input : ServerInput := .call (.processRequest ack ⟨bytes "10.0.0.2", 5060, bytes "udp"⟩) true
  [.background .setRequestHandler, input, input, .background (.elapse 60000)]

/-- Only the first copy gets to the handler, and the entry stays. -/
theorem ack_entry_stays : ∃ s log, sequentialMachine.exec .init ackRun = some (s, log) ∧
    s.serverTxns.find (bytes "z9hG4bK1:ACK") = some 0 ∧
    log.count (.dispatched 0 ⟨bytes "z9hG4bK1", bytes "ACK"⟩) = 1 ∧ ¬ HandlesAcks ackRun := by
  have hsummary : (sequentialMachine.exec .init ackRun).map (fun result =>
      decide (result.1.serverTxns.find (bytes "z9hG4bK1:ACK") = some 0 ∧
        result.2.count (.dispatched 0 ⟨bytes "z9hG4bK1", bytes "ACK"⟩) = 1)) = some true := by
    decide +kernel
  obtain ⟨⟨s, log⟩, hrun, hresult⟩ := Option.map_eq_some_iff.mp hsummary
  obtain ⟨hentry, honce⟩ := of_decide_eq_true hresult
  refine ⟨s, log, hrun, hentry, honce, fun hhandles => ?_⟩
  have hmatched := matched_of_handlesAcks hhandles
  revert hmatched
  decide +kernel

end SimIms.Sip
