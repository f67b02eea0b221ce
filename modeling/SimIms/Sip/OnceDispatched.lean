import SimIms.Sip.ServerRuns

/-!
# How often the handler gets a request

A copy of a request is dispatched when it is entered into the table. While the request is not
`Over`, the first copy keeps the others out. Afterwards the next copy is a new request: a copy of
an INVITE that comes after the 2xx, or after the ACK of the failure response, does not wait the
32 s that a copy of another request waits.
-/

namespace SimIms.Sip

open Cxx Lib

/-! ## Dispatches -/

/-- The thread has received its request no later than 32 s after the first final response. -/
def inWindow (log : ServerLog) (request : RequestId) (tid : Nat) : Bool :=
  match receivedAt log tid with
  | none => false
  | some received => (finalTimes log request).all fun time => received ≤ time + transactionWindow

/-- The calls of the handler with copies that were received in time. -/
def windowDispatches (log : ServerLog) (request : RequestId) : ServerLog :=
  log.filter fun event =>
    match event.2 with
    | .dispatched _ request' => request' == request && inWindow log request event.1
    | _ => false

/-- The claim about every run: the handler gets one of the copies, at most. -/
def DispatchesOnce (log : ServerLog) : Prop :=
  ∀ request, request.method ≠ bytes "ACK" → (windowDispatches log request).length ≤ 1

instance (log : ServerLog) (request : RequestId) (now : Nat) : Decidable (Over log request now) :=
  inferInstanceAs (Decidable (_ ∨ _))

/-- The transactions that a request was given before it was over. -/
def timelyTxns (request : RequestId) : (before log : ServerLog) → List Nat
  | _, [] => []
  | before, event :: log =>
      let later := timelyTxns request (before ++ [event]) log
      match event.2 with
      | .created id request' time =>
          if request' = request ∧ ¬ Over before request time then id :: later else later
      | _ => later

/-- The calls of the handler with copies that came before the request was over. -/
def timelyDispatches (log : ServerLog) (request : RequestId) : ServerLog :=
  log.filter fun event =>
    match event.2 with
    | .dispatched id request' =>
        request' == request && (timelyTxns request [] log).contains id
    | _ => false

section

variable {request : RequestId} {before log out : ServerLog} {id tid time : Nat}

theorem timelyTxns_append :
    timelyTxns request before (log ++ out) =
      timelyTxns request before log ++ timelyTxns request (before ++ log) out := by
  induction log generalizing before with
  | nil => rw [List.nil_append, List.append_nil, timelyTxns, List.nil_append]
  | cons event log ih =>
      have happend := @ih (before ++ [event])
      rw [List.append_assoc, List.singleton_append] at happend
      rw [List.cons_append, timelyTxns, timelyTxns, happend]
      split
      · split
        · rw [List.cons_append]
        · rfl
      · rfl

theorem mem_timelyTxns (h : id ∈ timelyTxns request before log) :
    ∃ tid time, (tid, .created id request time) ∈ log := by
  induction log generalizing before with
  | nil => cases h
  | cons event log ih =>
      have hlater : id ∈ timelyTxns request (before ++ [event]) log →
          ∃ tid time, (tid, ServerEvent.created id request time) ∈ event :: log := by
        intro hmem
        obtain ⟨tid, time, hcreated⟩ := ih hmem
        exact ⟨tid, time, List.mem_cons_of_mem _ hcreated⟩
      obtain ⟨tid, event⟩ := event
      rw [timelyTxns] at h
      split at h
      · rename_i made request' time heq
        split at h
        · rename_i htimely
          obtain rfl | hmem := List.mem_cons.mp h
          · cases heq
            exact ⟨tid, time, by rw [htimely.1]; exact List.mem_cons_self⟩
          · exact hlater hmem
        · exact hlater h
      · exact hlater h

end

/-! ## Runs -/

/-- Who creates a transaction has found no entry. -/
theorem created_of_serve {s t : ServerLayer} {op : ServerOp} {accepted : Bool}
    {answer : ServerAnswer op} {events : List ServerEvent} {request : RequestId} {id time : Nat}
    (hserve : s.serve op accepted = some (t, answer, events))
    (hmem : .created id request time ∈ events) :
    ∃ key msg source, op = .insert key msg source ∧ s.shuttingDown = false ∧
      s.serverTxns.find key = none ∧ request = msg.requestId ∧
      events = [.created id request s.now] := by
  cases op with
  | insert key msg source =>
      rw [ServerLayer.serve] at hserve
      split at hserve
      · cases hserve
        cases hmem
      · rename_i hup
        split at hserve
        · cases hserve
          cases hmem
        · rename_i hnone
          cases hserve
          cases List.mem_singleton.mp hmem
          exact ⟨key, msg, source, rfl, Bool.eq_false_iff.mpr hup, hnone, rfl, rfl⟩
  | receive msg =>
      cases hserve
      cases List.mem_singleton.mp hmem
  | findServer key =>
      cases hserve
      cases hmem
  | acknowledge id =>
      obtain ⟨⟨_, callback, txn⟩, -, heq⟩ := Option.map_eq_some_iff.mp hserve
      cases heq
      split at hmem
      · cases List.mem_singleton.mp hmem
      · cases hmem
  | lastResponse id =>
      obtain ⟨txn, -, heq⟩ := Option.map_eq_some_iff.mp hserve
      cases heq
      cases hmem
  | requestHandler =>
      cases hserve
      cases hmem
  | callHandler id =>
      obtain ⟨txn, -, heq⟩ := Option.map_eq_some_iff.mp hserve
      cases heq
      cases List.mem_singleton.mp hmem
  | send id response =>
      obtain ⟨txn, -, heq⟩ := Option.map_eq_some_iff.mp hserve
      cases heq
      split at hmem
      · cases List.mem_singleton.mp hmem
      · cases hmem
  | record id response =>
      obtain ⟨_, -, heq⟩ := Option.map_eq_some_iff.mp hserve
      cases heq
      cases hmem
  | startTimers id code =>
      obtain ⟨_, -, heq⟩ := Option.map_eq_some_iff.mp hserve
      cases heq
      cases hmem
  | timeout name id =>
      rw [ServerLayer.serve] at hserve
      split at hserve
      · cases hserve
      · obtain ⟨_, -, heq⟩ := Option.map_eq_some_iff.mp hserve
        cases heq
        cases hmem
  | terminated callback =>
      cases hserve
      cases hmem

section

variable {s t : ServerThreads} {log out : ServerLog} {a : ServerAction} {request : RequestId}

/-- No transaction but the first is created for a request that is not over. -/
theorem timelyTxns_step (h : s.Inv serverDiscipline log)
    (hstep : serverMachine.step s a = some (t, out)) (hone : timelyTxns request [] log ≠ []) :
    timelyTxns request log out = [] := by
  cases a with
  | start call =>
      cases hstep
      rfl
  | background event =>
      obtain ⟨_, -, heq⟩ := Option.map_eq_some_iff.mp hstep
      cases heq
      rfl
  | run tid accepted =>
      obtain ⟨thread, op, next, shared, answer, events, hoperation, hserve, rfl, rfl⟩ :=
        Threads.runThread_eq_some hstep
      by_contra hnew
      obtain ⟨id, hmem⟩ := List.exists_mem_of_ne_nil _ hnew
      obtain ⟨tid', time, hcreated⟩ := mem_timelyTxns hmem
      obtain ⟨event, hevent, heq⟩ := List.mem_map.mp hcreated
      cases heq
      obtain ⟨key, msg, source, rfl, hup, hnone, rfl, rfl⟩ := created_of_serve hserve hevent
      obtain ⟨-, -, rfl⟩ : thread.Allows (.insert key msg source) := h.allows hoperation
      have htimely : ¬ Over log msg.requestId s.shared.now := by
        intro hover
        rw [List.map_cons, timelyTxns, List.map_nil, timelyTxns] at hmem
        simp only [hover, not_true_eq_false, and_false, if_false] at hmem
        cases hmem
      -- the transaction that was there keeps this one out
      obtain ⟨first, hfirst⟩ := List.exists_mem_of_ne_nil _ hone
      obtain ⟨tid', time, hcreated⟩ := mem_timelyTxns hfirst
      obtain hfind | hdown | hover := (h.shared.created tid' first msg.requestId time
        hcreated).stays
      · cases hnone.symm.trans hfind
      · cases hup.symm.trans hdown
      · exact htimely hover

/-- One step creates one transaction, at most. -/
theorem timelyTxns_unique_of_step {id id' : Nat}
    (hstep : serverMachine.step s a = some (t, out)) (hmem : id ∈ timelyTxns request log out)
    (hmem' : id' ∈ timelyTxns request log out) : id = id' := by
  obtain ⟨tid, time, hcreated⟩ := mem_timelyTxns hmem
  obtain ⟨tid', time', hcreated'⟩ := mem_timelyTxns hmem'
  cases a with
  | start call =>
      cases hstep
      cases hmem
  | background event =>
      obtain ⟨_, -, heq⟩ := Option.map_eq_some_iff.mp hstep
      cases heq
      cases hmem
  | run tid accepted =>
      obtain ⟨thread, op, next, shared, answer, events, hoperation, hserve, rfl, rfl⟩ :=
        Threads.runThread_eq_some hstep
      obtain ⟨event, hevent, heq⟩ := List.mem_map.mp hcreated
      cases heq
      obtain ⟨key, msg, source, rfl, -, -, -, rfl⟩ := created_of_serve hserve hevent
      obtain ⟨event', hevent', heq'⟩ := List.mem_map.mp hcreated'
      cases heq'
      cases List.mem_singleton.mp hevent'
      rfl

/-- What holds in every run. -/
structure DispatchInv (s : ServerThreads) (log : ServerLog) : Prop where
  inv : s.Inv serverDiscipline log
  unique : ∀ request, ∀ id ∈ timelyTxns request [] log, ∀ id' ∈ timelyTxns request [] log, id = id'

theorem DispatchInv.step (h : DispatchInv s log) (hstep : serverMachine.step s a = some (t, out)) :
    DispatchInv t (log ++ out) := by
  refine ⟨h.inv.next serverDiscipline_sound (fun _ _ => trivial) hstep, ?_⟩
  intro request id hmem id' hmem'
  rw [timelyTxns_append, List.nil_append] at hmem hmem'
  by_cases hnone : timelyTxns request [] log = []
  · rw [hnone, List.nil_append] at hmem hmem'
    exact timelyTxns_unique_of_step hstep hmem hmem'
  · rw [timelyTxns_step h.inv hstep hnone, List.append_nil] at hmem hmem'
    exact h.unique request id hmem id' hmem'

theorem dispatchInv_of_exec {as : List ServerAction}
    (hrun : serverMachine.exec (.init .init) as = some (s, log)) : DispatchInv s log := by
  have hstart : DispatchInv (.init .init) [] :=
    ⟨.init Kept.init, fun _ _ hmem => (List.not_mem_nil hmem).elim⟩
  exact Machine.exec_invariant_log (fun _ _ _ _ _ h hstep => h.step hstep) hstart hrun

/-- A thread calls the handler once, at most. -/
theorem countP_isDispatched_le (h : s.Inv serverDiscipline log) (tid : Nat) :
    (eventsOf log tid).countP ServerEvent.isDispatched ≤ 1 := by
  by_cases hnone : eventsOf log tid = []
  · rw [hnone]
    exact Nat.zero_le _
  · obtain ⟨thread, hfind⟩ := h.exists_of_eventsOf_ne_nil hnone
    rw [(h.linked tid thread hfind).dispatches]
    split
    · exact Nat.le_refl _
    · exact Nat.zero_le _

/-- What a counted call of the handler comes from. -/
theorem timelyDispatch_created (h : s.Inv serverDiscipline log) {event : Nat × ServerEvent}
    (hmem : event ∈ timelyDispatches log request) :
    ∃ id time, event.2 = .dispatched id request ∧ id ∈ timelyTxns request [] log ∧
      (event.1, .created id request time) ∈ log := by
  obtain ⟨hlog, hcounted⟩ := List.mem_filter.mp hmem
  obtain ⟨tid, event⟩ := event
  cases event with
  | dispatched id request' =>
      obtain ⟨hsame, htimely⟩ := Bool.and_eq_true_iff.mp hcounted
      cases eq_of_beq hsame
      obtain ⟨time, hcreated⟩ := h.shared.dispatched tid id request hlog
      exact ⟨id, time, rfl, List.contains_iff_mem.mp htimely, hcreated⟩
  | received request' time => cases hcounted
  | created id request' time => cases hcounted
  | sent request' code time => cases hcounted
  | acknowledged request' => cases hcounted

/-- In every run, of the copies of a request that come before it is over the handler gets at most
one. -/
theorem dispatched_once_until_over {as : List ServerAction}
    (hrun : serverMachine.exec (.init .init) as = some (s, log)) (request : RequestId) :
    (timelyDispatches log request).length ≤ 1 := by
  obtain ⟨hinv, hunique⟩ := dispatchInv_of_exec hrun
  by_cases hnone : timelyDispatches log request = []
  · rw [hnone]
    exact Nat.zero_le _
  obtain ⟨first, hmem⟩ := List.exists_mem_of_ne_nil _ hnone
  obtain ⟨id, time, -, htimely, hcreated⟩ := timelyDispatch_created hinv hmem
  have hcount := countP_isDispatched_le hinv first.1
  rw [countP_eventsOf] at hcount
  refine Nat.le_trans ?_ hcount
  rw [timelyDispatches, ← List.countP_eq_length_filter]
  refine List.countP_mono_left fun event hlog hevent => ?_
  -- every other dispatch is of the same transaction, and so of the same thread
  obtain ⟨id', time', hdispatched', htimely', hcreated'⟩ :=
    timelyDispatch_created hinv (List.mem_filter.mpr ⟨hlog, hevent⟩)
  cases hunique request id' htimely' id htimely
  rw [hinv.shared.creator _ _ id _ _ _ _ hcreated' hcreated, hdispatched']
  exact Bool.and_eq_true_iff.mpr ⟨rfl, decide_eq_true rfl⟩

end

/-! ## Two calls -/

/-- A request from a user agent. -/
def ueRequest (method : String) : SipMessage :=
  (dialogRequest method (bytes "a") []).addVia
    ⟨bytes "UDP", bytes "ue", none, [⟨bytes "branch", some (bytes "z9hG4bK0")⟩]⟩

def answer (code : Int) : SipMessage :=
  { ueRequest "INVITE" with start := .response code [] }

/-- The request is dispatched, and its handler answers. -/
def answeredRun (method : String) (code : Int) (steps : Nat) : List ServerAction :=
  [.background .setRequestHandler, receives method] ++ List.replicate 5 (.run 0 true) ++
    [.start (.sendResponse 0 (answer code))] ++ List.replicate steps (.run 1 true)
where
  receives (method : String) : ServerAction :=
    .start (.processRequest (ueRequest method) ⟨bytes "10.0.0.2", 5060, bytes "udp"⟩)

/-- A copy of an INVITE comes after the 2xx. -/
def acceptedRun : List ServerAction :=
  answeredRun "INVITE" 200 3 ++ [answeredRun.receives "INVITE"] ++ List.replicate 5 (.run 2 true)

/-- A copy of an INVITE comes after the ACK of its failure response. -/
def acknowledgedRun : List ServerAction :=
  answeredRun "INVITE" 486 3 ++ [answeredRun.receives "ACK"] ++ List.replicate 4 (.run 2 true) ++
    [answeredRun.receives "INVITE"] ++ List.replicate 5 (.run 3 true)

/-- A copy of a REGISTER comes at once, but is overtaken by the timer. -/
def overtakenRun : List ServerAction :=
  answeredRun "REGISTER" 401 3 ++ [answeredRun.receives "REGISTER", .run 2 true,
    .background (.elapse 32000), .background (.expireTimer .j 0), .start (.runTimer .j 0),
    .run 3 true, .run 3 true] ++ List.replicate 4 (.run 2 true)

/-- A copy of a REGISTER comes after the answer. -/
def retransmittedRun : List ServerAction :=
  answeredRun "REGISTER" 401 3 ++ [answeredRun.receives "REGISTER"] ++
    List.replicate 4 (.run 2 true)

theorem not_dispatchesOnce_of_two {run : List ServerAction} {request : RequestId}
    (hack : request.method ≠ bytes "ACK")
    (htwo : (serverMachine.exec (.init .init) run).map (fun result =>
      decide ((windowDispatches result.2 request).length = 2)) = some true) :
    ∃ s log, serverMachine.exec (.init .init) run = some (s, log) ∧ ¬ DispatchesOnce log := by
  obtain ⟨⟨s, log⟩, hrun, htwo⟩ := Option.map_eq_some_iff.mp htwo
  refine ⟨s, log, hrun, fun honce => ?_⟩
  have hone := honce request hack
  rw [of_decide_eq_true htwo] at hone
  exact Nat.not_succ_le_self 1 hone

/-- In each of these runs the handler gets both copies, and both were received in time. -/
theorem both_copies_dispatched :
    (∃ s log, serverMachine.exec (.init .init) acceptedRun = some (s, log) ∧
      ¬ DispatchesOnce log) ∧
    (∃ s log, serverMachine.exec (.init .init) acknowledgedRun = some (s, log) ∧
      ¬ DispatchesOnce log) ∧
    ∃ s log, serverMachine.exec (.init .init) overtakenRun = some (s, log) ∧
      ¬ DispatchesOnce log := by
  have hinvite : (⟨bytes "z9hG4bK0", bytes "INVITE"⟩ : RequestId).method ≠ bytes "ACK" := by decide
  have hregister : (⟨bytes "z9hG4bK0", bytes "REGISTER"⟩ : RequestId).method ≠ bytes "ACK" := by
    decide
  refine ⟨?_, ?_, ?_⟩
  · exact not_dispatchesOnce_of_two hinvite (by decide +kernel)
  · exact not_dispatchesOnce_of_two hinvite (by decide +kernel)
  · exact not_dispatchesOnce_of_two hregister (by decide +kernel)

/-- Here both copies come before the request is over, and only the first one is dispatched. -/
theorem dispatched_once_until_over_retransmitted : ∃ s log,
    serverMachine.exec (.init .init) retransmittedRun = some (s, log) ∧
      (timelyDispatches log ⟨bytes "z9hG4bK0", bytes "REGISTER"⟩).length ≤ 1 ∧
      timelyDispatches log ⟨bytes "z9hG4bK0", bytes "REGISTER"⟩ ≠ [] := by
  have hsummary : (serverMachine.exec (.init .init) retransmittedRun).map (fun result =>
      decide (timelyDispatches result.2 ⟨bytes "z9hG4bK0", bytes "REGISTER"⟩ ≠ [])) =
      some true := by decide +kernel
  obtain ⟨⟨s, log⟩, hrun, hone⟩ := Option.map_eq_some_iff.mp hsummary
  exact ⟨s, log, hrun, dispatched_once_until_over hrun _, of_decide_eq_true hone⟩

end SimIms.Sip
