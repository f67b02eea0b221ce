import SimIms.Lib.Machine
import SimIms.Sip.Transaction

/-!
# The life of one server transaction

A transaction goes from Trying over Proceeding and Completed to Terminated. It takes its state from
the status code of each response, whatever has been sent before, so it is left to those who send
responses that it does not go back: after a final response there must not be another one.
-/

namespace SimIms.Sip

open Cxx Lib

def TransactionState.rank : TransactionState → Nat
  | .trying => 0
  | .proceeding => 1
  | .completed => 2
  | .confirmed => 3
  | .terminated => 4

/-- A transaction and the clock by which its timers run. -/
structure SingleServer (τ : Type) where
  txn : ServerTransaction τ
  now : Nat

inductive SingleServerAction where
  | elapse (duration : Nat)
  | sendResponse (response : SipMessage)
  | acknowledgeAck
  | expireTimer (name : ServerTransaction.TimerName)
  | runTimer (name : ServerTransaction.TimerName)
  | shutdown

/-- What the transport gets, and when the termination callback is called. -/
inductive ServerNotice (τ : Type) where
  | sent (code : Int)
  | terminated (callback : τ)
deriving DecidableEq, Repr

def ServerNotice.code? {τ : Type} : ServerNotice τ → Option Int
  | .sent code => some code
  | .terminated _ => none

def ServerNotice.isTerminated {τ : Type} : ServerNotice τ → Bool
  | .sent _ => false
  | .terminated _ => true

namespace SingleServer

variable {τ : Type}

def init (request : SipMessage) (source : Endpoint) (onTerminated : τ) (now : Nat) :
    SingleServer τ := ⟨.create request source onTerminated, now⟩

/-- The transport accepts the response. -/
def sendResponse (s : SingleServer τ) (response : SipMessage) :
    SingleServer τ × List (ServerNotice τ) :=
  let result := s.txn.record response
  let txn := if result.2.1 then result.1.startTimers s.now response.statusCode else result.1
  ({ s with txn }, .sent response.statusCode :: result.2.2.toList.map .terminated)

def step (s : SingleServer τ) :
    SingleServerAction → Option (SingleServer τ × List (ServerNotice τ))
  | .elapse duration => some ({ s with now := s.now + duration }, [])
  | .sendResponse response => some (s.sendResponse response)
  | .acknowledgeAck =>
      let result := s.txn.acknowledge
      some ({ s with txn := result.1 }, result.2.toList.map .terminated)
  | .expireTimer name =>
      ((s.txn.timer name).expire s.now).map fun timer =>
        ({ s with txn := s.txn.setTimer timer name }, [])
  | .runTimer name =>
      (s.txn.timer name).dequeue.map fun timer =>
        let result := (s.txn.setTimer timer name).timeout
        ({ s with txn := result.1 }, result.2.toList.map .terminated)
  | .shutdown => some ({ s with txn := s.txn.shutdown }, [])

end SingleServer

def singleServerMachine (τ : Type) :
    Machine (SingleServer τ) SingleServerAction (ServerNotice τ) := ⟨SingleServer.step⟩

/-! ## States -/

namespace ServerTransaction

variable {τ : Type} {txn : ServerTransaction τ} {response : SipMessage}

theorem state_markTerminatedLocked :
    txn.markTerminatedLocked.1.state = txn.state := by
  rw [markTerminatedLocked]
  split
  · rfl
  · rfl

theorem lastResponse_markTerminatedLocked :
    txn.markTerminatedLocked.1.lastResponse = txn.lastResponse := by
  rw [markTerminatedLocked]
  split
  · rfl
  · rfl

/-- The state that a response leads to. -/
def stateAfter (txn : ServerTransaction τ) (code : Int) : TransactionState :=
  if 100 ≤ code ∧ code < 200 then .proceeding
  else if 200 ≤ code then
    if txn.request.method = bytes "INVITE" ∧ code < 300 then .terminated else .completed
  else txn.state

theorem state_record : (txn.record response).1.state = txn.stateAfter response.statusCode := by
  simp only [record, stateAfter]
  split
  · rfl
  · split
    · split
      · rw [state_markTerminatedLocked]
      · rfl
    · rfl

theorem lastResponse_record : (txn.record response).1.lastResponse = some response := by
  simp only [record]
  split
  · rfl
  · split
    · split
      · rw [lastResponse_markTerminatedLocked]
      · rfl
    · rfl

theorem state_startTimers (now : Nat) (code : Int) :
    (txn.startTimers now code).state = txn.state := by
  rw [startTimers]
  split
  · rfl
  · rfl

theorem lastResponse_startTimers (now : Nat) (code : Int) :
    (txn.startTimers now code).lastResponse = txn.lastResponse := by
  rw [startTimers]
  split
  · rfl
  · rfl

theorem state_setTimer (timer : Timer) (name : TimerName) :
    (txn.setTimer timer name).state = txn.state := by
  cases name
  · rfl
  · rfl

theorem lastResponse_setTimer (timer : Timer) (name : TimerName) :
    (txn.setTimer timer name).lastResponse = txn.lastResponse := by
  cases name
  · rfl
  · rfl

theorem state_timeout : txn.timeout.1.state = .terminated := by
  rw [timeout, state_markTerminatedLocked]

theorem lastResponse_timeout : txn.timeout.1.lastResponse = txn.lastResponse := by
  rw [timeout, lastResponse_markTerminatedLocked]

theorem state_acknowledge :
    txn.acknowledge.1.state = txn.state ∨ txn.acknowledge.1.state = .terminated := by
  rw [acknowledge]
  split
  · right
    rw [state_markTerminatedLocked]
  · exact .inl rfl

theorem lastResponse_acknowledge : txn.acknowledge.1.lastResponse = txn.lastResponse := by
  rw [acknowledge]
  split
  · rw [lastResponse_markTerminatedLocked]
  · rfl

end ServerTransaction

namespace SingleServer

variable {τ : Type} {s t : SingleServer τ} {a : SingleServerAction} {out : List (ServerNotice τ)}

theorem codes_called (callback : Option τ) :
    (callback.toList.map ServerNotice.terminated).filterMap ServerNotice.code? = [] := by
  cases callback with
  | none => rfl
  | some callback => rfl

/-- A response is sent and decides about the state, or the state stays or is the last one. -/
theorem step_cases (hstep : s.step a = some (t, out)) :
    (∃ response, a = .sendResponse response ∧
      t.txn.state = s.txn.stateAfter response.statusCode ∧
      t.txn.lastResponse = some response ∧
      out.filterMap ServerNotice.code? = [response.statusCode]) ∨
    ((∀ response, a ≠ .sendResponse response) ∧
      (t.txn.state = s.txn.state ∨ t.txn.state = .terminated) ∧
      t.txn.lastResponse = s.txn.lastResponse ∧ out.filterMap ServerNotice.code? = []) := by
  cases a with
  | sendResponse response =>
      cases hstep
      refine .inl ⟨response, rfl, ?_, ?_, ?_⟩
      · simp only
        split
        · rw [ServerTransaction.state_startTimers, ServerTransaction.state_record]
        · exact ServerTransaction.state_record
      · simp only
        split
        · rw [ServerTransaction.lastResponse_startTimers, ServerTransaction.lastResponse_record]
        · exact ServerTransaction.lastResponse_record
      · exact congrArg (response.statusCode :: ·) (codes_called _)
  | elapse duration =>
      cases hstep
      exact .inr ⟨(fun _ heq => by cases heq), .inl rfl, rfl, rfl⟩
  | acknowledgeAck =>
      cases hstep
      exact .inr ⟨(fun _ heq => by cases heq), ServerTransaction.state_acknowledge,
        ServerTransaction.lastResponse_acknowledge, codes_called _⟩
  | expireTimer name =>
      obtain ⟨timer, -, heq⟩ := Option.map_eq_some_iff.mp hstep
      cases heq
      exact .inr ⟨(fun _ heq => by cases heq), .inl (ServerTransaction.state_setTimer _ _),
        ServerTransaction.lastResponse_setTimer _ _, rfl⟩
  | runTimer name =>
      obtain ⟨timer, -, heq⟩ := Option.map_eq_some_iff.mp hstep
      cases heq
      exact .inr ⟨(fun _ heq => by cases heq), .inr ServerTransaction.state_timeout,
        ServerTransaction.lastResponse_timeout.trans (ServerTransaction.lastResponse_setTimer _ _),
        codes_called _⟩
  | shutdown =>
      cases hstep
      exact .inr ⟨(fun _ heq => by cases heq), .inr rfl, rfl, rfl⟩

/-- A final response has been sent last. -/
def Answered (s : SingleServer τ) : Prop :=
  ∃ last, s.txn.lastResponse = some last ∧ 200 ≤ last.statusCode

/-- Nobody responds after a final response; after a shutdown there may only be a response that sets
no state, or the 2xx that ends an `INVITE`. -/
def Orderly (s : SingleServer τ) : SingleServerAction → Prop
  | .sendResponse response =>
      ¬ s.Answered ∧ (s.txn.state = .terminated →
        s.txn.stateAfter response.statusCode = .terminated)
  | .elapse _ | .acknowledgeAck | .expireTimer _ | .runTimer _ | .shutdown => True

/-- Where no final response has been sent, none has been recorded. -/
def Waits (s : SingleServer τ) : Prop :=
  s.Answered ∨ s.txn.state.rank ≤ 1 ∨ s.txn.state = .terminated

theorem Waits.step (h : s.Waits) (hstep : s.step a = some (t, out)) (horderly : s.Orderly a) :
    t.Waits := by
  obtain ⟨response, rfl, hstate, hlast, -⟩ | ⟨-, hstate, hlast, -⟩ := step_cases hstep
  · by_cases hfinal : 200 ≤ response.statusCode
    · exact .inl ⟨response, hlast, hfinal⟩
    · rw [ServerTransaction.stateAfter] at hstate
      split at hstate
      · right
        left
        rw [hstate]
        exact Nat.le_refl 1
      · rw [Waits, hstate]
        exact h.imp_left fun hanswered => (horderly.1 hanswered).elim
  · obtain hstate | hstate := hstate
    · rw [Waits, Answered, hstate, hlast]
      exact h
    · exact .inr (.inr hstate)

/-- An orderly step goes forward. -/
theorem Waits.rank_le (h : s.Waits) (hstep : s.step a = some (t, out)) (horderly : s.Orderly a) :
    s.txn.state.rank ≤ t.txn.state.rank := by
  have hlast : ∀ state : TransactionState, state.rank ≤ TransactionState.terminated.rank := by
    intro state
    cases state <;> decide
  obtain ⟨response, rfl, hstate, -, -⟩ | ⟨-, hstate, -, -⟩ := step_cases hstep
  · obtain hanswered | hrank | hterminated := h
    · exact (horderly.1 hanswered).elim
    · rw [hstate, ServerTransaction.stateAfter]
      split
      · exact hrank
      · split
        · split
          · exact hlast _
          · exact Nat.le_trans hrank (by decide)
        · exact Nat.le_refl _
    · rw [hstate, horderly.2 hterminated]
      exact hlast _
  · obtain hstate | hstate := hstate
    · exact Nat.le_of_eq (congrArg TransactionState.rank hstate.symm)
    · rw [hstate]
      exact hlast _

/-- All responses sent are provisional, but for the last one. -/
structure Tells (s : SingleServer τ) (codes : List Int) : Prop where
  pairwise : codes.Pairwise fun code _ => code < 200
  provisional : ¬ s.Answered → ∀ code ∈ codes, code < 200

theorem Tells.step {codes : List Int} (h : s.Tells codes) (hstep : s.step a = some (t, out))
    (horderly : s.Orderly a) : t.Tells (codes ++ out.filterMap ServerNotice.code?) := by
  obtain ⟨response, rfl, -, hlast, hcodes⟩ | ⟨-, -, hlast, hcodes⟩ := step_cases hstep
  · have hearlier := h.provisional horderly.1
    rw [hcodes]
    refine ⟨List.pairwise_append.mpr ⟨h.pairwise, List.pairwise_singleton _ _,
      fun code hmem _ _ => hearlier code hmem⟩, fun hwaits code hmem => ?_⟩
    obtain hmem | hmem := List.mem_append.mp hmem
    · exact hearlier code hmem
    · rw [List.mem_singleton.mp hmem]
      by_contra hfinal
      exact hwaits ⟨response, hlast, Int.not_lt.mp hfinal⟩
  · rw [hcodes, List.append_nil]
    refine ⟨h.pairwise, fun hwaits => h.provisional ?_⟩
    rwa [Answered, hlast] at hwaits

/-- What has been recorded last has been sent last. -/
def Recorded (s : SingleServer τ) (codes : List Int) : Prop :=
  ∀ last, s.txn.lastResponse = some last → ∃ earlier, codes = earlier ++ [last.statusCode]

theorem Recorded.step {codes : List Int} (h : s.Recorded codes)
    (hstep : s.step a = some (t, out)) :
    t.Recorded (codes ++ out.filterMap ServerNotice.code?) := by
  obtain ⟨response, -, -, hlast, hcodes⟩ | ⟨-, -, hlast, hcodes⟩ := step_cases hstep
  · intro last hsome
    rw [hlast] at hsome
    cases hsome
    exact ⟨codes, by rw [hcodes]⟩
  · rw [hcodes, List.append_nil]
    intro last hsome
    rw [hlast] at hsome
    exact h last hsome

/-! ## The termination callback -/

/-- How often the callback has been handed out, or will never be. -/
def spent (txn : ServerTransaction τ) : Nat := if txn.terminationNotified then 1 else 0

theorem spent_markTerminatedLocked (txn : ServerTransaction τ) :
    txn.markTerminatedLocked.2.toList.length + spent txn ≤ spent txn.markTerminatedLocked.1 := by
  rw [ServerTransaction.markTerminatedLocked]
  cases hnotified : txn.terminationNotified with
  | true => exact Nat.le_of_eq (Nat.zero_add _)
  | false =>
      rw [if_neg Bool.false_ne_true, spent, hnotified]
      cases txn.onTerminated with
      | none => exact Nat.zero_le _
      | some callback => exact Nat.le_refl _

theorem spent_record (txn : ServerTransaction τ) (response : SipMessage) :
    (txn.record response).2.2.toList.length + spent txn ≤ spent (txn.record response).1 := by
  simp only [ServerTransaction.record]
  split
  · exact Nat.le_of_eq (Nat.zero_add _)
  · split
    · split
      · exact spent_markTerminatedLocked _
      · exact Nat.le_of_eq (Nat.zero_add _)
    · exact Nat.le_of_eq (Nat.zero_add _)

theorem spent_acknowledge (txn : ServerTransaction τ) :
    txn.acknowledge.2.toList.length + spent txn ≤ spent txn.acknowledge.1 := by
  rw [ServerTransaction.acknowledge]
  split
  · exact spent_markTerminatedLocked _
  · exact Nat.le_of_eq (Nat.zero_add _)

theorem spent_setTimer (txn : ServerTransaction τ) (timer : Timer)
    (name : ServerTransaction.TimerName) : spent (txn.setTimer timer name) = spent txn := by
  cases name
  · rfl
  · rfl

theorem spent_startTimers (txn : ServerTransaction τ) (now : Nat) (code : Int) :
    spent (txn.startTimers now code) = spent txn := by
  rw [ServerTransaction.startTimers]
  split
  · rfl
  · rfl

theorem countP_called (callback : Option τ) :
    (callback.toList.map ServerNotice.terminated).countP ServerNotice.isTerminated =
      callback.toList.length := by
  cases callback with
  | none => rfl
  | some callback => rfl

theorem spent_step (hstep : s.step a = some (t, out)) :
    out.countP ServerNotice.isTerminated + spent s.txn ≤ spent t.txn := by
  cases a with
  | sendResponse response =>
      cases hstep
      have hcount : (ServerNotice.sent response.statusCode ::
          (s.txn.record response).2.2.toList.map ServerNotice.terminated).countP
            ServerNotice.isTerminated = (s.txn.record response).2.2.toList.length := by
        rw [List.countP_cons_of_neg (by exact Bool.false_ne_true), countP_called]
      have hrecord := spent_record s.txn response
      simp only [hcount]
      split
      · rw [spent_startTimers]
        exact hrecord
      · exact hrecord
  | elapse duration =>
      cases hstep
      exact Nat.le_of_eq (Nat.zero_add _)
  | acknowledgeAck =>
      cases hstep
      simp only [countP_called]
      exact spent_acknowledge s.txn
  | expireTimer name =>
      obtain ⟨timer, -, heq⟩ := Option.map_eq_some_iff.mp hstep
      cases heq
      simp only [spent_setTimer]
      exact Nat.le_of_eq (Nat.zero_add _)
  | runTimer name =>
      obtain ⟨timer, -, heq⟩ := Option.map_eq_some_iff.mp hstep
      cases heq
      simp only [countP_called]
      rw [← spent_setTimer s.txn timer name]
      exact spent_markTerminatedLocked _
  | shutdown =>
      cases hstep
      have hle : spent s.txn ≤ 1 := by
        rw [spent]
        split
        · exact Nat.le_refl 1
        · exact Nat.zero_le 1
      exact Nat.le_trans (Nat.le_of_eq (Nat.zero_add _)) hle

/-! ## Runs -/

/-- The callback is called at most once, whatever is sent. -/
theorem countP_terminated_le_one {actions : List SingleServerAction} {log : List (ServerNotice τ)}
    (hrun : (singleServerMachine τ).exec s actions = some (t, log)) :
    log.countP ServerNotice.isTerminated ≤ 1 := by
  have hspent : log.countP ServerNotice.isTerminated + spent s.txn ≤ spent t.txn := by
    induction actions generalizing s log with
    | nil =>
        cases hrun
        exact Nat.le_of_eq (Nat.zero_add _)
    | cons a actions ih =>
        obtain ⟨u, first, rest, hstep, hrest, rfl⟩ := Machine.exec_cons_iff.mp hrun
        have hfirst := spent_step hstep
        have hlater := ih hrest
        rw [List.countP_append]
        omega
  have hle : spent t.txn ≤ 1 := by
    rw [spent]
    split
    · exact Nat.le_refl 1
    · exact Nat.zero_le 1
  omega

theorem recorded_of_exec {request : SipMessage} {source : Endpoint} {onTerminated : τ} {now : Nat}
    {actions : List SingleServerAction} {log : List (ServerNotice τ)}
    (hrun : (singleServerMachine τ).exec (init request source onTerminated now) actions =
      some (s, log)) : s.Recorded (log.filterMap ServerNotice.code?) := by
  refine Machine.exec_invariant_log
    (I := fun s : SingleServer τ => fun log => s.Recorded (log.filterMap ServerNotice.code?))
    ?_ (fun _ hlast => by cases hlast) hrun
  intro s a t out log h hstep
  rw [List.filterMap_append]
  exact h.step hstep

end SingleServer

/-- What a run tells after a step that it takes. -/
theorem exists_of_exec_step {σ α ε : Type} {m : Machine σ α ε} {s t u v : σ} {a : α}
    {before after : List α} {first out log : List ε}
    (hrun : m.exec s (before ++ a :: after) = some (v, log))
    (hbefore : m.exec s before = some (t, first)) (hstep : m.step t a = some (u, out)) :
    ∃ more, log = first ++ (out ++ more) := by
  obtain ⟨t', first', rest, hbefore', hafter, rfl⟩ := Machine.exists_of_exec_append hrun
  cases hbefore.symm.trans hbefore'
  obtain ⟨u', out', more, hstep', -, rfl⟩ := Machine.exec_cons_iff.mp hafter
  cases hstep.symm.trans hstep'
  exact ⟨more, rfl⟩

theorem TransactionState.eq_terminated_of_rank_le {state : TransactionState}
    (h : TransactionState.terminated.rank ≤ state.rank) : state = .terminated := by
  cases state with
  | terminated => rfl
  | trying | proceeding | completed | confirmed => exact absurd h (by decide)

/-- In every run of a transaction whose responses the transport accepts, the state goes forward, no
response follows a final one and the termination callback is called at most once, exactly if each
response is sent in its turn. -/
theorem serverTransaction_advances_iff {τ : Type} (request : SipMessage) (source : Endpoint)
    (onTerminated : τ) (now : Nat) (actions : List SingleServerAction) (s : SingleServer τ)
    (log : List (ServerNotice τ))
    (hrun : (singleServerMachine τ).exec (.init request source onTerminated now) actions =
      some (s, log)) :
    ((singleServerMachine τ).Along (fun s _ t _ => s.txn.state.rank ≤ t.txn.state.rank)
        (.init request source onTerminated now) actions ∧
      (log.filterMap ServerNotice.code?).Pairwise (fun code _ => code < 200) ∧
      log.countP ServerNotice.isTerminated ≤ 1) ↔
    (singleServerMachine τ).Along (fun s a _ _ => s.Orderly a)
      (.init request source onTerminated now) actions := by
  have hwaits : (SingleServer.init request source onTerminated now).Waits :=
    .inr (.inl (Nat.zero_le 1))
  constructor
  · rintro ⟨hforward, hpairwise, -⟩
    rw [Machine.along_iff] at hforward ⊢
    intro before a after t u first out heq hbefore hstep
    cases a with
    | elapse | acknowledgeAck | expireTimer | runTimer | shutdown => trivial
    | sendResponse response =>
        have hsends : t.step (.sendResponse response) = some (u, out) := hstep
        obtain ⟨response', heq', hstate, -, hcodes⟩ | ⟨hnot, -⟩ := SingleServer.step_cases hsends
        · cases heq'
          have hrank := hforward before _ after t u first out heq hbefore hstep
          refine ⟨?_, fun hterminated => ?_⟩
          · rintro ⟨last, hlast, hfinal⟩
            obtain ⟨earlier, hsent⟩ := SingleServer.recorded_of_exec hbefore last hlast
            obtain ⟨more, rfl⟩ := exists_of_exec_step (heq ▸ hrun) hbefore hstep
            rw [List.filterMap_append, List.filterMap_append, hsent, hcodes,
              List.append_assoc] at hpairwise
            have hbound := (List.pairwise_append.mp hpairwise).2.1
            exact Int.not_lt.mpr hfinal (List.rel_of_pairwise_cons hbound List.mem_cons_self)
          · rw [hstate, hterminated] at hrank
            exact TransactionState.eq_terminated_of_rank_le hrank
        · exact (hnot response rfl).elim
  · intro horderly
    refine ⟨?_, ?_, SingleServer.countP_terminated_le_one hrun⟩
    · refine (Machine.Along.with_invariant (I := SingleServer.Waits)
        (fun _ _ _ _ h hstep horderly => h.step hstep horderly) hwaits horderly).mono ?_
      exact fun _ _ _ _ hstep h => h.1.rank_le hstep h.2
    · have htells : s.Tells (([] ++ log).filterMap ServerNotice.code?) :=
        Machine.exec_preserves_log
          (I := fun s : SingleServer τ => fun log => s.Tells (log.filterMap ServerNotice.code?))
          (fun _ _ _ _ log h hstep horderly => by
            rw [List.filterMap_append]
            exact h.step hstep horderly)
          ⟨.nil, fun _ _ hmem => by cases hmem⟩ horderly hrun
      exact htells.pairwise

/-! ## One `INVITE` -/

def receivedInvite : SipMessage := dialogRequest "INVITE" (bytes "a") []

def inviteServer : SingleServer Unit := .init receivedInvite ⟨bytes "10.0.0.2", 5060, []⟩ () 0

def refusedResponse (code : Int) : SipMessage := createResponse receivedInvite code [] (bytes "b")

/-- It rings, is refused, and the refusal is acknowledged. -/
theorem serverTransaction_advances_iff_refused :
    let actions := [.sendResponse (refusedResponse 180), .sendResponse (refusedResponse 486),
      .acknowledgeAck]
    ∃ s log, (singleServerMachine Unit).exec inviteServer actions = some (s, log) ∧
      (singleServerMachine Unit).Along (fun s _ t _ => s.txn.state.rank ≤ t.txn.state.rank)
        inviteServer actions ∧
      (log.filterMap ServerNotice.code?).Pairwise (fun code _ => code < 200) ∧
      log.countP ServerNotice.isTerminated ≤ 1 := by
  intro actions
  refine ⟨_, _, rfl, (serverTransaction_advances_iff receivedInvite ⟨bytes "10.0.0.2", 5060, []⟩ ()
    0 actions _ _ rfl).mpr ⟨⟨?_, ?_⟩, ⟨?_, ?_⟩, trivial, trivial⟩⟩
  · rintro ⟨last, hlast, -⟩
    cases hlast
  · intro hstate
    cases hstate
  · rintro ⟨last, hlast, hfinal⟩
    cases hlast
    exact absurd hfinal (by decide)
  · intro hstate
    cases hstate

/-- A late 180 is sent after the 486, and takes the transaction back. -/
theorem late_provisional_goes_back :
    ∃ s t log out, (singleServerMachine Unit).exec inviteServer
        [.sendResponse (refusedResponse 486)] = some (s, log) ∧
      s.txn.state = .completed ∧ s.step (.sendResponse (refusedResponse 180)) = some (t, out) ∧
      t.txn.state = .proceeding ∧ out = [.sent 180] :=
  ⟨_, _, _, _, rfl, rfl, rfl, rfl, rfl⟩

end SimIms.Sip
