import SimIms.Lib.Machine
import SimIms.Sip.Transaction

/-!
# Retransmissions of one client transaction

The handler of Timer A sends a copy of the request between two locked stretches: the first one
decides that there is something to send, the second one arms the timer again. Both of them look for
a final response only. A provisional response cancels the timer, but a handler that is queued or
between its two stretches goes on, and then arms the timer as if nothing had been received.
-/

namespace SimIms.Sip

open Cxx Lib

/-- How far `start` has come. -/
inductive StartPhase where
  | created
  | sending
  | started
deriving DecidableEq, Repr

/-- What a handler of Timer A does next; it has read the count in its first stretch. -/
inductive RetransmitHandler where
  | sending (retransmitCount : Nat)
  | arming (retransmitCount : Nat)
deriving DecidableEq, Repr

/-- A client transaction, its clock, and the handlers of Timer A that are past their first
stretch. -/
structure SingleClient (ρ τ : Type) where
  txn : ClientTransaction ρ τ
  now : Nat
  phase : StartPhase
  handlers : List RetransmitHandler

inductive SingleClientAction where
  | elapse (duration : Nat)
  | startSends
  | startSent
  | startFailed
  | processResponse (code : Int)
  | expireTimer (name : ClientTransaction.TimerName)
  | runTimerA
  | retransmitSends (i : Nat)
  | retransmitArms (i : Nat)
  | runTimerB
  | shutdown

/-- A copy of the request goes to the transport, or Timer A is armed. -/
inductive ClientNotice where
  | sent
  | armed
deriving DecidableEq, Repr

namespace SingleClient

variable {ρ τ : Type}

def init (request : SipMessage) (dest : Endpoint) (onResponse : ρ) (onTimeout : τ) (now : Nat) :
    SingleClient ρ τ :=
  ⟨.create request dest onResponse onTimeout, now, .created, []⟩

/-- The second locked stretch of `start`. -/
def startSent (s : SingleClient ρ τ) : SingleClient ρ τ × List ClientNotice :=
  ({ s with txn := s.txn.startSent s.now, phase := .started },
    if ClientTransaction.usesUdp s.txn.dest = true ∧ s.txn.state = .trying then [.armed] else [])

/-- A handler of Timer A is taken from the queue, and runs its first stretch. -/
def runTimerA (s : SingleClient ρ τ) (timer : Timer) : SingleClient ρ τ :=
  let txn := s.txn.setTimer timer .a
  match txn.retransmitCounted with
  | none => { s with txn }
  | some counted =>
      { s with txn := counted, handlers := s.handlers ++ [.sending counted.retransmitCount] }

def retransmitSends (s : SingleClient ρ τ) (i : Nat) :
    Option (SingleClient ρ τ × List ClientNotice) :=
  match s.handlers[i]? with
  | some (.sending count) => some ({ s with handlers := s.handlers.set i (.arming count) }, [.sent])
  | some (.arming _) | none => none

/-- The second stretch of the handler. -/
def retransmitArms (s : SingleClient ρ τ) (i : Nat) :
    Option (SingleClient ρ τ × List ClientNotice) :=
  match s.handlers[i]? with
  | some (.arming count) =>
      some ({ s with
        txn := s.txn.retransmitArmed s.now count, handlers := s.handlers.eraseIdx i },
        if s.txn.Live then [.armed] else [])
  | some (.sending _) | none => none

def step (s : SingleClient ρ τ) :
    SingleClientAction → Option (SingleClient ρ τ × List ClientNotice)
  | .elapse duration => some ({ s with now := s.now + duration }, [])
  | .startSends => if s.phase = .created then some ({ s with phase := .sending }, [.sent]) else none
  | .startSent => if s.phase = .sending then some s.startSent else none
  | .startFailed =>
      if s.phase = .sending then
        some ({ s with txn := s.txn.startFailed, phase := .started }, [])
      else none
  | .processResponse code => some ({ s with txn := s.txn.processResponse code }, [])
  | .expireTimer name =>
      ((s.txn.timer name).expire s.now).map fun timer =>
        ({ s with txn := s.txn.setTimer timer name }, [])
  | .runTimerA => s.txn.timerA.dequeue.map fun timer => (s.runTimerA timer, [])
  | .retransmitSends i => s.retransmitSends i
  | .retransmitArms i => s.retransmitArms i
  | .runTimerB =>
      s.txn.timerB.dequeue.map fun timer =>
        ({ s with txn := (s.txn.setTimer timer .b).timeout.1 }, [])
  | .shutdown => some ({ s with txn := s.txn.shutdown }, [])

end SingleClient

def singleClientMachine (ρ τ : Type) :
    Machine (SingleClient ρ τ) SingleClientAction ClientNotice := ⟨SingleClient.step⟩

/-! ## Without a handler, nothing more is sent -/

namespace SingleClient

variable {ρ τ : Type} {s t : SingleClient ρ τ} {a : SingleClientAction} {out : List ClientNotice}

/-- No handler of Timer A is queued or at work. -/
def Quiet (s : SingleClient ρ τ) : Prop := s.txn.timerA.queued = 0 ∧ s.handlers = []

/-- A response has been processed, and Timer A is idle since. -/
structure Stopped (s : SingleClient ρ τ) : Prop where
  state : s.txn.state ≠ .trying
  timerA : s.txn.timerA = .idle
  handlers : s.handlers = []

theorem cancel_eq_idle {timer : Timer} (h : timer.queued = 0) : timer.cancel = .idle := by
  cases timer with
  | mk deadline queued =>
      cases h
      rfl

theorem Quiet.stopped {code : Int} (h : s.Quiet) (hlow : 100 ≤ code) (hhigh : code < 200) :
    Stopped { s with txn := s.txn.processResponse code } := by
  refine ⟨?_, ?_, h.2⟩
  · rw [ClientTransaction.state_processResponse_provisional hlow hhigh]
    decide
  · have hprovisional : s.txn.processResponse code =
        { s.txn with state := .proceeding, timerA := s.txn.timerA.cancel } := if_pos ⟨hlow, hhigh⟩
    rw [hprovisional]
    exact cancel_eq_idle h.1

/-- Only `start` still sends anything, and nothing arms Timer A. -/
theorem Stopped.step_cases (h : s.Stopped) (hstep : s.step a = some (t, out)) :
    t.Stopped ∧
      (s.phase = .created ∧ t.phase = .sending ∧ out = [.sent] ∨
        (t.phase = .created → s.phase = .created) ∧ out = []) := by
  cases a with
  | elapse duration =>
      cases hstep
      exact ⟨⟨h.state, h.timerA, h.handlers⟩, .inr ⟨id, rfl⟩⟩
  | startSends =>
      obtain ⟨hphase, heq⟩ := Option.ite_none_right_eq_some.mp hstep
      cases heq
      exact ⟨⟨h.state, h.timerA, h.handlers⟩, .inl ⟨hphase, rfl, rfl⟩⟩
  | startSent =>
      obtain ⟨-, heq⟩ := Option.ite_none_right_eq_some.mp hstep
      rw [startSent, if_neg fun hboth => h.state hboth.2] at heq
      cases heq
      refine ⟨⟨?_, ?_, h.handlers⟩, .inr ⟨(fun hphase => by cases hphase), rfl⟩⟩
      · rw [ClientTransaction.state_startSent]
        exact h.state
      · simp only [ClientTransaction.startSent, h.state, if_false, and_false]
        split_ifs
        · exact h.timerA
        · exact h.timerA
  | startFailed =>
      obtain ⟨-, heq⟩ := Option.ite_none_right_eq_some.mp hstep
      cases heq
      refine ⟨⟨(fun hstate => by cases hstate), ?_, h.handlers⟩,
        .inr ⟨(fun hphase => by cases hphase), rfl⟩⟩
      exact cancel_eq_idle (by rw [h.timerA]; rfl)
  | processResponse code =>
      cases hstep
      have hidle : s.txn.timerA.cancel = .idle := cancel_eq_idle (by rw [h.timerA]; rfl)
      refine ⟨⟨?_, ?_, h.handlers⟩, .inr ⟨id, rfl⟩⟩
      · simp only [ClientTransaction.processResponse]
        split_ifs
        · simp
        · simp
        · simp
        · exact h.state
      · simp only [ClientTransaction.processResponse]
        split_ifs
        · exact hidle
        · exact hidle
        · exact hidle
        · exact h.timerA
  | expireTimer name =>
      obtain ⟨timer, hexpire, heq⟩ := Option.map_eq_some_iff.mp hstep
      cases heq
      cases name with
      | a =>
          rw [ClientTransaction.timer, h.timerA] at hexpire
          cases hexpire
      | b => exact ⟨⟨h.state, h.timerA, h.handlers⟩, .inr ⟨id, rfl⟩⟩
  | runTimerA =>
      obtain ⟨timer, hdequeue, -⟩ := Option.map_eq_some_iff.mp hstep
      rw [h.timerA] at hdequeue
      cases hdequeue
  | retransmitSends i =>
      have hsends : s.retransmitSends i = some (t, out) := hstep
      rw [retransmitSends, h.handlers] at hsends
      cases hsends
  | retransmitArms i =>
      have harms : s.retransmitArms i = some (t, out) := hstep
      rw [retransmitArms, h.handlers] at harms
      cases harms
  | runTimerB =>
      obtain ⟨timer, -, heq⟩ := Option.map_eq_some_iff.mp hstep
      cases heq
      refine ⟨⟨?_, ?_, h.handlers⟩, .inr ⟨id, rfl⟩⟩
      · simp only [ClientTransaction.timeout]
        split_ifs
        · simp
        · exact h.state
      · simp only [ClientTransaction.timeout]
        split_ifs
        · exact cancel_eq_idle (by rw [ClientTransaction.setTimer, h.timerA]; rfl)
        · exact h.timerA
  | shutdown =>
      cases hstep
      refine ⟨⟨(fun hstate => by cases hstate), ?_, h.handlers⟩, .inr ⟨id, rfl⟩⟩
      exact cancel_eq_idle (by rw [h.timerA]; rfl)

/-- What is sent from a stopped transaction on: at most the first copy. -/
def Spared (s : SingleClient ρ τ) (later : List ClientNotice) : Prop :=
  .armed ∉ later ∧ later.count .sent ≤ 1 ∧ (s.phase = .created → later.count .sent = 0)

theorem Spared.step {later : List ClientNotice} (h : s.Spared later) (hstopped : s.Stopped)
    (hstep : s.step a = some (t, out)) : t.Spared (later ++ out) := by
  obtain ⟨hcreated, hsending, rfl⟩ | ⟨hphase, rfl⟩ := (hstopped.step_cases hstep).2
  · refine ⟨?_, ?_, fun hphase => ?_⟩
    · rw [List.mem_append, List.mem_singleton]
      exact fun hmem => hmem.elim h.1 (fun heq => by cases heq)
    · rw [List.count_append, h.2.2 hcreated]
      decide
    · rw [hsending] at hphase
      cases hphase
  · rw [List.append_nil]
    exact ⟨h.1, h.2.1, fun hcreated => h.2.2 (hphase hcreated)⟩

theorem Stopped.spared {actions : List SingleClientAction} {later : List ClientNotice}
    (h : s.Stopped) (hrun : (singleClientMachine ρ τ).exec s actions = some (t, later)) :
    t.Spared later := by
  have hboth : t.Stopped ∧ t.Spared later :=
    Machine.exec_invariant_log
      (I := fun s : SingleClient ρ τ => fun later => s.Stopped ∧ s.Spared later)
      (fun _ _ _ _ _ h hstep => ⟨(h.1.step_cases hstep).1, h.2.step h.1 hstep⟩)
      ⟨h, List.not_mem_nil, Nat.zero_le 1, fun _ => rfl⟩ hrun
  exact hboth.2

/-! ## A handler arms the timer again -/

/-- A run that arms Timer A. -/
def Rearms (s : SingleClient ρ τ) : Prop :=
  ∃ actions t later, (singleClientMachine ρ τ).exec s actions = some (t, later) ∧ .armed ∈ later

theorem Rearms.of_step (h : t.Rearms) (hstep : s.step a = some (t, out)) : s.Rearms := by
  obtain ⟨actions, u, later, hrun, harmed⟩ := h
  exact ⟨a :: actions, u, out ++ later,
    Machine.exec_cons_iff.mpr ⟨t, out, later, hstep, hrun, rfl⟩, List.mem_append_right _ harmed⟩

theorem step_retransmitArms {i count : Nat} (hlive : s.txn.Live)
    (hhandler : s.handlers[i]? = some (.arming count)) :
    s.step (.retransmitArms i) = some ({ s with
      txn := s.txn.retransmitArmed s.now count, handlers := s.handlers.eraseIdx i }, [.armed]) := by
  simp only [step, retransmitArms, hhandler, if_pos hlive]

theorem rearms_of_arming {i count : Nat} (hlive : s.txn.Live)
    (hhandler : s.handlers[i]? = some (.arming count)) : s.Rearms :=
  ⟨[.retransmitArms i], _, [.armed],
    Machine.exec_cons_iff.mpr ⟨_, _, [], step_retransmitArms hlive hhandler, rfl, rfl⟩,
    List.mem_singleton_self _⟩

theorem rearms_of_sending {i count : Nat} (hlive : s.txn.Live)
    (hhandler : s.handlers[i]? = some (.sending count)) : s.Rearms := by
  have hsends : s.step (.retransmitSends i) =
      some ({ s with handlers := s.handlers.set i (.arming count) }, [.sent]) := by
    simp only [step, retransmitSends, hhandler]
  have hi : i < s.handlers.length := (List.getElem?_eq_some_iff.mp hhandler).1
  have harming : (s.handlers.set i (.arming count))[i]? = some (.arming count) :=
    List.getElem?_set_self hi
  exact (rearms_of_arming (by exact hlive) harming).of_step hsends

theorem runTimerA_of_live (hlive : s.txn.Live) (timer : Timer) :
    s.runTimerA timer =
      { s with
        txn := { s.txn with timerA := timer, retransmitCount := s.txn.retransmitCount + 1 }
        handlers := s.handlers ++ [.sending (s.txn.retransmitCount + 1)] } := by
  have hcounted : (s.txn.setTimer timer .a).retransmitCounted =
      some { s.txn with timerA := timer, retransmitCount := s.txn.retransmitCount + 1 } :=
    if_pos hlive
  rw [runTimerA]
  simp only [hcounted]

theorem runTimerA_of_not_live (hlive : ¬ s.txn.Live) (timer : Timer) :
    s.runTimerA timer = { s with txn := s.txn.setTimer timer .a } := by
  have hcounted : (s.txn.setTimer timer .a).retransmitCounted = none := if_neg hlive
  rw [runTimerA]
  simp only [hcounted]

theorem rearms_of_queued {n : Nat} (hlive : s.txn.Live) (hqueued : s.txn.timerA.queued = n + 1) :
    s.Rearms := by
  have hdequeue : s.txn.timerA.dequeue = some { s.txn.timerA with queued := n } := by
    rw [Timer.dequeue, hqueued]
  have hstep : s.step .runTimerA = some (s.runTimerA { s.txn.timerA with queued := n }, []) := by
    rw [step, hdequeue]
    rfl
  rw [runTimerA_of_live hlive] at hstep
  have hhandler : (s.handlers ++ [.sending (s.txn.retransmitCount + 1)])[s.handlers.length]? =
      some (.sending (s.txn.retransmitCount + 1)) := List.getElem?_concat_length
  exact (rearms_of_sending (by exact hlive) hhandler).of_step hstep

theorem rearms_of_not_quiet (hlive : s.txn.Live) (h : ¬ s.Quiet) : s.Rearms := by
  cases hqueued : s.txn.timerA.queued with
  | succ n => exact rearms_of_queued hlive hqueued
  | zero =>
      cases hhandlers : s.handlers with
      | nil => exact (h ⟨hqueued, hhandlers⟩).elim
      | cons handler rest =>
          have hfirst : s.handlers[0]? = some handler := by
            rw [hhandlers]
            rfl
          cases handler with
          | sending count => exact rearms_of_sending hlive hfirst
          | arming count => exact rearms_of_arming hlive hfirst

end SingleClient

/-- After a provisional response Timer A is never armed again, and at most one copy of the request
is sent, exactly if none of the timer's handlers is queued or at work when it is processed. -/
theorem retransmission_stops_iff {ρ τ : Type} (s : SingleClient ρ τ) (code : Int)
    (hlow : 100 ≤ code) (hhigh : code < 200) :
    (∀ actions t later, (singleClientMachine ρ τ).exec s (.processResponse code :: actions) =
      some (t, later) → .armed ∉ later ∧ later.count .sent ≤ 1) ↔ s.Quiet := by
  have hstep : s.step (.processResponse code) =
      some ({ s with txn := s.txn.processResponse code }, []) := rfl
  constructor
  · intro hstops
    by_contra hbusy
    have hlive : (s.txn.processResponse code).Live := by
      rw [ClientTransaction.Live, ClientTransaction.state_processResponse_provisional hlow hhigh]
      decide
    have hqueued : (s.txn.processResponse code).timerA.queued = s.txn.timerA.queued := by
      rw [ClientTransaction.processResponse, if_pos ⟨hlow, hhigh⟩]
      rfl
    have hrearms : SingleClient.Rearms { s with txn := s.txn.processResponse code } :=
      SingleClient.rearms_of_not_quiet hlive fun hquiet => hbusy ⟨hqueued ▸ hquiet.1, hquiet.2⟩
    obtain ⟨actions, t, later, hrun, harmed⟩ := hrearms
    exact (hstops actions t later
      (Machine.exec_cons_iff.mpr ⟨_, [], later, hstep, hrun, rfl⟩)).1 harmed
  · intro hquiet actions t later hrun
    obtain ⟨u, first, rest, hfirst, hrest, rfl⟩ := Machine.exec_cons_iff.mp hrun
    cases hstep.symm.trans hfirst
    have hspared := (hquiet.stopped hlow hhigh).spared hrest
    exact ⟨hspared.1, hspared.2.1⟩

/-! ## One `INVITE` -/

def startedInvite : SingleClient Unit Unit :=
  .init (dialogRequest "INVITE" (bytes "a") []) ⟨bytes "10.0.0.3", 5060, bytes "udp"⟩ () () 0

/-- It rings before Timer A has expired. -/
theorem retransmission_stops_iff_ringing :
    ∃ s log, (singleClientMachine Unit Unit).exec startedInvite
        [.startSends, .startSent, .elapse 200] = some (s, log) ∧
      s.txn.timerA.deadline = some 500 ∧
      ∀ actions t later, (singleClientMachine Unit Unit).exec s (.processResponse 180 :: actions) =
        some (t, later) → .armed ∉ later ∧ later.count .sent ≤ 1 :=
  ⟨_, _, rfl, rfl, (retransmission_stops_iff _ 180 (by decide) (by decide)).mpr ⟨rfl, rfl⟩⟩

/-- Timer A has expired when it rings: its handler arms the timer again, and two more copies are
sent. -/
theorem queued_handler_rearms :
    ∃ s log t later, (singleClientMachine Unit Unit).exec startedInvite
        [.startSends, .startSent, .elapse 500, .expireTimer .a] = some (s, log) ∧
      (singleClientMachine Unit Unit).exec s [.processResponse 180, .runTimerA,
        .retransmitSends 0, .retransmitArms 0, .elapse 1000, .expireTimer .a, .runTimerA,
        .retransmitSends 0] = some (t, later) ∧
      later = [.sent, .armed, .sent] ∧ ¬ (.armed ∉ later ∧ later.count .sent ≤ 1) :=
  ⟨_, _, _, _, rfl, rfl, rfl, by decide⟩

end SimIms.Sip
