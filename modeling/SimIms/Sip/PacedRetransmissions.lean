import SimIms.Lib.Backoff
import SimIms.Sip.Retransmissions

/-!
# The pace of the retransmissions

If the handlers of a client transaction run as soon as their timers expire and without interruption,
Timer A counts the retransmissions and doubles its interval with them. Nothing but the intervals
bounds the count: the tenth one is over after Timer B has expired, long before the shift that
doubles them runs out of bits.
-/

namespace SimIms.Sip

open Cxx Lib

/-! ## Handlers that run at once -/

inductive AtomicAction where
  | elapse (duration : Nat)
  | startSends
  | startSent
  | startFailed
  | processResponse (code : Int)
  | timerA (delivered : Bool)
  | timerB
  | shutdown

/-- What is seen of a transaction. A retransmission comes with what the transport has made of it,
the time, and the deadline that Timer A has afterwards. -/
inductive PaceEvent where
  | sent
  | armed
  | retransmitted (delivered : Bool) (time : Nat) (deadline : Option Nat)
  | answered (code : Int)
  | timedOut
deriving DecidableEq, Repr

namespace PaceEvent

/-- The time of a retransmission and the next deadline. -/
def copy : PaceEvent → Option (Nat × Option Nat)
  | .retransmitted _ time deadline => some (time, deadline)
  | _ => none

/-- Nothing is to be retransmitted after this. -/
def Ends : PaceEvent → Prop
  | .answered code => 100 ≤ code
  | .timedOut => True
  | _ => False

instance : DecidablePred Ends
  | .answered code => inferInstanceAs (Decidable (100 ≤ code))
  | .timedOut => .isTrue trivial
  | .sent | .armed | .retransmitted _ _ _ => .isFalse id

/-- What a transaction with interrupted handlers does instead. -/
def notices : PaceEvent → List ClientNotice
  | .sent => [.sent]
  | .armed => [.armed]
  | .retransmitted _ _ _ => [.sent, .armed]
  | .answered _ | .timedOut => []

end PaceEvent

namespace SingleClient

variable {ρ τ : Type}

/-- Timer B is due no later than Timer A. -/
def timerBFirst (s : SingleClient ρ τ) : Bool :=
  s.txn.timerA.deadline.any fun dueA => s.txn.timerB.deadline.any fun dueB => dueB ≤ dueA

/-- Timer A expires, and its handler runs. -/
def fireTimerA (s : SingleClient ρ τ) (delivered : Bool) :
    Option (SingleClient ρ τ × List PaceEvent) :=
  if s.timerBFirst then none
  else
    (s.txn.timerA.fire s.now).map fun timer =>
      let txn := (s.txn.setTimer timer .a).retransmit s.now
      ({ s with txn },
        if s.txn.Live then [.retransmitted delivered s.now txn.timerA.deadline] else [])

/-- Timer B expires, and its handler runs. -/
def fireTimerB (s : SingleClient ρ τ) : Option (SingleClient ρ τ × List PaceEvent) :=
  (s.txn.timerB.fire s.now).map fun timer =>
    ({ s with txn := (s.txn.setTimer timer .b).timeout.1 }, if s.txn.Live then [.timedOut] else [])

def atomicStep (s : SingleClient ρ τ) :
    AtomicAction → Option (SingleClient ρ τ × List PaceEvent)
  | .elapse duration => some ({ s with now := s.now + duration }, [])
  | .startSends => if s.phase = .created then some ({ s with phase := .sending }, [.sent]) else none
  | .startSent =>
      if s.phase = .sending then some (s.startSent.1, s.startSent.2.map fun _ => .armed) else none
  | .startFailed =>
      if s.phase = .sending then
        some ({ s with txn := s.txn.startFailed, phase := .started }, [])
      else none
  | .processResponse code =>
      some ({ s with txn := s.txn.processResponse code }, [.answered code])
  | .timerA delivered => s.fireTimerA delivered
  | .timerB => s.fireTimerB
  | .shutdown => some ({ s with txn := s.txn.shutdown }, [])

end SingleClient

def atomicClientMachine (ρ τ : Type) : Machine (SingleClient ρ τ) AtomicAction PaceEvent :=
  ⟨SingleClient.atomicStep⟩


/-! ## What the handlers of the timers do -/

namespace ClientTransaction

variable {ρ τ : Type} {txn : ClientTransaction ρ τ}

theorem startSent_of_trying (h : txn.state = .trying) (now : Nat) :
    txn.startSent now =
      { txn with
        retransmitCount := 0
        timerA := if usesUdp txn.dest = true then txn.timerA.arm (now + kTimerT1) else txn.timerA
        timerB := txn.timerB.arm (now + kTimerB) } := by
  by_cases hudp : usesUdp txn.dest = true
  · simp [startSent, Live, h, hudp]
  · simp [startSent, Live, h, hudp]

theorem startSent_of_not_trying (h : txn.state ≠ .trying) (now : Nat) :
    (txn.startSent now).timerA = txn.timerA ∧
      (txn.startSent now).retransmitCount = txn.retransmitCount := by
  simp only [startSent, h, if_false, and_false]
  split
  · exact ⟨rfl, rfl⟩
  · exact ⟨rfl, rfl⟩

theorem queued_startSent (now : Nat) : (txn.startSent now).timerA.queued = txn.timerA.queued := by
  simp only [startSent]
  split_ifs
  all_goals rfl

theorem processResponse_of_le (txn : ClientTransaction ρ τ) {code : Int} (h : 100 ≤ code) :
    (txn.processResponse code).state ≠ .trying ∧
      (txn.processResponse code).timerA = txn.timerA.cancel ∧
      (txn.processResponse code).retransmitCount = txn.retransmitCount := by
  rw [processResponse]
  split
  · exact ⟨by simp, rfl, rfl⟩
  · rw [if_pos (by omega)]
    refine ⟨?_, rfl, rfl⟩
    dsimp only
    split <;> simp

theorem retransmit_of_live (h : txn.Live) (timer : Timer) (now : Nat) :
    (txn.setTimer timer .a).retransmit now =
      { txn with
        retransmitCount := txn.retransmitCount + 1
        timerA := timer.arm (now + retransmitInterval (txn.retransmitCount + 1)).toNat } := by
  have hcounted : (txn.setTimer timer .a).retransmitCounted =
      some { txn.setTimer timer .a with retransmitCount := txn.retransmitCount + 1 } := if_pos h
  have harmed : ∀ count, (ClientTransaction.retransmitArmed
      { txn.setTimer timer .a with retransmitCount := count } now count) =
        { txn with
          retransmitCount := count
          timerA := timer.arm (now + retransmitInterval count).toNat } := fun count => if_pos h
  rw [retransmit, hcounted]
  exact harmed _

theorem retransmit_of_not_live (h : ¬ txn.Live) (timer : Timer) (now : Nat) :
    (txn.setTimer timer .a).retransmit now = txn.setTimer timer .a := by
  have hcounted : (txn.setTimer timer .a).retransmitCounted = none := if_neg h
  rw [retransmit, hcounted]

end ClientTransaction

namespace SingleClient

variable {ρ τ : Type} {s t : SingleClient ρ τ} {out : List PaceEvent} {delivered : Bool}

/-- Timer A is due, and not after Timer B. Its handler looks for a final response only. -/
theorem fireTimerA_cases (h : s.fireTimerA delivered = some (t, out)) :
    s.timerBFirst = false ∧ ∃ due, s.txn.timerA.deadline = some due ∧ due ≤ s.now ∧
      s.txn.timerA.expire s.now = some ⟨none, s.txn.timerA.queued + 1⟩ ∧
      (s.txn.Live ∧
          t = { s with txn := { s.txn with
            retransmitCount := s.txn.retransmitCount + 1
            timerA := ⟨some (s.now + ClientTransaction.retransmitInterval
              (s.txn.retransmitCount + 1)).toNat, s.txn.timerA.queued⟩ } } ∧
          out = [.retransmitted delivered s.now t.txn.timerA.deadline] ∨
        ¬ s.txn.Live ∧ t = { s with txn := s.txn.setTimer ⟨none, s.txn.timerA.queued⟩ .a } ∧
          out = []) := by
  obtain ⟨hfirst, hfire⟩ := Option.ite_none_left_eq_some.mp h
  obtain ⟨timer, htimer, heq⟩ := Option.map_eq_some_iff.mp hfire
  obtain ⟨due, hdue, hle, hexpire, rfl⟩ := Timer.fire_eq_some htimer
  refine ⟨Bool.eq_false_iff.mpr hfirst, due, hdue, hle, hexpire, ?_⟩
  by_cases hlive : s.txn.Live
  · simp only [ClientTransaction.retransmit_of_live hlive, if_pos hlive] at heq
    cases heq
    exact .inl ⟨hlive, rfl, rfl⟩
  · simp only [ClientTransaction.retransmit_of_not_live hlive, if_neg hlive] at heq
    cases heq
    exact .inr ⟨hlive, rfl, rfl⟩

theorem fireTimerB_cases (h : s.fireTimerB = some (t, out)) :
    s.txn.timerB.expire s.now = some ⟨none, s.txn.timerB.queued + 1⟩ ∧
      t = { s with txn := (s.txn.setTimer ⟨none, s.txn.timerB.queued⟩ .b).timeout.1 } ∧
      out = if s.txn.Live then [.timedOut] else [] := by
  obtain ⟨timer, htimer, heq⟩ := Option.map_eq_some_iff.mp h
  obtain ⟨due, -, -, hexpire, rfl⟩ := Timer.fire_eq_some htimer
  cases heq
  exact ⟨hexpire, rfl, rfl⟩

/-! ## A run of it is one of the transaction -/

variable {a : AtomicAction}

theorem exec_of_step {a : SingleClientAction} {out : List ClientNotice}
    (h : s.step a = some (t, out)) : (singleClientMachine ρ τ).exec s [a] = some (t, out) :=
  Machine.exec_cons_iff.mpr ⟨t, out, [], h, rfl, (List.append_nil out).symm⟩

/-- The handler of Timer A in its four parts. -/
theorem exec_fireTimerA (h : s.Quiet) (hfire : s.fireTimerA delivered = some (t, out)) :
    ∃ actions, (singleClientMachine ρ τ).exec s actions =
      some (t, out.flatMap PaceEvent.notices) := by
  obtain ⟨txn, now, phase, handlers⟩ := s
  obtain rfl : handlers = [] := h.2
  obtain ⟨-, due, -, -, hexpire, hcases⟩ := fireTimerA_cases hfire
  have hexpires : step ⟨txn, now, phase, []⟩ (.expireTimer .a) =
      some (⟨txn.setTimer ⟨none, txn.timerA.queued + 1⟩ .a, now, phase, []⟩, []) := by
    simp only [step, ClientTransaction.timer, hexpire, Option.map_some]
  obtain ⟨hlive, rfl, rfl⟩ | ⟨hlive, rfl, rfl⟩ := hcases
  · have hruns : step ⟨txn.setTimer ⟨none, txn.timerA.queued + 1⟩ .a, now, phase, []⟩ .runTimerA =
        some (⟨{ txn with
          timerA := ⟨none, txn.timerA.queued⟩, retransmitCount := txn.retransmitCount + 1 },
          now, phase, [.sending (txn.retransmitCount + 1)]⟩, []) :=
      congrArg (fun s => some (s, [])) (runTimerA_of_live hlive ⟨none, txn.timerA.queued⟩)
    have harms : step ⟨{ txn with
          timerA := ⟨none, txn.timerA.queued⟩, retransmitCount := txn.retransmitCount + 1 },
          now, phase, [.arming (txn.retransmitCount + 1)]⟩ (.retransmitArms 0) =
            some (_, [.armed]) :=
      step_retransmitArms (by exact hlive) rfl
    rw [ClientTransaction.retransmitArmed, if_pos (by exact hlive)] at harms
    refine ⟨[.expireTimer .a, .runTimerA, .retransmitSends 0, .retransmitArms 0], ?_⟩
    refine Machine.exec_cons_iff.mpr ⟨_, _, _, hexpires, ?_, rfl⟩
    refine Machine.exec_cons_iff.mpr ⟨_, _, _, hruns, ?_, rfl⟩
    exact Machine.exec_cons_iff.mpr ⟨_, [.sent], [.armed], rfl, exec_of_step harms, rfl⟩
  · have hruns : step ⟨txn.setTimer ⟨none, txn.timerA.queued + 1⟩ .a, now, phase, []⟩ .runTimerA =
        some (⟨txn.setTimer ⟨none, txn.timerA.queued⟩ .a, now, phase, []⟩, []) :=
      congrArg (fun s => some (s, [])) (runTimerA_of_not_live hlive ⟨none, txn.timerA.queued⟩)
    exact ⟨[.expireTimer .a, .runTimerA],
      Machine.exec_cons_iff.mpr ⟨_, _, _, hexpires, exec_of_step hruns, rfl⟩⟩

theorem exec_fireTimerB (hfire : s.fireTimerB = some (t, out)) :
    ∃ actions, (singleClientMachine ρ τ).exec s actions =
      some (t, out.flatMap PaceEvent.notices) := by
  obtain ⟨hexpire, rfl, rfl⟩ := fireTimerB_cases hfire
  have hexpires : s.step (.expireTimer .b) =
      some ({ s with txn := s.txn.setTimer ⟨none, s.txn.timerB.queued + 1⟩ .b }, []) := by
    simp only [step, ClientTransaction.timer, hexpire, Option.map_some]
  have hnotices : (if s.txn.Live then [PaceEvent.timedOut] else []).flatMap PaceEvent.notices =
      [] := by
    split
    · rfl
    · rfl
  rw [hnotices]
  exact ⟨[.expireTimer .b, .runTimerB],
    Machine.exec_cons_iff.mpr ⟨_, _, _, hexpires, exec_of_step rfl, rfl⟩⟩

theorem exec_of_atomicStep (h : s.Quiet) (hstep : s.atomicStep a = some (t, out)) :
    ∃ actions, (singleClientMachine ρ τ).exec s actions =
      some (t, out.flatMap PaceEvent.notices) := by
  cases a with
  | elapse duration =>
      cases hstep
      exact ⟨[.elapse duration], rfl⟩
  | startSends =>
      obtain ⟨hphase, heq⟩ := Option.ite_none_right_eq_some.mp hstep
      cases heq
      exact ⟨[.startSends], exec_of_step (if_pos hphase)⟩
  | startSent =>
      obtain ⟨hphase, heq⟩ := Option.ite_none_right_eq_some.mp hstep
      cases heq
      have hnotices : (s.startSent.2.map fun _ => PaceEvent.armed).flatMap PaceEvent.notices =
          s.startSent.2 := by
        simp only [startSent]
        split
        · rfl
        · rfl
      rw [hnotices]
      exact ⟨[.startSent], exec_of_step (if_pos hphase)⟩
  | startFailed =>
      obtain ⟨hphase, heq⟩ := Option.ite_none_right_eq_some.mp hstep
      cases heq
      exact ⟨[.startFailed], exec_of_step (if_pos hphase)⟩
  | processResponse code =>
      cases hstep
      exact ⟨[.processResponse code], rfl⟩
  | timerA delivered => exact exec_fireTimerA h hstep
  | timerB => exact exec_fireTimerB hstep
  | shutdown =>
      cases hstep
      exact ⟨[.shutdown], rfl⟩

/-- What a step does to the timers and the count: it leaves Timer A alone, it is the second part of
`start`, nothing is retransmitted any more, or there is a retransmission. -/
inductive PaceStep (s t : SingleClient ρ τ) : List PaceEvent → Prop where
  | keeps {out : List PaceEvent} (timerA : t.txn.timerA = s.txn.timerA)
      (timerB : s.txn.Live → t.txn.timerB = s.txn.timerB) (state : t.txn.state = s.txn.state)
      (count : t.txn.retransmitCount = s.txn.retransmitCount)
      (silent : ∀ event ∈ out, event.copy = none ∧ ¬ event.Ends) : PaceStep s t out
  | starts (phase : s.phase = .sending) (started : t = s.startSent.1) :
      PaceStep s t (s.startSent.2.map fun _ => .armed)
  | stops {out : List PaceEvent} (timerA : t.txn.timerA = s.txn.timerA.cancel)
      (state : t.txn.state ≠ .trying) (count : t.txn.retransmitCount = s.txn.retransmitCount)
      (silent : ∀ event ∈ out, event.copy = none) : PaceStep s t out
  | retransmits (delivered : Bool) (due : Nat) (first : s.timerBFirst = false)
      (deadline : s.txn.timerA.deadline = some due) (late : due ≤ s.now)
      (sent : t = { s with txn := { s.txn with
        retransmitCount := s.txn.retransmitCount + 1
        timerA := ⟨some (s.now + ClientTransaction.retransmitInterval
          (s.txn.retransmitCount + 1)).toNat, s.txn.timerA.queued⟩ } }) :
      PaceStep s t [.retransmitted delivered s.now t.txn.timerA.deadline]

theorem atomicStep_cases (hstep : s.atomicStep a = some (t, out)) :
    t.handlers = s.handlers ∧ (t.phase ≠ .started → s.phase ≠ .started) ∧ PaceStep s t out := by
  cases a with
  | elapse duration =>
      cases hstep
      exact ⟨rfl, id, .keeps rfl (fun _ => rfl) rfl rfl (List.forall_mem_nil _)⟩
  | startSends =>
      obtain ⟨hphase, heq⟩ := Option.ite_none_right_eq_some.mp hstep
      cases heq
      refine ⟨rfl, fun _ => by rw [hphase]; decide, .keeps rfl (fun _ => rfl) rfl rfl ?_⟩
      exact List.forall_mem_singleton.mpr ⟨rfl, id⟩
  | startSent =>
      obtain ⟨hphase, heq⟩ := Option.ite_none_right_eq_some.mp hstep
      cases heq
      exact ⟨rfl, fun hfresh => (hfresh rfl).elim, .starts hphase rfl⟩
  | startFailed =>
      obtain ⟨-, heq⟩ := Option.ite_none_right_eq_some.mp hstep
      cases heq
      refine ⟨rfl, fun hfresh => (hfresh rfl).elim, .stops rfl ?_ rfl (List.forall_mem_nil _)⟩
      exact fun hstate => by cases hstate
  | processResponse code =>
      cases hstep
      refine ⟨rfl, id, ?_⟩
      by_cases hcode : 100 ≤ code
      · obtain ⟨hstate, htimer, hcount⟩ := s.txn.processResponse_of_le hcode
        exact .stops htimer hstate hcount (List.forall_mem_singleton.mpr rfl)
      · rw [ClientTransaction.processResponse_of_lt (by omega)]
        exact .keeps rfl (fun _ => rfl) rfl rfl (List.forall_mem_singleton.mpr ⟨rfl, hcode⟩)
  | timerA delivered =>
      obtain ⟨hfirst, due, hdue, hle, -, ⟨-, rfl, rfl⟩ | ⟨hdead, rfl, rfl⟩⟩ :=
        fireTimerA_cases hstep
      · exact ⟨rfl, id, .retransmits delivered due hfirst hdue hle rfl⟩
      · refine ⟨rfl, id, .stops rfl (fun hstate => hdead ?_) rfl (List.forall_mem_nil _)⟩
        have htrying : s.txn.state = .trying := hstate
        exact ⟨by rw [htrying]; decide, by rw [htrying]; decide⟩
  | timerB =>
      obtain ⟨-, rfl, rfl⟩ := fireTimerB_cases hstep
      refine ⟨rfl, id, ?_⟩
      by_cases hlive : s.txn.Live
      · rw [if_pos hlive, ClientTransaction.timeout, if_pos (by exact hlive)]
        refine .stops rfl (fun hstate => ?_) rfl (List.forall_mem_singleton.mpr rfl)
        cases hstate
      · rw [if_neg hlive, ClientTransaction.timeout, if_neg (by exact hlive)]
        exact .keeps rfl (fun h => (hlive h).elim) rfl rfl (List.forall_mem_nil _)
  | shutdown =>
      cases hstep
      refine ⟨rfl, id, .stops rfl (fun hstate => ?_) rfl (List.forall_mem_nil _)⟩
      cases hstate

theorem Quiet.step (h : s.Quiet) (hstep : s.atomicStep a = some (t, out)) : t.Quiet := by
  obtain ⟨hhandlers, -, hpace⟩ := atomicStep_cases hstep
  refine ⟨?_, hhandlers.trans h.2⟩
  cases hpace with
  | keeps timerA timerB state count silent =>
      rw [timerA]
      exact h.1
  | starts phase started =>
      rw [started, SingleClient.startSent, ClientTransaction.queued_startSent]
      exact h.1
  | stops timerA state count silent =>
      rw [timerA]
      exact h.1
  | retransmits delivered due first deadline late sent =>
      rw [sent]
      exact h.1

/-- What runs at once and without interruption is a run of the transaction, which sends and arms the
same. -/
theorem exec_of_atomicRun {actions : List AtomicAction} {log : List PaceEvent} (h : s.Quiet)
    (hrun : (atomicClientMachine ρ τ).exec s actions = some (t, log)) :
    t.Quiet ∧ ∃ parts, (singleClientMachine ρ τ).exec s parts =
      some (t, log.flatMap PaceEvent.notices) := by
  induction actions generalizing s log with
  | nil =>
      cases hrun
      exact ⟨h, [], rfl⟩
  | cons a actions ih =>
      obtain ⟨u, first, rest, hstep, hrest, rfl⟩ := Machine.exec_cons_iff.mp hrun
      obtain ⟨parts, hparts⟩ := exec_of_atomicStep h hstep
      obtain ⟨hquiet, others, hothers⟩ := ih (h.step hstep) hrest
      exact ⟨hquiet, parts ++ others,
        List.flatMap_append ▸ Machine.exec_append hparts hothers⟩

end SingleClient

/-! ## The pace -/

theorem ClientTransaction.retransmitInterval_eq {n : Nat} (h : n < 31) :
    retransmitInterval n = (backoff kTimerT1 kTimerT2 n : Nat) := by
  rw [retransmitInterval, toInt_one_shiftLeft (by omega), backoff]
  split <;> omega

namespace SingleClient

variable {ρ τ : Type} {s t : SingleClient ρ τ} {a : AtomicAction} {out : List PaceEvent}
variable {delivered : Bool}

/-- Timer A has never been early, so Timer B is due before the intervals of eleven retransmissions
are over. -/
structure Paced (s : SingleClient ρ τ) : Prop where
  count_le : s.txn.retransmitCount ≤ 10
  fresh : s.phase ≠ .started → s.txn.timerA.deadline = none ∧ s.txn.retransmitCount = 0
  due : ∀ dueA, s.txn.timerA.deadline = some dueA → s.txn.state = .trying ∧
    ∃ dueB, s.txn.timerB.deadline = some dueB ∧
      dueB + backoffTotal kTimerT1 kTimerT2 s.txn.retransmitCount ≤ dueA + kTimerB

/-- Nothing is due of a timer that waits for nothing. -/
theorem Paced.of_idle (hcount : s.txn.retransmitCount ≤ 10)
    (hfresh : s.phase ≠ .started → s.txn.retransmitCount = 0)
    (hidle : s.txn.timerA.deadline = none) : s.Paced := by
  refine ⟨hcount, fun hphase => ⟨hidle, hfresh hphase⟩, fun dueA hdue => ?_⟩
  rw [hidle] at hdue
  cases hdue

theorem Paced.startSent (h : s.Paced) (hphase : s.phase = .sending) : s.startSent.1.Paced := by
  obtain ⟨hidle, hcount⟩ := h.fresh (by rw [hphase]; decide)
  by_cases htrying : s.txn.state = .trying
  · rw [SingleClient.startSent, ClientTransaction.startSent_of_trying htrying]
    refine ⟨Nat.zero_le 10, fun hfresh => (hfresh rfl).elim, fun dueA hdue => ⟨htrying, _, rfl, ?_⟩⟩
    dsimp only at hdue
    split at hdue
    · cases hdue
      have hfirst : backoffTotal kTimerT1 kTimerT2 0 = kTimerT1 := by decide
      rw [hfirst]
      omega
    · rw [hidle] at hdue
      cases hdue
  · obtain ⟨htimer, hkept⟩ := ClientTransaction.startSent_of_not_trying htrying s.now
    refine .of_idle ?_ (fun hfresh => (hfresh rfl).elim) ?_
    · exact hkept.trans_le h.count_le
    · exact (congrArg Timer.deadline htimer).trans hidle

/-- Ten intervals are over before Timer B is due, and eleven are not. -/
theorem Paced.count_lt (h : s.Paced) (hfirst : s.timerBFirst = false) {dueA : Nat}
    (hdueA : s.txn.timerA.deadline = some dueA) : s.txn.retransmitCount < 10 := by
  obtain ⟨-, dueB, hdueB, htotal⟩ := h.due dueA hdueA
  have hbefore : dueA < dueB := by
    simpa [timerBFirst, hdueA, hdueB] using hfirst
  have htenth : kTimerB ≤ backoffTotal kTimerT1 kTimerT2 10 := by decide
  exact lt_of_backoffTotal_lt htenth (by omega)

theorem Paced.step (h : s.Paced) (hstep : s.atomicStep a = some (t, out)) : t.Paced := by
  obtain ⟨-, hphase, hpace⟩ := atomicStep_cases hstep
  cases hpace with
  | keeps timerA timerB state count silent =>
      refine ⟨count.trans_le h.count_le, fun hfresh => ?_, fun dueA hdue => ?_⟩
      · rw [timerA, count]
        exact h.fresh (hphase hfresh)
      · rw [timerA] at hdue
        obtain ⟨htrying, hdueB⟩ := h.due dueA hdue
        rw [state, count, timerB ⟨by rw [htrying]; decide, by rw [htrying]; decide⟩]
        exact ⟨htrying, hdueB⟩
  | starts phase started => exact started ▸ h.startSent phase
  | stops timerA state count silent =>
      refine .of_idle (count.trans_le h.count_le) (fun hfresh => ?_) ?_
      · exact count.trans (h.fresh (hphase hfresh)).2
      · rw [timerA]
        rfl
  | retransmits delivered dueA first deadline late sent =>
      have hcount := h.count_lt first deadline
      obtain ⟨htrying, dueB, hdueB, htotal⟩ := h.due dueA deadline
      refine ⟨?_, fun hfresh => ?_, fun due hdue => ?_⟩
      · rw [sent]
        exact hcount
      · have hidle := (h.fresh (hphase hfresh)).1
        rw [deadline] at hidle
        cases hidle
      · have hinterval := ClientTransaction.retransmitInterval_eq
          (n := s.txn.retransmitCount + 1) (by omega)
        rw [sent] at hdue ⊢
        refine ⟨htrying, dueB, hdueB, ?_⟩
        rw [hinterval] at hdue
        cases hdue
        rw [backoffTotal_succ]
        omega

end SingleClient

/-! ## What a run tells of it -/

namespace SingleClient

variable {ρ τ : Type} {s t : SingleClient ρ τ} {a : AtomicAction} {out log : List PaceEvent}

theorem Stopped.quiet (h : s.Stopped) : s.Quiet := ⟨by rw [h.timerA]; rfl, h.handlers⟩

/-- A stopped transaction stays so, and retransmits nothing. -/
theorem Stopped.atomicStep (h : s.Stopped) (hstep : s.atomicStep a = some (t, out)) :
    t.Stopped ∧ ∀ event ∈ out, event.copy = none := by
  obtain ⟨parts, hparts⟩ := exec_of_atomicStep h.quiet hstep
  refine ⟨Machine.exec_invariant (fun _ _ _ _ h hstep => (h.step_cases hstep).1) h hparts,
    fun event hmem => ?_⟩
  have hspared := (h.spared hparts).1
  cases event with
  | retransmitted delivered time deadline =>
      exact (hspared (List.mem_flatMap.mpr
        ⟨_, hmem, List.mem_cons_of_mem _ List.mem_cons_self⟩)).elim
  | sent => rfl
  | armed => rfl
  | answered code => rfl
  | timedOut => rfl

/-- What ends the retransmissions stops the transaction. -/
theorem stopped_of_ends (h : s.Quiet) (hstep : s.atomicStep a = some (t, out)) {event : PaceEvent}
    (hmem : event ∈ out) (hends : event.Ends) : t.Stopped := by
  obtain ⟨hhandlers, -, hpace⟩ := atomicStep_cases hstep
  cases hpace with
  | keeps timerA timerB state count silent => exact ((silent event hmem).2 hends).elim
  | starts phase started =>
      obtain ⟨notice, -, rfl⟩ := List.mem_map.mp hmem
      exact hends.elim
  | stops timerA state count silent =>
      exact ⟨state, timerA.trans (cancel_eq_idle h.1), hhandlers.trans h.2⟩
  | retransmits delivered due first deadline late sent =>
      cases List.mem_singleton.mp hmem
      exact hends.elim

/-- A step retransmits and counts it, or does neither. -/
theorem copies_of_step (h : s.Paced) (hstep : s.atomicStep a = some (t, out)) :
    (∃ delivered time, out = [.retransmitted delivered time
          (some (time + backoff kTimerT1 kTimerT2 (s.txn.retransmitCount + 1)))] ∧
        t.txn.retransmitCount = s.txn.retransmitCount + 1) ∨
      (∀ event ∈ out, event.copy = none) ∧ t.txn.retransmitCount = s.txn.retransmitCount := by
  obtain ⟨-, -, hpace⟩ := atomicStep_cases hstep
  cases hpace with
  | keeps timerA timerB state count silent =>
      exact .inr ⟨fun event hmem => (silent event hmem).1, count⟩
  | starts phase started =>
      refine .inr ⟨fun event hmem => ?_, ?_⟩
      · obtain ⟨notice, -, rfl⟩ := List.mem_map.mp hmem
        rfl
      · rw [started, startSent]
        by_cases htrying : s.txn.state = .trying
        · rw [ClientTransaction.startSent_of_trying htrying, (h.fresh (by rw [phase]; decide)).2]
        · exact (ClientTransaction.startSent_of_not_trying htrying s.now).2
  | stops timerA state count silent => exact .inr ⟨silent, count⟩
  | retransmits delivered due first deadline late sent =>
      have hcount := h.count_le
      have hinterval := ClientTransaction.retransmitInterval_eq
        (n := s.txn.retransmitCount + 1) (by omega)
      refine .inl ⟨delivered, s.now, ?_, by rw [sent]⟩
      rw [sent, hinterval]
      rfl

/-- The retransmissions in a log are counted, and Timer A is armed with the intervals for them. -/
structure Logged (s : SingleClient ρ τ) (log : List PaceEvent) : Prop where
  quiet : s.Quiet
  paced : s.Paced
  count : (log.filterMap PaceEvent.copy).length = s.txn.retransmitCount
  intervals : ∀ n copy, (log.filterMap PaceEvent.copy)[n]? = some copy →
    copy.2 = some (copy.1 + backoff kTimerT1 kTimerT2 (n + 1))
  silent : log.Pairwise fun event later => event.Ends → later.copy = none
  stopped : ∀ event ∈ log, event.Ends → s.Stopped

theorem Logged.step (h : s.Logged log) (hstep : s.atomicStep a = some (t, out)) :
    t.Logged (log ++ out) := by
  have hstopped : ∀ event ∈ log ++ out, event.Ends → t.Stopped := by
    intro event hmem hends
    obtain hmem | hmem := List.mem_append.mp hmem
    · exact ((h.stopped event hmem hends).atomicStep hstep).1
    · exact stopped_of_ends h.quiet hstep hmem hends
  have hcross : ∀ event ∈ log, ∀ later ∈ out, event.Ends → later.copy = none :=
    fun event hmem later hlater hends =>
      ((h.stopped event hmem hends).atomicStep hstep).2 later hlater
  obtain ⟨delivered, time, rfl, hcount⟩ | ⟨hnone, hcount⟩ := copies_of_step h.paced hstep
  · refine ⟨h.quiet.step hstep, h.paced.step hstep, ?_, fun n copy hcopy => ?_,
      List.pairwise_append.mpr ⟨h.silent, List.pairwise_singleton _ _, hcross⟩, hstopped⟩
    · rw [List.filterMap_append, List.length_append, h.count, hcount]
      rfl
    · have hone : [PaceEvent.retransmitted delivered time
          (some (time + backoff kTimerT1 kTimerT2 (s.txn.retransmitCount + 1)))].filterMap
            PaceEvent.copy = [(time, some (time + backoff kTimerT1 kTimerT2
              (s.txn.retransmitCount + 1)))] := rfl
      rw [List.filterMap_append, hone] at hcopy
      obtain hlt | heq | hgt := Nat.lt_trichotomy n (log.filterMap PaceEvent.copy).length
      · rw [List.getElem?_append_left hlt] at hcopy
        exact h.intervals n copy hcopy
      · rw [heq, List.getElem?_concat_length, Option.some.injEq] at hcopy
        rw [← hcopy, heq, h.count]
      · rw [List.getElem?_eq_none (by simpa using hgt)] at hcopy
        cases hcopy
  · have hempty : out.filterMap PaceEvent.copy = [] := List.filterMap_eq_nil_iff.mpr hnone
    refine ⟨h.quiet.step hstep, h.paced.step hstep, ?_, fun n copy hcopy => ?_,
      List.pairwise_append.mpr ⟨h.silent, ?_, hcross⟩, hstopped⟩
    · rw [List.filterMap_append, hempty, List.append_nil, h.count, hcount]
    · rw [List.filterMap_append, hempty, List.append_nil] at hcopy
      exact h.intervals n copy hcopy
    · exact List.pairwise_of_forall_mem_list fun _ _ later hlater _ => hnone later hlater

theorem logged_of_exec {request : SipMessage} {dest : Endpoint} {onResponse : ρ} {onTimeout : τ}
    {now : Nat} {actions : List AtomicAction}
    (hrun : (atomicClientMachine ρ τ).exec (.init request dest onResponse onTimeout now) actions =
      some (t, log)) : t.Logged log := by
  refine Machine.exec_invariant_log (fun _ _ _ _ _ h hstep => h.step hstep) ?_ hrun
  exact ⟨⟨rfl, rfl⟩, .of_idle (Nat.zero_le 10) (fun _ => rfl) rfl, rfl,
    (fun _ _ hcopy => by cases hcopy), .nil, fun _ hmem => (List.not_mem_nil hmem).elim⟩

end SingleClient

/-- In every run whose handlers are not interrupted the count stays far below 31, each
retransmission arms Timer A with its interval, and nothing is retransmitted after a timeout or a
response with a status code from 100 on. -/
theorem retransmissions_paced {ρ τ : Type} (request : SipMessage) (dest : Endpoint) (onResponse : ρ)
    (onTimeout : τ) (now : Nat) (actions : List AtomicAction) (t : SingleClient ρ τ)
    (log : List PaceEvent)
    (hrun : (atomicClientMachine ρ τ).exec (.init request dest onResponse onTimeout now) actions =
      some (t, log)) :
    t.txn.retransmitCount < 31 ∧
      (log.filterMap PaceEvent.copy).length = t.txn.retransmitCount ∧
      (∀ n time deadline, (log.filterMap PaceEvent.copy)[n]? = some (time, deadline) →
        deadline = some (time + min (500 * 2 ^ (n + 1)) 4000)) ∧
      log.Pairwise fun event later => event.Ends → later.copy = none := by
  have hlogged := SingleClient.logged_of_exec hrun
  exact ⟨Nat.lt_of_le_of_lt hlogged.paced.count_le (by decide), hlogged.count,
    fun n time deadline hcopy => hlogged.intervals n _ hcopy, hlogged.silent⟩

/-! ### An `INVITE` that is not answered -/

/-- The due timers of a transaction fire, one after the other. -/
def unansweredInvite : List AtomicAction :=
  [.startSends, .startSent, .elapse 500, .timerA true, .elapse 1000, .timerA true, .elapse 2000,
    .timerA false, .elapse 4000, .timerA true, .elapse 4000, .timerA true, .elapse 4000,
    .timerA true, .elapse 4000, .timerA true, .elapse 4000, .timerA true, .elapse 4000,
    .timerA true, .elapse 4000, .timerA true, .elapse 500, .timerB, .elapse 4000]

theorem retransmissions_paced_unanswered :
    ∃ t log, (atomicClientMachine Unit Unit).exec startedInvite unansweredInvite = some (t, log) ∧
      t.txn.state = .terminated ∧ t.txn.retransmitCount < 31 ∧
      (log.filterMap PaceEvent.copy).length = t.txn.retransmitCount ∧
      (∀ n time deadline, (log.filterMap PaceEvent.copy)[n]? = some (time, deadline) →
        deadline = some (time + min (500 * 2 ^ (n + 1)) 4000)) ∧
      log.Pairwise fun event later => event.Ends → later.copy = none :=
  ⟨_, _, rfl, rfl, retransmissions_paced (dialogRequest "INVITE" (bytes "a") [])
    ⟨bytes "10.0.0.3", 5060, bytes "udp"⟩ () () 0 unansweredInvite _ _ rfl⟩

/-- A status code below 100 does not end the retransmissions. -/
theorem low_status_is_passed_over :
    ∃ t log, (atomicClientMachine Unit Unit).exec startedInvite
        [.startSends, .startSent, .processResponse 99, .elapse 500, .timerA true] = some (t, log) ∧
      ¬ log.Pairwise fun event later => (∃ code, event = .answered code) → later.copy = none := by
  refine ⟨_, [.sent, .armed, .answered 99, .retransmitted true 500 (some 1500)], rfl, fun h => ?_⟩
  have hanswered := (List.pairwise_cons.mp h.tail.tail).1
  exact absurd (hanswered _ List.mem_cons_self ⟨99, rfl⟩) (by decide)

end SimIms.Sip
