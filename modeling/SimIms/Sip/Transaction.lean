import Mathlib.Tactic.SplitIfs
import SimIms.Lib.Timer
import SimIms.Sip.Message

/-!
# Client and server transactions

Each method locks the transaction's mutex for one stretch of code, and that stretch is one
function here; what is done outside of the lock (sending, calling a callback) is returned
to the caller as data. A callback is a value of an arbitrary type: `ρ` for responses, `τ`
for the other notifications.
-/

namespace SimIms.Sip

open Cxx Lib

inductive TransactionState where
  | trying
  | proceeding
  | completed
  | confirmed
  | terminated
deriving DecidableEq, Repr

def kTimerT1 : Nat := 500
def kTimerT2 : Nat := 4000
def kTimerB : Nat := 32000
def kTimerJ : Nat := 32000
def kTimerH : Nat := 32000

/-! ## Client transactions -/

structure ClientTransaction (ρ τ : Type) where
  request : SipMessage
  dest : Endpoint
  branch : Bytes
  state : TransactionState
  onResponse : Option ρ
  onTimeout : Option τ
  timerA : Timer
  timerB : Timer
  retransmitCount : Nat

namespace ClientTransaction

variable {ρ τ : Type}

/-- The constructor, followed by `onResponse` and `onTimeout`. -/
def create (request : SipMessage) (dest : Endpoint) (onResponse : ρ) (onTimeout : τ) :
    ClientTransaction ρ τ :=
  { request, dest, branch := request.viaBranch, state := .trying
    onResponse := some onResponse, onTimeout := some onTimeout
    timerA := .idle, timerB := .idle, retransmitCount := 0 }

/-- Neither a final response nor a timeout has been processed. -/
def Live (txn : ClientTransaction ρ τ) : Prop :=
  txn.state ≠ .completed ∧ txn.state ≠ .terminated

instance (txn : ClientTransaction ρ τ) : Decidable txn.Live :=
  inferInstanceAs (Decidable (_ ∧ _))

/-- `start` after the transport has refused the request. -/
def startFailed (txn : ClientTransaction ρ τ) : ClientTransaction ρ τ :=
  { txn with state := .terminated, timerA := txn.timerA.cancel, timerB := txn.timerB.cancel }

def usesUdp (dest : Endpoint) : Bool :=
  dest.transport.map toLower == bytes "udp" || dest.transport.isEmpty

/-- `start` after the request has been sent: the retransmission timer of an unreliable
transport, and the timeout. -/
def startSent (txn : ClientTransaction ρ τ) (now : Nat) : ClientTransaction ρ τ :=
  let txn := if txn.state = .trying then { txn with retransmitCount := 0 } else txn
  let txn :=
    if usesUdp txn.dest = true ∧ txn.state = .trying then
      { txn with timerA := txn.timerA.arm (now + kTimerT1) }
    else txn
  if txn.Live then { txn with timerB := txn.timerB.arm (now + kTimerB) } else txn

/-- The handler of Timer B. The timeout callback is returned when it is to be called. -/
def timeout (txn : ClientTransaction ρ τ) : ClientTransaction ρ τ × Option τ :=
  if txn.Live then
    ({ txn with state := .terminated, timerA := txn.timerA.cancel }, txn.onTimeout)
  else (txn, none)

/-- The new state and timers after a response with this status code; the response
callback is called afterwards. -/
def processResponse (txn : ClientTransaction ρ τ) (code : Int) : ClientTransaction ρ τ :=
  if 100 ≤ code ∧ code < 200 then
    { txn with state := .proceeding, timerA := txn.timerA.cancel }
  else if 200 ≤ code then
    let isInvite := txn.request.cseqMethod = bytes "INVITE"
    { txn with
      state := if ¬ isInvite ∨ 300 ≤ code then .terminated else .completed
      timerA := txn.timerA.cancel
      timerB := txn.timerB.cancel }
  else txn

/-- The first locked stretch of `retransmit`; `none` when nothing is to be sent. -/
def retransmitCounted (txn : ClientTransaction ρ τ) : Option (ClientTransaction ρ τ) :=
  if txn.Live then some { txn with retransmitCount := txn.retransmitCount + 1 } else none

/-- `kTimerT1 * (1 << retransmit_count)`, where an `int` is shifted, and `kTimerT2` at most. -/
def retransmitInterval (retransmitCount : Nat) : Int :=
  let interval := kTimerT1 * (1#32 <<< retransmitCount).toInt
  if interval > kTimerT2 then kTimerT2 else interval

/-- The second one: Timer A is armed with the doubled interval. -/
def retransmitArmed (txn : ClientTransaction ρ τ) (now retransmitCount : Nat) :
    ClientTransaction ρ τ :=
  if txn.Live then
    { txn with timerA := txn.timerA.arm (now + retransmitInterval retransmitCount).toNat }
  else txn

/-- The handler of Timer A without interruption. -/
def retransmit (txn : ClientTransaction ρ τ) (now : Nat) : ClientTransaction ρ τ :=
  match txn.retransmitCounted with
  | none => txn
  | some counted => counted.retransmitArmed now counted.retransmitCount

/-- The two timers of a client transaction. -/
inductive TimerName where
  | a
  | b
deriving DecidableEq, Repr

def timer (txn : ClientTransaction ρ τ) : TimerName → Timer
  | .a => txn.timerA
  | .b => txn.timerB

def setTimer (txn : ClientTransaction ρ τ) (timer : Timer) :
    TimerName → ClientTransaction ρ τ
  | .a => { txn with timerA := timer }
  | .b => { txn with timerB := timer }

def shutdown (txn : ClientTransaction ρ τ) : ClientTransaction ρ τ :=
  { txn with
    state := .terminated, onResponse := none, onTimeout := none
    timerA := txn.timerA.cancel, timerB := txn.timerB.cancel }

/-! What no step but `shutdown` changes, and what each step does to the state. -/

/-- The parts of a transaction that are fixed until it is shut down. -/
def fixed (txn : ClientTransaction ρ τ) : SipMessage × Option ρ × Option τ :=
  (txn.request, txn.onResponse, txn.onTimeout)

@[simp] theorem fixed_startFailed (txn : ClientTransaction ρ τ) :
    txn.startFailed.fixed = txn.fixed := rfl

@[simp] theorem fixed_setTimer (txn : ClientTransaction ρ τ) (timer : Timer)
    (name : TimerName) : (txn.setTimer timer name).fixed = txn.fixed := by
  cases name
  · rfl
  · rfl

@[simp] theorem state_setTimer (txn : ClientTransaction ρ τ) (timer : Timer)
    (name : TimerName) : (txn.setTimer timer name).state = txn.state := by
  cases name
  · rfl
  · rfl

@[simp] theorem fixed_startSent (txn : ClientTransaction ρ τ) (now : Nat) :
    (txn.startSent now).fixed = txn.fixed := by
  simp only [startSent]
  split_ifs <;> rfl

@[simp] theorem state_startSent (txn : ClientTransaction ρ τ) (now : Nat) :
    (txn.startSent now).state = txn.state := by
  simp only [startSent]
  split_ifs <;> rfl

@[simp] theorem fixed_timeout (txn : ClientTransaction ρ τ) :
    txn.timeout.1.fixed = txn.fixed := by
  rw [timeout]
  split
  · rfl
  · rfl

theorem timeout_of_live {txn : ClientTransaction ρ τ} (h : txn.Live) :
    txn.timeout.1.state = .terminated ∧ txn.timeout.2 = txn.onTimeout := by
  rw [timeout, if_pos h]
  exact ⟨rfl, rfl⟩

theorem timeout_of_not_live {txn : ClientTransaction ρ τ} (h : ¬ txn.Live) :
    txn.timeout = (txn, none) := if_neg h

@[simp] theorem fixed_processResponse (txn : ClientTransaction ρ τ) (code : Int) :
    (txn.processResponse code).fixed = txn.fixed := by
  simp only [processResponse]
  split_ifs <;> rfl

theorem state_processResponse_provisional {txn : ClientTransaction ρ τ} {code : Int}
    (hlow : 100 ≤ code) (hhigh : code < 200) :
    (txn.processResponse code).state = .proceeding := by
  rw [processResponse, if_pos ⟨hlow, hhigh⟩]

theorem processResponse_of_lt {txn : ClientTransaction ρ τ} {code : Int} (h : code < 100) :
    txn.processResponse code = txn := by
  rw [processResponse, if_neg (by omega), if_neg (by omega)]

theorem not_live_processResponse_final {txn : ClientTransaction ρ τ} {code : Int}
    (h : 200 ≤ code) : ¬ (txn.processResponse code).Live := by
  simp only [processResponse, Live]
  rw [if_neg (by omega), if_pos h]
  split_ifs <;> simp

@[simp] theorem fixed_retransmit (txn : ClientTransaction ρ τ) (now : Nat) :
    (txn.retransmit now).fixed = txn.fixed := by
  simp only [retransmit, retransmitCounted, retransmitArmed]
  split_ifs <;> first | rfl | (simp only; split_ifs <;> rfl)

@[simp] theorem state_retransmit (txn : ClientTransaction ρ τ) (now : Nat) :
    (txn.retransmit now).state = txn.state := by
  simp only [retransmit, retransmitCounted, retransmitArmed]
  split_ifs <;> first | rfl | (simp only; split_ifs <;> rfl)

end ClientTransaction

/-! ## Server transactions -/

structure ServerTransaction (τ : Type) where
  request : SipMessage
  source : Endpoint
  branch : Bytes
  state : TransactionState
  lastResponse : Option SipMessage
  onTerminated : Option τ
  terminationNotified : Bool
  timerJ : Timer
  timerH : Timer

namespace ServerTransaction

variable {τ : Type}

def create (request : SipMessage) (source : Endpoint) (onTerminated : τ) :
    ServerTransaction τ :=
  { request, source, branch := request.viaBranch, state := .trying, lastResponse := none
    onTerminated := some onTerminated, terminationNotified := false
    timerJ := .idle, timerH := .idle }

/-- The termination callback is handed out once. -/
def markTerminatedLocked (txn : ServerTransaction τ) : ServerTransaction τ × Option τ :=
  if txn.terminationNotified then (txn, none)
  else ({ txn with terminationNotified := true }, txn.onTerminated)

def startTimers (txn : ServerTransaction τ) (now : Nat) (finalResponseCode : Int) :
    ServerTransaction τ :=
  if txn.request.method = bytes "INVITE" ∧ 300 ≤ finalResponseCode then
    { txn with timerJ := txn.timerJ.cancel, timerH := txn.timerH.arm (now + kTimerH) }
  else
    { txn with timerH := txn.timerH.cancel, timerJ := txn.timerJ.arm (now + kTimerJ) }

/-- The locked stretch of `sendResponse`, after the transport has accepted the response: whether
the timers are to be started, and the termination callback when it is to be called. -/
def record (txn : ServerTransaction τ) (response : SipMessage) :
    ServerTransaction τ × Bool × Option τ :=
  let code := response.statusCode
  let txn := { txn with lastResponse := some response }
  if 100 ≤ code ∧ code < 200 then ({ txn with state := .proceeding }, false, none)
  else if 200 ≤ code then
    if txn.request.method = bytes "INVITE" ∧ code < 300 then
      let result := { txn with
        timerJ := txn.timerJ.cancel, timerH := txn.timerH.cancel
        state := .terminated }.markTerminatedLocked
      (result.1, false, result.2)
    else ({ txn with state := .completed }, true, none)
  else (txn, false, none)

/-- The locked stretch of `acknowledgeAck`. -/
def acknowledge (txn : ServerTransaction τ) : ServerTransaction τ × Option τ :=
  if txn.request.method = bytes "INVITE" ∧ txn.state = .completed then
    { txn with timerH := txn.timerH.cancel, state := .terminated }.markTerminatedLocked
  else (txn, none)

/-- The locked stretch of a timer's handler. -/
def timeout (txn : ServerTransaction τ) : ServerTransaction τ × Option τ :=
  { txn with state := .terminated }.markTerminatedLocked

inductive TimerName where
  | j
  | h
deriving DecidableEq, Repr

def timer (txn : ServerTransaction τ) : TimerName → Timer
  | .j => txn.timerJ
  | .h => txn.timerH

def setTimer (txn : ServerTransaction τ) (timer : Timer) : TimerName → ServerTransaction τ
  | .j => { txn with timerJ := timer }
  | .h => { txn with timerH := timer }

def shutdown (txn : ServerTransaction τ) : ServerTransaction τ :=
  { txn with
    state := .terminated, terminationNotified := true, onTerminated := none
    timerJ := txn.timerJ.cancel, timerH := txn.timerH.cancel }

/-! What no step but `shutdown` changes, what each step does to the timers, and when it hands out
the callback. -/

def fixed (txn : ServerTransaction τ) : SipMessage × Option τ := (txn.request, txn.onTerminated)

variable {txn : ServerTransaction τ} {response : SipMessage} {callback : τ}

@[simp] theorem fixed_markTerminatedLocked : txn.markTerminatedLocked.1.fixed = txn.fixed := by
  rw [markTerminatedLocked]
  split
  · rfl
  · rfl

@[simp] theorem timer_markTerminatedLocked (name : TimerName) :
    txn.markTerminatedLocked.1.timer name = txn.timer name := by
  rw [markTerminatedLocked]
  split
  · rfl
  · cases name
    · rfl
    · rfl

theorem markTerminatedLocked_eq_some (h : txn.markTerminatedLocked.2 = some callback) :
    txn.onTerminated = some callback := by
  rw [markTerminatedLocked] at h
  split at h
  · cases h
  · exact h

@[simp] theorem fixed_startTimers (now : Nat) (code : Int) :
    (txn.startTimers now code).fixed = txn.fixed := by
  rw [startTimers]
  split
  · rfl
  · rfl

@[simp] theorem fixed_record : (txn.record response).1.fixed = txn.fixed := by
  simp only [record]
  split
  · rfl
  · split
    · split
      · rw [fixed_markTerminatedLocked]
        rfl
      · rfl
    · rfl

@[simp] theorem fixed_acknowledge : txn.acknowledge.1.fixed = txn.fixed := by
  rw [acknowledge]
  split
  · rw [fixed_markTerminatedLocked]
    rfl
  · rfl

@[simp] theorem fixed_setTimer (timer : Timer) (name : TimerName) :
    (txn.setTimer timer name).fixed = txn.fixed := by
  cases name
  · rfl
  · rfl

@[simp] theorem fixed_timeout : txn.timeout.1.fixed = txn.fixed := by
  rw [timeout, fixed_markTerminatedLocked]
  rfl

theorem timer_setTimer (timer : Timer) (name other : TimerName) :
    (txn.setTimer timer name).timer other = if other = name then timer else txn.timer other := by
  cases name <;> cases other <;> rfl

theorem covers_record (name : TimerName) :
    (txn.timer name).Covers ((txn.record response).1.timer name) := by
  simp only [record]
  split
  · cases name
    · exact Timer.covers_refl _
    · exact Timer.covers_refl _
  · split
    · split
      · rw [timer_markTerminatedLocked]
        cases name
        · exact Timer.covers_cancel _
        · exact Timer.covers_cancel _
      · cases name
        · exact Timer.covers_refl _
        · exact Timer.covers_refl _
    · cases name
      · exact Timer.covers_refl _
      · exact Timer.covers_refl _

theorem covers_acknowledge (name : TimerName) :
    (txn.timer name).Covers (txn.acknowledge.1.timer name) := by
  rw [acknowledge]
  split
  · rw [timer_markTerminatedLocked]
    cases name
    · exact Timer.covers_refl _
    · exact Timer.covers_cancel _
  · exact Timer.covers_refl _

theorem timer_timeout (name : TimerName) : txn.timeout.1.timer name = txn.timer name := by
  rw [timeout, timer_markTerminatedLocked]
  cases name
  · rfl
  · rfl

/-- The timers run for 32 s from now, or as they did. -/
theorem startTimers_cases (now : Nat) (code : Int) (name : TimerName) :
    (txn.timer name).Covers ((txn.startTimers now code).timer name) ∨
      (txn.startTimers now code).timer name = (txn.timer name).arm (now + 64 * kTimerT1) := by
  rw [startTimers]
  split
  · cases name
    · exact .inl (Timer.covers_cancel _)
    · exact .inr rfl
  · cases name
    · exact .inr rfl
    · exact .inl (Timer.covers_cancel _)

theorem acknowledge_eq_some (h : txn.acknowledge.2 = some callback) :
    txn.request.method = bytes "INVITE" ∧ txn.onTerminated = some callback := by
  rw [acknowledge] at h
  split at h
  · rename_i hmatched
    have hcallback := markTerminatedLocked_eq_some h
    exact ⟨hmatched.1, hcallback⟩
  · cases h

theorem timeout_eq_some (h : txn.timeout.2 = some callback) :
    txn.onTerminated = some callback := by
  rw [timeout] at h
  have hcallback := markTerminatedLocked_eq_some h
  exact hcallback

/-- The timers are started for a final response, and then nothing is called. -/
theorem record_starts (h : (txn.record response).2.1 = true) :
    (txn.record response).2.2 = none ∧ 200 ≤ response.statusCode := by
  simp only [record] at h ⊢
  split at h
  · cases h
  · split at h
    · rename_i hfinal
      split at h
      · cases h
      · rename_i hprovisional hother
        rw [if_neg hprovisional, if_pos hfinal, if_neg hother]
        exact ⟨rfl, hfinal⟩
    · cases h

theorem record_eq_some (h : (txn.record response).2.2 = some callback) :
    txn.request.method = bytes "INVITE" ∧ 200 ≤ response.statusCode ∧
      response.statusCode < 300 ∧ txn.onTerminated = some callback := by
  simp only [record] at h
  split at h
  · cases h
  · split at h
    · rename_i hfinal
      split at h
      · rename_i hinvite
        have hcallback := markTerminatedLocked_eq_some h
        exact ⟨hinvite.1, hfinal, hinvite.2, hcallback⟩
      · cases h
    · cases h

end ServerTransaction
end SimIms.Sip
