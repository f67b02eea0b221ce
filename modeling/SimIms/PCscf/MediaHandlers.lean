import SimIms.Lib.Machine
import SimIms.Rtp.MediaSession
import SimIms.Sip.Message

/-!
# How the P-CSCF drives the media sessions

`onInvite`, `onInviteResponse`, `onBye` and `onCancel` run on any thread and take the
manager's mutex several times, with requests to rtpengine and the PCF in between. A
running handler is what it still has to do, and one step of it is one stretch under the
mutex. Whether rtpengine has answered the request before is part of the label. What is
forwarded is left out, as is the rewriting of the bodies.

Anybody may call the manager at any time, too.
-/

namespace SimIms.PCscf

open Cxx Lib Rtp Sip

def mediaKeyForRequest (request : SipMessage) : MediaSessionKey :=
  ⟨request.callId, request.fromTag, request.toTag⟩

def mediaKeyForResponse (response : SipMessage) : MediaSessionKey :=
  ⟨response.callId, response.fromTag, response.toTag⟩

/-- The requests that end the media of their dialog. -/
inductive EndingMethod where
  | bye
  | cancel
deriving DecidableEq, Repr

inductive MediaHandler where
  | onInvite (key : MediaSessionKey) (sdp : Option Bytes)
  | offering (key : MediaSessionKey) (sdp : Bytes)
  | onInviteResponse (key : MediaSessionKey) (status : Int) (sdp : Option Bytes)
  | answering (update : InviteResponseMediaUpdate) (status : Int) (sdp : Bytes)
  | succeeding (key : MediaSessionKey)
  | completeMediaTerminations (plans : List MediaTerminationPlan)
  | terminateMediaForRequest (method : EndingMethod) (key : MediaSessionKey)
deriving DecidableEq, Repr

/-! ## The beginning of a handler -/

/-- A request from the core is forwarded to the UE without further ado. -/
def onInvite (request : SipMessage) (isCoreFacing : Bool) : Option MediaHandler :=
  if isCoreFacing then none
  else some (.onInvite (mediaKeyForRequest request) request.bodyText)

def onInviteResponse (response : SipMessage) : Option MediaHandler :=
  if ¬ response.isResponse ∨ response.cseqMethod ≠ bytes "INVITE" then none
  else some (.onInviteResponse (mediaKeyForResponse response) response.statusCode
    response.bodyText)

def onBye (request : SipMessage) : Option MediaHandler :=
  some (.terminateMediaForRequest .bye (mediaKeyForRequest request))

def onCancel (request : SipMessage) : Option MediaHandler :=
  some (.terminateMediaForRequest .cancel (mediaKeyForRequest request))

namespace MediaHandler

/-- `completeMediaTerminations`, which returns when there is nothing to complete. -/
def completing (plans : List MediaTerminationPlan) : Option MediaHandler :=
  if plans = [] then none else some (.completeMediaTerminations plans)

/-! ## One step of a handler -/

def isSuccess (status : Int) : Bool := 200 ≤ status ∧ status < 300

/-- The table after the next stretch under the mutex, what is left to do, and the plans
issued. `rtpengine` says whether there is one. -/
def step (rtpengine answered : Bool) (sessions : MediaSessions) :
    MediaHandler → MediaSessions × Option MediaHandler × List MediaTerminationPlan
  | .onInvite key sdp =>
      let (sessions, _) := sessions.createSession key
      (sessions, if rtpengine then sdp.map (.offering key) else none, [])
  | .offering key sdp =>
      if answered then (sessions.updateCallerSdp key sdp, none, []) else (sessions, none, [])
  | .onInviteResponse key status sdp =>
      if 300 ≤ status ∧ status ≤ 699 then
        let (sessions, plans) := sessions.markInviteFinalFailure key
        (sessions, completing plans, plans)
      else if status ≠ 183 ∧ (status < 200 ∨ 300 ≤ status) then (sessions, none, [])
      else
        match if rtpengine then sdp else none with
        | none =>
            if isSuccess status then
              let (sessions, plans) := sessions.markInviteFinalSuccess key
              (sessions, completing plans, plans)
            else (sessions, none, [])
        | some sdp =>
            let (sessions, update) := sessions.beginInviteResponse key
            (sessions, update.map (.answering · status sdp), [])
  | .answering update status sdp =>
      if answered then
        (sessions.commitInviteResponse update.key sdp (isSuccess status),
          if isSuccess status then some (.succeeding update.key) else none, [])
      else (sessions, none, [])
  | .succeeding key =>
      let (sessions, plans) := sessions.markInviteFinalSuccess key
      (sessions, completing plans, plans)
  | .completeMediaTerminations [] => (sessions, none, [])
  | .completeMediaTerminations (plan :: plans) =>
      (sessions.completeTermination plan.key, completing plans, [])
  | .terminateMediaForRequest _ key =>
      let (sessions, plan) := sessions.markTerminating key
      (sessions, completing plan.toList, plan.toList)

/-- The manager's method that the step calls. -/
def call (rtpengine answered : Bool) : MediaHandler → Option ManagerCall
  | .onInvite key _ => some (.createSession key)
  | .offering key sdp => if answered then some (.updateCallerSdp key sdp) else none
  | .onInviteResponse key status sdp =>
      if 300 ≤ status ∧ status ≤ 699 then some (.markInviteFinalFailure key)
      else if status ≠ 183 ∧ (status < 200 ∨ 300 ≤ status) then none
      else
        match if rtpengine then sdp else none with
        | none => if isSuccess status then some (.markInviteFinalSuccess key) else none
        | some _ => some (.beginInviteResponse key)
  | .answering update status sdp =>
      if answered then some (.commitInviteResponse update.key sdp (isSuccess status)) else none
  | .succeeding key => some (.markInviteFinalSuccess key)
  | .completeMediaTerminations [] => none
  | .completeMediaTerminations (plan :: _) => some (.completeTermination plan.key)
  | .terminateMediaForRequest _ key => some (.markTerminating key)

/-- A step does to the table what that method does, and nothing else. -/
theorem step_eq_call_run (rtpengine answered : Bool) (sessions : MediaSessions)
    (handler : MediaHandler) :
    ((handler.step rtpengine answered sessions).1, (handler.step rtpengine answered sessions).2.2) =
      match handler.call rtpengine answered with
      | none => (sessions, [])
      | some call => call.run sessions := by
  cases handler with
  | onInvite key sdp => rfl
  | offering key sdp =>
      rw [step, call]
      split
      · rfl
      · rfl
  | onInviteResponse key status sdp =>
      rw [step, call]
      split
      · rfl
      · split
        · rfl
        · split
          · split
            · rfl
            · rfl
          · rfl
  | answering update status sdp =>
      rw [step, call]
      split
      · rfl
      · rfl
  | succeeding key => rfl
  | completeMediaTerminations plans =>
      cases plans with
      | nil => rfl
      | cons plan plans => rfl
  | terminateMediaForRequest method key => rfl

end MediaHandler

/-! ## Runs -/

structure MediaState where
  sessions : MediaSessions
  handlers : Table Nat MediaHandler
  nextHandler : Nat

inductive MediaAction where
  | onInvite (request : SipMessage) (isCoreFacing : Bool)
  | onInviteResponse (response : SipMessage)
  | onBye (request : SipMessage)
  | onCancel (request : SipMessage)
  | advance (id : Nat) (answered : Bool)
  | call (call : ManagerCall)

namespace MediaState

def init : MediaState := { sessions := .empty, handlers := .empty, nextHandler := 0 }

def begin (s : MediaState) (handler : Option MediaHandler) : MediaState :=
  match handler with
  | none => s
  | some handler =>
      { s with
        handlers := s.handlers.insert s.nextHandler handler
        nextHandler := s.nextHandler + 1 }

/-- A handler goes on, or is done. -/
def setHandler (handlers : Table Nat MediaHandler) (id : Nat) :
    Option MediaHandler → Table Nat MediaHandler
  | none => handlers.erase id
  | some next => handlers.insert id next

def advance (s : MediaState) (rtpengine answered : Bool) (id : Nat) :
    Option (MediaState × List MediaTerminationPlan) :=
  match s.handlers.find id with
  | none => none
  | some handler =>
      let result := handler.step rtpengine answered s.sessions
      some ({ s with
        sessions := result.1
        handlers := setHandler s.handlers id result.2.1 }, result.2.2)

def step (rtpengine : Bool) (s : MediaState) :
    MediaAction → Option (MediaState × List MediaTerminationPlan)
  | .onInvite request isCoreFacing => some (s.begin (onInvite request isCoreFacing), [])
  | .onInviteResponse response => some (s.begin (onInviteResponse response), [])
  | .onBye request => some (s.begin (onBye request), [])
  | .onCancel request => some (s.begin (onCancel request), [])
  | .advance id answered => s.advance rtpengine answered id
  | .call call =>
      let (sessions, plans) := call.run s.sessions
      some ({ s with sessions }, plans)

end MediaState

/-- The media side of a P-CSCF; the events are the plans issued. -/
def mediaMachine (rtpengine : Bool) : Machine MediaState MediaAction MediaTerminationPlan :=
  ⟨MediaState.step rtpengine⟩

/-- The first INVITE of a call, without a body. -/
def ueInvite : SipMessage := dialogRequest "INVITE" (bytes "a") []

namespace MediaState

variable {s t : MediaState} {a : MediaAction} {plans : List MediaTerminationPlan}
variable {rtpengine : Bool}

/-- The manager's method that an action calls. -/
def calls (rtpengine : Bool) (s : MediaState) : MediaAction → Option ManagerCall
  | .advance id answered => (s.handlers.find id).bind (·.call rtpengine answered)
  | .call call => some call
  | _ => none

/-- What a step of the system does to the table. -/
theorem step_sessions (hstep : s.step rtpengine a = some (t, plans)) :
    (t.sessions, plans) =
      match s.calls rtpengine a with
      | none => (s.sessions, [])
      | some call => call.run s.sessions := by
  have hbegin : ∀ handler : Option MediaHandler, (s.begin handler).sessions = s.sessions := by
    intro handler
    cases handler
    · rfl
    · rfl
  cases a with
  | onInvite request isCoreFacing =>
      cases hstep
      exact congrArg (·, []) (hbegin _)
  | onInviteResponse response =>
      cases hstep
      exact congrArg (·, []) (hbegin _)
  | onBye request =>
      cases hstep
      exact congrArg (·, []) (hbegin _)
  | onCancel request =>
      cases hstep
      exact congrArg (·, []) (hbegin _)
  | advance id answered =>
      rw [step, advance] at hstep
      rw [calls]
      cases hh : s.handlers.find id with
      | none =>
          rw [hh] at hstep
          cases hstep
      | some handler =>
          rw [hh] at hstep
          cases hstep
          exact handler.step_eq_call_run rtpengine answered s.sessions
  | call call =>
      cases hstep
      rfl

@[simp] theorem find_setHandler (handlers : Table Nat MediaHandler) (id other : Nat)
    (next : Option MediaHandler) :
    (setHandler handlers id next).find other = if other = id then next
      else handlers.find other := by
  cases next with
  | none => exact Table.find_erase handlers id other
  | some next => exact Table.find_insert handlers id next other

theorem step_of_calls {call : ManagerCall} (hcall : s.calls rtpengine a = some call)
    (hstep : s.step rtpengine a = some (t, plans)) :
    t.sessions = (call.run s.sessions).1 ∧ plans = (call.run s.sessions).2 := by
  have htable := step_sessions hstep
  rw [hcall] at htable
  exact ⟨congrArg (·.1) htable, congrArg (·.2) htable⟩

theorem step_of_not_calls (hcall : s.calls rtpengine a = none)
    (hstep : s.step rtpengine a = some (t, plans)) :
    t.sessions = s.sessions ∧ plans = [] := by
  have htable := step_sessions hstep
  rw [hcall] at htable
  exact ⟨congrArg (·.1) htable, congrArg (·.2) htable⟩

end MediaState
end SimIms.PCscf
