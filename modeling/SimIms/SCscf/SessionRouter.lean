import SimIms.Lib.Machine
import SimIms.Lib.Table
import SimIms.Sip.Message

/-!
# The session table of the S-CSCF

`SessionRouter` keeps one entry for each dialog and one, without a callee tag, for each
INVITE whose dialogs are not known yet. Every handler and every response callback takes
`sessions_mutex_` once, so each is one step. What the registration store, the proxy and
the transport contribute is part of the label: the target of an initial INVITE, the branch
of the forwarded request or `none` when it cannot be prepared, and whether a response was
relayed. An iterator is the key it points to.
-/

namespace SimIms.SCscf

open Cxx Lib Sip

structure DialogKey where
  callId : Bytes
  callerTag : Bytes
  calleeTag : Bytes := []
deriving DecidableEq, Repr

structure SessionInfo where
  callId : Bytes
  callerTag : Bytes
  calleeTag : Bytes
  callerImpu : Bytes
  calleeImpu : Bytes
  callerEndpoint : Endpoint
  calleeEndpoint : Endpoint
  calleeInviteBranch : Bytes
  created : Nat
  lastUpdated : Nat
  established : Bool
  byeSeen : Bool
  cancelSeen : Bool
deriving DecidableEq, Repr

abbrev Sessions := Table DialogKey SessionInfo

def kInviteSessionTtl : Nat := 3 * 60 * 1000

def isInDialogRequest (request : SipMessage) : Bool := request.toTag ≠ []

/-! ## The locked methods -/

namespace Sessions

def directKey (request : SipMessage) : DialogKey :=
  ⟨request.callId, request.fromTag, request.toTag⟩

def reverseKey (request : SipMessage) : DialogKey :=
  ⟨request.callId, request.toTag, request.fromTag⟩

def findSessionForRequestLocked (sessions : Sessions) (request : SipMessage) :
    Option DialogKey :=
  if sessions.contains (directKey request) then some (directKey request)
  else if sessions.contains (reverseKey request) then some (reverseKey request)
  else none

def findInitialSessionLocked (sessions : Sessions) (callId callerTag : Bytes) :
    Option DialogKey :=
  if sessions.contains ⟨callId, callerTag, []⟩ then some ⟨callId, callerTag, []⟩ else none

def findCancelSessionLocked (sessions : Sessions) (request : SipMessage) : Option DialogKey :=
  match sessions.findInitialSessionLocked request.callId request.fromTag with
  | some key => some key
  | none => sessions.findSessionForRequestLocked request

def resolveInDialogDestination (request : SipMessage) (session : SessionInfo) :
    Option Endpoint :=
  if session.cancelSeen ∧ session.calleeTag = [] ∧ request.fromTag = session.callerTag ∧
      request.toTag = [] then some session.calleeEndpoint
  else if session.calleeTag ≠ [] ∧ request.fromTag = session.callerTag ∧
      request.toTag = session.calleeTag then some session.calleeEndpoint
  else if session.calleeTag ≠ [] ∧ request.fromTag = session.calleeTag ∧
      request.toTag = session.callerTag then some session.callerEndpoint
  else none

/-- The lookup that in-dialog INVITE, BYE and PRACK have in common: the session, and where
the request goes. -/
def inDialogTarget (sessions : Sessions) (request : SipMessage) :
    Option (DialogKey × Endpoint) :=
  match sessions.findSessionForRequestLocked request with
  | none => none
  | some key =>
      match sessions.find key with
      | none => none
      | some session => (resolveInDialogDestination request session).map (key, ·)

def recordInviteResponseDialogLocked (sessions : Sessions)
    (callId callerTag calleeTag : Bytes) (established : Bool) (now : Nat) : Sessions :=
  let dialogKey : DialogKey := ⟨callId, callerTag, calleeTag⟩
  if sessions.contains dialogKey then
    sessions.modify dialogKey fun session =>
      { session with established := session.established || established, lastUpdated := now }
  else
    match sessions.find ⟨callId, callerTag, []⟩ with
    | none => sessions
    | some initial =>
        sessions.insert dialogKey { initial with calleeTag, lastUpdated := now, established }

def eraseInviteSessionsLocked (sessions : Sessions) (callId callerTag : Bytes) : Sessions :=
  sessions.eraseIf fun key session =>
    key.callId = callId ∧ key.callerTag = callerTag ∧
      (key.calleeTag = [] ∨ ¬ session.established)

def purgeExpiredSessionsLocked (sessions : Sessions) (now : Nat) : Sessions :=
  sessions.eraseIf fun _ session =>
    ¬ session.established ∧ kInviteSessionTtl ≤ now - session.lastUpdated

def eraseCanceledSessionsLocked (sessions : Sessions) (key : DialogKey) : Sessions :=
  let callerTag := if key.callerTag = [] then key.calleeTag else key.callerTag
  let sessions : Sessions := sessions.erase ⟨key.callId, callerTag, []⟩
  if key.calleeTag = [] then sessions else sessions.erase key

def handleInviteResponseState (sessions : Sessions) (callId callerTag : Bytes)
    (response : SipMessage) (now : Nat) : Sessions :=
  let status := response.statusCode
  let calleeTag := response.toTag
  let sessions := sessions.purgeExpiredSessionsLocked now
  if status = 100 then sessions
  else if 100 < status ∧ status < 200 ∧ calleeTag ≠ [] then
    sessions.recordInviteResponseDialogLocked callId callerTag calleeTag false now
  else if 200 ≤ status ∧ status < 300 then
    let sessions :=
      if calleeTag ≠ [] then
        sessions.recordInviteResponseDialogLocked callId callerTag calleeTag true now
      else sessions
    sessions.erase ⟨callId, callerTag, []⟩
  else if 300 ≤ status ∧ status ≤ 699 then
    sessions.eraseInviteSessionsLocked callId callerTag
  else sessions

end Sessions

/-! ## Handlers and callbacks -/

/-- What the registration store and the peer I-CSCF determine for an initial INVITE. -/
structure InviteTarget where
  calleeImpu : Bytes
  dest : Endpoint
deriving DecidableEq, Repr

/-- What a response callback has captured. -/
inductive RouterCallback where
  | invite (callId fromTag : Bytes) (inDialog : Bool)
  | bye (sessionKey : DialogKey)
  | prack
  | cancel
deriving DecidableEq, Repr

inductive RouterEvent where
  | answered (status : Int)
  | forwarded (dest : Endpoint)
deriving DecidableEq, Repr

structure RouterState where
  sessions : Sessions
  callbacks : Table Nat RouterCallback
  nextCallback : Nat

namespace RouterState

def init : RouterState := { sessions := .empty, callbacks := .empty, nextCallback := 0 }

/-- `sendRequest` with this callback. -/
def send (s : RouterState) (callback : RouterCallback) : RouterState :=
  { s with
    callbacks := s.callbacks.insert s.nextCallback callback
    nextCallback := s.nextCallback + 1 }

/-- The session of an initial INVITE. An entry that is there keeps `cancelSeen`. -/
def recordInvite (sessions : Sessions) (request : SipMessage) (source : Endpoint)
    (target : InviteTarget) (branch : Bytes) (now : Nat) : Sessions :=
  let sessions := sessions.purgeExpiredSessionsLocked now
  let key : DialogKey := ⟨request.callId, request.fromTag, []⟩
  let cancelSeen := ((sessions.find key).map SessionInfo.cancelSeen).getD false
  sessions.insert key
    { callId := request.callId, callerTag := request.fromTag, calleeTag := []
      callerImpu := request.fromHeader, calleeImpu := target.calleeImpu
      callerEndpoint := source, calleeEndpoint := target.dest, calleeInviteBranch := branch
      created := now, lastUpdated := now, established := false, byeSeen := false, cancelSeen }

def handleInvite (s : RouterState) (request : SipMessage) (source : Endpoint)
    (target : Except Int InviteTarget) (branch : Option Bytes) (now : Nat) :
    RouterState × List RouterEvent :=
  if isInDialogRequest request then
    match s.sessions.inDialogTarget request with
    | none => (s, [.answered 100, .answered 481])
    | some (_, dest) =>
        match branch with
        | none => (s, [.answered 100, .answered 500])
        | some _ =>
            (s.send (.invite request.callId request.fromTag true),
              [.answered 100, .forwarded dest])
  else
    match target with
    | .error status => (s, [.answered 100, .answered status])
    | .ok target =>
        match branch with
        | none => (s, [.answered 100, .answered 500])
        | some branch =>
            (send { s with sessions := recordInvite s.sessions request source target branch now }
                (.invite request.callId request.fromTag false),
              [.answered 100, .forwarded target.dest])

def handleBye (s : RouterState) (request : SipMessage) (branch : Option Bytes) :
    RouterState × List RouterEvent :=
  match s.sessions.inDialogTarget request with
  | none => (s, [.answered 481])
  | some (key, dest) =>
      let s := { s with sessions := s.sessions.modify key fun session =>
        { session with byeSeen := true } }
      match branch with
      | none => (s, [.answered 500])
      | some _ => (s.send (.bye key), [.forwarded dest])

def handlePrack (s : RouterState) (request : SipMessage) (branch : Option Bytes) :
    RouterState × List RouterEvent :=
  match s.sessions.inDialogTarget request with
  | none => (s, [.answered 481])
  | some (_, dest) =>
      match branch with
      | none => (s, [.answered 500])
      | some _ => (s.send .prack, [.forwarded dest])

def handleAck (s : RouterState) (request : SipMessage) : RouterState × List RouterEvent :=
  match s.sessions.findSessionForRequestLocked request with
  | none =>
      let key : DialogKey := ⟨request.callId, request.fromTag, []⟩
      match s.sessions.find key with
      | none => (s, [])
      | some initial =>
          if initial.cancelSeen then
            ({ s with sessions := s.sessions.eraseCanceledSessionsLocked key },
              [.forwarded initial.calleeEndpoint])
          else (s, [])
  | some key =>
      match s.sessions.find key with
      | none => (s, [])
      | some session =>
          match Sessions.resolveInDialogDestination request session with
          | none => (s, [])
          | some dest =>
              (if session.cancelSeen then
                { s with sessions := s.sessions.eraseCanceledSessionsLocked key }
              else s, [.forwarded dest])

def handleCancel (s : RouterState) (request : SipMessage) : RouterState × List RouterEvent :=
  match s.sessions.findCancelSessionLocked request with
  | none => (s, [.answered 200])
  | some key =>
      match s.sessions.find key with
      | none => (s, [.answered 200])
      | some session =>
          (send { s with sessions := s.sessions.modify key fun session =>
              { session with cancelSeen := true } } .cancel,
            [.answered 200, .forwarded session.calleeEndpoint])

/-- A callback is called with a response. -/
def handleResponse (s : RouterState) (callback : RouterCallback) (response : SipMessage)
    (relayed : Bool) (now : Nat) : RouterState :=
  match callback with
  | .invite callId fromTag inDialog =>
      if inDialog then s
      else { s with
        sessions := s.sessions.handleInviteResponseState callId fromTag response now }
  | .bye sessionKey =>
      if relayed ∧ 200 ≤ response.statusCode ∧ response.statusCode < 300 ∧
          ((s.sessions.find sessionKey).any SessionInfo.byeSeen) then
        { s with sessions := s.sessions.erase sessionKey }
      else s
  | .prack => s
  | .cancel => s

end RouterState

/-! ## Runs -/

inductive RouterAction where
  | invite (request : SipMessage) (source : Endpoint) (target : Except Int InviteTarget)
      (branch : Option Bytes) (now : Nat)
  | bye (request : SipMessage) (branch : Option Bytes)
  | prack (request : SipMessage) (branch : Option Bytes)
  | ack (request : SipMessage)
  | cancel (request : SipMessage)
  | response (callback : Nat) (response : SipMessage) (relayed : Bool) (now : Nat)

def RouterState.step (s : RouterState) :
    RouterAction → Option (RouterState × List RouterEvent)
  | .invite request source target branch now =>
      some (s.handleInvite request source target branch now)
  | .bye request branch => some (s.handleBye request branch)
  | .prack request branch => some (s.handlePrack request branch)
  | .ack request => some (s.handleAck request)
  | .cancel request => some (s.handleCancel request)
  | .response callback response relayed now =>
      match s.callbacks.find callback with
      | none => none
      | some callback => some (s.handleResponse callback response relayed now, [])

def routerMachine : Machine RouterState RouterAction RouterEvent := ⟨RouterState.step⟩

namespace RouterState

variable {s t : RouterState} {a : RouterAction} {out : List RouterEvent}

/-- What a step may do to the table. -/
inductive Change (s : RouterState) : RouterAction → Sessions → Prop where
  | kept {a : RouterAction} : Change s a s.sessions
  | recorded {a : RouterAction} (request : SipMessage) (source : Endpoint)
      (target : InviteTarget) (branch : Bytes) (now : Nat) :
      Change s a (recordInvite s.sessions request source target branch now)
  | byeMarked {a : RouterAction} (key : DialogKey) :
      Change s a (s.sessions.modify key fun session => { session with byeSeen := true })
  | cancelMarked {a : RouterAction} (key : DialogKey) :
      Change s a (s.sessions.modify key fun session => { session with cancelSeen := true })
  | canceled {request : SipMessage} {key : DialogKey} {session : SessionInfo}
      (hkey : s.sessions.findSessionForRequestLocked request = some key ∨ key.calleeTag = [])
      (hfind : s.sessions.find key = some session) (hseen : session.cancelSeen = true) :
      Change s (.ack request) (s.sessions.eraseCanceledSessionsLocked key)
  | answered {a : RouterAction} (callId fromTag : Bytes) (response : SipMessage) (now : Nat) :
      Change s a (s.sessions.handleInviteResponseState callId fromTag response now)
  | ended {callback : Nat} {key : DialogKey} {response : SipMessage} {relayed : Bool} {now : Nat}
      (hcallback : s.callbacks.find callback = some (.bye key))
      (hlow : 200 ≤ response.statusCode) (hhigh : response.statusCode < 300) :
      Change s (.response callback response relayed now) (s.sessions.erase key)

theorem handleAck_change (s : RouterState) (request : SipMessage) :
    Change s (.ack request) (s.handleAck request).1.sessions := by
  rw [handleAck]
  split
  · simp only
    split
    · exact .kept
    · rename_i initial hinitial
      split
      · exact .canceled (.inr rfl) hinitial ‹_›
      · exact .kept
  · rename_i key hkey
    split
    · exact .kept
    · rename_i session hfind
      split
      · exact .kept
      · simp only
        split
        · exact .canceled (.inl hkey) hfind ‹_›
        · exact .kept

theorem handleInvite_change (s : RouterState) (request : SipMessage) (source : Endpoint)
    (target : Except Int InviteTarget) (branch : Option Bytes) (now : Nat) :
    Change s a (s.handleInvite request source target branch now).1.sessions := by
  unfold handleInvite
  split
  · split
    · exact .kept
    · split
      · exact .kept
      · exact .kept
  · split
    · exact .kept
    · split
      · exact .kept
      · exact .recorded request source _ _ now

theorem step_change (hstep : s.step a = some (t, out)) : Change s a t.sessions := by
  cases a with
  | invite request source target branch now =>
      have heq : (s.handleInvite request source target branch now).1 = t :=
        congrArg Prod.fst (Option.some.inj hstep)
      rw [← heq]
      exact handleInvite_change s request source target branch now
  | bye request branch =>
      rw [step, handleBye] at hstep
      split at hstep
      · cases hstep
        exact .kept
      · split at hstep
        · cases hstep
          exact .byeMarked _
        · cases hstep
          exact .byeMarked _
  | prack request branch =>
      rw [step, handlePrack] at hstep
      split at hstep
      · cases hstep
        exact .kept
      · split at hstep
        · cases hstep
          exact .kept
        · cases hstep
          exact .kept
  | ack request =>
      have heq : (s.handleAck request).1 = t := congrArg Prod.fst (Option.some.inj hstep)
      rw [← heq]
      exact handleAck_change s request
  | cancel request =>
      rw [step, handleCancel] at hstep
      split at hstep
      · cases hstep
        exact .kept
      · split at hstep
        · cases hstep
          exact .kept
        · cases hstep
          exact .cancelMarked _
  | response callback response relayed now =>
      rw [step] at hstep
      split at hstep
      · cases hstep
      · rename_i token htoken
        cases hstep
        cases token with
        | invite callId fromTag inDialog =>
            cases inDialog
            · exact .answered callId fromTag response now
            · exact .kept
        | bye sessionKey =>
            rw [handleResponse]
            split
            · rename_i hended
              exact .ended htoken hended.2.1 hended.2.2.1
            · exact .kept
        | prack => exact .kept
        | cancel => exact .kept

end RouterState
end SimIms.SCscf
