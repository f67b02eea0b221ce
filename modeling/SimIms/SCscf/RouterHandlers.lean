import SimIms.SCscf.SessionRouter
import SimIms.Sip.SipStack

/-!
# The session router on its stack

The handlers and response callbacks of `SessionRouter` as programs: what they do under
`sessions_mutex_` is one operation on the table each, and what they send goes through the stack.
`RouterState` is what these operations come to when no handler is interrupted.
-/

namespace SimIms.SCscf

open Cxx Lib Sip

/-! ## The locked stretches -/

namespace Sessions

def byeTarget (sessions : Sessions) (request : SipMessage) :
    Sessions × Option (DialogKey × Endpoint) :=
  match sessions.inDialogTarget request with
  | none => (sessions, none)
  | some (key, dest) =>
      (sessions.modify key fun session => { session with byeSeen := true }, some (key, dest))

def ackTarget (sessions : Sessions) (request : SipMessage) : Sessions × Option Endpoint :=
  match sessions.findSessionForRequestLocked request with
  | none =>
      let key : DialogKey := ⟨request.callId, request.fromTag, []⟩
      match sessions.find key with
      | none => (sessions, none)
      | some initial =>
          if initial.cancelSeen then
            (sessions.eraseCanceledSessionsLocked key, some initial.calleeEndpoint)
          else (sessions, none)
  | some key =>
      match sessions.find key with
      | none => (sessions, none)
      | some session =>
          match resolveInDialogDestination request session with
          | none => (sessions, none)
          | some dest =>
              (if session.cancelSeen then sessions.eraseCanceledSessionsLocked key else sessions,
                some dest)

/-- The session is returned as a copy. -/
def cancelTarget (sessions : Sessions) (request : SipMessage) : Sessions × Option SessionInfo :=
  match sessions.findCancelSessionLocked request with
  | none => (sessions, none)
  | some key =>
      match sessions.find key with
      | none => (sessions, none)
      | some session =>
          (sessions.modify key fun session => { session with cancelSeen := true },
            some { session with cancelSeen := true })

def byeAnswered (sessions : Sessions) (sessionKey : DialogKey) : Sessions :=
  if (sessions.find sessionKey).any SessionInfo.byeSeen then sessions.erase sessionKey
  else sessions

end Sessions

namespace RouterState

variable (s : RouterState) (request : SipMessage)

theorem handleAck_eq : s.handleAck request =
    ({ s with sessions := (s.sessions.ackTarget request).1 },
      (s.sessions.ackTarget request).2.toList.map .forwarded) := by
  rw [handleAck, Sessions.ackTarget]
  cases s.sessions.findSessionForRequestLocked request with
  | none =>
      dsimp only
      cases Table.find s.sessions ⟨request.callId, request.fromTag, []⟩ with
      | none => rfl
      | some initial =>
          dsimp only
          split
          · rfl
          · rfl
  | some key =>
      dsimp only
      cases Table.find s.sessions key with
      | none => rfl
      | some session =>
          dsimp only
          cases Sessions.resolveInDialogDestination request session with
          | none => rfl
          | some dest =>
              dsimp only
              split
              · rfl
              · rfl

theorem handleCancel_eq : s.handleCancel request =
    match s.sessions.cancelTarget request with
    | (_, none) => (s, [.answered 200])
    | (sessions, some session) =>
        (send { s with sessions } .cancel, [.answered 200, .forwarded session.calleeEndpoint]) := by
  rw [handleCancel, Sessions.cancelTarget]
  cases s.sessions.findCancelSessionLocked request with
  | none => rfl
  | some key =>
      dsimp only
      cases Table.find s.sessions key with
      | none => rfl
      | some session => rfl

end RouterState

/-! ## Operations -/

/-- An initial INVITE with the contact that it is sent to, if there is one. -/
structure RoutedInvite where
  target : InviteTarget
  uri : Bytes
deriving DecidableEq, Repr

/-- `inviteTarget` is what the registration store says of the callee, `answer` what the registrar
or the notifier says to a request of theirs. -/
inductive SessionOp where
  | inviteTarget (request : SipMessage)
  | answer (request : SipMessage)
  | inDialogTarget (request : SipMessage)
  | recordInvite (request : SipMessage) (source : Endpoint) (target : InviteTarget) (branch : Bytes)
  | byeTarget (request : SipMessage)
  | ackTarget (request : SipMessage)
  | cancelTarget (request : SipMessage)
  | inviteResponse (callId callerTag : Bytes) (response : SipMessage)
  | byeAnswered (sessionKey : DialogKey)

abbrev SessionAnswer : SessionOp → Type
  | .inviteTarget _ => Except (Int × Bytes) RoutedInvite
  | .answer _ => Option SipMessage
  | .inDialogTarget _ => Option Endpoint
  | .recordInvite _ _ _ _ => Unit
  | .byeTarget _ => Option (DialogKey × Endpoint)
  | .ackTarget _ => Option Endpoint
  | .cancelTarget _ => Option SessionInfo
  | .inviteResponse _ _ _ => Unit
  | .byeAnswered _ => Unit

def sessionOps : Interface := ⟨SessionOp, SessionAnswer⟩

/-- An INVITE has been put down, with the branch and the endpoint that it is sent with. -/
inductive SessionEvent where
  | recorded (request : SipMessage) (branch : Bytes) (dest : Endpoint)
deriving DecidableEq, Repr

structure SessionEnvironment where
  target : Except (Int × Bytes) RoutedInvite := .error (404, bytes "Not Found")
  answer : Option SipMessage := none

def serveSessions : ServiceData Sessions sessionOps SessionEnvironment SessionEvent
  | sessions, _, .inviteTarget _, environment => (sessions, environment.target, [])
  | sessions, _, .answer _, environment => (sessions, environment.answer, [])
  | sessions, _, .inDialogTarget request, _ =>
      (sessions, (sessions.inDialogTarget request).map Prod.snd, [])
  | sessions, now, .recordInvite request source target branch, _ =>
      (RouterState.recordInvite sessions request source target branch now, (),
        [.recorded request branch target.dest])
  | sessions, _, .byeTarget request, _ =>
      ((sessions.byeTarget request).1, (sessions.byeTarget request).2, [])
  | sessions, _, .ackTarget request, _ =>
      ((sessions.ackTarget request).1, (sessions.ackTarget request).2, [])
  | sessions, _, .cancelTarget request, _ =>
      ((sessions.cancelTarget request).1, (sessions.cancelTarget request).2, [])
  | sessions, now, .inviteResponse callId callerTag response, _ =>
      (sessions.handleInviteResponseState callId callerTag response now, (), [])
  | sessions, _, .byeAnswered sessionKey, _ => (sessions.byeAnswered sessionKey, (), [])

/-! ## Handlers -/

/-- A response callback, with the server transaction that it has captured. -/
structure UpstreamCallback where
  upstream : Nat
  callback : RouterCallback
deriving DecidableEq, Repr

namespace SessionRouter

open SipStack (perform respond sendRequest sendResponse relay)

abbrev Method := SipStack.Method UpstreamCallback sessionOps

def session (op : SessionOp) : Method (SessionAnswer op) :=
  perform (κ := UpstreamCallback) (E := sessionOps) (.service op)

variable [OsipParser] (proxy : ProxyCore)

def callDoesNotExist (txn : Nat) (request : SipMessage) : Method Unit :=
  respond txn request 481 (bytes "Call/Transaction Does Not Exist")

/-- The request with the router's `Via`, which has a new branch. -/
def prepare (request : SipMessage) (dest : Endpoint) : Method (Result SipMessage) := do
  let branch ← perform .generateBranch
  Program.ofExcept
    (proxy.prepareRequestForForward (proxy.processRouteHeaders request) dest.transport branch)

/-- The session of an INVITE outside of a dialog. -/
def recordInvite (request : SipMessage) (source : Endpoint) (branch : Bytes) :
    Option InviteTarget → Method Unit
  | none => return ()
  | some target => session (.recordInvite request source target branch)

def forwardInvite (txn : Nat) (request forwarded : SipMessage) (source dest : Endpoint)
    (target : Option InviteTarget) : Method Unit := do
  match ← prepare proxy forwarded dest with
  | .error _ => respond txn request 500 (bytes "Server Internal Error")
  | .ok prepared =>
      recordInvite request source prepared.viaBranch target
      let _ ← sendRequest prepared dest
        (some ⟨txn, .invite request.callId request.fromTag target.isNone⟩)
      return ()

def handleInvite (txn : Nat) (request : SipMessage) (source : Endpoint) : Method Unit := do
  respond txn request 100 (bytes "Trying")
  if isInDialogRequest request then
    match ← session (.inDialogTarget request) with
    | none => callDoesNotExist txn request
    | some dest => forwardInvite proxy txn request request source dest none
  else
    match ← session (.inviteTarget request) with
    | .error (code, reason) => respond txn request code reason
    | .ok routed =>
        forwardInvite proxy txn request
          (if routed.uri = [] then request else request.setRequestUri routed.uri) source
          routed.target.dest (some routed.target)

def forwardInDialog (txn : Nat) (request : SipMessage) (dest : Endpoint)
    (callback : RouterCallback) : Method Unit := do
  match ← prepare proxy request dest with
  | .error _ => respond txn request 500 (bytes "Server Internal Error")
  | .ok prepared =>
      let _ ← sendRequest prepared dest (some ⟨txn, callback⟩)
      return ()

def handleBye (txn : Nat) (request : SipMessage) : Method Unit := do
  match ← session (.byeTarget request) with
  | none => callDoesNotExist txn request
  | some (key, dest) => forwardInDialog proxy txn request dest (.bye key)

def handlePrack (txn : Nat) (request : SipMessage) : Method Unit := do
  match ← session (.inDialogTarget request) with
  | none => callDoesNotExist txn request
  | some dest => forwardInDialog proxy txn request dest .prack

def handleAck (request : SipMessage) : Method Unit := do
  match ← session (.ackTarget request) with
  | none => return ()
  | some dest => SipStack.forwardRequest proxy (proxy.processRouteHeaders request) dest

/-- A branch is drawn for the case that the INVITE had none. -/
def handleCancel (txn : Nat) (request : SipMessage) : Method Unit := do
  respond txn request 200 (bytes "OK")
  match ← session (.cancelTarget request) with
  | none => return ()
  | some found =>
      let branch ← perform .generateBranch
      let cancel ← Program.ofExcept (proxy.buildForwardedCancel request
        { transport := found.calleeEndpoint.transport, inviteBranch := found.calleeInviteBranch
          localAddress := proxy.localAddress, localPort := proxy.localPort } branch)
      let _ ← sendRequest cancel found.calleeEndpoint (some ⟨txn, .cancel⟩)
      return ()

/-- REGISTER and SUBSCRIBE are not the router's. -/
def answerOther (txn : Nat) (request : SipMessage) : Method Unit := do
  match ← session (.answer request) with
  | none => return ()
  | some response =>
      let _ ← sendResponse txn response
      return ()

def onRequest (txn : Nat) (request : SipMessage) (source : Endpoint) : Method Unit :=
  if request.method = bytes "INVITE" then handleInvite proxy txn request source
  else if request.method = bytes "BYE" then handleBye proxy txn request
  else if request.method = bytes "ACK" then handleAck proxy request
  else if request.method = bytes "CANCEL" then handleCancel proxy txn request
  else if request.method = bytes "PRACK" then handlePrack proxy txn request
  else if request.method = bytes "REGISTER" ∨ request.method = bytes "SUBSCRIBE" then
    answerOther txn request
  else respond txn request 405 (bytes "Method Not Allowed")

/-- What the table is told of an INVITE's response. -/
def inviteResponse (callId fromTag : Bytes) (response : SipMessage) (inDialog : Bool) :
    Method Unit :=
  if inDialog then return () else session (.inviteResponse callId fromTag response)

def onResponse (captured : UpstreamCallback) (response : SipMessage) : Method Unit := do
  match captured.callback with
  | .invite callId fromTag inDialog =>
      inviteResponse callId fromTag response inDialog
      let _ ← relay captured.upstream response
      return ()
  | .bye sessionKey =>
      if ← relay captured.upstream response then
        if 200 ≤ response.statusCode ∧ response.statusCode < 300 then
          session (.byeAnswered sessionKey)
        else return ()
      else return ()
  | .prack =>
      let _ ← relay captured.upstream response
      return ()
  | .cancel => return ()

def handlers : StackHandlers UpstreamCallback sessionOps := ⟨onRequest proxy, onResponse⟩

end SessionRouter

end SimIms.SCscf
