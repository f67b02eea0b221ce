import SimIms.Lib.Outcome
import SimIms.Sip.Headers

/-!
# The proxy core

What a hop does to a request before it goes out: Max-Forwards is counted down and a `Via` with a
new branch is put on top. The branch is drawn by the caller. Record-Route values, which nothing
here reads, are left out.
-/

namespace SimIms.Sip

open Cxx Lib

/-! ## Max-Forwards and Route -/

namespace SipMessage

/-- Max-Forwards is stored among the other fields. -/
def isMaxForwards (header : Header) : Bool := sameName header.name (bytes "max-forwards")

/-- The number, or -1 where there is none. An ill-formed one throws. -/
def maxForwards (msg : SipMessage) : Except Exception Int :=
  match (msg.headers.find? isMaxForwards).bind Header.value with
  | none => .ok (-1)
  | some value => stoi value

def setMaxForwards (msg : SipMessage) (value : Int) : SipMessage :=
  match msg.headers.findIdx? isMaxForwards with
  | none => msg.addHeader (bytes "Max-Forwards") (decimalInt value)
  | some i =>
      { msg with headers := msg.headers.modify i fun header =>
          { header with value := some (decimalInt value) } }

def decrementMaxForwards (msg : SipMessage) : Except Exception SipMessage := do
  let mf ← msg.maxForwards
  return if 0 < mf then msg.setMaxForwards (mf - 1) else msg

def removeTopRoute (msg : SipMessage) : SipMessage := { msg with routes := msg.routes.drop 1 }

@[simp] theorem vias_setMaxForwards (msg : SipMessage) (value : Int) :
    (msg.setMaxForwards value).vias = msg.vias := by
  rw [setMaxForwards]
  split
  · rfl
  · rfl

@[simp] theorem start_setMaxForwards (msg : SipMessage) (value : Int) :
    (msg.setMaxForwards value).start = msg.start := by
  rw [setMaxForwards]
  split
  · rfl
  · rfl

theorem start_of_decrementMaxForwards {msg decremented : SipMessage}
    (h : msg.decrementMaxForwards = .ok decremented) : decremented.start = msg.start := by
  obtain ⟨mf, -, h⟩ := exists_of_bind_eq_ok h
  cases h
  split
  · exact start_setMaxForwards _ _
  · rfl

theorem vias_of_decrementMaxForwards {msg decremented : SipMessage}
    (h : msg.decrementMaxForwards = .ok decremented) : decremented.vias = msg.vias := by
  obtain ⟨mf, -, h⟩ := exists_of_bind_eq_ok h
  cases h
  split
  · exact vias_setMaxForwards _ _
  · rfl

end SipMessage

/-! ## The proxy -/

structure ForwardOptions where
  processRouteHeaders : Bool := true
  detectLoop : Bool := true

structure CancelForwardContext where
  transport : Bytes := bytes "udp"
  inviteBranch : Bytes := []
  localAddress : Bytes
  localPort : UInt16 := 5060
  decrementMaxForwards : Bool := true
  processRouteHeaders : Bool := true

/-- What becomes of a request on the stateful path. Once it is forwarded, the responses from
downstream answer it. -/
inductive StatefulOutcome where
  | answered (statusCode : Int)
  | forwarded
deriving DecidableEq, Repr

structure ProxyCore where
  localAddress : Bytes
  localPort : UInt16

/-- The `Via` of a hop. -/
def hopVia (transport address : Bytes) (port : UInt16) (branch : Bytes) : Via :=
  { protocol := (if transport = [] then bytes "udp" else transport).map toUpper
    host := address, port := some (decimal port.toNat)
    params := [⟨bytes "branch", some branch⟩, ⟨bytes "rport", none⟩] }

@[simp] theorem branchOf_hopVia (transport address : Bytes) (port : UInt16) (branch : Bytes) :
    SipMessage.branchOf (hopVia transport address port branch) = some branch := by
  rw [SipMessage.branchOf, hopVia, paramValue, List.find?_cons_of_pos (by rfl)]
  rfl

namespace ProxyCore

variable (proxy : ProxyCore)

def via (transport branch : Bytes) : Via :=
  hopVia transport proxy.localAddress proxy.localPort branch

def prepareRequestForForward (msg : SipMessage) (transport branch : Bytes) :
    Except Exception (Result SipMessage) := do
  let mf ← msg.maxForwards
  if mf = 0 then
    return .error { code := .sipTransactionFailed
                    message := bytes "Max-Forwards is zero, cannot forward" }
  else
    let msg ← (if mf < 0 then msg.setMaxForwards 70 else msg).decrementMaxForwards
    return .ok (msg.addVia (proxy.via transport branch))

/-- The proxy's `Via` is on top of those that were there. -/
theorem vias_of_prepareRequestForForward {proxy : ProxyCore} {msg prepared : SipMessage}
    {transport branch : Bytes}
    (h : proxy.prepareRequestForForward msg transport branch = .ok (.ok prepared)) :
    prepared.vias = proxy.via transport branch :: msg.vias := by
  obtain ⟨mf, -, h⟩ := exists_of_bind_eq_ok h
  split at h
  · cases h
  · obtain ⟨decremented, hdecrement, h⟩ := exists_of_bind_eq_ok h
    cases h
    rw [SipMessage.addVia, SipMessage.vias_of_decrementMaxForwards hdecrement]
    split
    · rw [SipMessage.vias_setMaxForwards]
    · rfl

theorem start_of_prepareRequestForForward {proxy : ProxyCore} {msg prepared : SipMessage}
    {transport branch : Bytes}
    (h : proxy.prepareRequestForForward msg transport branch = .ok (.ok prepared)) :
    prepared.start = msg.start := by
  obtain ⟨mf, -, h⟩ := exists_of_bind_eq_ok h
  split at h
  · cases h
  · obtain ⟨decremented, hdecrement, h⟩ := exists_of_bind_eq_ok h
    cases h
    refine (SipMessage.start_of_decrementMaxForwards hdecrement).trans ?_
    split
    · exact SipMessage.start_setMaxForwards _ _
    · rfl

/-- The branch that was drawn is on top. -/
theorem viaBranch_of_prepareRequestForForward {proxy : ProxyCore} {msg prepared : SipMessage}
    {transport branch : Bytes}
    (h : proxy.prepareRequestForForward msg transport branch = .ok (.ok prepared)) :
    prepared.viaBranch = branch := by
  rw [SipMessage.viaBranch, vias_of_prepareRequestForForward h]
  exact congrArg (Option.getD · []) (branchOf_hopVia _ _ _ _)

/-- Where a `Via` says that its sender is to be reached: at the port of `rport`, or else its own. -/
def viaPort (via : Via) : UInt16 :=
  match (paramValue via.params (bytes "rport")).filter (· ≠ []) with
  | some rport => UInt16.ofInt (atoi rport)
  | none =>
      match via.port with
      | some port => UInt16.ofInt (atoi port)
      | none => 5060

def viaTransport (via : Via) : Bytes :=
  if lowercase via.protocol = bytes "tcp" then bytes "tcp" else bytes "udp"

/-- `forwardResponse` up to the transport: the response without the proxy's `Via`, and where it is
sent to. -/
def forwardResponse (msg : SipMessage) : Result (SipMessage × Endpoint) :=
  if msg.viaCount < 1 then
    .error { code := .sipTransportError, message := bytes "No Via header in response" }
  else
    match msg.removeTopVia.vias with
    | [] =>
        .error { code := .sipTransportError
                 message := bytes "No remaining Via header after removal" }
    | topVia :: _ =>
        .ok (msg.removeTopVia,
          { address := (paramValue topVia.params (bytes "received")).getD topVia.host
            port := viaPort topVia, transport := viaTransport topVia })

/-- The `Via` is this proxy's own address. -/
def isOwnVia (via : Via) : Bool :=
  let ourAddr := proxy.localAddress ++ bytes ":" ++ decimal proxy.localPort.toNat
  via.host ++ bytes ":" ++ via.port.getD (bytes "5060") == ourAddr

/-- One of the `Via`s that are taken is this proxy's own address. -/
def isLoopDetected [OsipAccessor] (msg : SipMessage) : Bool := msg.takenVias.any proxy.isOwnVia

/-- Where positions are returned, only the top `Via` counts. -/
theorem isLoopDetected_of_returnsPosition [OsipAccessor] (hpos : OsipAccessor.ReturnsPosition)
    (msg : SipMessage) : proxy.isLoopDetected msg = msg.vias.head?.any proxy.isOwnVia := by
  rw [isLoopDetected, SipMessage.takenVias_of_returnsPosition hpos]
  cases msg.vias.head? with
  | none => rfl
  | some via => exact Bool.or_false _

section

variable [OsipParser]

/-- The top route is removed when it is this proxy. -/
def processRouteHeaders (msg : SipMessage) : SipMessage :=
  match msg.routes with
  | [] => msg
  | topRoute :: _ =>
      if routePointsToEndpoint topRoute ⟨proxy.localAddress, proxy.localPort, bytes "udp"⟩ then
        msg.removeTopRoute
      else msg

@[simp] theorem vias_processRouteHeaders (msg : SipMessage) :
    (proxy.processRouteHeaders msg).vias = msg.vias := by
  rw [processRouteHeaders]
  split
  · rfl
  · split
    · rfl
    · rfl

@[simp] theorem start_processRouteHeaders (msg : SipMessage) :
    (proxy.processRouteHeaders msg).start = msg.start := by
  rw [processRouteHeaders]
  split
  · rfl
  · split
    · rfl
    · rfl

/-- `forwardStateful` up to `sendRequest`: the request, or the status that it is answered with. -/
def prepareStateful [OsipAccessor] (request : SipMessage) (dest : Endpoint)
    (options : ForwardOptions) (branch : Bytes) : Except Exception (Except Int SipMessage) := do
  if options.detectLoop && proxy.isLoopDetected request then return .error 482
  else
    let request := if options.processRouteHeaders then proxy.processRouteHeaders request
      else request
    match ← proxy.prepareRequestForForward request dest.transport branch with
    | .ok prepared => return .ok prepared
    | .error _ => return .error (if (← request.maxForwards) = 0 then 483 else 500)

/-- A request that is forwarded has got the proxy's `Via`, and kept the others. -/
theorem vias_of_prepareStateful [OsipAccessor] {proxy : ProxyCore} {request prepared : SipMessage}
    {dest : Endpoint} {options : ForwardOptions} {branch : Bytes}
    (h : proxy.prepareStateful request dest options branch = .ok (.ok prepared)) :
    prepared.vias = proxy.via dest.transport branch :: request.vias := by
  rw [prepareStateful] at h
  split at h
  · cases h
  · dsimp only at h
    obtain ⟨result, hresult, h⟩ := exists_of_bind_eq_ok h
    cases result with
    | error error =>
        obtain ⟨mf, -, h⟩ := exists_of_bind_eq_ok h
        cases h
    | ok made =>
        cases h
        refine (vias_of_prepareRequestForForward hresult).trans (congrArg _ ?_)
        split
        · exact vias_processRouteHeaders _ _
        · rfl

/-- `forwardStateful`, with the `sendRequest` of the stack. -/
def forwardStateful [OsipAccessor] (sendRequest : SipMessage → Endpoint → Result Unit)
    (request : SipMessage) (dest : Endpoint) (options : ForwardOptions) (branch : Bytes) :
    Except Exception StatefulOutcome := do
  match ← proxy.prepareStateful request dest options branch with
  | .error statusCode => return .answered statusCode
  | .ok prepared =>
      match sendRequest prepared dest with
      | .ok () => return .forwarded
      | .error _ => return .answered 500

/-- The CANCEL for an INVITE that was sent with the branch of the context, or else with the one
that is drawn. -/
def buildForwardedCancel (incomingCancel : SipMessage) (context : CancelForwardContext)
    (branch : Bytes) : Except Exception SipMessage := do
  let forwarded :=
    if context.processRouteHeaders then proxy.processRouteHeaders incomingCancel else incomingCancel
  let forwarded := { forwarded with vias := [] }
  let forwarded ←
    if context.decrementMaxForwards then do
      let mf ← forwarded.maxForwards
      if mf < 0 then pure (forwarded.setMaxForwards 70) else forwarded.decrementMaxForwards
    else pure forwarded
  return forwarded.addVia (hopVia context.transport context.localAddress context.localPort
    (if context.inviteBranch = [] then branch else context.inviteBranch))

variable {proxy : ProxyCore} {incomingCancel cancel : SipMessage} {context : CancelForwardContext}
variable {branch : Bytes}

/-- The CANCEL has one `Via`, and otherwise what it has come with. -/
theorem buildForwardedCancel_eq_ok
    (h : proxy.buildForwardedCancel incomingCancel context branch = .ok cancel) :
    cancel.start = incomingCancel.start ∧
      cancel.vias = [hopVia context.transport context.localAddress context.localPort
        (if context.inviteBranch = [] then branch else context.inviteBranch)] := by
  unfold buildForwardedCancel at h
  extract_lets routed bare at h
  have hroutes : bare.start = incomingCancel.start := by
    change routed.start = incomingCancel.start
    dsimp only [routed]
    split
    · exact start_processRouteHeaders proxy incomingCancel
    · rfl
  split at h
  · obtain ⟨mf, -, h⟩ := exists_of_bind_eq_ok h
    split at h
    · cases h
      exact ⟨(SipMessage.start_setMaxForwards _ _).trans hroutes,
        congrArg _ (SipMessage.vias_setMaxForwards _ _)⟩
    · obtain ⟨decremented, hdecrement, h⟩ := exists_of_bind_eq_ok h
      cases h
      exact ⟨(SipMessage.start_of_decrementMaxForwards hdecrement).trans hroutes,
        congrArg _ (SipMessage.vias_of_decrementMaxForwards hdecrement)⟩
  · cases h
    exact ⟨hroutes, rfl⟩

end

end ProxyCore
end SimIms.Sip
