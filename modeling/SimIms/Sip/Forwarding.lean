import SimIms.Sip.TransactionLayer

/-!
# Stateful forwarding

A hop that forwards a request passes it to `sendRequest` with a callback that relays the
responses to the upstream server transaction. `ProxyCore::forwardStateful` does so for the
P-CSCF and the I-CSCF; `handleInvite`, `handleBye` and `handlePrack` of the S-CSCF's session
router repeat the code. How the hop has chosen the destination and rewritten the request
before that is the label's. Upstream transactions are numbered as requests are forwarded,
and the events of a run are the responses that they are given.
-/

namespace SimIms.Sip

open Cxx Lib

inductive Forwarder where
  | forwardStateful (processInviteResponseMedia : Bool)
  | handleInvite
  | handleBye
  | handlePrack
deriving DecidableEq, Repr

/-- What the callback that is passed to `sendRequest` has captured. -/
structure Forwarding where
  forwarder : Forwarder
  upstream : Nat
  request : SipMessage
deriving DecidableEq, Repr

/-- A response passed to `sendResponse` of an upstream transaction. -/
structure Given where
  upstream : Nat
  response : SipMessage
deriving DecidableEq, Repr

/-- Only the bottom `Via` is left. -/
def sanitizeForUeEgress (msg : SipMessage) : SipMessage :=
  { msg with vias := msg.vias.drop (msg.viaCount - 1) }

/-- What `PcscfService::onInviteResponse` makes of the response, with the body that
rtpengine has answered, where it was asked and did. -/
def rewriteInviteResponse (response : SipMessage) (answerSdp : Option Bytes) : SipMessage :=
  if response.isResponse = false ∨ response.cseqMethod ≠ bytes "INVITE" then response
  else
    let response := sanitizeForUeEgress response
    let status := response.statusCode
    if (status = 183 ∨ 200 ≤ status ∧ status < 300) ∧ response.bodyText.isSome then
      match answerSdp with
      | none => response
      | some sdp => if sdp = [] then response else { response with bodyText := some sdp }
    else response

def forwardResponseUpstream (response : SipMessage) : SipMessage :=
  if 1 < response.viaCount then response.removeTopVia else response

namespace Forwarding

/-- The callback's answer upstream to a response from downstream. -/
def onResponse (forwarding : Forwarding) (response : SipMessage) (answerSdp : Option Bytes) :
    Given :=
  match forwarding.forwarder with
  | .forwardStateful true =>
      ⟨forwarding.upstream,
        forwardResponseUpstream (rewriteInviteResponse response answerSdp)⟩
  | _ => ⟨forwarding.upstream, forwardResponseUpstream response⟩

/-- What the forwarder does when `sendRequest` has returned an error. The session router's
handlers log it. -/
def onSendError (forwarding : Forwarding) (tag : Bytes) : List Given :=
  match forwarding.forwarder with
  | .forwardStateful _ =>
      [⟨forwarding.upstream,
        createResponse forwarding.request 500 (bytes "Internal Server Error") tag⟩]
  | _ => []

end Forwarding

/-- The responses given upstream on an event of the transaction layer. -/
def relay (answerSdp : Option Bytes) (tag : Bytes) : LayerEvent Forwarding → List Given
  | .called forwarding response => [forwarding.onResponse response answerSdp]
  | .rejected (some forwarding) _ => forwarding.onSendError tag
  | .rejected none _ => []

/-! ## Runs -/

structure HopState where
  layer : LayerState Forwarding
  nextUpstream : Nat

/-- A request is forwarded, the hop sends a request of its own, or anything else happens in
the transaction layer: then with the body and the tag that a response given upstream on
that occasion would get. -/
inductive HopAction where
  | forward (forwarder : Forwarder) (received forwarded : SipMessage) (dest : Endpoint)
      (tag : Bytes)
  | send (request : SipMessage) (dest : Endpoint)
  | layer (action : LayerAction Forwarding) (answerSdp : Option Bytes) (tag : Bytes)

/-- `sendRequest` has actions of its own in a hop. -/
def LayerAction.isSendRequest {κ : Type} : LayerAction κ → Bool
  | .sendRequest _ _ _ => true
  | _ => false

namespace HopState

def init : HopState := { layer := .init, nextUpstream := 0 }

def step [OsipAccessor] (s : HopState) : HopAction → Option (HopState × List Given)
  | .forward forwarder received forwarded dest tag =>
      let result := s.layer.sendRequest forwarded dest (some ⟨forwarder, s.nextUpstream, received⟩)
      some (⟨result.1, s.nextUpstream + 1⟩, result.2.flatMap (relay none tag))
  | .send request dest => some ({ s with layer := (s.layer.sendRequest request dest none).1 }, [])
  | .layer action answerSdp tag =>
      if action.isSendRequest then none
      else
        (s.layer.step action).map fun result =>
          ({ s with layer := result.1 }, result.2.flatMap (relay answerSdp tag))

end HopState

/-- A hop with its transaction layer and its environment. -/
def hopMachine [OsipAccessor] : Machine HopState HopAction Given := ⟨HopState.step⟩

/-! ## The status code survives the relay -/

@[simp] theorem statusCode_forwardResponseUpstream (response : SipMessage) :
    (forwardResponseUpstream response).statusCode = response.statusCode := by
  rw [forwardResponseUpstream]
  split
  · rfl
  · rfl

@[simp] theorem statusCode_rewriteInviteResponse (response : SipMessage)
    (answerSdp : Option Bytes) :
    (rewriteInviteResponse response answerSdp).statusCode = response.statusCode := by
  simp only [rewriteInviteResponse]
  split
  · rfl
  · split
    · split
      · rfl
      · split
        · rfl
        · rfl
    · rfl

namespace Forwarding

variable {forwarding : Forwarding}

@[simp] theorem upstream_onResponse (response : SipMessage) (answerSdp : Option Bytes) :
    (forwarding.onResponse response answerSdp).upstream = forwarding.upstream := by
  rw [onResponse]
  split
  · rfl
  · rfl

@[simp] theorem statusCode_onResponse (response : SipMessage) (answerSdp : Option Bytes) :
    (forwarding.onResponse response answerSdp).response.statusCode = response.statusCode := by
  rw [onResponse]
  split
  · simp
  · simp

end Forwarding
end SimIms.Sip
