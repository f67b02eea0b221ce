import SimIms.Sip.Forwarding
import SimIms.Sip.ProxyCore

/-!
# The way back

A request collects a `Via` at every hop that it passes, and its response loses one at each of them
on the way back. What the originator sees is the stack that it has sent.
-/

namespace SimIms.Sip

open Cxx

/-- A hop on the way of a request, with the transport of its next hop and the branch it draws. -/
structure Hop where
  proxy : ProxyCore
  transport : Bytes
  branch : Bytes

def Hop.via (hop : Hop) : Via := hop.proxy.via hop.transport hop.branch

/-- The request that arrives behind the hops, the first of which is next to the originator. -/
def forwardThrough : List Hop → SipMessage → Except Exception (Result SipMessage)
  | [], request => .ok (.ok request)
  | hop :: hops, request =>
      match hop.proxy.prepareRequestForForward request hop.transport hop.branch with
      | .error e => .error e
      | .ok (.error error) => .ok (.error error)
      | .ok (.ok prepared) => forwardThrough hops prepared

/-- The response that the first hop's upstream transaction is given, for one that arrives at the
last hop. -/
def relayUpstream : List Hop → SipMessage → SipMessage
  | [], response => response
  | _ :: hops, response => forwardResponseUpstream (relayUpstream hops response)

@[simp] theorem vias_createResponse (request : SipMessage) (statusCode : Int)
    (reason generatedTag : Bytes) :
    (createResponse request statusCode reason generatedTag).vias = request.vias := by
  simp only [createResponse]
  split
  · rfl
  · rfl

/-- A response whose `Via`s are those of the request that the hop has sent goes up with those of
the one that it has received. -/
theorem vias_forwardResponseUpstream {response : SipMessage} {via : Via} {vias : List Via}
    (h : response.vias = via :: vias) (hvias : vias ≠ []) :
    (forwardResponseUpstream response).vias = vias := by
  have hcount : 1 < response.viaCount := by
    have hlength := List.length_pos_iff.mpr hvias
    rw [SipMessage.viaCount, h, List.length_cons]
    omega
  rw [forwardResponseUpstream, if_pos hcount, SipMessage.removeTopVia, h]
  rfl

theorem vias_relayUpstream {hops : List Hop} {request received response : SipMessage}
    (hvias : request.vias ≠ []) (hforward : forwardThrough hops request = .ok (.ok received))
    (hresponse : response.vias = received.vias) :
    (relayUpstream hops response).vias = request.vias := by
  induction hops generalizing request with
  | nil =>
      cases hforward
      exact hresponse
  | cons hop hops ih =>
      rw [forwardThrough] at hforward
      split at hforward
      · cases hforward
      · cases hforward
      · rename_i prepared hprepared
        have hpushed := ProxyCore.vias_of_prepareRequestForForward hprepared
        have hpopped : (relayUpstream hops response).vias = prepared.vias :=
          ih (by rw [hpushed]; exact List.cons_ne_nil _ _) hforward
        exact vias_forwardResponseUpstream (hpopped.trans hpushed) hvias

/-- Whatever hops a request passes, the response that goes back through them reaches the originator
with the `Via`s of the request. -/
theorem viaStack_roundTrip (hops : List Hop) (request received : SipMessage)
    (hvias : request.vias ≠ []) (hforward : forwardThrough hops request = .ok (.ok received))
    (statusCode : Int) (reason generatedTag : Bytes) :
    (relayUpstream hops (createResponse received statusCode reason generatedTag)).vias =
      request.vias :=
  vias_relayUpstream hvias hforward (vias_createResponse _ _ _ _)

/-- An INVITE with the `Via` of its originator. -/
def originatedInvite : SipMessage :=
  { dialogRequest "INVITE" (bytes "a") [] with
    vias := [hopVia (bytes "udp") (bytes "10.0.0.1") 5060 (bytes "z9hG4bK0")] }

/-- Two hops on its way. -/
def twoHops : List Hop :=
  [⟨⟨bytes "10.0.0.3", 5060⟩, bytes "udp", bytes "z9hG4bK1"⟩,
    ⟨⟨bytes "10.0.0.4", 5062⟩, bytes "udp", bytes "z9hG4bK2"⟩]

theorem viaStack_roundTrip_twoHops : ∃ received,
    forwardThrough twoHops originatedInvite = .ok (.ok received) ∧
      (relayUpstream twoHops (createResponse received 200 (bytes "OK") (bytes "b"))).vias =
        originatedInvite.vias := by
  refine ⟨_, rfl, ?_⟩
  exact viaStack_roundTrip twoHops originatedInvite _ (List.cons_ne_nil _ _) rfl 200 (bytes "OK")
    (bytes "b")

end SimIms.Sip
