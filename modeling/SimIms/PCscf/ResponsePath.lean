import SimIms.Sip.Forwarding
import SimIms.Sip.ViaStack

/-!
# The way back of an INVITE's responses

A response from the core carries the P-CSCF's own `Via` and those that the INVITE came with. Before
the relay takes the first of them off, `onInviteResponse` takes off all but the last one, as is done
with what goes to a UE.
-/

namespace SimIms.PCscf

open Cxx Lib Sip

/-- The relay leaves the last `Via` where it is. -/
theorem vias_forwardResponseUpstream_of_last {response : SipMessage}
    (h : response.vias.length ≤ 1) : (forwardResponseUpstream response).vias = response.vias := by
  have hfew : ¬ 1 < response.viaCount := Nat.not_lt.mpr h
  rw [forwardResponseUpstream, if_neg hfew]

/-- Of the `Via`s only the last one is left, whatever becomes of the body. -/
theorem vias_rewriteInviteResponse {response : SipMessage} (hresponse : response.isResponse = true)
    (hmethod : response.cseqMethod = bytes "INVITE") (answerSdp : Option Bytes) :
    (rewriteInviteResponse response answerSdp).vias =
      response.vias.drop (response.vias.length - 1) := by
  have hinvite : ¬ (response.isResponse = false ∨ response.cseqMethod ≠ bytes "INVITE") := by
    rw [hresponse, hmethod]
    decide
  simp only [rewriteInviteResponse, if_neg hinvite]
  split
  · split
    · rfl
    · split
      · rfl
      · rfl
  · rfl

/-- The response that is given upstream has the last of the `Via`s that the INVITE came with. -/
theorem vias_onResponse {forwarding : Forwarding} {response : SipMessage} {own : Via}
    {vias : List Via} (hhook : forwarding.forwarder = .forwardStateful true)
    (hresponse : response.isResponse = true) (hmethod : response.cseqMethod = bytes "INVITE")
    (hvias : response.vias = own :: vias) (hne : vias ≠ []) (answerSdp : Option Bytes) :
    (forwarding.onResponse response answerSdp).response.vias = vias.drop (vias.length - 1) := by
  have hpos := List.length_pos_iff.mpr hne
  have hlast : (rewriteInviteResponse response answerSdp).vias = vias.drop (vias.length - 1) := by
    rw [vias_rewriteInviteResponse hresponse hmethod, hvias, List.length_cons,
      Nat.add_sub_cancel]
    obtain ⟨n, hn⟩ := Nat.exists_eq_add_one.mpr hpos
    rw [hn]
    rfl
  rw [Forwarding.onResponse, hhook]
  refine (vias_forwardResponseUpstream_of_last ?_).trans hlast
  rw [hlast, List.length_drop]
  omega

/-- An INVITE of a UE goes to the core with the P-CSCF's `Via` on top, and its responses come with
all of these. They go back with those of the INVITE exactly if that has had one. -/
theorem returned_iff [OsipAccessor] [OsipParser] (proxy : ProxyCore)
    (request prepared response : SipMessage)
    (dest : Endpoint) (options : ForwardOptions) (branch : Bytes) (upstream : Nat)
    (answerSdp : Option Bytes) (hne : request.vias ≠ [])
    (hprepared : proxy.prepareStateful request dest options branch = .ok (.ok prepared))
    (hresponse : response.isResponse = true) (hmethod : response.cseqMethod = bytes "INVITE")
    (hvias : response.vias = prepared.vias) :
    (Forwarding.onResponse ⟨.forwardStateful true, upstream, request⟩ response
        answerSdp).response.vias = request.vias ↔ request.vias.length = 1 := by
  have hown := ProxyCore.vias_of_prepareStateful hprepared
  have hlast : (Forwarding.onResponse ⟨.forwardStateful true, upstream, request⟩ response
      answerSdp).response.vias = request.vias.drop (request.vias.length - 1) :=
    vias_onResponse rfl hresponse hmethod (hvias.trans hown) hne answerSdp
  have hpos := List.length_pos_iff.mpr hne
  rw [hlast]
  constructor
  · intro heq
    have hlength := congrArg List.length heq
    rw [List.length_drop] at hlength
    omega
  · intro hone
    rw [hone]
    rfl

/-- The P-CSCF and where it sends an INVITE of a UE. -/
def edgeProxy : ProxyCore := ⟨bytes "10.0.0.2", 5060⟩

def coreEntry : Endpoint := ⟨bytes "10.0.0.4", 5062, bytes "udp"⟩

theorem returned_iff_of_one :
    let _ : OsipParser := plainUris
    ∃ prepared, edgeProxy.prepareStateful originatedInvite coreEntry {} (bytes "z9hG4bK1") =
        .ok (.ok prepared) ∧
      ((Forwarding.onResponse ⟨.forwardStateful true, 0, originatedInvite⟩
        (createResponse prepared 200 (bytes "OK") (bytes "b")) none).response.vias =
          originatedInvite.vias ↔ originatedInvite.vias.length = 1) := by
  refine ⟨_, rfl, ?_⟩
  exact @returned_iff _ plainUris edgeProxy originatedInvite _ _ coreEntry {}
    (bytes "z9hG4bK1") 0 none
    (List.cons_ne_nil _ _) rfl rfl rfl rfl

/-- The INVITE of a UE behind a proxy of its own. -/
def relayedInvite : SipMessage :=
  originatedInvite.addVia (hopVia (bytes "udp") (bytes "10.0.0.7") 5060 (bytes "z9hG4bK2"))

/-- Its responses lose the `Via` of that proxy. -/
theorem relayed_not_returned : ¬ ∀ (proxy : ProxyCore) (request prepared response : SipMessage)
    (dest : Endpoint) (options : ForwardOptions) (branch : Bytes) (upstream : Nat)
    (answerSdp : Option Bytes), request.vias ≠ [] →
    @ProxyCore.prepareStateful proxy plainUris _ request dest options branch = .ok (.ok prepared) →
    response.isResponse = true → response.cseqMethod = bytes "INVITE" →
    response.vias = prepared.vias →
    (Forwarding.onResponse ⟨.forwardStateful true, upstream, request⟩ response
      answerSdp).response.vias = request.vias := by
  intro h
  have hreturned := h edgeProxy relayedInvite _
    (createResponse (relayedInvite.addVia (edgeProxy.via (bytes "udp") (bytes "z9hG4bK1")))
      200 (bytes "OK") (bytes "b")) coreEntry {} (bytes "z9hG4bK1") 0 none (List.cons_ne_nil _ _)
    rfl rfl rfl rfl
  have hlength := congrArg List.length hreturned
  revert hlength
  decide

end SimIms.PCscf
