import SimIms.SCscf.EstablishedDialogs

/-!
# Where in-dialog requests go

The entries carry the Call-ID and the tags of their keys, so what a request finds under its own
tags is the dialog in which it comes from the caller, and what it finds under them the other way
round is the one in which it comes from the callee.
-/

namespace SimIms.SCscf

open Cxx Lib Sip

namespace Sessions

/-- The other end of the dialog with the tags of the request: of the one that its sender has
started, if there is one, or else of the one that he has been called in. -/
def peer (sessions : Sessions) (request : SipMessage) : Option Endpoint :=
  match sessions.find (directKey request) with
  | some session => some session.calleeEndpoint
  | none => (sessions.find (reverseKey request)).map SessionInfo.callerEndpoint

/-- Where the ACK of a cancelled INVITE goes. -/
def canceledPeer (sessions : Sessions) (request : SipMessage) : Option Endpoint :=
  match sessions.find ⟨request.callId, request.fromTag, []⟩ with
  | some initial => if initial.cancelSeen then some initial.calleeEndpoint else none
  | none => none

variable {sessions : Sessions} {request : SipMessage}

/-- The session that a request finds is one in which it knows where to go. -/
theorem find_of_peer_eq_some (hkeyed : WellKeyed sessions) (hto : request.toTag ≠ [])
    (hfrom : request.fromTag ≠ []) (hne : request.fromTag ≠ request.toTag) {dest : Endpoint}
    (hpeer : sessions.peer request = some dest) :
    ∃ key session, sessions.findSessionForRequestLocked request = some key ∧
      sessions.find key = some session ∧
        resolveInDialogDestination request session = some dest := by
  rw [peer] at hpeer
  cases hdirect : sessions.find (directKey request) with
  | some session =>
      rw [hdirect] at hpeer
      cases hpeer
      have hfits := hkeyed _ session hdirect
      have hcallee : session.calleeTag = request.toTag := hfits.calleeTag
      refine ⟨directKey request, session, ?_, hdirect, ?_⟩
      · rw [findSessionForRequestLocked, Table.contains, hdirect]
        rfl
      · rw [resolveInDialogDestination, if_neg (fun h => hto (hcallee.symm.trans h.2.1)),
          if_pos ⟨by rwa [hcallee], hfits.callerTag.symm, hcallee.symm⟩]
  | none =>
      rw [hdirect] at hpeer
      obtain ⟨session, hreverse, rfl⟩ := Option.map_eq_some_iff.mp hpeer
      have hfits := hkeyed _ session hreverse
      have hcallee : session.calleeTag = request.fromTag := hfits.calleeTag
      have hcaller : session.callerTag = request.toTag := hfits.callerTag
      refine ⟨reverseKey request, session, ?_, hreverse, ?_⟩
      · rw [findSessionForRequestLocked, Table.contains, hdirect, Table.contains, hreverse]
        rfl
      · rw [resolveInDialogDestination, if_neg (fun h => hfrom (hcallee.symm.trans h.2.1)),
          if_neg (fun h => hne (h.2.1.trans hcaller)),
          if_pos ⟨by rwa [hcallee], hcallee.symm, hcaller.symm⟩]

theorem findSession_of_peer_eq_none (hpeer : sessions.peer request = none) :
    sessions.findSessionForRequestLocked request = none := by
  rw [peer] at hpeer
  cases hdirect : sessions.find (directKey request) with
  | some session =>
      rw [hdirect] at hpeer
      cases hpeer
  | none =>
      rw [hdirect] at hpeer
      have hreverse := Option.map_eq_none_iff.mp hpeer
      rw [findSessionForRequestLocked, Table.contains, hdirect, Table.contains, hreverse]
      rfl

/-- The lookup of INVITE, BYE and PRACK. -/
theorem inDialogTarget_eq (hkeyed : WellKeyed sessions) (hto : request.toTag ≠ [])
    (hfrom : request.fromTag ≠ []) (hne : request.fromTag ≠ request.toTag) :
    (sessions.inDialogTarget request).map Prod.snd = sessions.peer request := by
  cases hpeer : sessions.peer request with
  | none =>
      rw [inDialogTarget, findSession_of_peer_eq_none hpeer]
      rfl
  | some dest =>
      obtain ⟨key, session, hfound, hfind, hdest⟩ := find_of_peer_eq_some hkeyed hto hfrom hne hpeer
      simp only [inDialogTarget, hfound, hfind, hdest, Option.map_some]

end Sessions

namespace RouterState

open Sessions (WellKeyed)

/-- How a request for this end of a dialog is handled. The branch is that of the forwarded request,
if Max-Forwards permits one. -/
def handled (dest : Option Endpoint) (branch : Option Bytes) : RouterEvent :=
  match dest, branch with
  | none, _ => .answered 481
  | some _, none => .answered 500
  | some dest, some _ => .forwarded dest

/-- Requests with the tags of a dialog go to its other end. An ACK is not answered, and
Max-Forwards may still stop it on its way out. -/
structure RoutesInDialog (s : RouterState) (request : SipMessage) : Prop where
  invite : ∀ source target branch now,
    (s.step (.invite request source target branch now)).map Prod.snd =
      some [.answered 100, handled (s.sessions.peer request) branch]
  bye : ∀ branch, (s.step (.bye request branch)).map Prod.snd =
    some [handled (s.sessions.peer request) branch]
  prack : ∀ branch, (s.step (.prack request branch)).map Prod.snd =
    some [handled (s.sessions.peer request) branch]
  ack : (s.step (.ack request)).map Prod.snd =
    some (((s.sessions.peer request).or (s.sessions.canceledPeer request)).toList.map .forwarded)

variable {s : RouterState} {request : SipMessage}

theorem handleInvite_snd {dest : Option Endpoint}
    (htarget : (s.sessions.inDialogTarget request).map Prod.snd = dest)
    (hin : isInDialogRequest request = true) (source : Endpoint) (target : Except Int InviteTarget)
    (branch : Option Bytes) (now : Nat) :
    (s.handleInvite request source target branch now).2 = [.answered 100, handled dest branch] := by
  subst htarget
  simp only [handleInvite, if_pos hin]
  cases s.sessions.inDialogTarget request with
  | none => rfl
  | some found => cases branch <;> rfl

theorem handleBye_snd {dest : Option Endpoint}
    (htarget : (s.sessions.inDialogTarget request).map Prod.snd = dest) (branch : Option Bytes) :
    (s.handleBye request branch).2 = [handled dest branch] := by
  subst htarget
  rw [handleBye]
  cases s.sessions.inDialogTarget request with
  | none => rfl
  | some found => cases branch <;> rfl

theorem handlePrack_snd {dest : Option Endpoint}
    (htarget : (s.sessions.inDialogTarget request).map Prod.snd = dest) (branch : Option Bytes) :
    (s.handlePrack request branch).2 = [handled dest branch] := by
  subst htarget
  rw [handlePrack]
  cases s.sessions.inDialogTarget request with
  | none => rfl
  | some found => cases branch <;> rfl

theorem handleAck_snd_of_peer_eq_none (hpeer : s.sessions.peer request = none) :
    (s.handleAck request).2 = (s.sessions.canceledPeer request).toList.map .forwarded := by
  rw [handleAck, Sessions.findSession_of_peer_eq_none hpeer, Sessions.canceledPeer]
  simp only
  cases s.sessions.find ⟨request.callId, request.fromTag, []⟩ with
  | none => rfl
  | some initial =>
      simp only
      split
      · rfl
      · rfl

theorem handleAck_snd_of_peer_eq_some (hkeyed : WellKeyed s.sessions) (hto : request.toTag ≠ [])
    (hfrom : request.fromTag ≠ []) (hne : request.fromTag ≠ request.toTag) {dest : Endpoint}
    (hpeer : s.sessions.peer request = some dest) :
    (s.handleAck request).2 = [.forwarded dest] := by
  obtain ⟨key, session, hfound, hfind, hdest⟩ :=
    Sessions.find_of_peer_eq_some hkeyed hto hfrom hne hpeer
  simp only [handleAck, hfound, hfind, hdest]

theorem routesInDialog_of_wellKeyed (hkeyed : WellKeyed s.sessions) (hto : request.toTag ≠ [])
    (hfrom : request.fromTag ≠ []) (hne : request.fromTag ≠ request.toTag) :
    RoutesInDialog s request := by
  have htarget := Sessions.inDialogTarget_eq hkeyed hto hfrom hne
  have hin : isInDialogRequest request = true := decide_eq_true hto
  refine ⟨fun source target branch now => ?_, fun branch => ?_, fun branch => ?_, ?_⟩
  · exact congrArg some (handleInvite_snd htarget hin source target branch now)
  · exact congrArg some (handleBye_snd htarget branch)
  · exact congrArg some (handlePrack_snd htarget branch)
  · refine congrArg some ?_
    cases hpeer : s.sessions.peer request with
    | none => exact handleAck_snd_of_peer_eq_none hpeer
    | some dest => exact handleAck_snd_of_peer_eq_some hkeyed hto hfrom hne hpeer

/-- After every run the entries carry the Call-ID and the tags of their keys, and in-dialog requests
go to the other end of the dialog with their tags. -/
theorem inDialog_routing (as : List RouterAction) (s : RouterState) (log : List RouterEvent)
    (hrun : routerMachine.exec init as = some (s, log)) :
    (∀ key session, s.sessions.find key = some session → session.callId = key.callId ∧
      session.callerTag = key.callerTag ∧ session.calleeTag = key.calleeTag) ∧
    ∀ request : SipMessage, request.fromTag ≠ [] → request.toTag ≠ [] →
      request.fromTag ≠ request.toTag → RoutesInDialog s request := by
  have hkeyed : WellKeyed s.sessions :=
    Machine.exec_invariant (I := fun s => WellKeyed s.sessions)
      (fun _ _ _ _ hkeyed hstep => (step_change hstep).wellKeyed hkeyed)
      (fun _ _ hfind => by cases hfind) hrun
  refine ⟨fun key session hfind => ?_, fun request hfrom hto hne => ?_⟩
  · have hfits := hkeyed key session hfind
    exact ⟨hfits.callId, hfits.callerTag, hfits.calleeTag⟩
  · exact routesInDialog_of_wellKeyed hkeyed hto hfrom hne

/-- A call that has been answered. -/
def answeredCall : List RouterAction :=
  let invite := dialogRequest "INVITE" (bytes "a") []
  [.invite invite ⟨bytes "10.0.0.1", 5060, bytes "udp"⟩
      (.ok ⟨bytes "sip:bob@ims.local", ⟨bytes "10.0.0.2", 5060, bytes "udp"⟩⟩)
      (some (bytes "z9hG4bK1")) 0,
    .response 0 (createResponse invite 200 (bytes "OK") (bytes "b")) true 0]

/-- The BYE of the callee goes to the caller. -/
theorem inDialog_routing_answeredCall : ∃ s log,
    routerMachine.exec init answeredCall = some (s, log) ∧
      (s.step (.bye (dialogRequest "BYE" (bytes "b") [⟨bytes "tag", some (bytes "a")⟩])
        (some (bytes "z9hG4bK2")))).map Prod.snd =
          some [.forwarded ⟨bytes "10.0.0.1", 5060, bytes "udp"⟩] := by
  have hrun : ∃ s log, routerMachine.exec init answeredCall = some (s, log) ∧
      s.sessions.peer (dialogRequest "BYE" (bytes "b") [⟨bytes "tag", some (bytes "a")⟩]) =
        some ⟨bytes "10.0.0.1", 5060, bytes "udp"⟩ :=
    ⟨_, _, rfl, by decide +kernel⟩
  obtain ⟨s, log, hrun, hpeer⟩ := hrun
  refine ⟨s, log, hrun, ?_⟩
  have hroutes := (inDialog_routing answeredCall s log hrun).2
    (dialogRequest "BYE" (bytes "b") [⟨bytes "tag", some (bytes "a")⟩])
    (by decide) (by decide) (by decide)
  rw [hroutes.bye, hpeer]
  rfl

end RouterState
end SimIms.SCscf
