import SimIms.Lib.Machine
import SimIms.Sip.ProxyCore

/-!
# CANCELs hop by hop

A CANCEL reaches the INVITE that a hop has sent on only if it goes to the same place, with the same
branch. `tracked` keeps the INVITEs that are in progress beside the state of the hop. The P-CSCF and
the I-CSCF forward a CANCEL as they do any other request, with a branch of its own.
-/

namespace SimIms.Sip

open Cxx Lib

/-- A request as it has come in, as it has been sent on, and where. The number is that of the
client transaction. -/
structure ForwardedRequest where
  number : Nat
  received : SipMessage
  sent : SipMessage
  dest : Endpoint
deriving DecidableEq, Repr

inductive CallEvent where
  | forwarded (request : ForwardedRequest)
  | responded (number : Nat) (status : Int)
deriving DecidableEq, Repr

/-- The CANCEL is for that INVITE. -/
def Cancels (cancel invite : SipMessage) : Prop :=
  cancel.method = bytes "CANCEL" ∧ cancel.callId = invite.callId ∧
    cancel.fromTag = invite.fromTag ∧ cancel.viaBranch = invite.viaBranch

/-- The CANCEL has been sent where the INVITE was, with the same branch. -/
def ForwardedRequest.Follows (cancel invite : ForwardedRequest) : Prop :=
  cancel.sent.viaBranch = invite.sent.viaBranch ∧ cancel.dest = invite.dest

instance (cancel invite : SipMessage) : Decidable (Cancels cancel invite) :=
  inferInstanceAs (Decidable (_ ∧ _ ∧ _ ∧ _))

instance (cancel invite : ForwardedRequest) : Decidable (cancel.Follows invite) :=
  inferInstanceAs (Decidable (_ ∧ _))

/-- The INVITEs in progress, the newest one first. A final response ends one. -/
def trackInvite (inProgress : List ForwardedRequest) : CallEvent → List ForwardedRequest
  | .forwarded request =>
      if request.received.method = bytes "INVITE" then request :: inProgress else inProgress
  | .responded number status =>
      if 200 ≤ status ∧ status ≤ 699 then inProgress.filter (·.number ≠ number) else inProgress

section

variable {σ α : Type}

abbrev tracked (m : Machine σ α CallEvent) : Machine (σ × List ForwardedRequest) α CallEvent :=
  m.summarized trackInvite

/-- All CANCELs that are sent on follow the INVITEs in progress that they are for. -/
def CancelsFollow (m : Machine σ α CallEvent) (start : σ) (as : List α) : Prop :=
  (tracked m).Along
    (fun s _ _ out => ∀ cancel, .forwarded cancel ∈ out → ∀ invite ∈ s.2,
      Cancels cancel.received invite.received → cancel.Follows invite)
    (start, []) as

/-- After this run, the action sends on a CANCEL that does not follow its INVITE. -/
def strays (m : Machine σ α CallEvent) (start : σ) (before : List α) (a : α) : Bool :=
  ((tracked m).exec (start, []) before).any fun run =>
    ((tracked m).step run.1 a).any fun next => next.2.any fun
      | .forwarded cancel => run.1.2.any fun invite =>
          Cancels cancel.received invite.received ∧ ¬ cancel.Follows invite
      | .responded _ _ => false

theorem not_cancelsFollow_of_strays {m : Machine σ α CallEvent} {start : σ}
    (before : List α) (a : α)
    (h : strays m start before a = true) : ¬ CancelsFollow m start (before ++ [a]) := by
  intro hfollow
  rw [strays, Option.any_eq_true] at h
  obtain ⟨⟨s, first⟩, hrun, h⟩ := h
  rw [Option.any_eq_true] at h
  obtain ⟨⟨t, out⟩, hstep, h⟩ := h
  obtain ⟨event, hmem, h⟩ := List.any_eq_true.mp h
  cases event with
  | responded number status => cases h
  | forwarded cancel =>
      obtain ⟨invite, hinvite, h⟩ := List.any_eq_true.mp h
      obtain ⟨hcancels, hnot⟩ := of_decide_eq_true h
      exact hnot (Machine.along_iff.mp hfollow before a [] s t first out rfl hrun hstep cancel hmem
        invite hinvite hcancels)

end

/-! ## Proxies -/

/-- A proxy that forwards requests with the branches that it draws. What it knows of the way is its
choice. -/
structure ForwardingProxy (χ : Type) where
  forward : SipMessage → χ → Bytes → Except Exception (Except Int SipMessage)
  dest : SipMessage → χ → Endpoint
  drawn : ∀ request choice branch sent, forward request choice branch = .ok (.ok sent) →
    sent.viaBranch = branch

inductive ProxyAction (χ : Type) where
  | request (request : SipMessage) (choice : χ) (branch : Bytes)
  | response (number : Nat) (response : SipMessage)

namespace ForwardingProxy

variable {χ : Type} (hop : ForwardingProxy χ)

/-- The state is the number of the next client transaction. -/
def step (next : Nat) : ProxyAction χ → Option (Nat × List CallEvent)
  | .request request choice branch =>
      match hop.forward request choice branch with
      | .ok (.ok sent) =>
          some (next + 1, [.forwarded ⟨next, request, sent, hop.dest request choice⟩])
      | _ => some (next, [])
  | .response number response =>
      if number < next then some (next, [.responded number response.statusCode]) else none

def machine : Machine Nat (ProxyAction χ) CallEvent := ⟨hop.step⟩

/-- A CANCEL that can be sent on gets the branch and the destination of each INVITE in progress that
it is for, by chance. -/
def RepeatsBranch (inProgress : List ForwardedRequest) : ProxyAction χ → Prop
  | .request request choice branch =>
      (∃ sent, hop.forward request choice branch = .ok (.ok sent)) → ∀ invite ∈ inProgress,
        Cancels request invite.received →
          branch = invite.sent.viaBranch ∧ hop.dest request choice = invite.dest
  | .response _ _ => True

theorem cancelsFollow_iff_repeatsBranch (as : List (ProxyAction χ)) :
    CancelsFollow hop.machine 0 as ↔
      (tracked hop.machine).Along (fun s a _ _ => hop.RepeatsBranch s.2 a) (0, []) as := by
  refine Machine.along_congr (I := fun _ => True) (fun _ _ _ _ _ _ => trivial) trivial ?_
  rintro ⟨next, inProgress⟩ a ⟨next', inProgress'⟩ out - hstep
  obtain ⟨hhop, -⟩ := Machine.step_of_summarized hstep
  change hop.step next a = some (next', out) at hhop
  cases a with
  | request request choice branch =>
      rw [step] at hhop
      split at hhop
      · rename_i sent hsent
        cases hhop
        have hdrawn := hop.drawn request choice branch sent hsent
        constructor
        · intro hfollows _ invite hinvite hcancels
          obtain ⟨hbranch, hdest⟩ := hfollows _ (List.mem_singleton.mpr rfl) invite hinvite hcancels
          exact ⟨hdrawn.symm.trans hbranch, hdest⟩
        · intro hrepeats cancel hcancel invite hinvite hcancels
          cases List.mem_singleton.mp hcancel
          obtain ⟨hbranch, hdest⟩ := hrepeats ⟨sent, hsent⟩ invite hinvite hcancels
          exact ⟨hdrawn.trans hbranch, hdest⟩
      · rename_i hnone
        cases hhop
        constructor
        · rintro - ⟨sent, hsent⟩
          exact (hnone sent hsent).elim
        · intro _ cancel hcancel
          cases hcancel
  | response number response =>
      rw [step] at hhop
      split at hhop
      · cases hhop
        refine iff_of_true (fun cancel hcancel => ?_) trivial
        cases List.mem_singleton.mp hcancel
      · cases hhop

end ForwardingProxy

/-! ## The two proxies -/

theorem ProxyCore.viaBranch_of_prepareStateful [OsipAccessor] [OsipParser] {proxy : ProxyCore}
    {request sent : SipMessage} {dest : Endpoint} {options : ForwardOptions} {branch : Bytes}
    (h : proxy.prepareStateful request dest options branch = .ok (.ok sent)) :
    sent.viaBranch = branch := by
  rw [SipMessage.viaBranch, ProxyCore.vias_of_prepareStateful h]
  exact congrArg (Option.getD · []) (branchOf_hopVia _ _ _ _)

section

variable [OsipParser] (proxy : ProxyCore)

/-- What the P-CSCF knows of a request: the side that it has come from, and the UE or the core entry
that it goes to. -/
structure PcscfChoice where
  isCoreFacing : Bool
  dest : Endpoint

/-- `onInvite` and `onCancel` of the P-CSCF: `forwardStatefulToUe` or `forwardStatefulToCore`. -/
def pcscf [OsipAccessor] : ForwardingProxy PcscfChoice where
  forward request choice branch :=
    if choice.isCoreFacing then
      proxy.prepareStateful { request with routes := [] } choice.dest
        { processRouteHeaders := false, detectLoop := false } branch
    else proxy.prepareStateful request choice.dest {} branch
  dest _ choice := choice.dest
  drawn _ _ _ _ h := by
    split at h
    · exact ProxyCore.viaBranch_of_prepareStateful h
    · exact ProxyCore.viaBranch_of_prepareStateful h

/-- `onInvite` of the I-CSCF, for the S-CSCF that has been selected, and `onInDialogStateful` for
the other requests. -/
def icscf [OsipAccessor] (localScscf : Endpoint) : ForwardingProxy Endpoint where
  forward request selected branch :=
    if request.method = bytes "INVITE" then proxy.prepareStateful request selected {} branch
    else proxy.prepareStateful (proxy.processRouteHeaders request) localScscf {} branch
  dest request selected := if request.method = bytes "INVITE" then selected else localScscf
  drawn _ _ _ _ h := by
    split at h
    · exact ProxyCore.viaBranch_of_prepareStateful h
    · exact ProxyCore.viaBranch_of_prepareStateful h

end

end SimIms.Sip
