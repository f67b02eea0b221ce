import SimIms.SCscf.RouterHandlers
import SimIms.Sip.CancelledInvites

/-!
# CANCELs at the S-CSCF

The session of an INVITE outside of a dialog keeps the branch and the destination that it has been
sent on with, and a CANCEL takes both from there. There is one such session for a Call-ID and a From
tag, so what it has belongs to the newest of their INVITEs. INVITEs in a dialog are put down
nowhere.
-/

namespace SimIms.SCscf

open Cxx Lib Sip

/-! ## INVITEs and CANCELs with what is sent on -/

/-- The number of hexadecimal digits does not matter. -/
def generateBranch (random : Bytes) : Bytes := bytes "z9hG4bK" ++ random

theorem generateBranch_ne_nil (random : Bytes) : generateBranch random ≠ [] := by
  rw [generateBranch]
  exact List.append_ne_nil_of_left_ne_nil (by decide) random

/-- What the router is called for. The branches of the forwarded requests are drawn; a CANCEL draws
one only if the INVITE has had none. -/
inductive CallAction where
  | invite (request : SipMessage) (source : Endpoint) (target : Except Int RoutedInvite)
      (random : Bytes) (now : Nat)
  | cancel (request : SipMessage) (random : Bytes)
  | other (action : RouterAction)

namespace RouterState

section

variable [OsipParser] (proxy : ProxyCore)

def prepareInvite (request : SipMessage) (dest : Endpoint) (branch : Bytes) : Option SipMessage :=
  match proxy.prepareRequestForForward (proxy.processRouteHeaders request)
    dest.transport branch with
  | .ok (.ok sent) => some sent
  | _ => none

/-- The INVITE that is sent on, and where. -/
def outgoingInvite (s : RouterState) (request : SipMessage) (target : Except Int RoutedInvite)
    (branch : Bytes) : Option (SipMessage × Endpoint) :=
  if isInDialogRequest request then
    (s.sessions.inDialogTarget request).bind fun found =>
      (prepareInvite proxy request found.2 branch).map (·, found.2)
  else
    match target with
    | .error _ => none
    | .ok routed =>
        (prepareInvite proxy (if routed.uri = [] then request else request.setRequestUri routed.uri)
          routed.target.dest branch).map (·, routed.target.dest)

def callStep (s : RouterState) : CallAction → Option (RouterState × List CallEvent)
  | .invite request source target random now =>
      if request.method ≠ bytes "INVITE" then none
      else
        let outgoing := s.outgoingInvite proxy request target (generateBranch random)
        some ((s.handleInvite request source (target.map RoutedInvite.target)
            (outgoing.map fun sent => sent.1.viaBranch) now).1,
          (outgoing.map fun sent =>
            CallEvent.forwarded ⟨s.nextCallback, request, sent.1, sent.2⟩).toList)
  | .cancel request random =>
      if request.method ≠ bytes "CANCEL" then none
      else
        match s.sessions.cancelTarget request with
        | (_, none) => some (s, [])
        | (sessions, some session) =>
            match proxy.buildForwardedCancel request
              { transport := session.calleeEndpoint.transport
                inviteBranch := session.calleeInviteBranch
                localAddress := proxy.localAddress, localPort := proxy.localPort }
              (generateBranch random) with
            | .error _ => some ({ s with sessions }, [])
            | .ok sent =>
                some ((s.handleCancel request).1,
                  [.forwarded ⟨s.nextCallback, request, sent, session.calleeEndpoint⟩])
  | .other (.response callback response relayed now) =>
      (s.step (.response callback response relayed now)).map fun next =>
        (next.1, [.responded callback response.statusCode])
  | .other (.invite _ _ _ _ _) => none
  | .other (.cancel _) => none
  | .other action => (s.step action).map fun next => (next.1, [])

/-- The router with its CANCELs and the INVITEs that they are for. -/
def callMachine : Machine RouterState CallAction CallEvent := ⟨callStep proxy⟩

end

end RouterState

/-- The newest INVITE in progress outside of a dialog, for a Call-ID and a From tag. -/
def newestInvite (inProgress : List ForwardedRequest) (callId fromTag : Bytes) :
    Option ForwardedRequest :=
  inProgress.find? fun invite =>
    invite.received.callId = callId ∧ invite.received.fromTag = fromTag ∧
      invite.received.toTag = []

/-- A CANCEL that finds a session finds the initial one, and each INVITE in progress that it is for
is the newest one of that session. -/
def FindsItsInvite (sessions : Sessions) (inProgress : List ForwardedRequest) : CallAction → Prop
  | .cancel request _ => ∀ key, sessions.findCancelSessionLocked request = some key →
      ∀ invite ∈ inProgress, Cancels request invite.received →
        key = ⟨request.callId, request.fromTag, []⟩ ∧
          newestInvite inProgress request.callId request.fromTag = some invite
  | _ => True

/-! ## Initial sessions -/

namespace Sessions

variable {sessions before middle after : Sessions} {key : DialogKey}

/-- Initial sessions are those that were there before, with their INVITEs. -/
def KeepsInvites (before after : Sessions) : Prop :=
  ∀ callId fromTag session', after.find ⟨callId, fromTag, []⟩ = some session' →
    ∃ session, before.find ⟨callId, fromTag, []⟩ = some session ∧
      session'.calleeInviteBranch = session.calleeInviteBranch ∧
      session'.calleeEndpoint = session.calleeEndpoint

theorem KeepsInvites.refl (sessions : Sessions) : KeepsInvites sessions sessions :=
  fun _ _ session h => ⟨session, h, rfl, rfl⟩

theorem KeepsInvites.trans (h₁ : KeepsInvites before middle) (h₂ : KeepsInvites middle after) :
    KeepsInvites before after := by
  intro callId fromTag session' h
  obtain ⟨session, hmiddle, hbranch, hdest⟩ := h₂ callId fromTag session' h
  obtain ⟨first, hbefore, hbranch', hdest'⟩ := h₁ callId fromTag session hmiddle
  exact ⟨first, hbefore, hbranch.trans hbranch', hdest.trans hdest'⟩

theorem keepsInvites_modify {f : SessionInfo → SessionInfo}
    (hf : ∀ session, (f session).calleeInviteBranch = session.calleeInviteBranch ∧
      (f session).calleeEndpoint = session.calleeEndpoint) :
    KeepsInvites sessions (sessions.modify key f) := by
  intro callId fromTag session' h
  rw [Table.find_modify] at h
  split at h
  · obtain ⟨session, hfind, rfl⟩ := Option.map_eq_some_iff.mp h
    exact ⟨session, hfind, hf session⟩
  · exact ⟨session', h, rfl, rfl⟩

theorem keepsInvites_erase : KeepsInvites sessions (sessions.erase key) :=
  fun _ _ session' h => ⟨session', (Table.find_of_find_erase h).2, rfl, rfl⟩

theorem keepsInvites_eraseIf (p : DialogKey → SessionInfo → Bool) :
    KeepsInvites sessions (sessions.eraseIf p) :=
  fun _ _ session' h => ⟨session', (Table.find_eraseIf_eq_some_iff.mp h).1, rfl, rfl⟩

/-- The sessions of dialogs do not matter. -/
theorem keepsInvites_insert (hkey : key.calleeTag ≠ []) (session : SessionInfo) :
    KeepsInvites sessions (sessions.insert key session) := by
  intro callId fromTag session' h
  have hne : (⟨callId, fromTag, []⟩ : DialogKey) ≠ key := by
    rintro rfl
    exact hkey rfl
  rw [Table.find_insert_of_ne _ _ hne] at h
  exact ⟨session', h, rfl, rfl⟩

theorem keepsInvites_record {callId callerTag calleeTag : Bytes} (htag : calleeTag ≠ [])
    (established : Bool) (now : Nat) :
    KeepsInvites sessions
      (sessions.recordInviteResponseDialogLocked callId callerTag calleeTag established now) := by
  rw [recordInviteResponseDialogLocked]
  split
  · exact keepsInvites_modify fun _ => ⟨rfl, rfl⟩
  · split
    · exact .refl sessions
    · exact keepsInvites_insert htag _

theorem keepsInvites_eraseCanceled :
    KeepsInvites sessions (sessions.eraseCanceledSessionsLocked key) := by
  rw [eraseCanceledSessionsLocked]
  split
  · exact keepsInvites_erase
  · exact keepsInvites_erase.trans keepsInvites_erase

theorem keepsInvites_handleInviteResponseState (callId callerTag : Bytes) (response : SipMessage)
    (now : Nat) :
    KeepsInvites sessions (sessions.handleInviteResponseState callId callerTag response now) := by
  have hpurged : KeepsInvites sessions (sessions.purgeExpiredSessionsLocked now) :=
    keepsInvites_eraseIf _
  unfold handleInviteResponseState
  extract_lets status calleeTag purged recorded
  split
  · exact hpurged
  · split
    · rename_i hprovisional
      exact hpurged.trans (keepsInvites_record hprovisional.2.2 false now)
    · split
      · refine KeepsInvites.trans ?_ keepsInvites_erase
        dsimp only [recorded]
        split
        · rename_i htag
          exact hpurged.trans (keepsInvites_record htag true now)
        · exact hpurged
      · split
        · exact hpurged.trans (keepsInvites_eraseIf _)
        · exact hpurged

/-- A final response ends the initial session. -/
theorem find_handleInviteResponseState (callId callerTag : Bytes) {response : SipMessage}
    (hfinal : 200 ≤ response.statusCode ∧ response.statusCode ≤ 699) (now : Nat) :
    (sessions.handleInviteResponseState callId callerTag response now).find
      ⟨callId, callerTag, []⟩ = none := by
  unfold handleInviteResponseState
  extract_lets status calleeTag purged recorded
  have hstatus : 200 ≤ status ∧ status ≤ 699 := hfinal
  rw [if_neg (by omega), if_neg (by omega)]
  split
  · exact Table.find_erase_self _ _
  · rw [if_pos (by omega), Option.eq_none_iff_forall_ne_some]
    intro session h
    obtain ⟨-, hkept⟩ := Table.find_eraseIf_eq_some_iff.mp h
    simp at hkept

end Sessions

/-! ## What the sessions know of the INVITEs -/

theorem find?_filter_of_find? {α : Type} {l : List α} {p q : α → Bool} {a : α}
    (h : l.find? p = some a) (hq : q a = true) : (l.filter q).find? p = some a := by
  induction l with
  | nil => cases h
  | cons b l ih =>
      rw [List.find?_cons] at h
      cases hp : p b with
      | true =>
          rw [hp] at h
          cases h
          rw [List.filter_cons_of_pos hq, List.find?_cons_of_pos hp]
      | false =>
          rw [hp] at h
          cases hqb : q b with
          | true =>
              rw [List.filter_cons_of_pos hqb,
                List.find?_cons_of_neg (Bool.not_eq_true _ ▸ hp)]
              exact ih h
          | false =>
              rw [List.filter_cons_of_neg (Bool.not_eq_true _ ▸ hqb)]
              exact ih h

/-- An initial session is that of the newest INVITE in progress, and the callbacks of those in
progress are still there. -/
structure KnowsInvites (s : RouterState) (inProgress : List ForwardedRequest) : Prop where
  initial : ∀ callId fromTag session, s.sessions.find ⟨callId, fromTag, []⟩ = some session →
    ∃ invite, newestInvite inProgress callId fromTag = some invite ∧
      invite.sent.viaBranch = session.calleeInviteBranch ∧ session.calleeInviteBranch ≠ [] ∧
      invite.dest = session.calleeEndpoint
  numbers : ∀ invite ∈ inProgress, invite.number < s.nextCallback
  callbacks : ∀ invite ∈ inProgress, s.callbacks.find invite.number =
    some (.invite invite.received.callId invite.received.fromTag
      (isInDialogRequest invite.received))

theorem newestInvite_eq_some {inProgress : List ForwardedRequest} {callId fromTag : Bytes}
    {invite : ForwardedRequest} (h : newestInvite inProgress callId fromTag = some invite) :
    invite ∈ inProgress ∧ invite.received.callId = callId ∧ invite.received.fromTag = fromTag ∧
      invite.received.toTag = [] := by
  have hfound := List.find?_some h
  exact ⟨List.mem_of_find?_eq_some h, of_decide_eq_true hfound⟩

namespace KnowsInvites

variable {s t : RouterState} {inProgress : List ForwardedRequest} {callback : RouterCallback}

theorem init : KnowsInvites .init [] where
  initial _ _ _ h := by cases h
  numbers _ h := by cases h
  callbacks _ h := by cases h

theorem keeps (h : KnowsInvites s inProgress) {sessions : Sessions}
    (hkeeps : s.sessions.KeepsInvites sessions) : KnowsInvites { s with sessions } inProgress where
  initial callId fromTag session' hfind := by
    obtain ⟨session, hbefore, hbranch, hdest⟩ := hkeeps callId fromTag session' hfind
    rw [hbranch, hdest]
    exact h.initial callId fromTag session hbefore
  numbers := h.numbers
  callbacks := h.callbacks

/-- Other requests get callbacks of their own. -/
theorem send (h : KnowsInvites s inProgress) (callback : RouterCallback) :
    KnowsInvites (s.send callback) inProgress where
  initial := h.initial
  numbers invite hmem := (h.numbers invite hmem).trans (Nat.lt_succ_self _)
  callbacks invite hmem :=
    (Table.find_insert_of_ne _ _ (h.numbers invite hmem).ne).trans (h.callbacks invite hmem)

/-- An INVITE gets its callback when it is sent on. -/
theorem sendInvite {inProgress' : List ForwardedRequest} {request sent : SipMessage}
    {dest : Endpoint} {inDialog : Bool}
    (hinitial : ∀ callId fromTag session, s.sessions.find ⟨callId, fromTag, []⟩ = some session →
      ∃ invite, newestInvite (⟨s.nextCallback, request, sent, dest⟩ :: inProgress') callId fromTag =
          some invite ∧ invite.sent.viaBranch = session.calleeInviteBranch ∧
        session.calleeInviteBranch ≠ [] ∧ invite.dest = session.calleeEndpoint)
    (hnumbers : ∀ invite ∈ inProgress', invite.number < s.nextCallback)
    (hcallbacks : ∀ invite ∈ inProgress', s.callbacks.find invite.number =
      some (.invite invite.received.callId invite.received.fromTag
        (isInDialogRequest invite.received)))
    (hdialog : isInDialogRequest request = inDialog) :
    KnowsInvites (s.send (.invite request.callId request.fromTag inDialog))
      (⟨s.nextCallback, request, sent, dest⟩ :: inProgress') where
  initial := hinitial
  numbers invite hmem := by
    obtain rfl | hmem := List.mem_cons.mp hmem
    · exact Nat.lt_succ_self _
    · exact (hnumbers invite hmem).trans (Nat.lt_succ_self _)
  callbacks invite hmem := by
    obtain rfl | hmem := List.mem_cons.mp hmem
    · rw [hdialog]
      exact Table.find_insert_self _ _ _
    · exact (Table.find_insert_of_ne _ _ (hnumbers invite hmem).ne).trans (hcallbacks invite hmem)

/-- A final response ends its INVITE, and the session with it. -/
theorem final (h : KnowsInvites s inProgress) {number : Nat} {sessions : Sessions}
    (hkeeps : s.sessions.KeepsInvites sessions)
    (hended : ∀ callId fromTag, s.callbacks.find number = some (.invite callId fromTag false) →
      sessions.find ⟨callId, fromTag, []⟩ = none) :
    KnowsInvites { s with sessions } (inProgress.filter (·.number ≠ number)) where
  initial callId fromTag session' hfind := by
    obtain ⟨session, hbefore, hbranch, hdest⟩ := hkeeps callId fromTag session' hfind
    obtain ⟨invite, hnewest, hsame⟩ := h.initial callId fromTag session hbefore
    obtain ⟨hmem, hcallId, hfromTag, htoTag⟩ := newestInvite_eq_some hnewest
    refine ⟨invite, find?_filter_of_find? hnewest (decide_eq_true ?_), ?_⟩
    · rintro rfl
      have hcallback := h.callbacks invite hmem
      rw [isInDialogRequest, htoTag, hcallId, hfromTag] at hcallback
      cases (hended callId fromTag hcallback).symm.trans hfind
    · rw [hbranch, hdest]
      exact hsame
  numbers invite hmem := h.numbers invite (List.mem_filter.mp hmem).1
  callbacks invite hmem := h.callbacks invite (List.mem_filter.mp hmem).1

end KnowsInvites

/-! ## Steps -/

namespace RouterState

variable {s t : RouterState} {inProgress inProgress' : List ForwardedRequest} {a : CallAction}
variable {out : List CallEvent} {request sent : SipMessage} {dest : Endpoint} {branch : Bytes}

/-- What a response does to the table. -/
theorem exists_handleResponse (s : RouterState) (callback : RouterCallback) (response : SipMessage)
    (relayed : Bool) (now : Nat) :
    ∃ sessions, s.handleResponse callback response relayed now = { s with sessions } ∧
      s.sessions.KeepsInvites sessions ∧
      (200 ≤ response.statusCode ∧ response.statusCode ≤ 699 → ∀ callId fromTag,
        callback = .invite callId fromTag false → sessions.find ⟨callId, fromTag, []⟩ = none) := by
  cases callback with
  | invite callId fromTag inDialog =>
      cases inDialog with
      | true => exact ⟨s.sessions, rfl, .refl _, fun _ _ _ heq => by cases heq⟩
      | false =>
          refine ⟨_, rfl, Sessions.keepsInvites_handleInviteResponseState _ _ _ _, ?_⟩
          intro hfinal callId' fromTag' heq
          cases heq
          exact Sessions.find_handleInviteResponseState _ _ hfinal now
  | bye sessionKey =>
      rw [handleResponse]
      split
      · refine ⟨_, rfl, Sessions.keepsInvites_erase, ?_⟩
        simp
      · refine ⟨s.sessions, rfl, .refl _, ?_⟩
        simp
  | prack => exact ⟨s.sessions, rfl, .refl _, fun _ _ _ heq => by cases heq⟩
  | cancel => exact ⟨s.sessions, rfl, .refl _, fun _ _ _ heq => by cases heq⟩

theorem knowsInvites_response (h : KnowsInvites s inProgress) {number : Nat}
    {callback : RouterCallback} (hcallback : s.callbacks.find number = some callback)
    (response : SipMessage) (relayed : Bool) (now : Nat) :
    KnowsInvites (s.handleResponse callback response relayed now)
      (trackInvite inProgress (.responded number response.statusCode)) := by
  obtain ⟨sessions, heq, hkeeps, hended⟩ :=
    exists_handleResponse s callback response relayed now
  rw [heq, trackInvite]
  split
  · rename_i hfinal
    refine h.final hkeeps fun callId fromTag hinvite => ?_
    exact hended hfinal callId fromTag (Option.some.inj (hcallback.symm.trans hinvite))
  · exact h.keeps hkeeps

theorem handleInvite_none (s : RouterState) (request : SipMessage) (source : Endpoint)
    (target : Except Int InviteTarget) (now : Nat) :
    (s.handleInvite request source target none now).1 = s := by
  unfold handleInvite
  split
  · split
    · rfl
    · rfl
  · split
    · rfl
    · rfl

/-- An INVITE in a dialog leaves the table as it is. -/
theorem knowsInvites_reinvite (h : KnowsInvites s inProgress)
    (hdialog : isInDialogRequest request = true) :
    KnowsInvites (s.send (.invite request.callId request.fromTag true))
      (⟨s.nextCallback, request, sent, dest⟩ :: inProgress) := by
  refine .sendInvite (fun callId fromTag session hfind => ?_) h.numbers h.callbacks hdialog
  have hskipped : newestInvite (⟨s.nextCallback, request, sent, dest⟩ :: inProgress)
      callId fromTag = newestInvite inProgress callId fromTag := by
    refine List.find?_cons_of_neg ?_
    rw [decide_eq_true_iff]
    exact fun hinitial => of_decide_eq_true hdialog hinitial.2.2
  rw [hskipped]
  exact h.initial callId fromTag session hfind

/-- Any other takes its session over. -/
theorem knowsInvites_recordInvite (h : KnowsInvites s inProgress)
    (hdialog : isInDialogRequest request = false) (source : Endpoint) (target : InviteTarget)
    (hbranch : sent.viaBranch ≠ []) (now : Nat) :
    KnowsInvites
      (send { s with
          sessions := recordInvite s.sessions request source target sent.viaBranch now }
        (.invite request.callId request.fromTag false))
      (⟨s.nextCallback, request, sent, target.dest⟩ :: inProgress) := by
  refine .sendInvite (s := { s with
    sessions := recordInvite s.sessions request source target sent.viaBranch now })
    (fun callId fromTag session hfind => ?_) h.numbers h.callbacks hdialog
  have htoTag : request.toTag = [] := by
    by_contra htag
    rw [isInDialogRequest, decide_eq_true htag] at hdialog
    cases hdialog
  by_cases hown : request.callId = callId ∧ request.fromTag = fromTag
  · obtain ⟨rfl, rfl⟩ := hown
    change Table.find (recordInvite s.sessions request source target sent.viaBranch now) _ =
      _ at hfind
    rw [recordInvite, Table.find_insert_self] at hfind
    cases hfind
    refine ⟨_, List.find?_cons_of_pos ?_, rfl, hbranch, rfl⟩
    exact decide_eq_true ⟨rfl, rfl, htoTag⟩
  · have hne : (⟨callId, fromTag, []⟩ : DialogKey) ≠ ⟨request.callId, request.fromTag, []⟩ := by
      intro heq
      cases heq
      exact hown ⟨rfl, rfl⟩
    change Table.find (recordInvite s.sessions request source target sent.viaBranch now) _ =
      _ at hfind
    rw [recordInvite, Table.find_insert_of_ne _ _ hne] at hfind
    have hskipped : newestInvite (⟨s.nextCallback, request, sent, target.dest⟩ :: inProgress) callId
        fromTag = newestInvite inProgress callId fromTag := by
      refine List.find?_cons_of_neg ?_
      rw [decide_eq_true_iff]
      exact fun hinitial => hown ⟨hinitial.1, hinitial.2.1⟩
    change ∃ invite, newestInvite (⟨s.nextCallback, request, sent, target.dest⟩ :: inProgress)
      callId
      fromTag = some invite ∧ _
    rw [hskipped]
    exact h.initial callId fromTag session (Table.find_eraseIf_eq_some_iff.mp hfind).1

theorem keepsInvites_cancelTarget (sessions : Sessions) (request : SipMessage) :
    sessions.KeepsInvites (sessions.cancelTarget request).1 := by
  rw [Sessions.cancelTarget]
  split
  · exact .refl _
  · split
    · exact .refl _
    · exact Sessions.keepsInvites_modify fun _ => ⟨rfl, rfl⟩

theorem knowsInvites_handleBye (h : KnowsInvites s inProgress) (request : SipMessage)
    (branch : Option Bytes) : KnowsInvites (s.handleBye request branch).1 inProgress := by
  rw [handleBye]
  split
  · exact h
  · have hmarked : ∀ key : DialogKey, KnowsInvites
        { s with sessions := s.sessions.modify key fun session => { session with byeSeen := true } }
        inProgress := fun key => h.keeps (Sessions.keepsInvites_modify fun _ => ⟨rfl, rfl⟩)
    split
    · exact hmarked _
    · exact (hmarked _).send _

theorem knowsInvites_handlePrack (h : KnowsInvites s inProgress) (request : SipMessage)
    (branch : Option Bytes) : KnowsInvites (s.handlePrack request branch).1 inProgress := by
  rw [handlePrack]
  split
  · exact h
  · split
    · exact h
    · exact h.send _

theorem knowsInvites_handleAck (h : KnowsInvites s inProgress) (request : SipMessage) :
    KnowsInvites (s.handleAck request).1 inProgress := by
  rw [handleAck_eq]
  refine h.keeps ?_
  rw [Sessions.ackTarget]
  split
  · dsimp only
    split
    · exact .refl _
    · split
      · exact Sessions.keepsInvites_eraseCanceled
      · exact .refl _
  · split
    · exact .refl _
    · split
      · exact .refl _
      · dsimp only
        split
        · exact Sessions.keepsInvites_eraseCanceled
        · exact .refl _

/-- The session that a CANCEL finds. -/
theorem cancelTarget_eq_some {sessions after : Sessions} {session : SessionInfo}
    (h : sessions.cancelTarget request = (after, some session)) :
    ∃ key found, sessions.findCancelSessionLocked request = some key ∧
      sessions.find key = some found ∧ session = { found with cancelSeen := true } := by
  rw [Sessions.cancelTarget] at h
  split at h
  · cases h
  · rename_i key hkey
    split at h
    · cases h
    · rename_i found hfound
      cases h
      exact ⟨key, found, hkey, hfound, rfl⟩

section

variable [OsipParser] {proxy : ProxyCore} {target : Except Int RoutedInvite}

theorem viaBranch_of_prepareInvite (h : prepareInvite proxy request dest branch = some sent) :
    sent.viaBranch = branch := by
  rw [prepareInvite] at h
  split at h
  · rename_i prepared hprepared
    cases h
    exact ProxyCore.viaBranch_of_prepareRequestForForward hprepared
  · cases h

/-- Where an INVITE goes, with the branch that has been drawn for it. -/
theorem outgoingInvite_eq_some
    (h : s.outgoingInvite proxy request target branch = some (sent, dest)) :
    sent.viaBranch = branch ∧
      (isInDialogRequest request = true ∧
          (∃ key, s.sessions.inDialogTarget request = some (key, dest)) ∨
        isInDialogRequest request = false ∧
          ∃ routed, target = .ok routed ∧ routed.target.dest = dest) := by
  unfold outgoingInvite at h
  split at h
  · rename_i hdialog
    obtain ⟨⟨key, found⟩, hfound, h⟩ := Option.bind_eq_some_iff.mp h
    obtain ⟨prepared, hprepared, heq⟩ := Option.map_eq_some_iff.mp h
    cases heq
    exact ⟨viaBranch_of_prepareInvite hprepared, .inl ⟨hdialog, key, hfound⟩⟩
  · rename_i hdialog
    split at h
    · cases h
    · rename_i routed
      obtain ⟨prepared, hprepared, heq⟩ := Option.map_eq_some_iff.mp h
      cases heq
      exact ⟨viaBranch_of_prepareInvite hprepared,
        .inr ⟨Bool.eq_false_iff.mpr hdialog, routed, rfl, rfl⟩⟩

theorem knowsInvites_invite (h : KnowsInvites s inProgress) (source : Endpoint) (random : Bytes)
    (now : Nat)
    (hsent : s.outgoingInvite proxy request target (generateBranch random) = some (sent, dest)) :
    KnowsInvites
      (s.handleInvite request source (target.map RoutedInvite.target) (some sent.viaBranch) now).1
      (⟨s.nextCallback, request, sent, dest⟩ :: inProgress) := by
  obtain ⟨hbranch, ⟨hdialog, key, hfound⟩ | ⟨hdialog, routed, rfl, rfl⟩⟩ :=
    outgoingInvite_eq_some hsent
  · have heq : (s.handleInvite request source (target.map RoutedInvite.target)
        (some sent.viaBranch) now).1 = s.send (.invite request.callId request.fromTag true) := by
      rw [handleInvite.eq_def, if_pos hdialog, hfound]
    rw [heq]
    exact knowsInvites_reinvite h hdialog
  · have heq : (s.handleInvite request source ((Except.ok routed).map RoutedInvite.target)
        (some sent.viaBranch) now).1 = send { s with
          sessions := recordInvite s.sessions request source routed.target sent.viaBranch now }
            (.invite request.callId request.fromTag false) := by
      rw [handleInvite.eq_def, if_neg (by rw [hdialog]; exact Bool.false_ne_true)]
      rfl
    rw [heq]
    exact knowsInvites_recordInvite h hdialog source routed.target
      (hbranch ▸ generateBranch_ne_nil random) now

theorem knowsInvites_other (h : KnowsInvites s inProgress) {action : RouterAction}
    (hstep : s.callStep proxy (.other action) = some (t, out)) :
    KnowsInvites t (out.foldl trackInvite inProgress) := by
  cases action with
  | invite request source target branch now => cases hstep
  | cancel request => cases hstep
  | bye request branch =>
      cases hstep
      exact knowsInvites_handleBye h request branch
  | prack request branch =>
      cases hstep
      exact knowsInvites_handlePrack h request branch
  | ack request =>
      cases hstep
      exact knowsInvites_handleAck h request
  | response number response relayed now =>
      obtain ⟨next, hnext, heq⟩ := Option.map_eq_some_iff.mp hstep
      cases heq
      rw [RouterState.step.eq_def] at hnext
      dsimp only at hnext
      split at hnext
      · cases hnext
      · rename_i callback hcallback
        cases hnext
        exact knowsInvites_response h hcallback response relayed now

/-- The step lemma. -/
theorem knowsInvites_step (h : KnowsInvites s inProgress)
    (hstep : s.callStep proxy a = some (t, out)) :
    KnowsInvites t (out.foldl trackInvite inProgress) := by
  cases a with
  | invite request source target random now =>
      rw [callStep] at hstep
      split at hstep
      · cases hstep
      · rename_i hmethod
        cases hsent : s.outgoingInvite proxy request target (generateBranch random) with
        | none =>
            rw [hsent] at hstep
            cases hstep
            rw [Option.map_none, handleInvite_none]
            exact h
        | some outgoing =>
            obtain ⟨sent, dest⟩ := outgoing
            rw [hsent] at hstep
            cases hstep
            have hkept := knowsInvites_invite h source random now hsent
            change KnowsInvites _ (trackInvite inProgress (.forwarded _))
            rw [trackInvite, if_pos (not_not.mp hmethod)]
            exact hkept
  | cancel request random =>
      rw [callStep] at hstep
      split at hstep
      · cases hstep
      · rename_i hmethod
        have hcancel : request.method = bytes "CANCEL" := not_not.mp hmethod
        have hkept := h.keeps (keepsInvites_cancelTarget s.sessions request)
        split at hstep
        · cases hstep
          exact h
        · rename_i sessions session htarget
          rw [htarget] at hkept
          split at hstep
          · cases hstep
            exact hkept
          · cases hstep
            have heq : (s.handleCancel request).1 = send { s with sessions } .cancel := by
              rw [handleCancel_eq, htarget]
            change KnowsInvites _ (trackInvite inProgress (.forwarded _))
            rw [trackInvite, if_neg (by rw [hcancel]; decide), heq]
            exact hkept.send .cancel
  | other action => exact knowsInvites_other h hstep

theorem viaBranch_of_buildForwardedCancel {context : CancelForwardContext}
    (h : proxy.buildForwardedCancel request context branch = .ok sent)
    (hne : context.inviteBranch ≠ []) : sent.viaBranch = context.inviteBranch := by
  rw [SipMessage.viaBranch, (ProxyCore.buildForwardedCancel_eq_ok h).2, if_neg hne]
  exact congrArg (Option.getD · []) (branchOf_hopVia _ _ _ _)

/-- A CANCEL that finds its INVITE follows it. -/
theorem follows_of_findsItsInvite (h : KnowsInvites s inProgress)
    (hfinds : FindsItsInvite s.sessions inProgress a)
    (hstep : s.callStep proxy a = some (t, out)) {cancel invite : ForwardedRequest}
    (hcancel : .forwarded cancel ∈ out) (hinvite : invite ∈ inProgress)
    (hcancels : Cancels cancel.received invite.received) : cancel.Follows invite := by
  cases a with
  | invite request source target random now =>
      rw [callStep] at hstep
      split at hstep
      · cases hstep
      · rename_i hmethod
        cases hstep
        obtain ⟨sent, -, heq⟩ := Option.map_eq_some_iff.mp (Option.mem_toList.mp hcancel)
        cases heq
        have hboth : bytes "CANCEL" = bytes "INVITE" := hcancels.1.symm.trans (not_not.mp hmethod)
        exact absurd hboth (by decide)
  | cancel request random =>
      rw [callStep] at hstep
      split at hstep
      · cases hstep
      · split at hstep
        · cases hstep
          cases hcancel
        · rename_i sessions session htarget
          split at hstep
          · cases hstep
            cases hcancel
          · rename_i sent hsent
            cases hstep
            cases List.mem_singleton.mp hcancel
            obtain ⟨key, found, hkey, hfound, rfl⟩ := cancelTarget_eq_some htarget
            obtain ⟨rfl, hnewest⟩ := hfinds key hkey invite hinvite hcancels
            obtain ⟨invite', hnewest', hbranch, hne, hdest⟩ := h.initial _ _ found hfound
            cases hnewest.symm.trans hnewest'
            exact ⟨(viaBranch_of_buildForwardedCancel hsent hne).trans hbranch.symm, hdest.symm⟩
  | other action =>
      cases action with
      | invite request source target branch now => cases hstep
      | cancel request => cases hstep
      | bye request branch =>
          cases hstep
          cases hcancel
      | prack request branch =>
          cases hstep
          cases hcancel
      | ack request =>
          cases hstep
          cases hcancel
      | response number response relayed now =>
          obtain ⟨next, -, heq⟩ := Option.map_eq_some_iff.mp hstep
          cases heq
          cases List.mem_singleton.mp hcancel

/-- In a run all of whose CANCELs find their INVITEs, they follow them. -/
theorem cancelsFollow_of_findsItsInvite {as : List CallAction}
    (hfinds : (tracked (callMachine proxy)).Along
      (fun s a _ _ => FindsItsInvite s.1.sessions s.2 a) (.init, []) as) :
    CancelsFollow (callMachine proxy) .init as := by
  have hknown := hfinds.with_invariant (I := fun s => KnowsInvites s.1 s.2)
    (fun s a t out h hstep _ => ?_) KnowsInvites.init
  · refine hknown.mono fun s a t out hstep h cancel hcancel invite hinvite hcancels => ?_
    exact follows_of_findsItsInvite h.1 h.2 (Machine.step_of_summarized hstep).1 hcancel hinvite
      hcancels
  · obtain ⟨hcall, htracked⟩ := Machine.step_of_summarized hstep
    rw [htracked]
    exact knowsInvites_step h hcall

end

end RouterState

/-! ## The three hops -/

/-- When the CANCELs of a hop go where their INVITEs have gone, with the same branch: at the proxies
just when they draw that branch again, and at the S-CSCF when they find the INVITE that they are
for. -/
theorem cancels_follow [OsipAccessor] [OsipParser] (proxy : ProxyCore) (localScscf : Endpoint) :
    (∀ as, CancelsFollow (pcscf proxy).machine 0 as ↔ (tracked (pcscf proxy).machine).Along
        (fun s a _ _ => (pcscf proxy).RepeatsBranch s.2 a) (0, []) as) ∧
      (∀ as, CancelsFollow (icscf proxy localScscf).machine 0 as ↔
        (tracked (icscf proxy localScscf).machine).Along
          (fun s a _ _ => (icscf proxy localScscf).RepeatsBranch s.2 a) (0, []) as) ∧
      ∀ as, (tracked (RouterState.callMachine proxy)).Along
          (fun s a _ _ => FindsItsInvite s.1.sessions s.2 a) (.init, []) as →
        CancelsFollow (RouterState.callMachine proxy) .init as :=
  ⟨(pcscf proxy).cancelsFollow_iff_repeatsBranch,
    (icscf proxy localScscf).cancelsFollow_iff_repeatsBranch,
    fun _ => RouterState.cancelsFollow_of_findsItsInvite⟩

def ringingCaller : Endpoint := ⟨bytes "10.0.0.3", 5060, bytes "udp"⟩

def ringingCallee : Endpoint := ⟨bytes "10.0.0.9", 5060, bytes "udp"⟩

def ringingProxy : ProxyCore := ⟨bytes "10.0.0.5", 5062⟩

/-- A request of the caller, with this branch. -/
def ringingRequest (method branch : String) : SipMessage :=
  { dialogRequest method (bytes "a") [] with
    vias := [hopVia (bytes "udp") (bytes "10.0.0.3") 5060 (bytes branch)] }

def ringingInvite (branch random : String) : CallAction :=
  .invite (ringingRequest "INVITE" branch) ringingCaller
    (.ok ⟨⟨bytes "sip:bob@ims.local", ringingCallee⟩, []⟩) (bytes random) 0

/-- The caller gives up. -/
theorem cancels_follow_ringing :
    CancelsFollow (@RouterState.callMachine plainUris ringingProxy) .init
      [ringingInvite "z9hG4bK1" "1", .cancel (ringingRequest "CANCEL" "z9hG4bK1") (bytes "2")] := by
  refine (@cancels_follow _ plainUris ringingProxy ringingCallee).2.2 _ ⟨trivial, ?_, trivial⟩
  intro key hkey invite hinvite hcancels
  cases hkey
  cases List.mem_singleton.mp hinvite
  exact ⟨rfl, rfl⟩

/-- At the proxies a CANCEL gets a branch of its own. At the S-CSCF the caller has tried again, and
its first INVITE is canceled with the branch of the second one. -/
theorem cancels_do_not_follow :
    (¬ ∀ as, CancelsFollow (@pcscf plainUris ringingProxy _).machine 0 as) ∧
      (¬ ∀ as, CancelsFollow (@icscf plainUris ringingProxy _ ringingCallee).machine 0 as) ∧
      ¬ ∀ as, CancelsFollow (@RouterState.callMachine plainUris ringingProxy) .init as := by
  refine ⟨fun hfollow => ?_, fun hfollow => ?_, fun hfollow => ?_⟩
  · exact not_cancelsFollow_of_strays
      [.request (ringingRequest "INVITE" "z9hG4bK1") ⟨false, ringingCallee⟩ (bytes "z9hG4bK2")]
      (.request (ringingRequest "CANCEL" "z9hG4bK1") ⟨false, ringingCallee⟩ (bytes "z9hG4bK3"))
      (by decide +kernel) (hfollow _)
  · exact not_cancelsFollow_of_strays
      [.request (ringingRequest "INVITE" "z9hG4bK1") ringingCallee (bytes "z9hG4bK2")]
      (.request (ringingRequest "CANCEL" "z9hG4bK1") ringingCallee (bytes "z9hG4bK3"))
      (by decide +kernel) (hfollow _)
  · exact not_cancelsFollow_of_strays
      [ringingInvite "z9hG4bK1" "1", ringingInvite "z9hG4bK2" "2"]
      (.cancel (ringingRequest "CANCEL" "z9hG4bK1") (bytes "3")) (by decide +kernel) (hfollow _)

end SimIms.SCscf
