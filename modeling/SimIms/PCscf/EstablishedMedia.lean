import SimIms.Lib.Persistence
import SimIms.PCscf.MediaHandlers

/-!
# Established media sessions

An established session should last until the BYE of its dialog. Four of the manager's
methods can take one out of its state: `createSession` for its key, `markTerminating` when
the lookup ends at it, and the two final markings when it was recorded without a `To` tag.
`Cuts` are the handlers that make such a call although no BYE of the dialog has come.
-/

namespace SimIms.Rtp

open Cxx Lib

namespace MediaSessions

/-- An established session with its Rx session. -/
def Established (sessions : MediaSessions) (w : MediaSessionKey) (rxSessionId : Bytes) : Prop :=
  ∃ state, sessions.find w = some state ∧ state.lifecycle = .established ∧
    state.rxSessionId = rxSessionId

variable {sessions sessions' : MediaSessions} {key w : MediaSessionKey} {rxSessionId : Bytes}

theorem Established.congr (h : Established sessions w rxSessionId)
    (hfind : sessions'.find w = sessions.find w) : Established sessions' w rxSessionId := by
  obtain ⟨state, hstate, hparts⟩ := h
  exact ⟨state, hfind.trans hstate, hparts⟩

/-- Changes in place that keep the state and the Rx session of established sessions. -/
theorem Established.modify (h : Established sessions w rxSessionId)
    {f : MediaSessionState → MediaSessionState}
    (hf : ∀ state, state.lifecycle = .established →
      (f state).lifecycle = .established ∧ (key = w → (f state).rxSessionId = state.rxSessionId)) :
    Established (sessions.modify key f) w rxSessionId := by
  obtain ⟨state, hfind, hstate, hrx⟩ := h
  by_cases hkey : w = key
  · obtain ⟨hstate', hrx'⟩ := hf state hstate
    refine ⟨f state, ?_, hstate', (hrx' hkey.symm).trans hrx⟩
    rw [hkey, Table.find_modify_self, ← hkey, hfind, Option.map_some]
  · exact ⟨state, (Table.find_modify_of_ne _ _ hkey).trans hfind, hstate, hrx⟩

theorem Established.erase (h : Established sessions w rxSessionId) (hne : key ≠ w) :
    Established (sessions.erase key) w rxSessionId :=
  h.congr (Table.find_erase_of_ne _ hne.symm)

theorem Established.insert (h : Established sessions w rxSessionId) (hne : key ≠ w)
    (state : MediaSessionState) : Established (sessions.insert key state) w rxSessionId :=
  h.congr (Table.find_insert_of_ne _ _ hne.symm)

theorem Established.ensure (h : Established sessions w rxSessionId) (key : MediaSessionKey) :
    Established (sessions.ensureInviteResponseSessionLocked key).1 w rxSessionId := by
  obtain ⟨state, hfind, hparts⟩ := h
  exact ⟨state, find_ensure_of_find hfind, hparts⟩

theorem Established.terminateIf (h : Established sessions w rxSessionId)
    {ended : MediaSessionKey → MediaSessionState → Bool}
    (hspared : ∀ state, state.lifecycle = .established → ended w state = false) :
    Established (sessions.terminateIf ended).1 w rxSessionId ∧
      ∀ plan ∈ (sessions.terminateIf ended).2, plan.key ≠ w := by
  obtain ⟨state, hfind, hstate, hrx⟩ := h
  have hsame := hspared state hstate
  refine ⟨⟨state, ?_, hstate, hrx⟩, ?_⟩
  · rw [find_terminateIf, hfind, Option.map_some, if_neg (by rw [hsame]; exact Bool.false_ne_true)]
  · intro plan hplan hkey
    obtain ⟨state', hfind', hended, _⟩ := mem_plans_terminateIf hplan
    rw [hkey] at hfind' hended
    cases hfind.symm.trans hfind'
    cases hsame.symm.trans hended

theorem Established.terminateIf_breaks (h : Established sessions w rxSessionId)
    {ended : MediaSessionKey → MediaSessionState → Bool}
    (hended : ∀ state, state.lifecycle = .established → ended w state = true) :
    ¬ Established (sessions.terminateIf ended).1 w rxSessionId := by
  obtain ⟨state, hfind, hstate, _⟩ := h
  rintro ⟨state', hfind', hstate', _⟩
  rw [find_terminateIf, hfind, Option.map_some, if_pos (hended state hstate)] at hfind'
  cases hfind'
  cases hstate'

theorem Established.updateToTag (h : Established sessions w rxSessionId) {toTag : Bytes}
    (hkey : key ≠ w) (htarget : { key with toTag } ≠ w) :
    Established (sessions.updateToTag key toTag) w rxSessionId := by
  rw [MediaSessions.updateToTag]
  split
  · exact h
  · exact (h.erase hkey).insert htarget _

theorem Established.atUnique (h : Established sessions w rxSessionId) {callId : Bytes}
    {change : MediaSessionKey → MediaSessions}
    (hchange : ∀ key, sessions.findUniqueByCallIdLocked callId = some key →
      Established (change key) w rxSessionId) :
    Established (sessions.atUnique callId change) w rxSessionId := by
  rw [MediaSessions.atUnique]
  split
  · exact h
  · exact hchange _ ‹_›

/-- A final response of the call and `From` tag ends an established session just when it
has no `To` tag. -/
theorem endedByFinal_of_established {state : MediaSessionState}
    (h : state.lifecycle = .established) :
    endedByFinal key w state = true ↔
      w.callId = key.callId ∧ w.fromTag = key.fromTag ∧ w.toTag = [] := by
  simp [endedByFinal, h]

end MediaSessions

namespace ManagerCall

variable {sessions : MediaSessions} {w : MediaSessionKey} {rxSessionId : Bytes}

/-- The call takes a session that is established under `w` out of its state. -/
def Disturbs (sessions : MediaSessions) (w : MediaSessionKey) : ManagerCall → Prop
  | .createSession key => key = w
  | .markInviteFinalSuccess key =>
      key ≠ w ∧ w.callId = key.callId ∧ w.fromTag = key.fromTag ∧ w.toTag = []
  | .markInviteFinalFailure key =>
      w.callId = key.callId ∧ w.fromTag = key.fromTag ∧ w.toTag = []
  | .markTerminating key => sessions.terminationTarget key = some w
  | _ => False

/-- The call edits the session under `w`; the handlers make no such call. -/
def Edits (sessions : MediaSessions) (w : MediaSessionKey) : ManagerCall → Prop
  | .updateToTag key toTag => key = w ∨ { key with toTag } = w
  | .updateToTagByCallId callId toTag =>
      ∃ key, sessions.findUniqueByCallIdLocked callId = some key ∧
        (key = w ∨ { key with toTag } = w)
  | .setRxSession key _ => key = w
  | .setRxSessionByCallId callId _ => sessions.findUniqueByCallIdLocked callId = some w
  | .removeSession key => key = w
  | .removeSessionByCallId callId => sessions.findUniqueByCallIdLocked callId = some w
  | _ => False

theorem established_markInviteFinalSuccess {key : MediaSessionKey}
    (h : sessions.Established w rxSessionId)
    (hdisturbs : ¬ Disturbs sessions w (.markInviteFinalSuccess key)) :
    (sessions.markInviteFinalSuccess key).1.Established w rxSessionId ∧
      ∀ plan ∈ (sessions.markInviteFinalSuccess key).2, plan.key ≠ w := by
  rw [MediaSessions.markInviteFinalSuccess_eq]
  apply ((h.ensure key).modify ?_).terminateIf
  · intro state hstate
    by_cases hkey : key = w
    · -- the session is the winning one
      obtain ⟨state', hfind, _⟩ := h
      rw [hkey, MediaSessions.ensure_of_find hfind]
      simp
    · have hspared : MediaSessions.endedByFinal key w state = false := by
        rw [Bool.eq_false_iff]
        intro hended
        exact hdisturbs ⟨hkey, (MediaSessions.endedByFinal_of_established hstate).mp hended⟩
      rw [hspared, Bool.and_false]
  · intro state hstate
    rw [MediaSessions.establish, if_neg (by rw [hstate]; decide)]
    exact ⟨rfl, fun _ => rfl⟩

/-- All other calls leave it established, with its Rx session and without a plan. -/
theorem established_run (call : ManagerCall)
    (h : sessions.Established w rxSessionId) (hdisturbs : ¬ call.Disturbs sessions w)
    (hedits : ¬ call.Edits sessions w) :
    (call.run sessions).1.Established w rxSessionId ∧
      ∀ plan ∈ (call.run sessions).2, plan.key ≠ w := by
  have hcall_id : ∀ {callId key}, sessions.findUniqueByCallIdLocked callId = some key →
      key = w → sessions.findUniqueByCallIdLocked callId = some w := fun hu heq => heq ▸ hu
  cases call with
  | createSession key => exact ⟨h.insert hdisturbs _, by simp [run]⟩
  | updateToTag key toTag =>
      exact ⟨h.updateToTag (fun heq => hedits (.inl heq)) (fun heq => hedits (.inr heq)),
        by simp [run]⟩
  | updateToTagByCallId callId toTag =>
      refine ⟨h.atUnique fun key hu => h.updateToTag ?_ ?_, by simp [run]⟩
      · exact fun heq => hedits ⟨key, hu, .inl heq⟩
      · exact fun heq => hedits ⟨key, hu, .inr heq⟩
  | updateCallerSdp key sdp => exact ⟨h.modify fun _ hs => ⟨hs, fun _ => rfl⟩, by simp [run]⟩
  | updateCallerSdpByCallId callId sdp =>
      exact ⟨h.atUnique fun _ _ => h.modify fun _ hs => ⟨hs, fun _ => rfl⟩, by simp [run]⟩
  | updateCalleeSdp key sdp => exact ⟨h.modify fun _ hs => ⟨hs, fun _ => rfl⟩, by simp [run]⟩
  | updateCalleeSdpByCallId callId sdp =>
      exact ⟨h.atUnique fun _ _ => h.modify fun _ hs => ⟨hs, fun _ => rfl⟩, by simp [run]⟩
  | beginInviteResponse key =>
      refine ⟨?_, by simp [run]⟩
      show MediaSessions.Established (MediaSessions.beginInviteResponse sessions key).1 _ _
      rw [MediaSessions.beginInviteResponse_fst]
      exact h.ensure key
  | commitInviteResponse key calleeSdp established =>
      refine ⟨h.modify fun state hs => ?_, by simp [run]⟩
      rw [if_neg (by rw [hs]; decide)]
      exact ⟨by cases established <;> simp [hs], fun _ => rfl⟩
  | markInviteFinalSuccess key => exact established_markInviteFinalSuccess h hdisturbs
  | markInviteFinalFailure key =>
      apply h.terminateIf
      intro state hstate
      rw [Bool.eq_false_iff]
      exact fun hended => hdisturbs ((MediaSessions.endedByFinal_of_established hstate).mp hended)
  | markTerminating key =>
      obtain ⟨hfind, hplans⟩ := MediaSessions.markTerminating_of_ne hdisturbs
      refine ⟨h.congr hfind, ?_⟩
      intro plan hplan
      exact hplans plan (Option.mem_toList.mp hplan)
  | completeTermination key =>
      refine ⟨?_, by simp [run]⟩
      show MediaSessions.Established (MediaSessions.completeTermination sessions key) _ _
      rw [MediaSessions.completeTermination]
      split
      · exact h
      · rename_i state hfind
        split
        · rename_i hending
          apply h.erase
          rintro rfl
          obtain ⟨state', hfind', hstate', _⟩ := h
          cases hfind.symm.trans hfind'
          cases hending.symm.trans hstate'
        · exact h
  | setRxSession key rx =>
      exact ⟨h.modify fun _ hs => ⟨hs, fun heq => absurd heq hedits⟩, by simp [run]⟩
  | setRxSessionByCallId callId rx =>
      refine ⟨h.atUnique fun key hu => h.modify fun _ hs => ⟨hs, fun heq => ?_⟩, by simp [run]⟩
      exact absurd (hcall_id hu heq) hedits
  | setQosActive key active => exact ⟨h.modify fun _ hs => ⟨hs, fun _ => rfl⟩, by simp [run]⟩
  | setQosActiveByCallId callId active =>
      exact ⟨h.atUnique fun _ _ => h.modify fun _ hs => ⟨hs, fun _ => rfl⟩, by simp [run]⟩
  | removeSession key => exact ⟨h.erase hedits, by simp [run]⟩
  | removeSessionByCallId callId =>
      exact ⟨h.atUnique fun key hu => h.erase fun heq => hedits (hcall_id hu heq), by simp [run]⟩

/-- A disturbing call does not. -/
theorem Disturbs.not_established_run {call : ManagerCall}
    (h : sessions.Established w rxSessionId) (hdisturbs : call.Disturbs sessions w) :
    ¬ (call.run sessions).1.Established w rxSessionId := by
  cases call with
  | createSession key =>
      cases hdisturbs
      rintro ⟨state, hfind, hstate, _⟩
      cases (Table.find_insert_self sessions w _).symm.trans hfind
      cases hstate
  | markInviteFinalSuccess key =>
      obtain ⟨hne, hkeys⟩ := hdisturbs
      show ¬ MediaSessions.Established (MediaSessions.markInviteFinalSuccess sessions key).1 _ _
      rw [MediaSessions.markInviteFinalSuccess_eq]
      have hmiddle : MediaSessions.Established
          ((sessions.ensureInviteResponseSessionLocked key).1.modify key MediaSessions.establish)
          w rxSessionId :=
        (h.ensure key).congr (Table.find_modify_of_ne _ _ hne.symm)
      apply hmiddle.terminateIf_breaks
      intro state hstate
      rw [(MediaSessions.endedByFinal_of_established hstate).mpr hkeys]
      simp [hne.symm]
  | markInviteFinalFailure key =>
      apply h.terminateIf_breaks
      exact fun state hstate => (MediaSessions.endedByFinal_of_established hstate).mpr hdisturbs
  | markTerminating key =>
      obtain ⟨state, hfind, hstate, _⟩ := h
      have hlive : state.lifecycle ≠ .terminating := by
        rw [hstate]
        decide
      rintro ⟨state', hfind', hstate', _⟩
      rw [run, MediaSessions.markTerminating_of_target hdisturbs hfind hlive] at hfind'
      simp only [Table.find_modify_self, hfind, Option.map_some] at hfind'
      cases hfind'
      cases hstate'
  | _ => exact hdisturbs.elim

end ManagerCall
end SimIms.Rtp

namespace SimIms.PCscf

open Cxx Lib Rtp Sip

/-- The request carries the tags of the dialog, from either side. -/
def OfDialog (key w : MediaSessionKey) : Prop := key = w ∨ key = w.reverse

/-- The handlers never edit a session. -/
theorem MediaHandler.not_edits_of_call {handler : MediaHandler} {rtpengine answered : Bool}
    {call : ManagerCall} {sessions : MediaSessions} {w : MediaSessionKey}
    (h : handler.call rtpengine answered = some call) : ¬ call.Edits sessions w := by
  cases handler with
  | completeMediaTerminations plans =>
      cases plans
      · cases h
      · cases h
        exact id
  | onInviteResponse key status sdp =>
      rw [MediaHandler.call] at h
      split at h
      · cases h
        exact id
      · split at h
        · cases h
        · split at h
          · obtain ⟨_, h⟩ := Option.ite_none_right_eq_some.mp h
            cases h
            exact id
          · cases h
            exact id
  | offering key sdp =>
      obtain ⟨_, h⟩ := Option.ite_none_right_eq_some.mp h
      cases h
      exact id
  | answering update status sdp =>
      obtain ⟨_, h⟩ := Option.ite_none_right_eq_some.mp h
      cases h
      exact id
  | _ =>
      cases h
      exact id

namespace MediaState

variable {s t : MediaState} {a : MediaAction} {plans : List MediaTerminationPlan}
variable {rtpengine : Bool} {w : MediaSessionKey} {rxSessionId : Bytes}

/-- The step takes a BYE of the dialog to the manager. -/
def HandlesBye (s : MediaState) (w : MediaSessionKey) : MediaAction → Prop
  | .advance id _ => ∃ key, OfDialog key w ∧
      s.handlers.find id = some (.terminateMediaForRequest .bye key)
  | _ => False

/-- What may end an established session: a BYE of its dialog, or a call of the manager
from outside of the handlers. -/
def Ends (s : MediaState) (w : MediaSessionKey) (a : MediaAction) : Prop :=
  HandlesBye s w a ∨
    match a with
    | .call call => call.Disturbs s.sessions w ∨ call.Edits s.sessions w
    | _ => False

/-- The step of a handler disturbs an established session, and handles no BYE of it. -/
def Cuts (rtpengine : Bool) (s : MediaState) (a : MediaAction) : Prop :=
  ∃ w rxSessionId call, s.sessions.Established w rxSessionId ∧ ¬ Ends s w a ∧
    s.calls rtpengine a = some call ∧ call.Disturbs s.sessions w

/-- An established session stays so and keeps its Rx session, and no plan is issued for
it, until something ends it. -/
def KeepsEstablished (rtpengine : Bool) (as : List MediaAction) : Prop :=
  ∀ i : MediaSessionKey × Bytes,
    (mediaMachine rtpengine).Persists (fun s => s.sessions.Established i.1 i.2)
      (Ends · i.1) (fun plan => plan.key ≠ i.1) init as

theorem not_edits_of_calls {call : ManagerCall} (h : s.calls rtpengine a = some call)
    (hends : ¬ Ends s w a) : ¬ call.Edits s.sessions w := by
  cases a with
  | advance id answered =>
      obtain ⟨handler, _, hcall⟩ := Option.bind_eq_some_iff.mp h
      exact MediaHandler.not_edits_of_call hcall
  | call call' =>
      cases h
      exact fun hedits => hends (.inr (.inr hedits))
  | _ => cases h

/-- The step lemma. -/
theorem established_step (h : s.sessions.Established w rxSessionId) (hends : ¬ Ends s w a)
    (hcuts : ¬ Cuts rtpengine s a) (hstep : s.step rtpengine a = some (t, plans)) :
    t.sessions.Established w rxSessionId ∧ ∀ plan ∈ plans, plan.key ≠ w := by
  cases hcall : s.calls rtpengine a with
  | none =>
      obtain ⟨hsessions, rfl⟩ := step_of_not_calls hcall hstep
      rw [hsessions]
      exact ⟨h, by simp⟩
  | some call =>
      obtain ⟨hsessions, rfl⟩ := step_of_calls hcall hstep
      rw [hsessions]
      apply call.established_run h
      · exact fun hdisturbs => hcuts ⟨w, rxSessionId, call, h, hends, hcall, hdisturbs⟩
      · exact not_edits_of_calls hcall hends

theorem keepsEstablished_iff_no_cuts (rtpengine : Bool) (as : List MediaAction) :
    KeepsEstablished rtpengine as ↔
      (mediaMachine rtpengine).Along (fun s a _ _ => ¬ Cuts rtpengine s a) init as := by
  apply Machine.forall_persists_iff (I := fun _ => True)
  · exact fun _ _ _ _ _ _ => trivial
  · intro i s a t plans _ hstep h hends hcuts
    exact established_step h hends hcuts hstep
  · rintro s a t plans _ hstep ⟨w, rxSessionId, call, h, hends, hcall, hdisturbs⟩
    obtain ⟨hsessions, _⟩ := step_of_calls hcall hstep
    refine ⟨(w, rxSessionId), h, hends, ?_⟩
    intro hkept
    exact hdisturbs.not_established_run h (hsessions ▸ hkept.1)
  · trivial

/-- The dialog is established by a 200. A re-INVITE of the same side then starts its
session over. -/
theorem reinvite_resets_established_media :
    ¬ ∀ rtpengine as, KeepsEstablished rtpengine as := by
  intro keeps
  let before : List MediaAction :=
    [.onInvite ueInvite false, .advance 0 false,
      .onInviteResponse (createResponse ueInvite 200 (bytes "OK") (bytes "b")),
      .advance 1 false, .advance 1 false]
  let during : List MediaAction :=
    [.onInvite (dialogRequest "INVITE" (bytes "a") [⟨bytes "tag", some (bytes "b")⟩]) false,
      .advance 2 false]
  have stays := keeps true (before ++ (during ++ [])) (⟨bytes "call", bytes "a", bytes "b"⟩, [])
    before during [] _ _ _ _ rfl rfl ⟨_, rfl, rfl, rfl⟩ rfl
    (And.intro (by rintro (h | h) <;> exact h)
      (And.intro (by rintro (⟨_, _, h⟩ | h) <;> cases h) trivial))
  obtain ⟨state, hfind, hstate, _⟩ := stays.1
  cases hfind
  cases hstate

end MediaState
end SimIms.PCscf
