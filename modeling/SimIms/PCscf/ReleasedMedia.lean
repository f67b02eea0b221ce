import SimIms.PCscf.EstablishedMedia
import SimIms.PCscf.MediaResurrection
import SimIms.Rtp.MediaIncarnations

/-!
# Media after a BYE

A BYE ends the first session that the lookup finds, and no other. A dialog may have two: one for the
key of its INVITE and one for the reverse key, when the callee has sent a re-INVITE. So the BYE
releases all media of its dialog if the session that it finds is the only one of the dialog and not
ending already, and no other handler brings a session of the dialog into being meanwhile.
-/

namespace SimIms.Rtp

open Cxx Lib

namespace ManagerCall

variable {sessions : MediaSessions} {w : MediaSessionKey}

/-- The call puts an entry under `w`: a new one, one that is moved there, or a copy of the initial
session. -/
def Brings (sessions : MediaSessions) (w : MediaSessionKey) : ManagerCall → Prop
  | .createSession key => key = w
  | .updateToTag key toTag => { key with toTag } = w
  | .updateToTagByCallId callId toTag =>
      ∃ key, sessions.findUniqueByCallIdLocked callId = some key ∧ { key with toTag } = w
  | .beginInviteResponse key | .markInviteFinalSuccess key => key = w ∧ sessions.Revivable w
  | _ => False

end ManagerCall

namespace MediaSessions

variable {sessions : MediaSessions} {key w : MediaSessionKey}

theorem find_none_modify (h : sessions.find w = none) (f : MediaSessionState → MediaSessionState) :
    (sessions.modify key f).find w = none := by
  rw [Table.find_modify]
  split
  · rw [h, Option.map_none]
  · exact h

theorem find_none_erase (h : sessions.find w = none) : (sessions.erase key).find w = none := by
  rw [Table.find_erase]
  split
  · rfl
  · exact h

theorem find_none_atUnique (h : sessions.find w = none) {callId : Bytes}
    {change : MediaSessionKey → MediaSessions}
    (hchange : ∀ key, sessions.findUniqueByCallIdLocked callId = some key →
      (change key).find w = none) : (sessions.atUnique callId change).find w = none := by
  rw [atUnique]
  split
  · exact h
  · exact hchange _ ‹_›

theorem find_none_updateToTag (h : sessions.find w = none) {toTag : Bytes}
    (hne : { key with toTag } ≠ w) : (sessions.updateToTag key toTag).find w = none := by
  rw [updateToTag]
  split
  · exact h
  · exact (Table.find_insert_of_ne _ _ hne.symm).trans (find_none_erase h)

theorem find_none_ensure (h : sessions.find w = none)
    (hbrings : ¬ (key = w ∧ sessions.Revivable w)) :
    (sessions.ensureInviteResponseSessionLocked key).1.find w = none := by
  obtain ⟨-, heq⟩ | ⟨hrevivable, branch, -, heq⟩ := ensure_cases sessions key
  · rw [heq]
    exact h
  · have hne : w ≠ key := by
      rintro rfl
      exact hbrings ⟨rfl, hrevivable⟩
    rw [heq]
    exact (Table.find_insert_of_ne _ _ hne).trans h

theorem find_none_terminateIf (h : sessions.find w = none)
    (ended : MediaSessionKey → MediaSessionState → Bool) :
    (sessions.terminateIf ended).1.find w = none := by
  rw [find_terminateIf, h, Option.map_none]

end MediaSessions

namespace ManagerCall

variable {sessions : MediaSessions} {w : MediaSessionKey} {call : ManagerCall}

/-- A missing entry stays missing. -/
theorem find_none_run (h : sessions.find w = none) (hbrings : ¬ call.Brings sessions w) :
    (call.run sessions).1.find w = none := by
  cases call with
  | createSession key => exact (Table.find_insert_of_ne _ _ (Ne.symm hbrings)).trans h
  | updateToTag key toTag => exact MediaSessions.find_none_updateToTag h hbrings
  | updateToTagByCallId callId toTag =>
      exact MediaSessions.find_none_atUnique h fun key hunique =>
        MediaSessions.find_none_updateToTag h fun heq => hbrings ⟨key, hunique, heq⟩
  | beginInviteResponse key =>
      change (sessions.beginInviteResponse key).1.find w = none
      rw [MediaSessions.beginInviteResponse_fst]
      exact MediaSessions.find_none_ensure h hbrings
  | markInviteFinalSuccess key =>
      change (sessions.markInviteFinalSuccess key).1.find w = none
      rw [MediaSessions.markInviteFinalSuccess_eq]
      exact MediaSessions.find_none_terminateIf
        (MediaSessions.find_none_modify (MediaSessions.find_none_ensure h hbrings) _) _
  | markInviteFinalFailure key => exact MediaSessions.find_none_terminateIf h _
  | markTerminating key =>
      change (sessions.markTerminating key).1.find w = none
      rw [MediaSessions.markTerminating]
      split
      · exact h
      · split
        · exact h
        · split
          · exact h
          · exact MediaSessions.find_none_modify h _
  | completeTermination key =>
      change (sessions.completeTermination key).find w = none
      rw [MediaSessions.completeTermination]
      split
      · exact h
      · split
        · exact MediaSessions.find_none_erase h
        · exact h
  | removeSession key => exact MediaSessions.find_none_erase h
  | removeSessionByCallId callId =>
      exact MediaSessions.find_none_atUnique h fun _ _ => MediaSessions.find_none_erase h
  | updateCallerSdpByCallId | updateCalleeSdpByCallId | setRxSessionByCallId
  | setQosActiveByCallId =>
      exact MediaSessions.find_none_atUnique h fun _ _ => MediaSessions.find_none_modify h _
  | updateCallerSdp | updateCalleeSdp | commitInviteResponse | setRxSession | setQosActive =>
      exact MediaSessions.find_none_modify h _

theorem origin_of_not_brings (hbrings : ¬ call.Brings sessions w) :
    call.origin sessions w = some w := by
  have hmoved : ∀ (key : MediaSessionKey) (toTag : Bytes), { key with toTag } ≠ w →
      sessions.movedFrom key toTag w = w := fun key toTag hne =>
    if_neg fun h => hne h.2.symm
  cases call with
  | createSession key => exact if_neg fun heq => hbrings heq.symm
  | updateToTag key toTag => exact congrArg some (hmoved key toTag hbrings)
  | updateToTagByCallId callId toTag =>
      rw [origin]
      split
      · rfl
      · rename_i key hunique
        exact congrArg some (hmoved key toTag fun heq => hbrings ⟨key, hunique, heq⟩)
  | _ => rfl

/-- An entry that is ending stays so until it goes. -/
theorem ending_run (h : sessions.Ending w) (hbrings : ¬ call.Brings sessions w) :
    (call.run sessions).1.find w = none ∨ (call.run sessions).1.Ending w := by
  obtain ⟨state, hfind, hending⟩ := h
  have hages := @ages_run sessions w call
  rw [origin_of_not_brings hbrings, Option.bind_some, hfind] at hages
  obtain hnone | ⟨after, hafter, hstill⟩ := hages.of_terminating hending
  · exact .inl hnone
  · exact .inr ⟨after, hafter, hstill⟩

end ManagerCall
end SimIms.Rtp

namespace SimIms.PCscf

open Cxx Lib Rtp Sip

/-- A final response to this INVITE. -/
def answers (response request : SipMessage) : Bool :=
  response.isResponse ∧ 200 ≤ response.statusCode ∧ response.cseqMethod = bytes "INVITE" ∧
    response.callId = request.callId ∧ response.fromTag = request.fromTag ∧
    response.cseqField = request.cseqField

/-- The INVITEs of a run for which no final response has come yet. -/
def openInvites (as : List MediaAction) : List SipMessage :=
  as.foldl (fun pending a =>
    match a with
    | .onInvite request _ => pending ++ [request]
    | .onInviteResponse response => pending.filter (!answers response ·)
    | _ => pending) []

/-- The handler is busy with an INVITE of the call or with a response to one. -/
def MediaHandler.OfInvite (callId : Bytes) : MediaHandler → Prop
  | .onInvite key _ | .offering key _ | .onInviteResponse key _ _ | .succeeding key =>
      key.callId = callId
  | .answering update _ _ => update.key.callId = callId
  | _ => False

namespace MediaState

variable {s t u : MediaState} {a : MediaAction} {plans : List MediaTerminationPlan}
variable {as during : List MediaAction} {rtpengine : Bool} {id : Nat}
variable {key w : MediaSessionKey}

/-- After the run `as`, an INVITE of the call is in progress. -/
def InviteInProgress (as : List MediaAction) (s : MediaState) (callId : Bytes) : Prop :=
  (∃ request ∈ openInvites as, request.callId = callId) ∨
    ∃ id handler, s.handlers.find id = some handler ∧ handler.OfInvite callId

/-- The last steps `during` of the run `as` process a BYE with this key: its handler looks the
session up in `s`, and is done in `u`. -/
def ProcessesBye (rtpengine : Bool) (as : List MediaAction) (key : MediaSessionKey) (id : Nat)
    (s : MediaState) (during : List MediaAction) (u : MediaState) : Prop :=
  ∃ before first answered rest out,
    as = before ++ during ∧ (mediaMachine rtpengine).exec init before = some (s, first) ∧
    s.handlers.find id = some (.terminateMediaForRequest .bye key) ∧
    during = .advance id answered :: rest ∧
    (mediaMachine rtpengine).exec s during = some (u, out) ∧ u.handlers.find id = none ∧
    (rest = [] ∨ ∃ others answered', rest = others ++ [.advance id answered'] ∧
      ∀ other, .advance id other ∉ others)

/-- When a BYE of a dialog with two tags has been processed and no INVITE of its call is in
progress, there is no session of the dialog. -/
def ReleasesMedia (rtpengine : Bool) (as : List MediaAction) : Prop :=
  ∀ key id s during u, ProcessesBye rtpengine as key id s during u →
    key.fromTag ≠ [] → key.toTag ≠ [] → ¬ InviteInProgress as u key.callId →
    ∀ w, OfDialog w key → u.sessions.find w = none

/-- A BYE with this key reaches all sessions of its dialog: the only one is the session that the
lookup finds, and it is alive. -/
def Reached (sessions : MediaSessions) (key : MediaSessionKey) : Prop :=
  ∀ w, OfDialog w key → sessions.contains w = true →
    sessions.terminationTarget key = some w ∧ sessions.Live w

/-- The step brings no session of the dialog into being. -/
def BringsNone (rtpengine : Bool) (key : MediaSessionKey) (s : MediaState) (a : MediaAction) :
    Prop :=
  ∀ call w, s.calls rtpengine a = some call → OfDialog w key → ¬ call.Brings s.sessions w

/-! ## The handler of a BYE -/

/-- Only its own steps change what a handler has to do. -/
theorem find_handler_of_step (hid : id < s.nextHandler)
    (hother : ∀ answered, a ≠ .advance id answered)
    (hstep : s.step rtpengine a = some (t, plans)) :
    id < t.nextHandler ∧ t.handlers.find id = s.handlers.find id := by
  have hbegin : ∀ handler : Option MediaHandler, id < (s.begin handler).nextHandler ∧
      (s.begin handler).handlers.find id = s.handlers.find id := by
    intro handler
    cases handler with
    | none => exact ⟨hid, rfl⟩
    | some handler =>
        exact ⟨hid.trans (Nat.lt_succ_self _), Table.find_insert_of_ne _ _ hid.ne⟩
  cases a with
  | advance other answered =>
      obtain ⟨hnext, handler, -, hfind⟩ := advance_handlers id hstep
      have hne : id ≠ other := by
        rintro rfl
        exact hother answered rfl
      rw [hnext, hfind, if_neg hne]
      exact ⟨hid, rfl⟩
  | call call =>
      cases hstep
      exact ⟨hid, rfl⟩
  | _ =>
      cases hstep
      exact hbegin _

theorem find_handler_of_exec (hid : id < s.nextHandler)
    (hothers : ∀ answered, .advance id answered ∉ as)
    (hrun : (mediaMachine rtpengine).exec s as = some (t, plans)) :
    t.handlers.find id = s.handlers.find id := by
  induction as generalizing s plans with
  | nil =>
      cases hrun
      rfl
  | cons a as ih =>
      obtain ⟨v, first, rest, hstep, hrest, -⟩ := Machine.exec_cons_iff.mp hrun
      obtain ⟨hid', hfind⟩ := find_handler_of_step hid
        (fun answered heq => hothers answered (heq ▸ List.mem_cons_self)) hstep
      exact (ih hid' (fun answered hmem => hothers answered (List.mem_cons_of_mem _ hmem))
        hrest).trans hfind

/-- A BYE whose lookup finds nothing alive is done at once. Else its second step completes the
termination, after steps of others. -/
theorem ProcessesBye.outcome (h : ProcessesBye rtpengine as key id s during u) :
    ((s.sessions.markTerminating key).2 = none ∧
        u.sessions = (s.sessions.markTerminating key).1) ∨
      ∃ plan t others v out, (s.sessions.markTerminating key).2 = some plan ∧
        t.sessions = (s.sessions.markTerminating key).1 ∧
        (mediaMachine rtpengine).exec t others = some (v, out) ∧
        u.sessions = v.sessions.completeTermination plan.key ∧
        others.length + 2 = during.length ∧
        ∀ P, (mediaMachine rtpengine).Along P s during →
          (mediaMachine rtpengine).Along P t others := by
  obtain ⟨before, first, answered, rest, out, -, hbefore, hhandler, rfl, hduring, hdone, hrest⟩ := h
  obtain ⟨t, marked, later, hmark, hlater, -⟩ := Machine.exec_cons_iff.mp hduring
  have hnumbered : Numbered s :=
    Machine.exec_invariant (fun _ _ _ _ h hstep => numbered_step h hstep) (by nofun) hbefore
  have hid : id < t.nextHandler := by
    rw [(advance_handlers id hmark).1]
    exact hnumbered id _ hhandler
  have hnext : t.handlers.find id =
      MediaHandler.completing (s.sessions.markTerminating key).2.toList := by
    obtain ⟨-, handler, hfind, hnext⟩ := advance_handlers id hmark
    cases hhandler.symm.trans hfind
    exact hnext.trans (if_pos rfl)
  have hcalls : s.calls rtpengine (.advance id answered) = some (.markTerminating key) := by
    rw [calls, hhandler]
    rfl
  have htable : t.sessions = (s.sessions.markTerminating key).1 := (step_of_calls hcalls hmark).1
  obtain rfl | ⟨others, answered', rfl, hothers⟩ := hrest
  · cases hlater
    left
    refine ⟨?_, htable⟩
    rw [hdone] at hnext
    cases hplan : (s.sessions.markTerminating key).2 with
    | none => rfl
    | some plan =>
        rw [hplan] at hnext
        cases hnext
  · right
    obtain ⟨v, between, last, hbetween, hlast, -⟩ := Machine.exists_of_exec_append hlater
    obtain ⟨u', final, nothing, hfinal, hnothing, -⟩ := Machine.exec_cons_iff.mp hlast
    cases hnothing
    have hkept := (find_handler_of_exec hid hothers hbetween).trans hnext
    cases hplan : (s.sessions.markTerminating key).2 with
    | none =>
        obtain ⟨-, handler, hfind, -⟩ := advance_handlers id hfinal
        rw [hplan] at hkept
        cases hkept.symm.trans hfind
    | some plan =>
        rw [hplan] at hkept
        have hcompletes : v.calls rtpengine (.advance id answered') =
            some (.completeTermination plan.key) := by
          rw [calls, hkept]
          rfl
        refine ⟨plan, t, others, v, between, rfl, htable, hbetween,
          (step_of_calls hcompletes hfinal).1, ?_, ?_⟩
        · rw [List.length_cons, List.length_append, List.length_singleton]
        · intro P halong
          exact ((Machine.along_append hbetween).mp
            ((Machine.along_cons hmark).mp halong).2).1

/-! ## What it leaves -/

/-- There is no session under `w`, or it is ending and about to be removed. -/
def Leaving (sessions : MediaSessions) (plan : Option MediaTerminationPlan) (w : MediaSessionKey) :
    Prop :=
  sessions.find w = none ∨ plan.map (·.key) = some w ∧ sessions.Ending w

theorem leaving_markTerminating (h : Reached s.sessions key) (hw : OfDialog w key) :
    Leaving (s.sessions.markTerminating key).1 (s.sessions.markTerminating key).2 w := by
  cases hfind : s.sessions.find w with
  | none =>
      have hbrings : ¬ (ManagerCall.markTerminating key).Brings s.sessions w := id
      have hmissing := ManagerCall.find_none_run hfind hbrings
      exact .inl hmissing
  | some found =>
      obtain ⟨htarget, state, hstate, hlive⟩ := h w hw (Option.isSome_iff_exists.mpr ⟨_, hfind⟩)
      rw [MediaSessions.markTerminating_of_target htarget hstate hlive]
      refine .inr ⟨rfl, { state with lifecycle := .terminating }, ?_, rfl⟩
      rw [Table.find_modify_self, hstate, Option.map_some]

theorem leaving_step {plan : Option MediaTerminationPlan} (h : Leaving s.sessions plan w)
    (hw : OfDialog w key) (hbrings : BringsNone rtpengine key s a)
    (hstep : s.step rtpengine a = some (t, plans)) : Leaving t.sessions plan w := by
  cases hcall : s.calls rtpengine a with
  | none =>
      rw [(step_of_not_calls hcall hstep).1]
      exact h
  | some call =>
      rw [(step_of_calls hcall hstep).1]
      have hnot := hbrings call w hcall hw
      obtain hnone | ⟨hkey, hending⟩ := h
      · exact .inl (ManagerCall.find_none_run hnone hnot)
      · exact (ManagerCall.ending_run hending hnot).imp id fun hstill => ⟨hkey, hstill⟩

theorem find_completeTermination_of_leaving {sessions : MediaSessions}
    {plan : MediaTerminationPlan} (h : Leaving sessions (some plan) w) :
    (sessions.completeTermination plan.key).find w = none := by
  obtain hnone | ⟨hkey, state, hfind, hending⟩ := h
  · have hbrings : ¬ (ManagerCall.completeTermination plan.key).Brings sessions w := id
    have hmissing := ManagerCall.find_none_run hnone hbrings
    exact hmissing
  · cases hkey
    simp only [MediaSessions.completeTermination, hfind, if_pos hending, Table.find_erase_self]

theorem find_completeTermination_of_ne {sessions : MediaSessions} {other : MediaSessionKey}
    (hne : w ≠ other) : (sessions.completeTermination other).find w = sessions.find w := by
  rw [MediaSessions.completeTermination]
  split
  · rfl
  · split
    · exact Table.find_erase_of_ne _ hne
    · rfl

/-- A BYE that reaches all sessions of its dialog releases them, when no step in between brings
one into being. -/
theorem released_of_reached (h : ProcessesBye rtpengine as key id s during u)
    (hreached : Reached s.sessions key)
    (hbrings :
      (mediaMachine rtpengine).Along (fun s a _ _ => BringsNone rtpengine key s a) s during)
    (hw : OfDialog w key) : u.sessions.find w = none := by
  have hmarked := leaving_markTerminating hreached hw
  obtain ⟨hnone, htable⟩ | ⟨plan, t, others, v, out, hplan, htable, hothers, hfinal, -, halong⟩ :=
    h.outcome
  · rw [hnone] at hmarked
    rw [htable]
    exact hmarked.resolve_right fun hnever => nomatch hnever.1
  · rw [hplan, ← htable] at hmarked
    rw [hfinal]
    apply find_completeTermination_of_leaving
    exact Machine.exec_preserves (I := fun s => Leaving s.sessions (some plan) w)
      (fun _ _ _ _ hleaving hstep hnot => leaving_step hleaving hw hnot hstep) hmarked
      (halong _ hbrings) hothers

/-- An undisturbed BYE releases the sessions of its dialog only if it reaches all of them. -/
theorem released_iff_reached (h : ProcessesBye rtpengine as key id s during u)
    (halone : during.length ≤ 2) :
    (∀ w, OfDialog w key → u.sessions.find w = none) ↔ Reached s.sessions key := by
  obtain ⟨hnone, htable⟩ | ⟨plan, t, others, v, out, hplan, htable, hothers, hfinal, hlength, -⟩ :=
    h.outcome
  · rw [htable]
    constructor
    · intro hreleased w hw hcontains
      by_contra hmissed
      have hkept : (s.sessions.markTerminating key).1.find w = s.sessions.find w := by
        by_cases htarget : s.sessions.terminationTarget key = some w
        · rw [MediaSessions.markTerminating_of_not_live]
          rintro target htarget' hlive
          cases htarget.symm.trans htarget'
          exact hmissed ⟨htarget, hlive⟩
        · exact (MediaSessions.markTerminating_of_ne htarget).1
      obtain ⟨state, hstate⟩ := Option.isSome_iff_exists.mp hcontains
      cases (hreleased w hw).symm.trans (hkept.trans hstate)
    · intro hreached w hw
      have hmarked := leaving_markTerminating hreached hw
      rw [hnone] at hmarked
      exact hmarked.resolve_right fun hnever => nomatch hnever.1
  · have hothersNil : others = [] := List.length_eq_zero_iff.mp (by omega)
    rw [hothersNil] at hothers
    cases hothers
    rw [hfinal, htable]
    constructor
    · intro hreleased w hw hcontains
      obtain ⟨htarget, hlive⟩ := MediaSessions.target_of_plan hplan
      by_cases hkey : w = plan.key
      · rw [hkey]
        exact ⟨htarget, hlive⟩
      · have hmissed : s.sessions.terminationTarget key ≠ some w := fun heq =>
          hkey (Option.some.inj (heq.symm.trans htarget))
        have hkept := (find_completeTermination_of_ne hkey).trans
          (MediaSessions.markTerminating_of_ne hmissed).1
        obtain ⟨state, hstate⟩ := Option.isSome_iff_exists.mp hcontains
        cases (hreleased w hw).symm.trans (hkept.trans hstate)
    · intro hreached w hw
      have hmarked := leaving_markTerminating hreached hw
      rw [hplan] at hmarked
      exact find_completeTermination_of_leaving hmarked

/-- A call is answered and hung up. -/
theorem released_of_reached_answered_call :
    ∃ as s during u, ProcessesBye false as ⟨bytes "call", bytes "a", bytes "b"⟩ 2 s during u ∧
      s.sessions.Live ⟨bytes "call", bytes "a", bytes "b"⟩ ∧
      u.sessions.find ⟨bytes "call", bytes "a", bytes "b"⟩ = none := by
  let key : MediaSessionKey := ⟨bytes "call", bytes "a", bytes "b"⟩
  let before : List MediaAction :=
    [.onInvite ueInvite false, .advance 0 false,
      .onInviteResponse (createResponse ueInvite 200 (bytes "OK") (bytes "b")),
      .advance 1 false, .advance 1 false,
      .onBye (dialogRequest "BYE" (bytes "a") [⟨bytes "tag", some (bytes "b")⟩])]
  let during : List MediaAction := [.advance 2 false, .advance 2 false]
  have processed : ∃ s u, ProcessesBye false (before ++ during) key 2 s during u ∧
      s.sessions.Live key ∧ s.sessions.terminationTarget key = some key ∧
      s.sessions.contains key.reverse = false ∧
      (mediaMachine false).Along (fun s a _ _ => BringsNone false key s a) s during := by
    refine ⟨_, _, ⟨before, _, false, [.advance 2 false], _, rfl, rfl, rfl, rfl, rfl, rfl,
      .inr ⟨[], false, rfl, nofun⟩⟩, ⟨_, rfl, by decide⟩, rfl, rfl, ?_, ?_, trivial⟩
    · intro call w hcall _
      cases hcall
      exact id
    · intro call w hcall _
      cases hcall
      exact id
  obtain ⟨s, u, hbye, hlive, htarget, hnone, hbrings⟩ := processed
  refine ⟨_, s, _, u, hbye, hlive, released_of_reached hbye ?_ hbrings (.inl rfl)⟩
  rintro w (rfl | rfl) hcontains
  · exact ⟨htarget, hlive⟩
  · cases hnone.symm.trans hcontains

/-- Both sides send an INVITE in the same dialog, and both are answered. The BYE ends the session of
the first. -/
theorem reversed_session_outlives_bye : ¬ ∀ rtpengine as, ReleasesMedia rtpengine as := by
  intro releases
  let reinvite := dialogRequest "INVITE" (bytes "b") [⟨bytes "tag", some (bytes "a")⟩]
  let before : List MediaAction :=
    [.onInvite ueInvite false, .advance 0 false,
      .onInviteResponse (createResponse ueInvite 200 (bytes "OK") (bytes "b")),
      .advance 1 false, .advance 1 false,
      .onInvite reinvite false, .advance 2 false,
      .onInviteResponse (createResponse reinvite 200 (bytes "OK") (bytes "a")), .advance 3 false,
      .onBye (dialogRequest "BYE" (bytes "a") [⟨bytes "tag", some (bytes "b")⟩])]
  let during : List MediaAction := [.advance 4 false, .advance 4 false]
  have left : ((mediaMachine false).exec init before).any (fun run =>
      run.1.handlers.find 4 =
          some (.terminateMediaForRequest .bye ⟨bytes "call", bytes "a", bytes "b"⟩) ∧
        ((mediaMachine false).exec run.1 during).any fun last =>
          last.1.handlers.values = [] ∧
            last.1.sessions.contains ⟨bytes "call", bytes "b", bytes "a"⟩ = true) = true := by
    decide +kernel
  rw [Option.any_eq_true] at left
  obtain ⟨⟨s, first⟩, hbefore, left⟩ := left
  obtain ⟨hhandler, left⟩ := of_decide_eq_true left
  rw [Option.any_eq_true] at left
  obtain ⟨⟨u, out⟩, hduring, left⟩ := left
  obtain ⟨hvalues, hcontains⟩ := of_decide_eq_true left
  have hidle : ∀ id, u.handlers.find id = none := by
    intro id
    rw [Option.eq_none_iff_forall_ne_some]
    intro handler hfind
    have hmem := Table.mem_values_of_find hfind
    rw [hvalues] at hmem
    cases hmem
  have hbye : ProcessesBye false (before ++ during) ⟨bytes "call", bytes "a", bytes "b"⟩ 4 s during
      u :=
    ⟨before, first, false, [.advance 4 false], out, rfl, hbefore, hhandler, rfl, hduring, hidle 4,
      .inr ⟨[], false, rfl, nofun⟩⟩
  have hnone := releases false _ _ 4 s during u hbye (by decide) (by decide) ?_
    ⟨bytes "call", bytes "b", bytes "a"⟩ (.inr rfl)
  · rw [Table.contains, hnone] at hcontains
    cases hcontains
  · rintro (⟨request, hopen, -⟩ | ⟨id, handler, hfind, -⟩)
    · have hanswered : openInvites (before ++ during) = [] := by decide
      rw [hanswered] at hopen
      cases hopen
    · cases (hidle id).symm.trans hfind

end MediaState
end SimIms.PCscf
