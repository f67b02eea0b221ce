import SimIms.PCscf.MediaHandlers

/-!
# Sessions that have been closed

The processing of an INVITE response may be overtaken by a BYE. Once the entry has been
marked or removed, none of the later steps of the processing should bring it back. Those
that commit or mark never do; those that ensure the entry bring it back when the initial
session is still there to be copied.
-/

namespace SimIms.Rtp

open Cxx Lib

namespace MediaSessions

variable {sessions : MediaSessions} {key w : MediaSessionKey}

/-- The entry is there and not ending. -/
def Live (sessions : MediaSessions) (w : MediaSessionKey) : Prop :=
  ∃ state, sessions.find w = some state ∧ state.lifecycle ≠ .terminating

/-- The entry is there and has been marked. -/
def Ending (sessions : MediaSessions) (w : MediaSessionKey) : Prop :=
  ∃ state, sessions.find w = some state ∧ state.lifecycle = .terminating

/-- The entry has been marked Terminating, or removed. -/
def Closes (before after : MediaSessions) (w : MediaSessionKey) : Prop :=
  ∃ state, before.find w = some state ∧
    (after.find w = none ∨ state.lifecycle ≠ .terminating ∧
      ∃ state', after.find w = some state' ∧ state'.lifecycle = .terminating)

theorem Revivable.not_live (h : Revivable sessions w) : ¬ Live sessions w := by
  rintro ⟨state, hfind, _⟩
  cases h.1.symm.trans hfind

/-- Without a live target, `markTerminating` does nothing. -/
theorem markTerminating_of_not_live
    (h : ∀ target, sessions.terminationTarget key = some target → ¬ sessions.Live target) :
    sessions.markTerminating key = (sessions, none) := by
  rw [markTerminating]
  split
  · rfl
  · rename_i target htarget
    split
    · rfl
    · rename_i state hfind
      split
      · rfl
      · rename_i hlive
        exact (h target htarget ⟨state, hfind, hlive⟩).elim

/-- A plan is for the target of the lookup, which has been alive. -/
theorem target_of_plan {plan : MediaTerminationPlan}
    (h : (sessions.markTerminating key).2 = some plan) :
    sessions.terminationTarget key = some plan.key ∧ sessions.Live plan.key := by
  by_cases hnone : ∀ target, sessions.terminationTarget key = some target → ¬ sessions.Live target
  · rw [markTerminating_of_not_live hnone] at h
    cases h
  · push Not at hnone
    obtain ⟨target, htarget, state, hfind, hlive⟩ := hnone
    rw [markTerminating_of_target htarget hfind hlive] at h
    cases h
    exact ⟨htarget, state, hfind, hlive⟩

/-- Changes in place that neither begin nor undo a termination. -/
theorem live_modify_iff {f : MediaSessionState → MediaSessionState}
    (hf : ∀ state, (f state).lifecycle = .terminating ↔ state.lifecycle = .terminating) :
    Live (sessions.modify key f) w ↔ Live sessions w := by
  by_cases hkey : w = key
  · rw [Live, hkey, Table.find_modify_self]
    constructor
    · rintro ⟨state, hfind, hlive⟩
      obtain ⟨state', hfind', rfl⟩ := Option.map_eq_some_iff.mp hfind
      exact ⟨state', hfind', fun h => hlive ((hf state').mpr h)⟩
    · rintro ⟨state, hfind, hlive⟩
      exact ⟨f state, by rw [hfind, Option.map_some], fun h => hlive ((hf state).mp h)⟩
  · rw [Live, Table.find_modify_of_ne _ _ hkey, Live]

theorem live_terminateIf_iff {ended : MediaSessionKey → MediaSessionState → Bool} :
    Live (sessions.terminateIf ended).1 w ↔
      ∃ state, sessions.find w = some state ∧ state.lifecycle ≠ .terminating ∧
        ended w state = false := by
  rw [Live, find_terminateIf]
  constructor
  · rintro ⟨state, hfind, hlive⟩
    obtain ⟨state', hfind', rfl⟩ := Option.map_eq_some_iff.mp hfind
    refine ⟨state', hfind', ?_⟩
    split at hlive
    · exact absurd rfl hlive
    · exact ⟨hlive, Bool.eq_false_iff.mpr ‹_›⟩
  · rintro ⟨state, hfind, hlive, hspared⟩
    refine ⟨state, ?_, hlive⟩
    rw [hfind, Option.map_some, hspared]
    rfl

/-- Ensuring an entry brings back just the revivable one. -/
theorem live_ensure_iff :
    Live (sessions.ensureInviteResponseSessionLocked key).1 w ↔
      Live sessions w ∨ key = w ∧ Revivable sessions w := by
  obtain ⟨hrevivable, heq⟩ | ⟨hrevivable, branch, hearly, heq⟩ := ensure_cases sessions key
  · rw [heq]
    constructor
    · exact .inl
    · rintro (hlive | ⟨rfl, h⟩)
      · exact hlive
      · exact absurd h hrevivable
  · rw [heq]
    by_cases hkey : w = key
    · subst hkey
      constructor
      · exact fun _ => .inr ⟨rfl, hrevivable⟩
      · exact fun _ => ⟨branch, Table.find_insert_self .., by rw [hearly]; decide⟩
    · rw [Live, Table.find_insert_of_ne _ _ hkey]
      constructor
      · exact .inl
      · rintro (hlive | ⟨rfl, _⟩)
        · exact hlive
        · exact absurd rfl hkey

end MediaSessions

namespace ManagerCall

open MediaSessions (Live Revivable)

variable {sessions : MediaSessions} {w : MediaSessionKey}

/-- The calls that the processing of a response makes. -/
def OfResponse : ManagerCall → Prop
  | .beginInviteResponse _ | .commitInviteResponse _ _ _ | .markInviteFinalSuccess _
  | .markInviteFinalFailure _ | .completeTermination _ => True
  | _ => False

/-- The call ensures the entry under `w`. -/
def Ensures (w : MediaSessionKey) : ManagerCall → Prop
  | .beginInviteResponse key | .markInviteFinalSuccess key => key = w
  | _ => False

theorem live_markInviteFinalSuccess_iff {key : MediaSessionKey} (hclosed : ¬ Live sessions w) :
    Live (sessions.markInviteFinalSuccess key).1 w ↔ key = w ∧ Revivable sessions w := by
  have hmiddle : Live ((sessions.ensureInviteResponseSessionLocked key).1.modify key
      MediaSessions.establish) w ↔ key = w ∧ Revivable sessions w := by
    rw [MediaSessions.live_modify_iff, MediaSessions.live_ensure_iff, or_iff_right hclosed]
    intro state
    rw [MediaSessions.establish]
    split
    · rfl
    · rename_i hlive
      exact ⟨nofun, fun h => absurd h hlive⟩
  rw [MediaSessions.markInviteFinalSuccess_eq, MediaSessions.live_terminateIf_iff]
  constructor
  · rintro ⟨state, hfind, hlive, _⟩
    exact hmiddle.mp ⟨state, hfind, hlive⟩
  · rintro ⟨rfl, hrevivable⟩
    obtain ⟨state, hfind, hlive⟩ := hmiddle.mpr ⟨rfl, hrevivable⟩
    -- the winning session is spared
    obtain ⟨hnot, _⟩ | ⟨_, branch, _, heq⟩ := MediaSessions.ensure_cases sessions key
    · exact absurd hrevivable hnot
    · refine ⟨state, hfind, hlive, ?_⟩
      simp [heq]

/-- What such a call does to an entry that is not live. -/
theorem live_run_iff {call : ManagerCall} (hcall : call.OfResponse) (hclosed : ¬ Live sessions w) :
    Live (call.run sessions).1 w ↔ call.Ensures w ∧ Revivable sessions w := by
  cases call with
  | beginInviteResponse key =>
      show Live (sessions.beginInviteResponse key).1 w ↔ _
      rw [MediaSessions.beginInviteResponse_fst, MediaSessions.live_ensure_iff,
        or_iff_right hclosed]
      rfl
  | markInviteFinalSuccess key => exact live_markInviteFinalSuccess_iff hclosed
  | commitInviteResponse key calleeSdp established =>
      have hsame : Live (sessions.commitInviteResponse key calleeSdp established) w ↔
          Live sessions w := by
        apply MediaSessions.live_modify_iff
        intro state
        split
        · rfl
        · rename_i hlive
          cases established
          · rfl
          · exact ⟨nofun, fun h => absurd h hlive⟩
      exact ⟨fun h => absurd (hsame.mp h) hclosed, fun h => h.1.elim⟩
  | markInviteFinalFailure key =>
      constructor
      · intro h
        obtain ⟨state, hfind, hlive, _⟩ := MediaSessions.live_terminateIf_iff.mp h
        exact absurd ⟨state, hfind, hlive⟩ hclosed
      · exact fun h => h.1.elim
  | completeTermination key =>
      constructor
      · intro h
        apply absurd _ hclosed
        rw [run, MediaSessions.completeTermination] at h
        split at h
        · exact h
        · split at h
          · obtain ⟨state, hfind, hlive⟩ := h
            exact ⟨state, (Table.find_of_find_erase hfind).2, hlive⟩
          · exact h
      · exact fun h => h.1.elim
  | _ => exact hcall.elim

end ManagerCall
end SimIms.Rtp

namespace SimIms.PCscf

open Cxx Lib Rtp Sip

namespace MediaHandler

/-- The handler processes an INVITE response, or completes terminations. -/
def ProcessesResponse : MediaHandler → Prop
  | .onInviteResponse _ _ _ | .answering _ _ _ | .succeeding _
  | .completeMediaTerminations _ => True
  | _ => False

variable {handler next : MediaHandler} {rtpengine answered : Bool} {sessions : MediaSessions}

theorem processesResponse_completing {plans : List MediaTerminationPlan}
    (h : completing plans = some next) : next.ProcessesResponse := by
  obtain ⟨_, h⟩ := Option.ite_none_left_eq_some.mp h
  cases h
  trivial

theorem ofResponse_of_call {call : ManagerCall} (h : handler.ProcessesResponse)
    (hcall : handler.call rtpengine answered = some call) : call.OfResponse := by
  cases handler with
  | onInviteResponse key status sdp =>
      rw [MediaHandler.call] at hcall
      split at hcall
      · cases hcall
        trivial
      · split at hcall
        · cases hcall
        · split at hcall
          · obtain ⟨_, hcall⟩ := Option.ite_none_right_eq_some.mp hcall
            cases hcall
            trivial
          · cases hcall
            trivial
  | answering update status sdp =>
      obtain ⟨_, hcall⟩ := Option.ite_none_right_eq_some.mp hcall
      cases hcall
      trivial
  | succeeding key =>
      cases hcall
      trivial
  | completeMediaTerminations plans =>
      cases plans
      · cases hcall
      · cases hcall
        trivial
  | _ => exact h.elim

/-- The processing of a response stays one. -/
theorem processesResponse_step (h : handler.ProcessesResponse)
    (hnext : (handler.step rtpengine answered sessions).2.1 = some next) :
    next.ProcessesResponse := by
  cases handler with
  | onInviteResponse key status sdp =>
      rw [MediaHandler.step] at hnext
      split at hnext
      · exact processesResponse_completing hnext
      · split at hnext
        · cases hnext
        · split at hnext
          · split at hnext
            · exact processesResponse_completing hnext
            · cases hnext
          · obtain ⟨update, _, heq⟩ := Option.map_eq_some_iff.mp hnext
            cases heq
            trivial
  | answering update status sdp =>
      rw [MediaHandler.step] at hnext
      split at hnext
      · obtain ⟨_, hnext⟩ := Option.ite_none_right_eq_some.mp hnext
        cases hnext
        trivial
      · cases hnext
  | succeeding key => exact processesResponse_completing hnext
  | completeMediaTerminations plans =>
      cases plans
      · cases hnext
      · exact processesResponse_completing hnext
  | _ => exact h.elim

end MediaHandler

namespace MediaState

variable {s t u : MediaState} {a : MediaAction} {plans : List MediaTerminationPlan}
variable {as : List MediaAction} {rtpengine answered : Bool} {id : Nat} {w : MediaSessionKey}

/-- Handler `id`, if it still runs, processes a response. -/
def Processing (s : MediaState) (id : Nat) : Prop :=
  id < s.nextHandler ∧ ∀ handler, s.handlers.find id = some handler → handler.ProcessesResponse

/-- Handlers have the numbers given out so far. -/
def Numbered (s : MediaState) : Prop :=
  ∀ id handler, s.handlers.find id = some handler → id < s.nextHandler

theorem numbered_begin (h : Numbered s) (handler : Option MediaHandler) :
    Numbered (s.begin handler) := by
  cases handler with
  | none => exact h
  | some handler =>
      intro id handler' hfind
      rw [begin, Table.find_insert] at hfind
      split at hfind
      · rename_i heq
        exact heq ▸ Nat.lt_succ_self _
      · exact (h id handler' hfind).trans (Nat.lt_succ_self _)

theorem processing_begin (h : Processing s id) (handler : Option MediaHandler) :
    Processing (s.begin handler) id := by
  cases handler with
  | none => exact h
  | some handler =>
      refine ⟨h.1.trans (Nat.lt_succ_self _), ?_⟩
      intro handler' hfind
      rw [begin, Table.find_insert_of_ne _ _ h.1.ne] at hfind
      exact h.2 handler' hfind

/-- What advancing a handler does to the handlers. -/
theorem advance_handlers {answered : Bool} (other : Nat)
    (hstep : s.advance rtpengine answered id = some (t, plans)) :
    t.nextHandler = s.nextHandler ∧ ∃ handler, s.handlers.find id = some handler ∧
      t.handlers.find other =
        if other = id then (handler.step rtpengine answered s.sessions).2.1
        else s.handlers.find other := by
  rw [advance] at hstep
  split at hstep
  · cases hstep
  · rename_i handler hfind
    cases hstep
    exact ⟨rfl, handler, hfind, find_setHandler _ _ _ _⟩

theorem numbered_step (h : Numbered s) (hstep : s.step rtpengine a = some (t, plans)) :
    Numbered t := by
  cases a with
  | advance id answered =>
      intro other handler' hfind'
      obtain ⟨hnext, handler, hfind, hother⟩ := advance_handlers other hstep
      rw [hnext]
      rw [hother] at hfind'
      split at hfind'
      · rename_i heq
        exact h other handler (heq ▸ hfind)
      · exact h other handler' hfind'
  | call call =>
      cases hstep
      exact h
  | _ =>
      cases hstep
      exact numbered_begin h _

theorem processing_step (h : Processing s id) (hstep : s.step rtpengine a = some (t, plans)) :
    Processing t id := by
  cases a with
  | advance other answered =>
      obtain ⟨hnext, handler, hfind, hid⟩ := advance_handlers id hstep
      refine ⟨hnext ▸ h.1, ?_⟩
      intro handler' hfind'
      rw [hid] at hfind'
      split at hfind'
      · rename_i heq
        exact MediaHandler.processesResponse_step (h.2 handler (heq ▸ hfind)) hfind'
      · exact h.2 handler' hfind'
  | call call =>
      cases hstep
      exact h
  | _ =>
      cases hstep
      exact processing_begin h _

/-! ## Steps that come late -/

/-- In the run `as` the processing `id` takes a step from `t` to `u`. It began before the
entry `w` was closed, and no session was created meanwhile. -/
def LateStep (rtpengine : Bool) (as : List MediaAction) (id : Nat) (w : MediaSessionKey)
    (answered : Bool) (t u : MediaState) : Prop :=
  ∃ before during after s first rest plans handler,
    as = before ++ (during ++ .advance id answered :: after) ∧
    (mediaMachine rtpengine).exec init before = some (s, first) ∧
    s.handlers.find id = some handler ∧ handler.ProcessesResponse ∧
    (mediaMachine rtpengine).exec s during = some (t, rest) ∧
    (mediaMachine rtpengine).Along
      (fun s a _ _ => ∀ key, s.calls rtpengine a ≠ some (.createSession key)) s during ∧
    ¬ (mediaMachine rtpengine).Along (fun s _ t _ => ¬ s.sessions.Closes t.sessions w) s during ∧
    t.step rtpengine (.advance id answered) = some (u, plans)

/-- No late step brings a closed entry back. -/
def NoResurrection (rtpengine : Bool) (as : List MediaAction) : Prop :=
  ∀ id w answered t u, LateStep rtpengine as id w answered t u →
    ¬ t.sessions.Live w → ¬ u.sessions.Live w

/-- No late step ensures the missing entry while it could be copied from the initial
session. -/
def NeverRevives (rtpengine : Bool) (as : List MediaAction) : Prop :=
  ∀ id w answered t u, LateStep rtpengine as id w answered t u →
    ∀ call, t.calls rtpengine (.advance id answered) = some call → call.Ensures w →
      ¬ t.sessions.Revivable w

theorem LateStep.processing (h : LateStep rtpengine as id w answered t u) : Processing t id := by
  obtain ⟨_, during, _, s, _, _, _, handler, _, hrun, hfind, hprocesses, hduring, _⟩ := h
  have hnumbered : Numbered s := by
    apply Machine.exec_invariant (fun _ _ _ _ h hstep => numbered_step h hstep) ?_ hrun
    intro id handler hfind
    cases hfind
  have hstart : Processing s id := by
    refine ⟨hnumbered id handler hfind, ?_⟩
    intro handler' hfind'
    cases hfind.symm.trans hfind'
    exact hprocesses
  exact Machine.exec_invariant (I := (Processing · id))
    (fun _ _ _ _ h hstep => processing_step h hstep) hstart hduring

/-- A late step brings back exactly the entry that it ensures and that can be revived. -/
theorem LateStep.live_iff (h : LateStep rtpengine as id w answered t u)
    (hclosed : ¬ t.sessions.Live w) :
    u.sessions.Live w ↔ ∃ call, t.calls rtpengine (.advance id answered) = some call ∧
      call.Ensures w ∧ t.sessions.Revivable w := by
  have hprocessing := h.processing
  obtain ⟨_, _, _, _, _, _, _, _, _, _, _, _, _, _, _, hstep⟩ := h
  cases hcall : t.calls rtpengine (.advance id answered) with
  | none =>
      obtain ⟨hsessions, _⟩ := step_of_not_calls hcall hstep
      rw [hsessions]
      exact ⟨fun h => absurd h hclosed, by simp⟩
  | some call =>
      obtain ⟨hsessions, _⟩ := step_of_calls hcall hstep
      obtain ⟨handler, hfind, hcall'⟩ := Option.bind_eq_some_iff.mp hcall
      have hresponse := MediaHandler.ofResponse_of_call (hprocessing.2 handler hfind) hcall'
      rw [hsessions, ManagerCall.live_run_iff hresponse hclosed]
      constructor
      · exact fun h => ⟨call, rfl, h⟩
      · rintro ⟨call', heq, h⟩
        cases heq
        exact h

theorem noResurrection_iff_neverRevives (rtpengine : Bool) (as : List MediaAction) :
    NoResurrection rtpengine as ↔ NeverRevives rtpengine as := by
  constructor
  · intro stays id w answered t u late call hcall hensures hrevivable
    have hclosed := hrevivable.not_live
    apply stays id w answered t u late hclosed
    exact (late.live_iff hclosed).mpr ⟨call, hcall, hensures, hrevivable⟩
  · intro never id w answered t u late hclosed hlive
    obtain ⟨call, hcall, hensures, hrevivable⟩ := (late.live_iff hclosed).mp hlive
    exact never id w answered t u late call hcall hensures hrevivable

/-- The caller hangs up the early dialog while its 200 is on the way: the branch has been
terminated and removed, and the 200 creates it anew from the initial session. -/
theorem late_success_revives_terminated_media :
    ¬ ∀ rtpengine as, NoResurrection rtpengine as := by
  intro stays
  let before : List MediaAction :=
    [.onInvite ueInvite false, .advance 0 false,
      .onInviteResponse { createResponse ueInvite 183 (bytes "Progress") (bytes "b") with
        bodyText := some (bytes "v=0") },
      .advance 1 false, .advance 1 true,
      .onInviteResponse (createResponse ueInvite 200 (bytes "OK") (bytes "b"))]
  let during : List MediaAction :=
    [.onBye (dialogRequest "BYE" (bytes "a") [⟨bytes "tag", some (bytes "b")⟩]), .advance 3 false,
      .advance 3 false]
  let w : MediaSessionKey := ⟨bytes "call", bytes "a", bytes "b"⟩
  have late : ∃ t u, LateStep true (before ++ (during ++ [.advance 2 false])) 2 w false t u ∧
      t.sessions.find w = none ∧ u.sessions.Live w := by
    refine ⟨_, _, ⟨before, during, [], _, _, _, _, _, rfl, rfl, rfl, trivial, rfl, ?_, ?_, rfl⟩,
      rfl, ⟨_, rfl, ?_⟩⟩
    · exact And.intro (fun _ => nofun)
        (And.intro (fun _ => nofun) (And.intro (fun _ => nofun) trivial))
    · intro open_
      apply And.left (And.right open_)
      exact ⟨_, rfl, .inr ⟨by decide, _, rfl, rfl⟩⟩
    · decide
  obtain ⟨t, u, hlate, hgone, hlive⟩ := late
  apply stays true _ 2 w false t u hlate ?_ hlive
  rintro ⟨state, hfind, _⟩
  cases hgone.symm.trans hfind

end MediaState
end SimIms.PCscf
