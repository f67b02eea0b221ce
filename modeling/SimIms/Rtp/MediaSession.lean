import SimIms.Common.Types
import SimIms.Lib.Table

/-!
# The table of media sessions

Every method of the manager holds its mutex from beginning to end and is one function on
the table. An iterator is the key it points to; an overload that takes a Call-ID alone
carries `ByCallId` in its name. The creation time of a session is read by nobody and left
out.
-/

namespace SimIms.Rtp

open Cxx Lib

structure MediaSessionKey where
  callId : Bytes
  fromTag : Bytes
  toTag : Bytes := []
deriving DecidableEq, Repr

namespace MediaSessionKey

/-- The key of the session before the callee's tag is known. -/
def initial (key : MediaSessionKey) : MediaSessionKey := { key with toTag := [] }

/-- The same dialog seen from the other side. -/
def reverse (key : MediaSessionKey) : MediaSessionKey :=
  { key with fromTag := key.toTag, toTag := key.fromTag }

end MediaSessionKey

inductive MediaSessionLifecycle where
  | early
  | established
  | terminating
deriving DecidableEq, Repr

/-- What rtpengine is told about a session. -/
structure MediaSession where
  callId : Bytes
  fromTag : Bytes
  toTag : Bytes
deriving DecidableEq, Repr

structure MediaSessionState where
  session : MediaSession
  rxSessionId : Bytes := []
  callerSdp : Bytes := []
  calleeSdp : Bytes := []
  qosActive : Bool := false
  lifecycle : MediaSessionLifecycle := .early
deriving DecidableEq, Repr

structure InviteResponseMediaUpdate where
  key : MediaSessionKey
  session : MediaSession
deriving DecidableEq, Repr

structure MediaTerminationPlan where
  key : MediaSessionKey
  session : MediaSession
  rxSessionId : Bytes
  qosActive : Bool
deriving DecidableEq, Repr

abbrev MediaSessions := Table MediaSessionKey MediaSessionState

namespace MediaSessions

def createSession (sessions : MediaSessions) (key : MediaSessionKey) :
    MediaSessions × MediaSession :=
  let session : MediaSession := ⟨key.callId, key.fromTag, key.toTag⟩
  (sessions.insert key { session }, session)

def getSession (sessions : MediaSessions) (key : MediaSessionKey) : Option MediaSessionState :=
  sessions.find key

/-- The only key with this Call-ID. -/
def findUniqueByCallIdLocked (sessions : MediaSessions) (callId : Bytes) :
    Option MediaSessionKey :=
  match sessions.keys.filter fun key => key.callId = callId with
  | [key] => some key
  | _ => none

/-- Do to the only session of a call what `change` does to the session with a given key. -/
def atUnique (sessions : MediaSessions) (callId : Bytes)
    (change : MediaSessionKey → MediaSessions) : MediaSessions :=
  match sessions.findUniqueByCallIdLocked callId with
  | none => sessions
  | some key => change key

/-- Move a session to the key with this `To` tag. -/
def updateToTag (sessions : MediaSessions) (key : MediaSessionKey) (toTag : Bytes) :
    MediaSessions :=
  match sessions.find key with
  | none => sessions
  | some state =>
      (sessions.erase key).insert { key with toTag }
        { state with session := { state.session with toTag } }

def updateToTagByCallId (sessions : MediaSessions) (callId toTag : Bytes) : MediaSessions :=
  sessions.atUnique callId fun key => sessions.updateToTag key toTag

def updateCallerSdp (sessions : MediaSessions) (key : MediaSessionKey) (sdp : Bytes) :
    MediaSessions :=
  sessions.modify key fun state => { state with callerSdp := sdp }

def updateCallerSdpByCallId (sessions : MediaSessions) (callId sdp : Bytes) : MediaSessions :=
  sessions.atUnique callId fun key => sessions.updateCallerSdp key sdp

def updateCalleeSdp (sessions : MediaSessions) (key : MediaSessionKey) (sdp : Bytes) :
    MediaSessions :=
  sessions.modify key fun state => { state with calleeSdp := sdp }

def updateCalleeSdpByCallId (sessions : MediaSessions) (callId sdp : Bytes) : MediaSessions :=
  sessions.atUnique callId fun key => sessions.updateCalleeSdp key sdp

/-- The session of a new branch, as a copy of the initial one. -/
def branchOf (initial : MediaSessionState) (toTag : Bytes) : MediaSessionState :=
  { initial with session := { initial.session with toTag }, lifecycle := .early }

/-- The session that a response is about, as a copy of the initial one when its branch is
new. -/
def ensureInviteResponseSessionLocked (sessions : MediaSessions)
    (responseKey : MediaSessionKey) : MediaSessions × Option MediaSessionState :=
  match sessions.find responseKey with
  | some state => (sessions, some state)
  | none =>
      if responseKey.toTag = [] then (sessions, none)
      else
        match sessions.find responseKey.initial with
        | none => (sessions, none)
        | some initial =>
            if initial.lifecycle = .terminating then (sessions, none)
            else
              let branch := branchOf initial responseKey.toTag
              (sessions.insert responseKey branch, some branch)

def beginInviteResponse (sessions : MediaSessions) (responseKey : MediaSessionKey) :
    MediaSessions × Option InviteResponseMediaUpdate :=
  let (sessions, found) := sessions.ensureInviteResponseSessionLocked responseKey
  match found with
  | none => (sessions, none)
  | some state =>
      (sessions,
        if state.lifecycle = .terminating then none else some ⟨responseKey, state.session⟩)

def commitInviteResponse (sessions : MediaSessions) (key : MediaSessionKey) (calleeSdp : Bytes)
    (established : Bool) : MediaSessions :=
  sessions.modify key fun state =>
    if state.lifecycle = .terminating then state
    else { state with
      calleeSdp
      lifecycle := if established then .established else state.lifecycle }

def makeTerminationPlanLocked (key : MediaSessionKey) (state : MediaSessionState) :
    MediaTerminationPlan :=
  ⟨key, state.session, state.rxSessionId, state.qosActive⟩

/-- The sessions of the call and `From` tag that a final response ends: neither those of
established dialogs nor those that are ending already. -/
def endedByFinal (responseKey key : MediaSessionKey) (state : MediaSessionState) : Bool :=
  key.callId = responseKey.callId ∧ key.fromTag = responseKey.fromTag ∧
    ¬ (key.toTag ≠ [] ∧ state.lifecycle = .established) ∧ state.lifecycle ≠ .terminating

/-- Let the sessions that satisfy `ended` terminate, with a plan for each. -/
def terminateIf (sessions : MediaSessions)
    (ended : MediaSessionKey → MediaSessionState → Bool) :
    MediaSessions × List MediaTerminationPlan :=
  (sessions.mapValues fun key state =>
      if ended key state then { state with lifecycle := .terminating } else state,
    (sessions.entries.filter fun entry => ended entry.1 entry.2).map fun entry =>
      makeTerminationPlanLocked entry.1 entry.2)

def markInviteFinalSuccess (sessions : MediaSessions) (winningKey : MediaSessionKey) :
    MediaSessions × List MediaTerminationPlan :=
  let (sessions, winning) := sessions.ensureInviteResponseSessionLocked winningKey
  let sessions : MediaSessions := sessions.modify winningKey fun state =>
    if state.lifecycle = .terminating then state else { state with lifecycle := .established }
  sessions.terminateIf fun key state =>
    !(winning.isSome && key = winningKey) && endedByFinal winningKey key state

def markInviteFinalFailure (sessions : MediaSessions) (responseKey : MediaSessionKey) :
    MediaSessions × List MediaTerminationPlan :=
  sessions.terminateIf (endedByFinal responseKey)

/-- Where `markTerminating` looks for the session, in this order: under the key itself,
and for a key with a `To` tag under its initial key, its reverse and the initial key of
that. -/
def terminationCandidates (key : MediaSessionKey) : List MediaSessionKey :=
  if key.toTag = [] then [key] else [key, key.initial, key.reverse, key.reverse.initial]

/-- The session that `markTerminating` finds. -/
def terminationTarget (sessions : MediaSessions) (key : MediaSessionKey) :
    Option MediaSessionKey :=
  (terminationCandidates key).find? fun candidate => sessions.contains candidate

def markTerminating (sessions : MediaSessions) (key : MediaSessionKey) :
    MediaSessions × Option MediaTerminationPlan :=
  match sessions.terminationTarget key with
  | none => (sessions, none)
  | some target =>
      match sessions.find target with
      | none => (sessions, none)
      | some state =>
          if state.lifecycle = .terminating then (sessions, none)
          else
            (sessions.modify target fun state => { state with lifecycle := .terminating },
              some (makeTerminationPlanLocked target state))

def completeTermination (sessions : MediaSessions) (key : MediaSessionKey) : MediaSessions :=
  match sessions.find key with
  | none => sessions
  | some state => if state.lifecycle = .terminating then sessions.erase key else sessions

def setRxSession (sessions : MediaSessions) (key : MediaSessionKey) (rxSessionId : Bytes) :
    MediaSessions :=
  sessions.modify key fun state => { state with rxSessionId }

def setRxSessionByCallId (sessions : MediaSessions) (callId rxSessionId : Bytes) :
    MediaSessions :=
  sessions.atUnique callId fun key => sessions.setRxSession key rxSessionId

def setQosActive (sessions : MediaSessions) (key : MediaSessionKey) (active : Bool) :
    MediaSessions :=
  sessions.modify key fun state => { state with qosActive := active }

def setQosActiveByCallId (sessions : MediaSessions) (callId : Bytes) (active : Bool) :
    MediaSessions :=
  sessions.atUnique callId fun key => sessions.setQosActive key active

def removeSession (sessions : MediaSessions) (key : MediaSessionKey) : MediaSessions :=
  sessions.erase key

def removeSessionByCallId (sessions : MediaSessions) (callId : Bytes) : MediaSessions :=
  sessions.atUnique callId sessions.removeSession

def sessionCount (sessions : MediaSessions) : Nat := sessions.entries.length

end MediaSessions

/-- A call of one of the manager's methods. -/
inductive ManagerCall where
  | createSession (key : MediaSessionKey)
  | updateToTag (key : MediaSessionKey) (toTag : Bytes)
  | updateToTagByCallId (callId toTag : Bytes)
  | updateCallerSdp (key : MediaSessionKey) (sdp : Bytes)
  | updateCallerSdpByCallId (callId sdp : Bytes)
  | updateCalleeSdp (key : MediaSessionKey) (sdp : Bytes)
  | updateCalleeSdpByCallId (callId sdp : Bytes)
  | beginInviteResponse (responseKey : MediaSessionKey)
  | commitInviteResponse (key : MediaSessionKey) (calleeSdp : Bytes) (established : Bool)
  | markInviteFinalSuccess (winningKey : MediaSessionKey)
  | markInviteFinalFailure (responseKey : MediaSessionKey)
  | markTerminating (key : MediaSessionKey)
  | completeTermination (key : MediaSessionKey)
  | setRxSession (key : MediaSessionKey) (rxSessionId : Bytes)
  | setRxSessionByCallId (callId rxSessionId : Bytes)
  | setQosActive (key : MediaSessionKey) (active : Bool)
  | setQosActiveByCallId (callId : Bytes) (active : Bool)
  | removeSession (key : MediaSessionKey)
  | removeSessionByCallId (callId : Bytes)
deriving DecidableEq, Repr

/-- The table after a call, and the plans that it issues. -/
def ManagerCall.run (sessions : MediaSessions) :
    ManagerCall → MediaSessions × List MediaTerminationPlan
  | .createSession key => ((sessions.createSession key).1, [])
  | .updateToTag key toTag => (sessions.updateToTag key toTag, [])
  | .updateToTagByCallId callId toTag => (sessions.updateToTagByCallId callId toTag, [])
  | .updateCallerSdp key sdp => (sessions.updateCallerSdp key sdp, [])
  | .updateCallerSdpByCallId callId sdp => (sessions.updateCallerSdpByCallId callId sdp, [])
  | .updateCalleeSdp key sdp => (sessions.updateCalleeSdp key sdp, [])
  | .updateCalleeSdpByCallId callId sdp => (sessions.updateCalleeSdpByCallId callId sdp, [])
  | .beginInviteResponse responseKey => ((sessions.beginInviteResponse responseKey).1, [])
  | .commitInviteResponse key calleeSdp established =>
      (sessions.commitInviteResponse key calleeSdp established, [])
  | .markInviteFinalSuccess winningKey => sessions.markInviteFinalSuccess winningKey
  | .markInviteFinalFailure responseKey => sessions.markInviteFinalFailure responseKey
  | .markTerminating key =>
      let (sessions, plan) := sessions.markTerminating key
      (sessions, plan.toList)
  | .completeTermination key => (sessions.completeTermination key, [])
  | .setRxSession key rxSessionId => (sessions.setRxSession key rxSessionId, [])
  | .setRxSessionByCallId callId rxSessionId =>
      (sessions.setRxSessionByCallId callId rxSessionId, [])
  | .setQosActive key active => (sessions.setQosActive key active, [])
  | .setQosActiveByCallId callId active => (sessions.setQosActiveByCallId callId active, [])
  | .removeSession key => (sessions.removeSession key, [])
  | .removeSessionByCallId callId => (sessions.removeSessionByCallId callId, [])

/-! ## What the operations do to one entry -/

namespace MediaSessions

variable {sessions : MediaSessions} {key k : MediaSessionKey} {state : MediaSessionState}

/-- A response may bring the entry into being: it is missing, and the initial session that
it would be copied from is not ending. -/
def Revivable (sessions : MediaSessions) (key : MediaSessionKey) : Prop :=
  sessions.find key = none ∧ key.toTag ≠ [] ∧
    ∃ initial, sessions.find key.initial = some initial ∧ initial.lifecycle ≠ .terminating

theorem ensure_cases (sessions : MediaSessions) (key : MediaSessionKey) :
    (¬ Revivable sessions key ∧
      sessions.ensureInviteResponseSessionLocked key = (sessions, sessions.find key)) ∨
    (Revivable sessions key ∧ ∃ branch, branch.lifecycle = .early ∧
      sessions.ensureInviteResponseSessionLocked key =
        (sessions.insert key branch, some branch)) := by
  rw [ensureInviteResponseSessionLocked]
  cases hfind : sessions.find key with
  | some state =>
      left
      refine ⟨?_, rfl⟩
      intro h
      cases hfind.symm.trans h.1
  | none =>
      simp only
      by_cases htag : key.toTag = []
      · left
        rw [if_pos htag]
        exact ⟨fun h => h.2.1 htag, rfl⟩
      · rw [if_neg htag]
        cases hinitial : sessions.find key.initial with
        | none =>
            left
            refine ⟨?_, rfl⟩
            rintro ⟨_, _, initial, h, _⟩
            cases hinitial.symm.trans h
        | some initial =>
            simp only
            by_cases hending : initial.lifecycle = .terminating
            · left
              rw [if_pos hending]
              refine ⟨?_, rfl⟩
              rintro ⟨_, _, initial', h, hlive⟩
              cases hinitial.symm.trans h
              exact hlive hending
            · right
              rw [if_neg hending]
              exact ⟨⟨hfind, htag, initial, hinitial, hending⟩, branchOf initial key.toTag, rfl,
                rfl⟩

/-- Entries that are there stay as they are. -/
theorem find_ensure_of_find (h : sessions.find k = some state) :
    (sessions.ensureInviteResponseSessionLocked key).1.find k = some state := by
  obtain ⟨_, heq⟩ | ⟨hrevivable, branch, _, heq⟩ := ensure_cases sessions key
  · rw [heq]
    exact h
  · have hne : k ≠ key := by
      rintro rfl
      cases h.symm.trans hrevivable.1
    rw [heq]
    exact (Table.find_insert_of_ne _ _ hne).trans h

theorem ensure_of_find (h : sessions.find key = some state) :
    sessions.ensureInviteResponseSessionLocked key = (sessions, some state) := by
  simp only [ensureInviteResponseSessionLocked, h]

theorem beginInviteResponse_fst (sessions : MediaSessions) (key : MediaSessionKey) :
    (sessions.beginInviteResponse key).1 = (sessions.ensureInviteResponseSessionLocked key).1 := by
  simp only [beginInviteResponse]
  split
  · rfl
  · rfl

/-- The winning session becomes established, unless it is ending. -/
def establish (state : MediaSessionState) : MediaSessionState :=
  if state.lifecycle = .terminating then state else { state with lifecycle := .established }

theorem markInviteFinalSuccess_eq (sessions : MediaSessions) (key : MediaSessionKey) :
    sessions.markInviteFinalSuccess key =
      MediaSessions.terminateIf
        ((sessions.ensureInviteResponseSessionLocked key).1.modify key establish)
        fun k state =>
          !((sessions.ensureInviteResponseSessionLocked key).2.isSome && k = key) &&
            endedByFinal key k state := rfl

theorem find_terminateIf (sessions : MediaSessions)
    (ended : MediaSessionKey → MediaSessionState → Bool) (k : MediaSessionKey) :
    (sessions.terminateIf ended).1.find k = (sessions.find k).map fun state =>
      if ended k state then { state with lifecycle := .terminating } else state :=
  Table.find_mapValues sessions _ k

theorem mem_plans_terminateIf {ended : MediaSessionKey → MediaSessionState → Bool}
    {plan : MediaTerminationPlan} (h : plan ∈ (sessions.terminateIf ended).2) :
    ∃ state, sessions.find plan.key = some state ∧ ended plan.key state = true ∧
      plan = makeTerminationPlanLocked plan.key state := by
  obtain ⟨⟨k, state⟩, hmem, rfl⟩ := List.mem_map.mp h
  obtain ⟨hentry, hended⟩ := List.mem_filter.mp hmem
  exact ⟨state, Table.find_eq_some_iff_mem.mpr hentry, hended, rfl⟩

theorem markTerminating_of_target (htarget : sessions.terminationTarget key = some k)
    (hfind : sessions.find k = some state) (hlive : state.lifecycle ≠ .terminating) :
    sessions.markTerminating key =
      (sessions.modify k fun state => { state with lifecycle := .terminating },
        some (makeTerminationPlanLocked k state)) := by
  simp only [markTerminating, htarget, hfind, if_neg hlive]

/-- `markTerminating` touches its target only. -/
theorem markTerminating_of_ne (h : sessions.terminationTarget key ≠ some k) :
    (sessions.markTerminating key).1.find k = sessions.find k ∧
      ∀ plan ∈ (sessions.markTerminating key).2, plan.key ≠ k := by
  rw [markTerminating]
  split
  · exact ⟨rfl, by simp⟩
  · rename_i target htarget
    have hne : k ≠ target := by
      rintro rfl
      exact h htarget
    split
    · exact ⟨rfl, by simp⟩
    · split
      · exact ⟨rfl, by simp⟩
      · refine ⟨Table.find_modify_of_ne _ _ hne, ?_⟩
        intro plan hplan
        cases hplan
        exact hne.symm

end MediaSessions
end SimIms.Rtp
