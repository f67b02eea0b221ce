import SimIms.Lib.Machine
import SimIms.Rtp.MediaSession

/-!
# Incarnations of media sessions

An entry of the table is created, may be moved to another key, and is removed or replaced; a later
entry under the same key is another one. We name each entry after the call that created it, and
follow it through all calls of the manager: it goes from Early over Established to Terminating, and
the call that lets it terminate issues the only plan for it.
-/

namespace SimIms.Rtp

open Cxx Lib

def MediaSessionLifecycle.rank : MediaSessionLifecycle → Nat
  | .early => 0
  | .established => 1
  | .terminating => 2

theorem MediaSessionLifecycle.rank_le_terminating (lifecycle : MediaSessionLifecycle) :
    lifecycle.rank ≤ MediaSessionLifecycle.terminating.rank := by
  cases lifecycle <;> decide

/-- The key that the entry moved by `updateToTag` had. -/
def MediaSessions.movedFrom (sessions : MediaSessions) (key : MediaSessionKey) (toTag : Bytes)
    (k : MediaSessionKey) : MediaSessionKey :=
  if sessions.contains key = true ∧ k = { key with toTag } then key else k

/-- The key under which the entry has been before the call that is under `k` after it; it is
missing there when the call creates the entry. -/
def ManagerCall.origin (sessions : MediaSessions) (k : MediaSessionKey) :
    ManagerCall → Option MediaSessionKey
  | .createSession key => if k = key then none else some k
  | .updateToTag key toTag => some (sessions.movedFrom key toTag k)
  | .updateToTagByCallId callId toTag =>
      match sessions.findUniqueByCallIdLocked callId with
      | none => some k
      | some key => some (sessions.movedFrom key toTag k)
  | _ => some k

/-- An entry, by the number of the call that has created it, and its first key. -/
structure Incarnation where
  created : Nat
  key : MediaSessionKey
deriving DecidableEq, Repr

/-- The table, the incarnation of each of its entries, and how many calls there have been. -/
structure Incarnations where
  sessions : MediaSessions
  ids : MediaSessionKey → Option Incarnation
  calls : Nat

/-- A plan, and the incarnation for which it has been issued. -/
structure IssuedPlan where
  incarnation : Option Incarnation
  plan : MediaTerminationPlan

namespace Incarnations

def init : Incarnations := ⟨.empty, fun _ => none, 0⟩

def run (s : Incarnations) (call : ManagerCall) : Incarnations × List IssuedPlan :=
  let result := call.run s.sessions
  let ids := fun k =>
    if result.1.contains k then
      some (((call.origin s.sessions k).bind s.ids).getD ⟨s.calls, k⟩)
    else none
  (⟨result.1, ids, s.calls + 1⟩, result.2.map fun plan => ⟨ids plan.key, plan⟩)

/-- The incarnation is in the table, in this state. -/
def Holds (s : Incarnations) (n : Incarnation) (state : MediaSessionState) : Prop :=
  ∃ k, s.ids k = some n ∧ s.sessions.find k = some state

end Incarnations

def incarnationMachine : Machine Incarnations ManagerCall IssuedPlan :=
  ⟨fun s call => some (s.run call)⟩

/-- How many plans have been issued for an incarnation. -/
def plansFor (n : Incarnation) (log : List IssuedPlan) : Nat :=
  log.countP fun issued => issued.incarnation = some n

/-! ## What one call does to one entry -/

/-- An entry before and after a call, and the number of plans that the call issues for it. -/
inductive Ages : Option MediaSessionState → Option MediaSessionState → Nat → Prop
  | gone (before : Option MediaSessionState) : Ages before none 0
  | fresh {state : MediaSessionState} (hlive : state.lifecycle ≠ .terminating) :
      Ages none (some state) 0
  | kept {a b : MediaSessionState} (hle : a.lifecycle.rank ≤ b.lifecycle.rank)
      (hsame : b.lifecycle = .terminating → a.lifecycle = .terminating) :
      Ages (some a) (some b) 0
  | ended {a b : MediaSessionState} (hlive : a.lifecycle ≠ .terminating)
      (hended : b.lifecycle = .terminating) : Ages (some a) (some b) 1

theorem Ages.refl (entry : Option MediaSessionState) : Ages entry entry 0 := by
  cases entry with
  | none => exact .gone none
  | some state => exact .kept (Nat.le_refl _) id

/-- What is terminating stays so until it goes. -/
theorem Ages.of_terminating {a : MediaSessionState} {after : Option MediaSessionState} {n : Nat}
    (h : Ages (some a) after n) (hterminating : a.lifecycle = .terminating) :
    after = none ∨ ∃ b, after = some b ∧ b.lifecycle = .terminating := by
  cases h with
  | gone => exact .inl rfl
  | kept hle hsame =>
      rename_i b
      refine .inr ⟨b, rfl, ?_⟩
      rw [hterminating] at hle
      cases hb : b.lifecycle with
      | early => exact absurd (hb ▸ hle) (by decide)
      | established => exact absurd (hb ▸ hle) (by decide)
      | terminating => rfl
  | ended hlive hended => exact (hlive hterminating).elim

/-- Changes in place that follow do not matter. -/
theorem Ages.map {a b : Option MediaSessionState} (h : Ages a b 0)
    {f : MediaSessionState → MediaSessionState}
    (hf : ∀ state, state.lifecycle.rank ≤ (f state).lifecycle.rank ∧
      ((f state).lifecycle = .terminating → state.lifecycle = .terminating)) :
    Ages a (b.map f) 0 := by
  cases h with
  | gone => exact .gone a
  | fresh hlive => exact .fresh (mt (hf _).2 hlive)
  | kept hle hsame =>
      exact .kept (Nat.le_trans hle (hf _).1) (fun hterminating => hsame ((hf _).2 hterminating))

namespace MediaSessions

variable {sessions : MediaSessions} {key k : MediaSessionKey}

theorem ages_modify {f : MediaSessionState → MediaSessionState}
    (hf : ∀ state, state.lifecycle.rank ≤ (f state).lifecycle.rank ∧
      ((f state).lifecycle = .terminating → state.lifecycle = .terminating)) :
    Ages (sessions.find k) ((sessions.modify key f).find k) 0 := by
  rw [Table.find_modify]
  split
  · rename_i heq
    rw [heq]
    exact (Ages.refl _).map hf
  · exact .refl _

/-- A change of the only session of a call is one of some session, or none. -/
theorem ages_atUnique {callId : Bytes} {change : MediaSessionKey → MediaSessions}
    (h : ∀ key, Ages (sessions.find k) ((change key).find k) 0) :
    Ages (sessions.find k) ((sessions.atUnique callId change).find k) 0 := by
  rw [atUnique]
  split
  · exact .refl _
  · exact h _

theorem ages_erase : Ages (sessions.find k) ((sessions.erase key).find k) 0 := by
  rw [Table.find_erase]
  split
  · exact .gone _
  · exact .refl _

theorem ages_ensure :
    Ages (sessions.find k) ((sessions.ensureInviteResponseSessionLocked key).1.find k) 0 := by
  obtain ⟨-, heq⟩ | ⟨hrevivable, branch, hearly, heq⟩ := ensure_cases sessions key
  · rw [heq]
    exact .refl _
  · rw [heq, Table.find_insert]
    split
    · rename_i hkey
      rw [hkey, hrevivable.1]
      exact .fresh (by rw [hearly]; decide)
    · exact .refl _

/-- The plans for one key, of those for all sessions that end. -/
theorem countP_entries {entries : List ((_ : MediaSessionKey) × MediaSessionState)}
    (hnodup : entries.NodupKeys) (ended : MediaSessionKey → MediaSessionState → Bool) :
    (((entries.filter fun entry => ended entry.1 entry.2).map fun entry =>
      makeTerminationPlanLocked entry.1 entry.2).countP fun plan => plan.key = k) =
    ((entries.dlookup k).elim 0 fun state => if ended k state then 1 else 0) := by
  induction entries with
  | nil => rfl
  | cons entry entries ih =>
      obtain ⟨hnew, hrest⟩ := List.nodupKeys_cons.mp hnodup
      have hcount := ih hrest
      by_cases hkey : k = entry.1
      · have hmissing : entries.dlookup k = none := List.dlookup_eq_none.mpr (hkey ▸ hnew)
        rw [hmissing] at hcount
        subst hkey
        rw [List.dlookup_cons_eq, List.filter_cons]
        split
        · rename_i hended
          rw [List.map_cons, List.countP_cons, hcount]
          simp [hended, makeTerminationPlanLocked]
        · rename_i hended
          rw [hcount]
          simp [hended]
      · have hother : (entry :: entries).dlookup k = entries.dlookup k :=
          List.dlookup_cons_ne _ _ hkey
        rw [hother, List.filter_cons, ← hcount]
        split
        · rw [List.map_cons, List.countP_cons_of_neg]
          rw [makeTerminationPlanLocked, decide_eq_true_iff]
          exact Ne.symm hkey
        · rfl

theorem ages_terminateIf {ended : MediaSessionKey → MediaSessionState → Bool}
    (hended : ∀ state, ended k state = true → state.lifecycle ≠ .terminating) :
    Ages (sessions.find k) ((sessions.terminateIf ended).1.find k)
      ((sessions.terminateIf ended).2.countP fun plan => plan.key = k) := by
  have hcount : (sessions.terminateIf ended).2.countP (fun plan => plan.key = k) =
      (sessions.find k).elim 0 fun state => if ended k state then 1 else 0 :=
    countP_entries sessions.nodupKeys ended
  rw [hcount, find_terminateIf]
  cases sessions.find k with
  | none => exact .gone none
  | some state =>
      simp only [Option.map_some, Option.elim_some]
      split
      · rename_i hends
        exact .ended (hended state hends) rfl
      · exact .refl _

theorem countP_plans_eq_zero {ended : MediaSessionKey → MediaSessionState → Bool}
    (h : ∀ state, ended k state = false) :
    ((sessions.terminateIf ended).2.countP fun plan => plan.key = k) = 0 := by
  rw [List.countP_eq_zero]
  intro plan hplan
  rw [decide_eq_true_iff]
  rintro rfl
  obtain ⟨state, -, hended, -⟩ := mem_plans_terminateIf hplan
  rw [h state] at hended
  cases hended

theorem rank_establish (state : MediaSessionState) :
    state.lifecycle.rank ≤ (establish state).lifecycle.rank ∧
      ((establish state).lifecycle = .terminating → state.lifecycle = .terminating) := by
  rw [establish]
  split
  · exact ⟨Nat.le_refl _, id⟩
  · rename_i hlive
    refine ⟨?_, fun hterminating => by cases hterminating⟩
    cases hstate : state.lifecycle with
    | early => exact Nat.zero_le _
    | established => exact Nat.le_refl _
    | terminating => exact (hlive hstate).elim

theorem live_of_endedByFinal {state : MediaSessionState}
    (h : endedByFinal key k state = true) : state.lifecycle ≠ .terminating := by
  rw [endedByFinal, decide_eq_true_iff] at h
  exact h.2.2.2

theorem ages_markInviteFinalSuccess :
    Ages (sessions.find k) ((sessions.markInviteFinalSuccess key).1.find k)
      ((sessions.markInviteFinalSuccess key).2.countP fun plan => plan.key = k) := by
  rw [markInviteFinalSuccess_eq]
  by_cases hwins : (sessions.ensureInviteResponseSessionLocked key).2.isSome = true ∧ k = key
  · obtain ⟨hfound, rfl⟩ := hwins
    have hspared : ∀ state : MediaSessionState,
        (!((sessions.ensureInviteResponseSessionLocked k).2.isSome && decide (k = k)) &&
          endedByFinal k k state) = false := by
      intro state
      rw [hfound, decide_eq_true rfl]
      rfl
    have hestablish : ∀ ended : MediaSessionKey → MediaSessionState → Bool,
        (∀ state, ended k state = false) →
        Ages (sessions.find k) ((MediaSessions.terminateIf
          ((sessions.ensureInviteResponseSessionLocked k).1.modify k establish) ended).1.find k)
          ((MediaSessions.terminateIf
          ((sessions.ensureInviteResponseSessionLocked k).1.modify k establish) ended).2.countP
            fun plan => plan.key = k) := by
      intro ended hnot
      rw [countP_plans_eq_zero hnot, find_terminateIf, Table.find_modify_self]
      refine (ages_ensure.map rank_establish).map fun state => ?_
      rw [hnot state]
      exact ⟨Nat.le_refl _, id⟩
    exact hestablish _ hspared
  · have hsame : ((sessions.ensureInviteResponseSessionLocked key).1.modify key establish).find k =
        sessions.find k := by
      rw [Table.find_modify]
      obtain ⟨-, heq⟩ | ⟨-, branch, -, heq⟩ := ensure_cases sessions key
      · rw [heq] at hwins ⊢
        split
        · rename_i hkey
          have hmissing : sessions.find key = none :=
            Option.not_isSome_iff_eq_none.mp fun hfound => hwins ⟨hfound, hkey⟩
          simp only [hkey, hmissing, Option.map_none]
        · rfl
      · rw [heq] at hwins ⊢
        have hne : k ≠ key := fun hkey => hwins ⟨rfl, hkey⟩
        rw [if_neg hne, Table.find_insert_of_ne _ _ hne]
    rw [← hsame]
    exact ages_terminateIf fun state hended =>
      live_of_endedByFinal (Bool.and_eq_true_iff.mp hended).2

theorem ages_markTerminating :
    Ages (sessions.find k) ((sessions.markTerminating key).1.find k)
      ((sessions.markTerminating key).2.toList.countP fun plan => plan.key = k) := by
  by_cases htarget : sessions.terminationTarget key = some k
  · cases hfind : sessions.find k with
    | none =>
        have hsame : sessions.markTerminating key = (sessions, none) := by
          simp only [markTerminating, htarget, hfind]
        rw [hsame, hfind]
        exact .gone none
    | some state =>
        by_cases hlive : state.lifecycle = .terminating
        · have hsame : sessions.markTerminating key = (sessions, none) := by
            simp only [markTerminating, htarget, hfind, if_pos hlive]
          rw [hsame, hfind]
          exact .refl _
        · rw [markTerminating_of_target htarget hfind hlive, Table.find_modify_self, hfind]
          have hcount : (some (makeTerminationPlanLocked k state)).toList.countP
              (fun plan => plan.key = k) = 1 := by
            simp [makeTerminationPlanLocked]
          rw [hcount]
          exact .ended hlive rfl
  · obtain ⟨hfind, hplans⟩ := markTerminating_of_ne htarget
    have hcount : (sessions.markTerminating key).2.toList.countP
        (fun plan => plan.key = k) = 0 := by
      rw [List.countP_eq_zero]
      intro plan hplan
      rw [decide_eq_true_iff]
      exact hplans plan (Option.mem_toList.mp hplan)
    rw [hfind, hcount]
    exact .refl _

theorem ages_completeTermination :
    Ages (sessions.find k) ((sessions.completeTermination key).find k) 0 := by
  rw [completeTermination]
  split
  · exact .refl _
  · split
    · exact ages_erase
    · exact .refl _

/-- The entry that `updateToTag` moves keeps its state. -/
theorem ages_updateToTag {toTag : Bytes} :
    Ages (sessions.find (sessions.movedFrom key toTag k))
      ((sessions.updateToTag key toTag).find k) 0 := by
  rw [updateToTag, movedFrom, Table.contains]
  cases hfind : sessions.find key with
  | none =>
      simp only [Option.isSome_none, Bool.false_eq_true, false_and, if_false]
      exact .refl _
  | some state =>
      simp only [Option.isSome_some, true_and]
      rw [Table.find_insert]
      split
      · rw [hfind]
        exact .kept (Nat.le_refl _) id
      · exact ages_erase

/-- The key that an entry leaves is left empty. -/
theorem not_contains_of_moved {toTag : Bytes} (hthere : sessions.contains key = true)
    (hne : key ≠ { key with toTag }) : (sessions.updateToTag key toTag).contains key = false := by
  obtain ⟨state, hfind⟩ := Option.isSome_iff_exists.mp hthere
  rw [Table.contains_eq_false_iff]
  simp only [updateToTag, hfind]
  rw [Table.find_insert_of_ne _ _ hne, Table.find_erase_self]

theorem movedFrom_injective {toTag : Bytes} {k₁ k₂ : MediaSessionKey}
    (h : sessions.movedFrom key toTag k₁ = sessions.movedFrom key toTag k₂)
    (hthere₁ : (sessions.updateToTag key toTag).contains k₁ = true)
    (hthere₂ : (sessions.updateToTag key toTag).contains k₂ = true) : k₁ = k₂ := by
  rw [movedFrom, movedFrom] at h
  split at h
  · rename_i hmoved
    split at h
    · rename_i hmoved'
      exact hmoved.2.trans hmoved'.2.symm
    · rename_i hstays
      subst h
      have hmissing := not_contains_of_moved hmoved.1 fun heq => hstays ⟨hmoved.1, heq⟩
      exact (Bool.false_ne_true (hmissing.symm.trans hthere₂)).elim
  · rename_i hstays
    split at h
    · rename_i hmoved
      subst h
      have hmissing := not_contains_of_moved hmoved.1 fun heq => hstays ⟨hmoved.1, heq⟩
      exact (Bool.false_ne_true (hmissing.symm.trans hthere₁)).elim
    · exact h

theorem ages_createSession :
    Ages ((if k = key then none else some k).bind sessions.find)
      ((sessions.createSession key).1.find k) 0 := by
  rw [createSession, Table.find_insert]
  split
  · exact .fresh (fun hstate => by cases hstate)
  · exact .refl _

end MediaSessions

namespace ManagerCall

variable {sessions : MediaSessions} {k : MediaSessionKey}

theorem rank_unchanged {f : MediaSessionState → MediaSessionState}
    (hf : ∀ state, (f state).lifecycle = state.lifecycle) (state : MediaSessionState) :
    state.lifecycle.rank ≤ (f state).lifecycle.rank ∧
      ((f state).lifecycle = .terminating → state.lifecycle = .terminating) := by
  rw [hf state]
  exact ⟨Nat.le_refl _, id⟩

theorem ages_run (call : ManagerCall) :
    Ages ((call.origin sessions k).bind sessions.find) ((call.run sessions).1.find k)
      ((call.run sessions).2.countP fun plan => plan.key = k) := by
  cases call with
  | createSession key => exact MediaSessions.ages_createSession
  | updateToTag key toTag => exact MediaSessions.ages_updateToTag
  | updateToTagByCallId callId toTag =>
      rw [origin, run, MediaSessions.updateToTagByCallId, MediaSessions.atUnique]
      cases sessions.findUniqueByCallIdLocked callId with
      | none => exact .refl _
      | some key => exact MediaSessions.ages_updateToTag
  | updateCallerSdp key sdp => exact MediaSessions.ages_modify (rank_unchanged fun _ => rfl)
  | updateCallerSdpByCallId callId sdp =>
      exact MediaSessions.ages_atUnique fun _ =>
        MediaSessions.ages_modify (rank_unchanged fun _ => rfl)
  | updateCalleeSdp key sdp => exact MediaSessions.ages_modify (rank_unchanged fun _ => rfl)
  | updateCalleeSdpByCallId callId sdp =>
      exact MediaSessions.ages_atUnique fun _ =>
        MediaSessions.ages_modify (rank_unchanged fun _ => rfl)
  | beginInviteResponse responseKey =>
      have hensure : Ages (sessions.find k)
          ((sessions.ensureInviteResponseSessionLocked responseKey).1.find k) 0 :=
        MediaSessions.ages_ensure
      rw [← MediaSessions.beginInviteResponse_fst] at hensure
      exact hensure
  | commitInviteResponse key calleeSdp established =>
      refine MediaSessions.ages_modify fun state => ?_
      split
      · exact ⟨Nat.le_refl _, id⟩
      · rename_i hlive
        cases established with
        | true =>
            have hrank := MediaSessions.rank_establish state
            rw [MediaSessions.establish, if_neg hlive] at hrank
            exact hrank
        | false => exact ⟨Nat.le_refl _, id⟩
  | markInviteFinalSuccess winningKey => exact MediaSessions.ages_markInviteFinalSuccess
  | markInviteFinalFailure responseKey =>
      exact MediaSessions.ages_terminateIf fun _ => MediaSessions.live_of_endedByFinal
  | markTerminating key => exact MediaSessions.ages_markTerminating
  | completeTermination key => exact MediaSessions.ages_completeTermination
  | setRxSession key rxSessionId => exact MediaSessions.ages_modify (rank_unchanged fun _ => rfl)
  | setRxSessionByCallId callId rxSessionId =>
      exact MediaSessions.ages_atUnique fun _ =>
        MediaSessions.ages_modify (rank_unchanged fun _ => rfl)
  | setQosActive key active => exact MediaSessions.ages_modify (rank_unchanged fun _ => rfl)
  | setQosActiveByCallId callId active =>
      exact MediaSessions.ages_atUnique fun _ =>
        MediaSessions.ages_modify (rank_unchanged fun _ => rfl)
  | removeSession key => exact MediaSessions.ages_erase
  | removeSessionByCallId callId =>
      exact MediaSessions.ages_atUnique fun _ => MediaSessions.ages_erase

/-- Two entries do not come from one. -/
theorem origin_injective {call : ManagerCall} {j k₁ k₂ : MediaSessionKey}
    (h₁ : call.origin sessions k₁ = some j) (h₂ : call.origin sessions k₂ = some j)
    (hthere₁ : (call.run sessions).1.contains k₁ = true)
    (hthere₂ : (call.run sessions).1.contains k₂ = true) : k₁ = k₂ := by
  cases call with
  | createSession key =>
      obtain ⟨-, heq₁⟩ := Option.ite_none_left_eq_some.mp h₁
      obtain ⟨-, heq₂⟩ := Option.ite_none_left_eq_some.mp h₂
      exact Option.some.inj (heq₁.trans heq₂.symm)
  | updateToTag key toTag =>
      exact MediaSessions.movedFrom_injective
        (Option.some.inj (h₁.trans h₂.symm)) hthere₁ hthere₂
  | updateToTagByCallId callId toTag =>
      rw [origin] at h₁ h₂
      rw [run, MediaSessions.updateToTagByCallId, MediaSessions.atUnique] at hthere₁ hthere₂
      cases hunique : sessions.findUniqueByCallIdLocked callId with
      | none =>
          simp only [hunique] at h₁ h₂
          exact Option.some.inj (h₁.trans h₂.symm)
      | some key =>
          simp only [hunique] at h₁ h₂ hthere₁ hthere₂
          exact MediaSessions.movedFrom_injective
            (Option.some.inj (h₁.trans h₂.symm)) hthere₁ hthere₂
  | updateCallerSdp | updateCallerSdpByCallId | updateCalleeSdp | updateCalleeSdpByCallId
  | beginInviteResponse | commitInviteResponse | markInviteFinalSuccess | markInviteFinalFailure
  | markTerminating | completeTermination | setRxSession | setRxSessionByCallId | setQosActive
  | setQosActiveByCallId | removeSession | removeSessionByCallId =>
      exact Option.some.inj (h₁.trans h₂.symm)

end ManagerCall

/-! ## Bookkeeping -/

namespace Incarnations

variable {s t : Incarnations} {log out : List IssuedPlan} {n : Incarnation}

/-- Each entry has one name, and its plan has been issued exactly if it is terminating. -/
structure Accounted (s : Incarnations) (log : List IssuedPlan) : Prop where
  named : ∀ k, (s.ids k).isSome = s.sessions.contains k
  created : ∀ k n, s.ids k = some n → n.created < s.calls
  injective : ∀ j k n, s.ids j = some n → s.ids k = some n → j = k
  issued : ∀ k n state, s.ids k = some n → s.sessions.find k = some state →
    plansFor n log = if state.lifecycle = .terminating then 1 else 0
  once : ∀ n, plansFor n log ≤ 1
  fresh : ∀ n : Incarnation, s.calls ≤ n.created → plansFor n log = 0

theorem accounted_init : init.Accounted [] where
  named _ := rfl
  created _ _ h := by cases h
  injective _ _ _ h := by cases h
  issued _ _ _ h := by cases h
  once _ := Nat.zero_le 1
  fresh _ _ := rfl

/-- An incarnation in the table after a call: it was there before, or the call has created it. -/
theorem ids_run {call : ManagerCall} {k : MediaSessionKey}
    (h : (s.run call).1.ids k = some n) :
    (call.run s.sessions).1.contains k = true ∧
      ((∃ j, call.origin s.sessions k = some j ∧ s.ids j = some n) ∨
        ((call.origin s.sessions k).bind s.ids = none ∧ n = ⟨s.calls, k⟩)) := by
  simp only [run] at h
  obtain ⟨hthere, heq⟩ := Option.ite_none_right_eq_some.mp h
  refine ⟨hthere, ?_⟩
  cases hid : (call.origin s.sessions k).bind s.ids with
  | none =>
      rw [hid] at heq
      cases heq
      exact .inr ⟨rfl, rfl⟩
  | some m =>
      rw [hid] at heq
      cases heq
      obtain ⟨j, hj, hm⟩ := Option.bind_eq_some_iff.mp hid
      exact .inl ⟨j, hj, hm⟩

/-- The number of a new name is that of the call. -/
theorem Accounted.created_run (h : s.Accounted log) {call : ManagerCall} {k : MediaSessionKey}
    (hid : (s.run call).1.ids k = some n) : n.created < s.calls + 1 := by
  obtain ⟨-, ⟨j, -, hj⟩ | ⟨-, rfl⟩⟩ := ids_run hid
  · exact Nat.lt_succ_of_lt (h.created j n hj)
  · exact Nat.lt_succ_self _

theorem Accounted.injective_run (h : s.Accounted log) {call : ManagerCall}
    {k₁ k₂ : MediaSessionKey} (h₁ : (s.run call).1.ids k₁ = some n)
    (h₂ : (s.run call).1.ids k₂ = some n) : k₁ = k₂ := by
  obtain ⟨hthere₁, hfrom₁⟩ := ids_run h₁
  obtain ⟨hthere₂, hfrom₂⟩ := ids_run h₂
  obtain ⟨j₁, horigin₁, hj₁⟩ | ⟨-, hnew₁⟩ := hfrom₁
  · obtain ⟨j₂, horigin₂, hj₂⟩ | ⟨-, hnew₂⟩ := hfrom₂
    · cases h.injective j₁ j₂ n hj₁ hj₂
      exact ManagerCall.origin_injective horigin₁ horigin₂ hthere₁ hthere₂
    · have hlt := h.created j₁ n hj₁
      rw [hnew₂] at hlt
      exact (Nat.lt_irrefl _ hlt).elim
  · obtain ⟨j₂, -, hj₂⟩ | ⟨-, hnew₂⟩ := hfrom₂
    · have hlt := h.created j₂ n hj₂
      rw [hnew₁] at hlt
      exact (Nat.lt_irrefl _ hlt).elim
    · exact congrArg Incarnation.key (hnew₁.symm.trans hnew₂)

theorem named_run (s : Incarnations) (call : ManagerCall) (k : MediaSessionKey) :
    ((s.run call).1.ids k).isSome = (s.run call).1.sessions.contains k := by
  simp only [run]
  split
  · rename_i hthere
    exact hthere.symm
  · rename_i hmissing
    exact (Bool.eq_false_iff.mpr hmissing).symm

/-- The plans for an incarnation are those for its key. -/
theorem plansFor_run_of_ids {call : ManagerCall} {k : MediaSessionKey}
    (hinjective : ∀ j, (s.run call).1.ids j = some n → j = k)
    (hid : (s.run call).1.ids k = some n) :
    plansFor n (s.run call).2 =
      (call.run s.sessions).2.countP fun plan => plan.key = k := by
  have hplans : (s.run call).2 = (call.run s.sessions).2.map fun plan =>
      ⟨(s.run call).1.ids plan.key, plan⟩ := rfl
  rw [plansFor, hplans, List.countP_map]
  refine List.countP_congr fun plan _ => ?_
  simp only [Function.comp_apply, decide_eq_true_iff]
  constructor
  · exact hinjective plan.key
  · rintro rfl
    exact hid

theorem plansFor_run_of_not_ids {call : ManagerCall}
    (h : ∀ k, (s.run call).1.ids k ≠ some n) : plansFor n (s.run call).2 = 0 := by
  have hplans : (s.run call).2 = (call.run s.sessions).2.map fun plan =>
      ⟨(s.run call).1.ids plan.key, plan⟩ := rfl
  rw [plansFor, hplans, List.countP_map, List.countP_eq_zero]
  intro plan _
  simp only [Function.comp_apply, decide_eq_true_iff]
  exact h plan.key

theorem plansFor_append (n : Incarnation) (log out : List IssuedPlan) :
    plansFor n (log ++ out) = plansFor n log + plansFor n out := List.countP_append ..

/-- Where an incarnation in the table has been before the call. -/
theorem Accounted.issued_run (h : s.Accounted log) {call : ManagerCall} {k : MediaSessionKey}
    {state : MediaSessionState} (hid : (s.run call).1.ids k = some n)
    (hfind : (s.run call).1.sessions.find k = some state) :
    plansFor n (log ++ (s.run call).2) = (if state.lifecycle = .terminating then 1 else 0) ∧
      (n.created < s.calls → ∃ before, s.Holds n before ∧
        before.lifecycle.rank ≤ state.lifecycle.rank) := by
  have hplans := plansFor_run_of_ids (fun j hj => h.injective_run hj hid) hid
  have hafter : (call.run s.sessions).1.find k = some state := hfind
  have hages := @ManagerCall.ages_run s.sessions k call
  rw [← hplans, hafter] at hages
  rw [plansFor_append]
  obtain ⟨-, ⟨j, horigin, hj⟩ | ⟨hnone, hnew⟩⟩ := ids_run hid
  · have hthere : (s.sessions.find j).isSome = true := by
      have hnamed := h.named j
      rw [hj] at hnamed
      exact hnamed.symm
    obtain ⟨before, hbefore⟩ := Option.isSome_iff_exists.mp hthere
    rw [horigin, Option.bind_some, hbefore] at hages
    have hissued := h.issued j n before hj hbefore
    generalize plansFor n (s.run call).2 = count at hages ⊢
    rw [hissued]
    cases hages with
    | kept hle hsame =>
        refine ⟨?_, fun _ => ⟨before, ⟨j, hj, hbefore⟩, hle⟩⟩
        by_cases hterminating : state.lifecycle = .terminating
        · rw [if_pos (hsame hterminating), if_pos hterminating]
        · have hlive : before.lifecycle ≠ .terminating := by
            intro hstate
            rw [hstate] at hle
            cases hlater : state.lifecycle with
            | early | established =>
                rw [hlater] at hle
                exact absurd hle (by decide)
            | terminating => exact hterminating hlater
          rw [if_neg hlive, if_neg hterminating]
    | ended hlive hended =>
        refine ⟨?_, fun _ => ⟨before, ⟨j, hj, hbefore⟩, ?_⟩⟩
        · rw [if_neg hlive, if_pos hended]
        · rw [hended]
          exact MediaSessionLifecycle.rank_le_terminating _
  · have hmissing : (call.origin s.sessions k).bind s.sessions.find = none := by
      cases horigin : call.origin s.sessions k with
      | none => rfl
      | some j =>
          rw [horigin] at hnone
          have hnamed := h.named j
          rw [Option.bind_some] at hnone
          rw [hnone, Table.contains] at hnamed
          exact Option.isSome_eq_false_iff.mp hnamed.symm |> Option.isNone_iff_eq_none.mp
    rw [hmissing] at hages
    generalize plansFor n (s.run call).2 = count at hages ⊢
    cases hages with
    | fresh hlive =>
        refine ⟨?_, fun hlt => ?_⟩
        · rw [h.fresh n (by rw [hnew]), if_neg hlive]
        · rw [hnew] at hlt
          exact (Nat.lt_irrefl _ hlt).elim

theorem Accounted.run (h : s.Accounted log) (call : ManagerCall) :
    (s.run call).1.Accounted (log ++ (s.run call).2) where
  named := named_run s call
  created _ _ := h.created_run
  injective _ _ _ := h.injective_run
  issued _ _ _ hid hfind := (h.issued_run hid hfind).1
  once n := by
    by_cases hthere : ∃ k, (s.run call).1.ids k = some n
    · obtain ⟨k, hid⟩ := hthere
      have hnamed := named_run s call k
      rw [hid] at hnamed
      obtain ⟨state, hfind⟩ := Option.isSome_iff_exists.mp hnamed.symm
      rw [(h.issued_run hid hfind).1]
      split
      · exact Nat.le_refl 1
      · exact Nat.zero_le 1
    · rw [plansFor_append, plansFor_run_of_not_ids fun k hid => hthere ⟨k, hid⟩]
      exact h.once n
  fresh n hn := by
    have hn' : s.calls + 1 ≤ n.created := hn
    rw [plansFor_append, h.fresh n (Nat.le_of_succ_le hn'), plansFor_run_of_not_ids]
    intro k hid
    exact Nat.lt_irrefl _ (Nat.lt_of_lt_of_le (h.created_run hid) hn')

/-! ## Runs -/

theorem Accounted.exec (h : s.Accounted log) {calls : List ManagerCall}
    (hrun : incarnationMachine.exec s calls = some (t, out)) : t.Accounted (log ++ out) :=
  Machine.exec_preserves_log (P := fun _ _ _ _ => True)
    (fun _ call _ _ _ h hstep _ => by
      cases hstep
      exact h.run call)
    h (Machine.along_iff.mpr fun _ _ _ _ _ _ _ _ _ _ => trivial) hrun

/-- An incarnation that is in the table later has been there, no further than later. -/
theorem Accounted.holds_before (h : s.Accounted log) {calls : List ManagerCall}
    (hrun : incarnationMachine.exec s calls = some (t, out)) (hn : n.created < s.calls)
    {state : MediaSessionState} (hholds : t.Holds n state) :
    ∃ before, s.Holds n before ∧ before.lifecycle.rank ≤ state.lifecycle.rank := by
  induction calls generalizing s log out with
  | nil =>
      cases hrun
      exact ⟨state, hholds, Nat.le_refl _⟩
  | cons call calls ih =>
      obtain ⟨u, first, rest, hstep, hrest, rfl⟩ := Machine.exec_cons_iff.mp hrun
      cases hstep
      obtain ⟨middle, ⟨k, hid, hfind⟩, hle⟩ := ih (h.run call) hrest (Nat.lt_succ_of_lt hn)
      obtain ⟨before, hbefore, hle'⟩ := (h.issued_run hid hfind).2 hn
      exact ⟨before, hbefore, Nat.le_trans hle' hle⟩

theorem Accounted.created_of_holds (h : s.Accounted log) {state : MediaSessionState}
    (hholds : s.Holds n state) : n.created < s.calls := by
  obtain ⟨k, hid, -⟩ := hholds
  exact h.created k n hid

theorem Accounted.holds_unique (h : s.Accounted log) {a b : MediaSessionState}
    (ha : s.Holds n a) (hb : s.Holds n b) : a = b := by
  obtain ⟨j, hj, hfind⟩ := ha
  obtain ⟨k, hk, hfind'⟩ := hb
  cases h.injective j k n hj hk
  exact Option.some.inj (hfind.symm.trans hfind')

/-- What `completeTermination` removes is terminating. -/
theorem terminating_of_completed {key : MediaSessionKey}
    {state : MediaSessionState} (hholds : s.Holds n state)
    (hremoved : ∀ later, ¬ (s.run (.completeTermination key)).1.Holds n later) :
    state.lifecycle = .terminating := by
  obtain ⟨k, hid, hfind⟩ := hholds
  by_contra hlive
  have hstays : (s.sessions.completeTermination key).find k = some state := by
    rw [MediaSessions.completeTermination]
    split
    · exact hfind
    · rename_i other hother
      split
      · rename_i hterminating
        have hne : k ≠ key := by
          rintro rfl
          cases hfind.symm.trans hother
          exact hlive hterminating
        rw [Table.find_erase_of_ne _ hne]
        exact hfind
      · exact hfind
  refine hremoved state ⟨k, ?_, hstays⟩
  have hthere : ((ManagerCall.completeTermination key).run s.sessions).1.contains k = true := by
    rw [Table.contains]
    exact Option.isSome_of_eq_some hstays
  have horigin : (ManagerCall.completeTermination key).origin s.sessions k = some k := rfl
  simp only [run]
  rw [if_pos hthere, horigin, Option.bind_some, hid, Option.getD_some]

end Incarnations

/-- In every run of the manager, an incarnation in the table at two moments has not gone back
between them, at most one plan is issued for it in all, and if `completeTermination` removes it, a
plan has been issued for it. -/
theorem mediaLifecycle_forward (before after : List ManagerCall) (s t : Incarnations)
    (log later : List IssuedPlan)
    (hbefore : incarnationMachine.exec .init before = some (s, log))
    (hafter : incarnationMachine.exec s after = some (t, later)) :
    (∀ n a b, s.Holds n a → t.Holds n b → a.lifecycle.rank ≤ b.lifecycle.rank) ∧
      (∀ n, plansFor n (log ++ later) ≤ 1) ∧
      ∀ n key a, s.Holds n a →
        (∀ b, ¬ (s.run (.completeTermination key)).1.Holds n b) → plansFor n log = 1 := by
  have haccounted : s.Accounted ([] ++ log) := Incarnations.accounted_init.exec hbefore
  rw [List.nil_append] at haccounted
  refine ⟨?_, (haccounted.exec hafter).once, ?_⟩
  · intro n a b ha hb
    obtain ⟨c, hc, hle⟩ := haccounted.holds_before hafter (haccounted.created_of_holds ha) hb
    rw [haccounted.holds_unique ha hc]
    exact hle
  · intro n key a ha hremoved
    have hterminating := Incarnations.terminating_of_completed ha hremoved
    obtain ⟨k, hid, hfind⟩ := ha
    rw [haccounted.issued k n a hid hfind, if_pos hterminating]

/-! ## One answered call -/

def answeredKey : MediaSessionKey := ⟨bytes "call", bytes "a", bytes "b"⟩

/-- The branch of the callee is established, ended by a `BYE` and removed, with one plan. -/
theorem mediaLifecycle_forward_answered :
    let before := [ManagerCall.createSession answeredKey.initial, .beginInviteResponse answeredKey,
      .commitInviteResponse answeredKey [] true, .markTerminating answeredKey]
    let after := [ManagerCall.markTerminating answeredKey, .completeTermination answeredKey]
    ∃ s t log later, incarnationMachine.exec .init before = some (s, log) ∧
      incarnationMachine.exec s after = some (t, later) ∧ log.length = 1 ∧
      (∀ n, plansFor n (log ++ later) ≤ 1) ∧
      ∀ n key a, s.Holds n a →
        (∀ b, ¬ (s.run (.completeTermination key)).1.Holds n b) → plansFor n log = 1 := by
  intro before after
  obtain ⟨-, honce, hcompleted⟩ := mediaLifecycle_forward before after _ _ _ _ rfl rfl
  exact ⟨_, _, _, _, rfl, rfl, rfl, honce, hcompleted⟩

end SimIms.Rtp
