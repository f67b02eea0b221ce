import SimIms.PCscf.MediaResurrection
import SimIms.Rtp.RtpengineClient

/-!
# Plans and live media

A delete command without a To tag ends everything of its Call-ID and From tag, and an Rx session
is ended for whoever holds it. The session of an answered INVITE is a copy of the initial one, and
the initial one is ended when the copy is established. So a plan hits live media unless nothing is
left of the initial session, or no dialog of the call is alive.
-/

namespace SimIms.Rtp

open Cxx Lib

/-! ## Delete commands -/

namespace BencodeDict

def empty : BencodeDict := ⟨[], .dict .nil fun _ => nofun⟩

def set (dict : BencodeDict) (key : Bytes) (value : BencodeValue) : BencodeDict where
  entries := OrderedMap.assign key value.tree dict.entries
  ordered := by
    obtain ⟨entries, hordered⟩ := dict
    cases hordered with
    | dict hascending hvalues =>
        refine .dict (OrderedMap.ascending_assign hascending) fun entry hmem => ?_
        obtain rfl | hmem := OrderedMap.mem_assign hmem
        · exact value.ordered
        · exact hvalues entry hmem

def find (dict : BencodeDict) (key : Bytes) : Option Tree := OrderedMap.lookup key dict.entries

theorem find_set (dict : BencodeDict) (key : Bytes) (value : BencodeValue) (other : Bytes) :
    (dict.set key value).find other = if other = key then some value.tree else dict.find other :=
  OrderedMap.lookup_assign other

end BencodeDict

def stringValue (s : Bytes) : BencodeValue := ⟨.string s, .string s⟩

def buildBaseCommand (command : Bytes) (session : MediaSession) : BencodeDict :=
  let cmd := BencodeDict.empty.set (bytes "command") (stringValue command)
  let cmd := cmd.set (bytes "call-id") (stringValue session.callId)
  let cmd := cmd.set (bytes "from-tag") (stringValue session.fromTag)
  if session.toTag = [] then cmd else cmd.set (bytes "to-tag") (stringValue session.toTag)

/-- What the control protocol says of a delete command: it ends every session of its Call-ID and
From tag, or that with its To tag only. -/
def DeleteCovers (cmd : BencodeDict) (session : MediaSession) : Prop :=
  cmd.find (bytes "call-id") = some (.string session.callId) ∧
    cmd.find (bytes "from-tag") = some (.string session.fromTag) ∧
    (cmd.find (bytes "to-tag") = none ∨
      cmd.find (bytes "to-tag") = some (.string session.toTag))

theorem deleteCovers_iff {session other : MediaSession} :
    DeleteCovers (buildBaseCommand (bytes "delete") session) other ↔
      session.callId = other.callId ∧ session.fromTag = other.fromTag ∧
        (session.toTag = [] ∨ session.toTag = other.toTag) := by
  have hkeys : bytes "call-id" ≠ bytes "to-tag" ∧ bytes "from-tag" ≠ bytes "to-tag" ∧
      bytes "call-id" ≠ bytes "from-tag" ∧ bytes "to-tag" ≠ bytes "call-id" ∧
      bytes "to-tag" ≠ bytes "from-tag" ∧ bytes "to-tag" ≠ bytes "command" := by decide
  obtain ⟨h₁, h₂, h₃, h₄, h₅, h₆⟩ := hkeys
  have hnone : BencodeDict.empty.find (bytes "to-tag") = none := rfl
  by_cases htag : session.toTag = []
  · simp [DeleteCovers, buildBaseCommand, htag, BencodeDict.find_set, h₃, h₄, h₅, h₆, hnone,
      stringValue]
  · simp [DeleteCovers, buildBaseCommand, htag, BencodeDict.find_set, h₁, h₂, h₃, stringValue]

/-! ## What plans name -/

/-- The plan names nothing that another entry holds which is not ending. -/
def MediaTerminationPlan.Spares (plan : MediaTerminationPlan) (sessions : MediaSessions) : Prop :=
  ∀ k state, sessions.find k = some state → k ≠ plan.key → state.lifecycle ≠ .terminating →
    (plan.rxSessionId = [] ∨ state.rxSessionId ≠ plan.rxSessionId) ∧
      ¬ DeleteCovers (buildBaseCommand (bytes "delete") plan.session) state.session

namespace MediaSessions

/-- A dialog of this Call-ID and From tag is established. -/
def HasDialog (sessions : MediaSessions) (key : MediaSessionKey) : Prop :=
  ∃ k state, sessions.find k = some state ∧ k.initial = key.initial ∧ k.toTag ≠ [] ∧
    state.lifecycle = .established

/-- The sessions that a final success ends: all that a final response ends but its own. -/
def endedBySuccess (sessions : MediaSessions) (key k : MediaSessionKey)
    (state : MediaSessionState) : Bool :=
  !(sessions.contains key && k = key) && endedByFinal key k state

/-- No Rx session of an entry that is ended is that of an entry which stays alive. -/
def RxApart (sessions : MediaSessions) (ended : MediaSessionKey → MediaSessionState → Bool) :
    Prop :=
  ∀ k state k' state', sessions.find k = some state → sessions.find k' = some state' →
    ended k state = true → state.rxSessionId ≠ [] → state'.lifecycle ≠ .terminating →
    ended k' state' = false → state'.rxSessionId ≠ state.rxSessionId

end MediaSessions

/-- When the plans of a call hit nothing. A final success that ends the initial session finds no
dialog, and its own session ending already; a final failure that ends the initial session finds no
dialog; and where a request ends an initial session, that is the only one of its call and From tag
that is alive. In all cases, no Rx session is shared across. -/
def ManagerCall.Spares (sessions : MediaSessions) : ManagerCall → Prop
  | .markInviteFinalSuccess key =>
      (key.toTag ≠ [] → sessions.Live key.initial →
        sessions.Ending key ∧ ¬ sessions.HasDialog key) ∧
      sessions.RxApart (sessions.endedBySuccess key)
  | .markInviteFinalFailure key =>
      (sessions.Live key.initial → ¬ sessions.HasDialog key) ∧
      sessions.RxApart (MediaSessions.endedByFinal key)
  | .markTerminating key => ∀ target, sessions.terminationTarget key = some target →
      sessions.Live target →
      (target.toTag = [] → ∀ k, sessions.Live k → k.initial = target → k = target) ∧
      sessions.RxApart fun k _ => k = target
  | _ => True

/-! ## Entries are about their keys -/

namespace MediaSessions

variable {sessions : MediaSessions} {key k : MediaSessionKey}

def Matched (sessions : MediaSessions) : Prop :=
  ∀ k state, sessions.find k = some state → state.session = ⟨k.callId, k.fromTag, k.toTag⟩

theorem matched_init : Matched .empty := by
  intro k state hfind
  cases hfind

theorem Matched.insert (h : sessions.Matched) {state : MediaSessionState}
    (hstate : state.session = ⟨key.callId, key.fromTag, key.toTag⟩) :
    Matched (Table.insert sessions key state) := by
  intro k found hfind
  rw [Table.find_insert] at hfind
  split at hfind
  · rename_i heq
    cases hfind
    rw [hstate, heq]
  · exact h k found hfind

theorem Matched.erase (h : sessions.Matched) : Matched (Table.erase sessions key) :=
  fun k found hfind => h k found (Table.find_of_find_erase hfind).2

theorem Matched.modify (h : sessions.Matched) {f : MediaSessionState → MediaSessionState}
    (hf : ∀ state, (f state).session = state.session) : Matched (Table.modify sessions key f) := by
  intro k found hfind
  rw [Table.find_modify] at hfind
  split at hfind
  · obtain ⟨state, hstate, rfl⟩ := Option.map_eq_some_iff.mp hfind
    rw [hf]
    exact h k state hstate
  · exact h k found hfind

theorem Matched.terminateIf (h : sessions.Matched)
    (ended : MediaSessionKey → MediaSessionState → Bool) :
    (sessions.terminateIf ended).1.Matched := by
  intro k found hfind
  rw [find_terminateIf] at hfind
  obtain ⟨state, hstate, rfl⟩ := Option.map_eq_some_iff.mp hfind
  split
  · exact h k state hstate
  · exact h k state hstate

theorem Matched.ensure (h : sessions.Matched) (key : MediaSessionKey) :
    (sessions.ensureInviteResponseSessionLocked key).1.Matched := by
  rw [ensureInviteResponseSessionLocked]
  cases sessions.find key with
  | some state => exact h
  | none =>
      simp only
      split
      · exact h
      · cases hinitial : sessions.find key.initial with
        | none => exact h
        | some initial =>
            simp only
            split
            · exact h
            · refine h.insert ?_
              rw [branchOf, h key.initial initial hinitial]
              rfl

theorem Matched.updateToTag (h : sessions.Matched) (key : MediaSessionKey) (toTag : Bytes) :
    (sessions.updateToTag key toTag).Matched := by
  rw [MediaSessions.updateToTag]
  cases hfind : sessions.find key with
  | none => exact h
  | some state =>
      refine h.erase.insert ?_
      rw [h key state hfind]

theorem Matched.atUnique (h : sessions.Matched) (callId : Bytes)
    {change : MediaSessionKey → MediaSessions} (hchange : ∀ key, (change key).Matched) :
    (sessions.atUnique callId change).Matched := by
  rw [MediaSessions.atUnique]
  split
  · exact h
  · exact hchange _

theorem Matched.markTerminating (h : sessions.Matched) (key : MediaSessionKey) :
    (sessions.markTerminating key).1.Matched := by
  rw [MediaSessions.markTerminating]
  split
  · exact h
  · split
    · exact h
    · split
      · exact h
      · exact h.modify fun _ => rfl

theorem Matched.run (h : sessions.Matched) (call : ManagerCall) :
    (call.run sessions).1.Matched := by
  cases call with
  | createSession key => exact h.insert rfl
  | updateToTag key toTag => exact h.updateToTag key toTag
  | updateToTagByCallId callId toTag => exact h.atUnique callId fun key => h.updateToTag key toTag
  | updateCallerSdp key sdp => exact h.modify fun _ => rfl
  | updateCallerSdpByCallId callId sdp => exact h.atUnique callId fun _ => h.modify fun _ => rfl
  | updateCalleeSdp key sdp => exact h.modify fun _ => rfl
  | updateCalleeSdpByCallId callId sdp => exact h.atUnique callId fun _ => h.modify fun _ => rfl
  | beginInviteResponse key =>
      change (sessions.beginInviteResponse key).1.Matched
      rw [beginInviteResponse_fst]
      exact h.ensure key
  | commitInviteResponse key sdp established =>
      refine h.modify fun state => ?_
      split
      · rfl
      · rfl
  | markInviteFinalSuccess key =>
      change (sessions.markInviteFinalSuccess key).1.Matched
      rw [markInviteFinalSuccess_eq]
      refine ((h.ensure key).modify fun state => ?_).terminateIf _
      rw [establish]
      split
      · rfl
      · rfl
  | markInviteFinalFailure key => exact h.terminateIf _
  | markTerminating key => exact h.markTerminating key
  | completeTermination key =>
      change (sessions.completeTermination key).Matched
      rw [completeTermination]
      split
      · exact h
      · split
        · exact h.erase
        · exact h
  | setRxSession key rxSessionId => exact h.modify fun _ => rfl
  | setRxSessionByCallId callId rxSessionId =>
      exact h.atUnique callId fun _ => h.modify fun _ => rfl
  | setQosActive key active => exact h.modify fun _ => rfl
  | setQosActiveByCallId callId active => exact h.atUnique callId fun _ => h.modify fun _ => rfl
  | removeSession key => exact h.erase
  | removeSessionByCallId callId => exact h.atUnique callId fun _ => h.erase

/-! ## What plans hit -/

/-- Of two entries, the plan for one covers the other only from the initial key. -/
theorem Matched.deleteCovers_iff (h : sessions.Matched) {k' : MediaSessionKey}
    {state state' : MediaSessionState} (hfind : sessions.find k = some state)
    (hfind' : sessions.find k' = some state') (hne : k' ≠ k) :
    DeleteCovers (buildBaseCommand (bytes "delete") state.session) state'.session ↔
      k'.initial = k := by
  rw [Rtp.deleteCovers_iff, h k state hfind, h k' state' hfind']
  obtain ⟨callId, fromTag, toTag⟩ := k
  obtain ⟨callId', fromTag', toTag'⟩ := k'
  simp only [MediaSessionKey.initial, MediaSessionKey.mk.injEq]
  constructor
  · rintro ⟨rfl, rfl, rfl | rfl⟩
    · exact ⟨rfl, rfl, rfl⟩
    · exact (hne rfl).elim
  · rintro ⟨rfl, rfl, rfl⟩
    exact ⟨rfl, rfl, .inl rfl⟩

/-- An entry stays alive only where its initial one does. -/
def InitialsLast (sessions : MediaSessions) (ended : MediaSessionKey → MediaSessionState → Bool) :
    Prop :=
  ∀ k state k' state', sessions.find k = some state → sessions.find k' = some state' →
    ended k state = true → state'.lifecycle ≠ .terminating → ended k' state' = false →
    k'.initial ≠ k

theorem spares_terminateIf_iff (h : sessions.Matched)
    (ended : MediaSessionKey → MediaSessionState → Bool) :
    (∀ plan ∈ (sessions.terminateIf ended).2, plan.Spares (sessions.terminateIf ended).1) ↔
      sessions.InitialsLast ended ∧ sessions.RxApart ended := by
  constructor
  · intro hspares
    have hapart : ∀ k state k' state', sessions.find k = some state →
        sessions.find k' = some state' → ended k state = true →
        state'.lifecycle ≠ .terminating → ended k' state' = false →
        (state.rxSessionId = [] ∨ state'.rxSessionId ≠ state.rxSessionId) ∧ k'.initial ≠ k := by
      intro k state k' state' hfind hfind' hended hlive hkept
      have hne : k' ≠ k := by
        rintro rfl
        cases hfind.symm.trans hfind'
        rw [hended] at hkept
        cases hkept
      have hmem : makeTerminationPlanLocked k state ∈ (sessions.terminateIf ended).2 :=
        List.mem_map.mpr ⟨⟨k, state⟩,
          List.mem_filter.mpr ⟨Table.find_eq_some_iff_mem.mp hfind, hended⟩, rfl⟩
      have hafter : (sessions.terminateIf ended).1.find k' = some state' := by
        rw [find_terminateIf, hfind', Option.map_some, hkept]
        rfl
      obtain ⟨hrx, hcovers⟩ := hspares _ hmem k' state' hafter hne hlive
      exact ⟨hrx, fun hinitial => hcovers ((h.deleteCovers_iff hfind hfind' hne).mpr hinitial)⟩
    refine ⟨fun k state k' state' hfind hfind' hended hlive hkept =>
      (hapart k state k' state' hfind hfind' hended hlive hkept).2,
      fun k state k' state' hfind hfind' hended hrx hlive hkept => ?_⟩
    exact (hapart k state k' state' hfind hfind' hended hlive hkept).1.resolve_left hrx
  · rintro ⟨hinitials, hrx⟩ plan hmem k' state' hafter hne hlive
    obtain ⟨state, hfind, hended, hplan⟩ := mem_plans_terminateIf hmem
    rw [find_terminateIf] at hafter
    obtain ⟨before, hfind', rfl⟩ := Option.map_eq_some_iff.mp hafter
    by_cases hboth : ended k' before = true
    · rw [if_pos hboth] at hlive
      exact (hlive rfl).elim
    · rw [if_neg hboth] at hlive ⊢
      have hkept : ended k' before = false := Bool.eq_false_iff.mpr hboth
      rw [hplan]
      constructor
      · by_cases hnone : state.rxSessionId = []
        · exact .inl hnone
        · exact .inr (hrx plan.key state k' before hfind hfind' hended hnone hlive hkept)
      · intro hcovers
        exact hinitials plan.key state k' before hfind hfind' hended hlive hkept
          ((h.deleteCovers_iff hfind hfind' hne).mp hcovers)

theorem endedByFinal_iff {state : MediaSessionState} :
    endedByFinal key k state = true ↔ k.initial = key.initial ∧
      ¬ (k.toTag ≠ [] ∧ state.lifecycle = .established) ∧ state.lifecycle ≠ .terminating := by
  rw [endedByFinal, decide_eq_true_iff, MediaSessionKey.initial, MediaSessionKey.initial,
    MediaSessionKey.mk.injEq]
  constructor
  · rintro ⟨hcall, hfrom, hrest⟩
    exact ⟨⟨hcall, hfrom, rfl⟩, hrest⟩
  · rintro ⟨⟨hcall, hfrom, -⟩, hrest⟩
    exact ⟨hcall, hfrom, hrest⟩

/-- The initial session of a call is ended by a final response, whatever it is. -/
theorem endedByFinal_initial {state : MediaSessionState} (hlive : state.lifecycle ≠ .terminating) :
    endedByFinal key key.initial state = true :=
  endedByFinal_iff.mpr ⟨rfl, fun h => h.1 rfl, hlive⟩

/-- What a final response leaves alive of its call is a dialog. -/
theorem dialog_of_kept {state : MediaSessionState} (hinitial : k.initial = key.initial)
    (hlive : state.lifecycle ≠ .terminating) (hkept : endedByFinal key k state = false) :
    k.toTag ≠ [] ∧ state.lifecycle = .established := by
  by_contra hnot
  rw [endedByFinal_iff.mpr ⟨hinitial, hnot, hlive⟩] at hkept
  cases hkept

theorem not_endedByFinal_of_dialog {state : MediaSessionState} (htag : k.toTag ≠ [])
    (hstate : state.lifecycle = .established) : endedByFinal key k state = false := by
  by_contra hended
  exact (endedByFinal_iff.mp (Bool.not_eq_false _ ▸ hended)).2.1 ⟨htag, hstate⟩

theorem spares_markInviteFinalFailure_iff (h : sessions.Matched) :
    (∀ plan ∈ (sessions.markInviteFinalFailure key).2,
        plan.Spares (sessions.markInviteFinalFailure key).1) ↔
      ManagerCall.Spares sessions (.markInviteFinalFailure key) := by
  refine (spares_terminateIf_iff h (endedByFinal key)).trans (and_congr_left fun _ => ?_)
  constructor
  · rintro hinitials ⟨state, hfind, hlive⟩ ⟨k, dialog, hfind', hinitial, htag, hestablished⟩
    refine hinitials key.initial state k dialog hfind hfind' (endedByFinal_initial hlive) ?_
      (not_endedByFinal_of_dialog htag hestablished) hinitial
    rw [hestablished]
    nofun
  · rintro hnone k state k' state' hfind hfind' hended hlive hkept rfl
    obtain ⟨hinitial, -, hending⟩ := endedByFinal_iff.mp hended
    have hinitial' : k'.initial = key.initial := hinitial
    rw [hinitial'] at hfind
    obtain ⟨htag, hestablished⟩ := dialog_of_kept hinitial' hlive hkept
    exact hnone ⟨state, hfind, hending⟩ ⟨k', state', hfind', hinitial', htag, hestablished⟩

theorem lifecycle_establish {state : MediaSessionState} :
    (establish state).lifecycle = .terminating ↔ state.lifecycle = .terminating := by
  rw [establish]
  split
  · rfl
  · rename_i hlive
    exact iff_of_false (by simp) hlive

theorem rxSessionId_establish (state : MediaSessionState) :
    (establish state).rxSessionId = state.rxSessionId := by
  rw [establish]
  split
  · rfl
  · rfl

/-- The session of the response itself is not ended. -/
theorem endedBySuccess_iff {state : MediaSessionState} (hfind : sessions.find k = some state) :
    sessions.endedBySuccess key k state = true ↔ k ≠ key ∧ endedByFinal key k state = true := by
  have hcontains : k = key → sessions.contains key = true := by
    rintro rfl
    exact Option.isSome_iff_exists.mpr ⟨state, hfind⟩
  rw [endedBySuccess, Bool.and_eq_true, Bool.not_eq_true', Bool.and_eq_false_iff,
    decide_eq_false_iff_not]
  refine and_congr_left fun _ => ⟨fun h heq => ?_, .inr⟩
  obtain hnot | hne := h
  · rw [hcontains heq] at hnot
    cases hnot
  · exact hne heq

/-- An entry that is there after its own session has been established. -/
theorem find_establish_iff {state : MediaSessionState} :
    (Table.modify sessions key establish).find k = some state ↔
      ∃ before, sessions.find k = some before ∧
        state = if k = key then establish before else before := by
  rw [Table.find_modify]
  split
  · rw [Option.map_eq_some_iff]
    exact exists_congr fun before => and_congr_right fun _ => eq_comm
  · constructor
    · intro hfind
      exact ⟨state, hfind, rfl⟩
    · rintro ⟨before, hfind, rfl⟩
      exact hfind

/-- A response for a new branch has its session copied, and the initial one ended. -/
theorem not_spares_of_revivable (h : sessions.Matched) (hrevivable : sessions.Revivable key) :
    ¬ ∀ plan ∈ (sessions.markInviteFinalSuccess key).2,
      plan.Spares (sessions.markInviteFinalSuccess key).1 := by
  intro hspares
  obtain ⟨hnot, -⟩ | ⟨-, branch, hearly, hensure⟩ := ensure_cases sessions key
  · exact hnot hrevivable
  · obtain ⟨-, htag, initial, hinitial, hlive⟩ := hrevivable
    have hne : key.initial ≠ key := fun heq => htag (heq ▸ rfl)
    have hmatched : Matched (((sessions.ensureInviteResponseSessionLocked key).1).modify key
        establish) := (h.ensure key).modify fun state => by rw [establish]; split <;> rfl
    rw [markInviteFinalSuccess_eq] at hspares
    obtain ⟨hinitials, -⟩ := (spares_terminateIf_iff hmatched _).mp hspares
    refine hinitials key.initial initial key (establish branch) ?_ ?_ ?_ ?_ ?_ rfl
    · rw [hensure, Table.find_modify_of_ne _ _ hne, Table.find_insert_of_ne _ _ hne]
      exact hinitial
    · rw [hensure, Table.find_modify_self, Table.find_insert_self]
      rfl
    · simp [hne, endedByFinal_initial hlive]
    · rw [ne_eq, lifecycle_establish, hearly]
      simp
    · simp [hensure]

/-- Which sessions are ended does not change when that of the response is established. -/
theorem endedBySuccess_establish {state : MediaSessionState}
    (hfind : sessions.find k = some state) :
    sessions.endedBySuccess key k (if k = key then establish state else state) =
      sessions.endedBySuccess key k state := by
  split
  · rename_i heq
    have hcontains : sessions.contains key = true :=
      Option.isSome_iff_exists.mpr ⟨state, heq ▸ hfind⟩
    simp [endedBySuccess, hcontains, heq]
  · rfl

theorem rxApart_establish_iff :
    RxApart (Table.modify sessions key establish) (sessions.endedBySuccess key) ↔
      sessions.RxApart (sessions.endedBySuccess key) := by
  have hlifecycle : ∀ (k : MediaSessionKey) (state : MediaSessionState),
      (if k = key then establish state else state).lifecycle = .terminating ↔
        state.lifecycle = .terminating := by
    intro k state
    split
    · exact lifecycle_establish
    · rfl
  have hrxSessionId : ∀ (k : MediaSessionKey) (state : MediaSessionState),
      (if k = key then establish state else state).rxSessionId = state.rxSessionId := by
    intro k state
    split
    · exact rxSessionId_establish state
    · rfl
  constructor
  · intro h k state k' state' hfind hfind' hended hrx hlive hkept
    have hapart := h k _ k' _ (find_establish_iff.mpr ⟨state, hfind, rfl⟩)
      (find_establish_iff.mpr ⟨state', hfind', rfl⟩)
      ((endedBySuccess_establish hfind).trans hended)
      (by rwa [hrxSessionId]) (by rwa [ne_eq, hlifecycle])
      ((endedBySuccess_establish hfind').trans hkept)
    rwa [hrxSessionId, hrxSessionId] at hapart
  · intro h k after k' after' hafter hafter' hended hrx hlive hkept
    obtain ⟨state, hfind, rfl⟩ := find_establish_iff.mp hafter
    obtain ⟨state', hfind', rfl⟩ := find_establish_iff.mp hafter'
    rw [endedBySuccess_establish hfind] at hended
    rw [endedBySuccess_establish hfind'] at hkept
    rw [hrxSessionId] at hrx ⊢
    rw [ne_eq, hlifecycle] at hlive
    rw [hrxSessionId]
    exact h k state k' state' hfind hfind' hended hrx hlive hkept

theorem initialsLast_establish_iff (hnot : ¬ sessions.Revivable key) :
    InitialsLast (Table.modify sessions key establish) (sessions.endedBySuccess key) ↔
      (key.toTag ≠ [] → sessions.Live key.initial →
        sessions.Ending key ∧ ¬ sessions.HasDialog key) := by
  constructor
  · rintro hinitials htag ⟨state, hfind, hlive⟩
    have hne : key.initial ≠ key := fun heq => htag (heq ▸ rfl)
    have hended : sessions.endedBySuccess key key.initial state = true :=
      (endedBySuccess_iff hfind).mpr ⟨hne, endedByFinal_initial hlive⟩
    have hafter : (Table.modify sessions key establish).find key.initial = some state :=
      find_establish_iff.mpr ⟨state, hfind, (if_neg hne).symm⟩
    have hending : sessions.Ending key := by
      cases hown : sessions.find key with
      | none => exact (hnot ⟨hown, htag, state, hfind, hlive⟩).elim
      | some own =>
          refine ⟨own, hown, ?_⟩
          by_contra hownLive
          refine hinitials key.initial state key (establish own) hafter
            (find_establish_iff.mpr ⟨own, hown, (if_pos rfl).symm⟩) hended ?_ ?_ rfl
          · rwa [ne_eq, lifecycle_establish]
          · have hsame : sessions.endedBySuccess key key (establish own) =
                sessions.endedBySuccess key key own := by
              rw [← endedBySuccess_establish hown, if_pos rfl]
            rw [hsame]
            by_contra hownEnded
            exact ((endedBySuccess_iff hown).mp (Bool.not_eq_false _ ▸ hownEnded)).1 rfl
    refine ⟨hending, ?_⟩
    rintro ⟨k, dialog, hfind', hinitial, hdialog, hestablished⟩
    have hk : k ≠ key := by
      rintro rfl
      obtain ⟨own, hown, hownEnding⟩ := hending
      cases hown.symm.trans hfind'
      rw [hestablished] at hownEnding
      cases hownEnding
    refine hinitials key.initial state k dialog hafter
      (find_establish_iff.mpr ⟨dialog, hfind', (if_neg hk).symm⟩) hended ?_ ?_ hinitial
    · rw [hestablished]
      nofun
    · by_contra hdialogEnded
      have hfinal := ((endedBySuccess_iff hfind').mp (Bool.not_eq_false _ ▸ hdialogEnded)).2
      rw [not_endedByFinal_of_dialog hdialog hestablished] at hfinal
      cases hfinal
  · rintro hnone k after k' after' hafter hafter' hended hlive hkept rfl
    obtain ⟨state, hfind, rfl⟩ := find_establish_iff.mp hafter
    obtain ⟨state', hfind', rfl⟩ := find_establish_iff.mp hafter'
    rw [endedBySuccess_establish hfind] at hended
    rw [endedBySuccess_establish hfind'] at hkept
    obtain ⟨hne, hfinal⟩ := (endedBySuccess_iff hfind).mp hended
    obtain ⟨hinitial, -, hinitialLive⟩ := endedByFinal_iff.mp hfinal
    have hinitial' : k'.initial = key.initial := hinitial
    have htag : key.toTag ≠ [] := by
      intro hempty
      exact hne (hinitial'.trans (by rw [MediaSessionKey.initial, ← hempty]))
    obtain ⟨⟨own, hown, hownEnding⟩, hnoDialog⟩ :=
      hnone htag ⟨state, hinitial' ▸ hfind, hinitialLive⟩
    by_cases hk : k' = key
    · subst hk
      cases hown.symm.trans hfind'
      rw [if_pos rfl, ne_eq, lifecycle_establish] at hlive
      exact hlive hownEnding
    · rw [if_neg hk] at hlive
      have hkeptFinal : endedByFinal key k' state' = false := by
        by_contra hendedFinal
        rw [(endedBySuccess_iff hfind').mpr ⟨hk, Bool.not_eq_false _ ▸ hendedFinal⟩] at hkept
        cases hkept
      obtain ⟨hdialog, hestablished⟩ := dialog_of_kept hinitial' hlive hkeptFinal
      exact hnoDialog ⟨k', state', hfind', hinitial', hdialog, hestablished⟩

theorem spares_markInviteFinalSuccess_iff (h : sessions.Matched) :
    (∀ plan ∈ (sessions.markInviteFinalSuccess key).2,
        plan.Spares (sessions.markInviteFinalSuccess key).1) ↔
      ManagerCall.Spares sessions (.markInviteFinalSuccess key) := by
  obtain ⟨hnot, hensure⟩ | ⟨hrevivable, -⟩ := ensure_cases sessions key
  swap
  · refine iff_of_false (not_spares_of_revivable h hrevivable) ?_
    rintro ⟨hnone, -⟩
    obtain ⟨⟨state, hfind, -⟩, -⟩ := hnone hrevivable.2.1 hrevivable.2.2
    rw [hrevivable.1] at hfind
    cases hfind
  · have hmatched : Matched (Table.modify sessions key establish) :=
      h.modify fun state => by rw [establish]; split <;> rfl
    have heq : sessions.markInviteFinalSuccess key =
        MediaSessions.terminateIf (Table.modify sessions key establish)
          (sessions.endedBySuccess key) := by
      rw [markInviteFinalSuccess_eq, hensure]
      rfl
    rw [heq, spares_terminateIf_iff hmatched]
    exact and_congr (initialsLast_establish_iff hnot) rxApart_establish_iff

theorem spares_markTerminating_iff (h : sessions.Matched) :
    (∀ plan ∈ (sessions.markTerminating key).2.toList,
        plan.Spares (sessions.markTerminating key).1) ↔
      ManagerCall.Spares sessions (.markTerminating key) := by
  by_cases hnone : ∀ target, sessions.terminationTarget key = some target → ¬ sessions.Live target
  · rw [markTerminating_of_not_live hnone]
    exact iff_of_true nofun fun target htarget hlive => (hnone target htarget hlive).elim
  push Not at hnone
  obtain ⟨target, htarget, state, hfind, hlive⟩ := hnone
  have hother : ∀ {k' : MediaSessionKey}, k' ≠ target →
      (sessions.markTerminating key).1.find k' = sessions.find k' := fun hne =>
    (markTerminating_of_ne fun heq => hne (Option.some.inj (heq.symm.trans htarget))).1
  rw [markTerminating_of_target htarget hfind hlive] at hother ⊢
  constructor
  · intro hspares
    have hplan := hspares _ (List.mem_singleton.mpr rfl)
    intro target' htarget' _
    cases htarget.symm.trans htarget'
    refine ⟨?_, ?_⟩
    · rintro - k ⟨state', hfind', hlive'⟩ hinitial
      by_contra hne
      exact (hplan k state' ((hother hne).trans hfind') hne hlive').2
        ((h.deleteCovers_iff hfind hfind' hne).mpr hinitial)
    · intro k found k' state' hfound hfind' hended hrx hlive' hkept
      have hk : k = target := of_decide_eq_true hended
      have hne : k' ≠ target := of_decide_eq_false hkept
      rw [hk] at hfound
      cases hfind.symm.trans hfound
      exact (hplan k' state' ((hother hne).trans hfind') hne hlive').1.resolve_left hrx
  · intro hspares plan hmem k' state' hfind' hne hlive'
    cases List.mem_singleton.mp hmem
    obtain ⟨halone, hrx⟩ := hspares target htarget ⟨state, hfind, hlive⟩
    have hbefore : sessions.find k' = some state' := (hother hne).symm.trans hfind'
    constructor
    · by_cases hempty : state.rxSessionId = []
      · exact .inl hempty
      · exact .inr (hrx target state k' state' hfind hbefore (decide_eq_true rfl) hempty hlive'
          (decide_eq_false hne))
    · intro hcovers
      have hinitial := (h.deleteCovers_iff hfind hbefore hne).mp hcovers
      exact hne (halone (congrArg MediaSessionKey.toTag hinitial).symm k' ⟨state', hbefore, hlive'⟩
        hinitial)

end MediaSessions

/-- The plans of a call hit nothing just where its condition held before. -/
theorem ManagerCall.spares_iff {sessions : MediaSessions} (h : sessions.Matched)
    (call : ManagerCall) :
    (∀ plan ∈ (call.run sessions).2, plan.Spares (call.run sessions).1) ↔
      call.Spares sessions := by
  cases call with
  | markInviteFinalSuccess key => exact MediaSessions.spares_markInviteFinalSuccess_iff h
  | markInviteFinalFailure key => exact MediaSessions.spares_markInviteFinalFailure_iff h
  | markTerminating key => exact MediaSessions.spares_markTerminating_iff h
  | _ => exact iff_of_true nofun trivial

end SimIms.Rtp

namespace SimIms.PCscf

open Cxx Lib Rtp Sip

namespace MediaState

variable {s t : MediaState} {a : MediaAction} {plans : List MediaTerminationPlan}
variable {rtpengine : Bool}

theorem matched_of_step (h : s.sessions.Matched) (hstep : s.step rtpengine a = some (t, plans)) :
    t.sessions.Matched := by
  cases hcall : s.calls rtpengine a with
  | none =>
      rw [(step_of_not_calls hcall hstep).1]
      exact h
  | some call =>
      rw [(step_of_calls hcall hstep).1]
      exact h.run call

/-- No plan issued in the run names what another entry holds which is not ending. -/
def SparesLive (rtpengine : Bool) (as : List MediaAction) : Prop :=
  (mediaMachine rtpengine).Along (fun _ _ t plans => ∀ plan ∈ plans, plan.Spares t.sessions)
    .init as

/-- All calls of the run find the table in a state in which their plans hit nothing. -/
def CallsSpare (rtpengine : Bool) (as : List MediaAction) : Prop :=
  (mediaMachine rtpengine).Along
    (fun s a _ _ => ∀ call, s.calls rtpengine a = some call → call.Spares s.sessions) .init as

theorem sparesLive_iff_callsSpare (rtpengine : Bool) (as : List MediaAction) :
    SparesLive rtpengine as ↔ CallsSpare rtpengine as := by
  refine Machine.along_congr (I := fun s => s.sessions.Matched)
    (fun s a t plans h hstep => matched_of_step h hstep) MediaSessions.matched_init ?_
  intro s a t plans hmatched hstep
  cases hcall : s.calls rtpengine a with
  | none =>
      rw [(step_of_not_calls hcall hstep).2]
      exact iff_of_true nofun nofun
  | some call =>
      obtain ⟨hsessions, hplans⟩ := step_of_calls hcall hstep
      rw [hsessions, hplans, ManagerCall.spares_iff hmatched]
      constructor
      · intro hspares call' heq
        cases heq
        exact hspares
      · exact fun hspares => hspares call rfl

/-- A call is answered after its Rx session has been set up. The initial session is ended, with
the Rx session that the dialog has got from it and a delete command that takes the dialog too. -/
theorem answered_call_loses_its_media : ¬ ∀ rtpengine as, SparesLive rtpengine as := by
  intro spares
  obtain ⟨-, -, -, -, hanswer, -⟩ := spares false
    [.onInvite ueInvite false, .advance 0 false,
      .call (.setRxSession ⟨bytes "call", bytes "a", []⟩ (bytes "rx")),
      .onInviteResponse (createResponse ueInvite 200 (bytes "OK") (bytes "b")),
      .advance 1 false]
  have hspares := hanswer _ (List.mem_cons_self ..) ⟨bytes "call", bytes "a", bytes "b"⟩ _ rfl
    (by decide) nofun
  obtain hnone | hapart := hspares.1
  · exact absurd hnone (by decide)
  · exact hapart rfl

end MediaState
end SimIms.PCscf
