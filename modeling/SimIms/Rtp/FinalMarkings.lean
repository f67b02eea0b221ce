import SimIms.Rtp.MediaSession

/-!
# What a final response to an INVITE leaves

Both final markings end the sessions of the call that belong to no established dialog. A success
spares the session of its own key, which it may have to make first, and establishes it.
-/

namespace SimIms.Rtp

open Lib

namespace MediaSessions

variable {sessions next : MediaSessions} {key k : MediaSessionKey} {state : MediaSessionState}
variable {plans : List MediaTerminationPlan}

/-- The session under `k` is of the call and the `From` tag, not ending, and not that of an
established dialog. -/
structure Undecided (sessions : MediaSessions) (key k : MediaSessionKey)
    (state : MediaSessionState) : Prop where
  find : sessions.find k = some state
  callId : k.callId = key.callId
  fromTag : k.fromTag = key.fromTag
  live : state.lifecycle ≠ .terminating
  noDialog : ¬ (state.lifecycle = .established ∧ k.toTag ≠ [])

/-- The sessions that are `lost` are ending, with one plan each, and others that satisfy
`untouched` are as they were. -/
structure EndsExactly (sessions next : MediaSessions) (plans : List MediaTerminationPlan)
    (lost : MediaSessionKey → MediaSessionState → Prop) (untouched : MediaSessionKey → Prop) :
    Prop where
  ended : ∀ k state, lost k state → next.find k = some { state with lifecycle := .terminating }
  kept : ∀ k, untouched k → (∀ state, ¬ lost k state) → next.find k = sessions.find k
  plans_iff : ∀ plan, plan ∈ plans ↔ ∃ state, lost plan.key state ∧
    plan = ⟨plan.key, state.session, state.rxSessionId, state.qosActive⟩
  once : (plans.map MediaTerminationPlan.key).Nodup

/-- What is left under the key of a success: its session is established unless it is ending, and
made from the initial one if there is none. -/
structure EstablishesWinner (sessions next : MediaSessions) (key : MediaSessionKey) : Prop where
  found : ∀ state, sessions.find key = some state → state.lifecycle ≠ .terminating →
    next.find key = some { state with lifecycle := .established }
  ending : ∀ state, sessions.find key = some state → state.lifecycle = .terminating →
    next.find key = some state
  created : sessions.find key = none → key.toTag ≠ [] →
    ∀ initial, sessions.find key.initial = some initial → initial.lifecycle ≠ .terminating →
      next.find key = some { initial with
        session := { initial.session with toTag := key.toTag }, lifecycle := .established }
  missing : sessions.find key = none →
    (key.toTag = [] ∨ ∀ initial, sessions.find key.initial = some initial →
      initial.lifecycle = .terminating) → next.find key = none

theorem endedByFinal_iff_undecided (hfind : sessions.find k = some state) :
    endedByFinal key k state = true ↔ sessions.Undecided key k state := by
  rw [endedByFinal, decide_eq_true_iff]
  constructor
  · rintro ⟨hcallId, hfromTag, hdialog, hlive⟩
    exact ⟨hfind, hcallId, hfromTag, hlive, fun h => hdialog h.symm⟩
  · rintro ⟨-, hcallId, hfromTag, hlive, hdialog⟩
    exact ⟨hcallId, hfromTag, fun h => hdialog h.symm, hlive⟩

theorem nodup_keys_plans (sessions : MediaSessions)
    (ended : MediaSessionKey → MediaSessionState → Bool) :
    ((sessions.terminateIf ended).2.map MediaTerminationPlan.key).Nodup := by
  have hkeys : (sessions.terminateIf ended).2.map MediaTerminationPlan.key =
      (sessions.entries.filter fun entry => ended entry.1 entry.2).keys := by
    rw [terminateIf, List.map_map]
    rfl
  rw [hkeys]
  exact sessions.nodupKeys.sublist List.filter_sublist

/-- Ending what satisfies a condition in a table in which the keys that matter are as before. -/
theorem endsExactly_terminateIf {table : MediaSessions}
    {ended : MediaSessionKey → MediaSessionState → Bool}
    {lost : MediaSessionKey → MediaSessionState → Prop} {untouched : MediaSessionKey → Prop}
    (hlost : ∀ k state, table.find k = some state ∧ ended k state = true ↔ lost k state)
    (hsame : ∀ k, untouched k → table.find k = sessions.find k) :
    EndsExactly sessions (table.terminateIf ended).1 (table.terminateIf ended).2 lost
      untouched := by
  constructor
  case ended =>
    intro k state h
    obtain ⟨hfind, hended⟩ := (hlost k state).mpr h
    rw [find_terminateIf, hfind, Option.map_some, if_pos hended]
  case kept =>
    intro k huntouched hnone
    rw [find_terminateIf, hsame k huntouched]
    cases hfind : sessions.find k with
    | none => rfl
    | some state =>
        have hnot : ¬ ended k state = true := fun hended =>
          hnone state ((hlost k state).mp ⟨(hsame k huntouched).trans hfind, hended⟩)
        rw [Option.map_some, if_neg hnot]
  case plans_iff =>
    intro plan
    constructor
    · intro h
      obtain ⟨state, hfind, hended, heq⟩ := mem_plans_terminateIf h
      exact ⟨state, (hlost _ _).mp ⟨hfind, hended⟩, heq⟩
    · rintro ⟨state, h, heq⟩
      obtain ⟨hfind, hended⟩ := (hlost _ _).mpr h
      rw [heq]
      refine List.mem_map.mpr ⟨⟨plan.key, state⟩, List.mem_filter.mpr ⟨?_, hended⟩, rfl⟩
      exact Table.find_eq_some_iff_mem.mp hfind
  case once => exact nodup_keys_plans table ended

theorem endsExactly_failure (sessions : MediaSessions) (key : MediaSessionKey) :
    EndsExactly sessions (sessions.markInviteFinalFailure key).1
      (sessions.markInviteFinalFailure key).2 (sessions.Undecided key) fun _ => True := by
  refine endsExactly_terminateIf ?_ fun _ _ => rfl
  intro k state
  constructor
  · rintro ⟨hfind, hended⟩
    exact (endedByFinal_iff_undecided hfind).mp hended
  · intro h
    exact ⟨h.find, (endedByFinal_iff_undecided h.find).mpr h⟩

/-! ## Successes -/

theorem snd_ensure (sessions : MediaSessions) (key : MediaSessionKey) :
    (sessions.ensureInviteResponseSessionLocked key).2 =
      (sessions.ensureInviteResponseSessionLocked key).1.find key := by
  obtain ⟨-, heq⟩ | ⟨-, branch, -, heq⟩ := ensure_cases sessions key
  · rw [heq]
  · rw [heq]
    exact (Table.find_insert_self _ _ _).symm

/-- Under every other key, a success begins with what was there. -/
theorem find_modify_ensure_of_ne (hne : k ≠ key) :
    (Table.modify (sessions.ensureInviteResponseSessionLocked key).1 key establish).find k =
      sessions.find k := by
  rw [Table.find_modify_of_ne _ _ hne]
  obtain ⟨-, heq⟩ | ⟨-, branch, -, heq⟩ := ensure_cases sessions key
  · rw [heq]
  · rw [heq]
    exact Table.find_insert_of_ne _ _ hne

theorem endsExactly_success (sessions : MediaSessions) (key : MediaSessionKey) :
    EndsExactly sessions (sessions.markInviteFinalSuccess key).1
      (sessions.markInviteFinalSuccess key).2
      (fun k state => k ≠ key ∧ sessions.Undecided key k state) fun k => k ≠ key := by
  rw [markInviteFinalSuccess_eq]
  refine endsExactly_terminateIf ?_ fun k hne => find_modify_ensure_of_ne hne
  intro k state
  constructor
  · rintro ⟨hfind, hended⟩
    rw [Bool.and_eq_true] at hended
    have hne : k ≠ key := by
      rintro rfl
      -- Something is there under the key, so the success has a session of its own to spare.
      rw [Table.find_modify_self, ← snd_ensure, Option.map_eq_some_iff] at hfind
      obtain ⟨winning, hwinning, -⟩ := hfind
      simp [hwinning] at hended
    rw [find_modify_ensure_of_ne hne] at hfind
    exact ⟨hne, (endedByFinal_iff_undecided hfind).mp hended.2⟩
  · rintro ⟨hne, h⟩
    refine ⟨(find_modify_ensure_of_ne hne).trans h.find, ?_⟩
    simp [hne, (endedByFinal_iff_undecided h.find).mpr h]

/-- Whatever session a success has found or made for its key, it is spared. -/
theorem find_markInviteFinalSuccess_self (sessions : MediaSessions) (key : MediaSessionKey) :
    (sessions.markInviteFinalSuccess key).1.find key =
      (sessions.ensureInviteResponseSessionLocked key).2.map establish := by
  rw [markInviteFinalSuccess_eq, find_terminateIf, Table.find_modify_self, ← snd_ensure]
  cases (sessions.ensureInviteResponseSessionLocked key).2 with
  | none => rfl
  | some winning => simp

theorem establishesWinner (sessions : MediaSessions) (key : MediaSessionKey) :
    EstablishesWinner sessions (sessions.markInviteFinalSuccess key).1 key := by
  constructor
  case found =>
    intro state hfind hlive
    rw [find_markInviteFinalSuccess_self, ensure_of_find hfind, Option.map_some, establish,
      if_neg hlive]
  case ending =>
    intro state hfind hending
    rw [find_markInviteFinalSuccess_self, ensure_of_find hfind, Option.map_some, establish,
      if_pos hending]
  case created =>
    intro hmissing htag initial hinitial hlive
    have hmade : (sessions.ensureInviteResponseSessionLocked key).2 =
        some (branchOf initial key.toTag) := by
      simp only [ensureInviteResponseSessionLocked, hmissing, if_neg htag, hinitial, if_neg hlive]
    rw [find_markInviteFinalSuccess_self, hmade, Option.map_some, establish, branchOf,
      if_neg (by simp)]
  case missing =>
    intro hmissing hnone
    have hnot : ¬ sessions.Revivable key := by
      rintro ⟨-, htag, initial, hinitial, hlive⟩
      obtain hempty | hending := hnone
      · exact htag hempty
      · exact hlive (hending initial hinitial)
    obtain ⟨-, heq⟩ | ⟨hrevivable, -⟩ := ensure_cases sessions key
    · rw [find_markInviteFinalSuccess_self, heq, hmissing, Option.map_none]
    · exact (hnot hrevivable).elim

/-- What both final markings do to a table, whatever is in it. -/
structure FinalMarkings (sessions : MediaSessions) (key : MediaSessionKey) : Prop where
  success : EndsExactly sessions (sessions.markInviteFinalSuccess key).1
    (sessions.markInviteFinalSuccess key).2
    (fun k state => k ≠ key ∧ sessions.Undecided key k state) fun k => k ≠ key
  winner : EstablishesWinner sessions (sessions.markInviteFinalSuccess key).1 key
  failure : EndsExactly sessions (sessions.markInviteFinalFailure key).1
    (sessions.markInviteFinalFailure key).2 (sessions.Undecided key) fun _ => True

theorem finalMarkings_exact (sessions : MediaSessions) (key : MediaSessionKey) :
    FinalMarkings sessions key :=
  ⟨endsExactly_success sessions key, establishesWinner sessions key,
    endsExactly_failure sessions key⟩

end MediaSessions
end SimIms.Rtp
