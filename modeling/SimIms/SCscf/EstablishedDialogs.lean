import SimIms.Lib.Persistence
import SimIms.SCscf.SessionRouter

/-!
# Established dialogs

A dialog that a 2xx has recorded as established should stay in the table until its BYE is
accepted. The table's entries carry the tags of their keys, and an established entry has a
callee tag, so the methods that clean up after failed, expired and answered INVITEs leave
it alone. The cleanup after a CANCEL does not look: `Cuts` is an ACK of an established
dialog whose entry has inherited `cancelSeen`.
-/

namespace SimIms.SCscf

open Cxx Lib Sip

namespace Sessions

variable {sessions : Sessions} {key w : DialogKey} {session : SessionInfo}
variable {request : SipMessage}

/-- The entry carries the tags of its key, and is established only in a dialog. -/
structure Fits (key : DialogKey) (session : SessionInfo) : Prop where
  callId : session.callId = key.callId
  callerTag : session.callerTag = key.callerTag
  calleeTag : session.calleeTag = key.calleeTag
  dialog : session.established = true → key.calleeTag ≠ []

def WellKeyed (sessions : Sessions) : Prop :=
  ∀ key session, sessions.find key = some session → Fits key session

theorem WellKeyed.eraseIf (h : WellKeyed sessions) (p : DialogKey → SessionInfo → Bool) :
    WellKeyed (sessions.eraseIf p) :=
  fun key session hfind => h key session (Table.find_eraseIf_eq_some_iff.mp hfind).1

theorem WellKeyed.erase (h : WellKeyed sessions) (key : DialogKey) :
    WellKeyed (sessions.erase key) :=
  fun other session hfind => h other session (Table.find_of_find_erase hfind).2

theorem WellKeyed.insert (h : WellKeyed sessions) (hfits : Fits key session) :
    WellKeyed (sessions.insert key session) := by
  intro other session' hfind
  rw [Table.find_insert] at hfind
  split at hfind
  · rename_i heq
    cases hfind
    rw [heq]
    exact hfits
  · exact h other session' hfind

theorem WellKeyed.modify (h : WellKeyed sessions) {f : SessionInfo → SessionInfo}
    (hf : ∀ session, Fits key session → Fits key (f session)) :
    WellKeyed (sessions.modify key f) := by
  intro other session' hfind
  rw [Table.find_modify] at hfind
  split at hfind
  · rename_i heq
    obtain ⟨session, hfind', rfl⟩ := Option.map_eq_some_iff.mp hfind
    rw [heq] at hfind' ⊢
    exact hf session (h key session hfind')
  · exact h other session' hfind

theorem WellKeyed.record (h : WellKeyed sessions) {callId callerTag calleeTag : Bytes}
    (htag : calleeTag ≠ []) (established : Bool) (now : Nat) :
    WellKeyed
      (sessions.recordInviteResponseDialogLocked callId callerTag calleeTag established now) := by
  rw [recordInviteResponseDialogLocked]
  split
  · apply h.modify
    intro session hfits
    exact ⟨hfits.callId, hfits.callerTag, hfits.calleeTag, fun _ => htag⟩
  · split
    · exact h
    · rename_i initial hinitial
      have hfits := h _ initial hinitial
      exact h.insert ⟨hfits.callId, hfits.callerTag, rfl, fun _ => htag⟩

theorem WellKeyed.eraseCanceled (h : WellKeyed sessions) (key : DialogKey) :
    WellKeyed (sessions.eraseCanceledSessionsLocked key) := by
  rw [eraseCanceledSessionsLocked]
  split
  · exact h.erase _
  · exact (h.erase _).erase _

theorem WellKeyed.response (h : WellKeyed sessions) (callId callerTag : Bytes)
    (response : SipMessage) (now : Nat) :
    WellKeyed (sessions.handleInviteResponseState callId callerTag response now) := by
  have hpurged : WellKeyed (sessions.purgeExpiredSessionsLocked now) := h.eraseIf _
  rw [handleInviteResponseState]
  simp only
  split
  · exact hpurged
  · split
    · exact hpurged.record (by simp_all) _ _
    · split
      · apply WellKeyed.erase
        split
        · exact hpurged.record ‹_› _ _
        · exact hpurged
      · split
        · exact hpurged.eraseIf _
        · exact hpurged

/-! ## What keeps an established entry -/

def Established (sessions : Sessions) (w : DialogKey) : Prop :=
  ∃ session, sessions.find w = some session ∧ session.established = true

theorem Established.calleeTag (h : Established sessions w) (hkeyed : WellKeyed sessions) :
    w.calleeTag ≠ [] := by
  obtain ⟨session, hfind, hestablished⟩ := h
  exact (hkeyed w session hfind).dialog hestablished

theorem Established.eraseIf (h : Established sessions w) {p : DialogKey → SessionInfo → Bool}
    (hp : ∀ session, session.established = true → p w session = false) :
    Established (sessions.eraseIf p) w := by
  obtain ⟨session, hfind, hestablished⟩ := h
  exact ⟨session, Table.find_eraseIf_eq_some_iff.mpr ⟨hfind, hp session hestablished⟩,
    hestablished⟩

theorem Established.erase (h : Established sessions w) (hne : key ≠ w) :
    Established (sessions.erase key) w := by
  obtain ⟨session, hfind, hestablished⟩ := h
  exact ⟨session, (Table.find_erase_of_ne _ hne.symm).trans hfind, hestablished⟩

theorem Established.insert (h : Established sessions w) (hne : key ≠ w)
    (session : SessionInfo) : Established (sessions.insert key session) w := by
  obtain ⟨session', hfind, hestablished⟩ := h
  exact ⟨session', (Table.find_insert_of_ne _ _ hne.symm).trans hfind, hestablished⟩

theorem Established.modify (h : Established sessions w) {f : SessionInfo → SessionInfo}
    (hf : ∀ session, session.established = true → (f session).established = true) :
    Established (sessions.modify key f) w := by
  obtain ⟨session, hfind, hestablished⟩ := h
  by_cases hkey : w = key
  · refine ⟨f session, ?_, hf session hestablished⟩
    rw [hkey, Table.find_modify_self, ← hkey, hfind, Option.map_some]
  · exact ⟨session, (Table.find_modify_of_ne _ _ hkey).trans hfind, hestablished⟩

theorem Established.purge (h : Established sessions w) (now : Nat) :
    Established (sessions.purgeExpiredSessionsLocked now) w := by
  apply h.eraseIf
  intro session hestablished
  simp [hestablished]

theorem Established.record (h : Established sessions w) (callId callerTag calleeTag : Bytes)
    (established : Bool) (now : Nat) :
    Established
      (sessions.recordInviteResponseDialogLocked callId callerTag calleeTag established now) w := by
  rw [recordInviteResponseDialogLocked]
  split
  · apply h.modify
    intro session hestablished
    simp [hestablished]
  · rename_i hnew
    split
    · exact h
    · apply h.insert
      rintro rfl
      obtain ⟨session, hfind, _⟩ := h
      simp [Table.contains, hfind] at hnew

theorem Established.eraseInitial (h : Established sessions w) (hkeyed : WellKeyed sessions)
    (callId callerTag : Bytes) : Established (sessions.erase ⟨callId, callerTag, []⟩) w := by
  apply h.erase
  rintro rfl
  exact h.calleeTag hkeyed rfl

theorem Established.eraseCanceled (h : Established sessions w) (hkeyed : WellKeyed sessions)
    (hne : key ≠ w) : Established (sessions.eraseCanceledSessionsLocked key) w := by
  rw [eraseCanceledSessionsLocked]
  split
  · exact h.eraseInitial hkeyed _ _
  · exact (h.eraseInitial hkeyed _ _).erase hne

theorem Established.response (h : Established sessions w) (hkeyed : WellKeyed sessions)
    (callId callerTag : Bytes) (response : SipMessage) (now : Nat) :
    Established (sessions.handleInviteResponseState callId callerTag response now) w := by
  have hpurged := h.purge now
  have hkeyed' : WellKeyed (sessions.purgeExpiredSessionsLocked now) := hkeyed.eraseIf _
  rw [handleInviteResponseState]
  simp only
  split
  · exact hpurged
  · split
    · exact hpurged.record _ _ _ _ _
    · split
      · split
        · exact (hpurged.record _ _ _ _ _).eraseInitial (hkeyed'.record ‹_› _ _) _ _
        · exact hpurged.eraseInitial hkeyed' _ _
      · split
        · apply hpurged.eraseIf
          intro session hestablished
          simp [hestablished, h.calleeTag hkeyed]
        · exact hpurged

/-! ## Lookups -/

/-- The request carries the tags of the dialog, from either side. -/
def OfDialog (request : SipMessage) (w : DialogKey) : Prop :=
  directKey request = w ∨ reverseKey request = w

theorem Established.contains (h : Established sessions w) : sessions.contains w = true := by
  obtain ⟨session, hfind, _⟩ := h
  rw [Table.contains, hfind]
  rfl

theorem ofDialog_of_found (h : sessions.findSessionForRequestLocked request = some key) :
    OfDialog request key := by
  rw [findSessionForRequestLocked] at h
  split at h
  · exact .inl (Option.some.inj h)
  · split at h
    · exact .inr (Option.some.inj h)
    · cases h

/-- A request of the dialog finds its established entry, unless it comes from the callee
and another entry is stored under its own tags. -/
theorem Established.found_iff (h : Established sessions w) (hdialog : OfDialog request w) :
    sessions.findSessionForRequestLocked request = some w ↔
      ¬ (directKey request ≠ w ∧ sessions.contains (directKey request) = true) := by
  rw [findSessionForRequestLocked]
  by_cases hdirect : directKey request = w
  · rw [hdirect, if_pos h.contains]
    exact ⟨fun _ hne => hne.1 rfl, fun _ => rfl⟩
  · obtain hdirect' | hreverse := hdialog
    · exact absurd hdirect' hdirect
    · split
      · rename_i hother
        exact ⟨fun heq => absurd (Option.some.inj heq) hdirect,
          fun hnot => absurd ⟨hdirect, hother⟩ hnot⟩
      · rename_i hother
        rw [hreverse, if_pos h.contains]
        exact ⟨fun _ hne => hother hne.2, fun _ => rfl⟩

/-- A session that a request finds knows where the request goes. -/
theorem Fits.resolves (hfits : Fits key session) (htag : key.calleeTag ≠ [])
    (hdialog : OfDialog request key) :
    ∃ dest, resolveInDialogDestination request session = some dest := by
  have hcallee := hfits.calleeTag
  have hcaller := hfits.callerTag
  rw [resolveInDialogDestination, if_neg (by rw [hcallee]; exact fun h => htag h.2.1)]
  obtain rfl | rfl := hdialog
  · rw [if_pos ⟨by rwa [hcallee], hcaller.symm, hcallee.symm⟩]
    exact ⟨_, rfl⟩
  · split
    · exact ⟨_, rfl⟩
    · rw [if_pos ⟨by rwa [hcallee], hcallee.symm, hcaller.symm⟩]
      exact ⟨_, rfl⟩

theorem Established.resolves (h : Established sessions w) (hkeyed : WellKeyed sessions)
    (hfound : sessions.findSessionForRequestLocked request = some w) :
    ∃ dest, sessions.inDialogTarget request = some (w, dest) := by
  have htag := h.calleeTag hkeyed
  obtain ⟨session, hfind, _⟩ := h
  obtain ⟨dest, hdest⟩ := (hkeyed w session hfind).resolves htag (ofDialog_of_found hfound)
  refine ⟨dest, ?_⟩
  simp only [inDialogTarget, hfound, hfind, hdest, Option.map_some]

end Sessions

namespace RouterState

open Sessions (WellKeyed Established)

variable {s t : RouterState} {a : RouterAction} {out : List RouterEvent}
variable {w : DialogKey} {request : SipMessage}

/-! ## Runs -/

theorem wellKeyed_recordInvite {sessions : Sessions} (h : WellKeyed sessions)
    (request : SipMessage) (source : Endpoint) (target : InviteTarget) (branch : Bytes)
    (now : Nat) : WellKeyed (recordInvite sessions request source target branch now) := by
  apply WellKeyed.insert (h.eraseIf _)
  exact ⟨rfl, rfl, rfl, fun h => by cases h⟩

theorem Change.wellKeyed {sessions : Sessions} (hchange : Change s a sessions)
    (h : WellKeyed s.sessions) : WellKeyed sessions := by
  cases hchange with
  | kept => exact h
  | recorded request source target branch now =>
      exact wellKeyed_recordInvite h request source target branch now
  | byeMarked key =>
      exact h.modify fun _ hfits => ⟨hfits.callId, hfits.callerTag, hfits.calleeTag, hfits.dialog⟩
  | cancelMarked key =>
      exact h.modify fun _ hfits => ⟨hfits.callId, hfits.callerTag, hfits.calleeTag, hfits.dialog⟩
  | canceled hkey hfind hseen => exact h.eraseCanceled _
  | answered callId fromTag response now => exact h.response callId fromTag response now
  | ended hcallback hlow hhigh => exact h.erase _

/-- What may end an established dialog: a 2xx response to its BYE. -/
def Ends (s : RouterState) (w : DialogKey) : RouterAction → Prop
  | .response callback response _ _ =>
      s.callbacks.find callback = some (.bye w) ∧
        200 ≤ response.statusCode ∧ response.statusCode < 300
  | _ => False

/-- An ACK finds an established dialog whose entry has seen a CANCEL. -/
def Cuts (s : RouterState) : RouterAction → Prop
  | .ack request => ∃ key session, s.sessions.findSessionForRequestLocked request = some key ∧
      s.sessions.find key = some session ∧ session.established = true ∧
      session.cancelSeen = true
  | _ => False

theorem Change.established {sessions : Sessions} (hchange : Change s a sessions)
    (hkeyed : WellKeyed s.sessions) (h : Established s.sessions w) (hends : ¬ Ends s w a)
    (hcuts : ¬ Cuts s a) : Established sessions w := by
  cases hchange with
  | kept => exact h
  | recorded request source target branch now =>
      apply (h.purge now).insert
      rintro rfl
      exact h.calleeTag hkeyed rfl
  | byeMarked key => exact h.modify fun _ hestablished => hestablished
  | cancelMarked key => exact h.modify fun _ hestablished => hestablished
  | canceled hkey hfind hseen =>
      apply h.eraseCanceled hkeyed
      rintro rfl
      obtain hfound | htag := hkey
      · obtain ⟨session, hfind', hestablished⟩ := h
        cases hfind.symm.trans hfind'
        exact hcuts ⟨_, _, hfound, hfind, hestablished, hseen⟩
      · exact h.calleeTag hkeyed htag
  | answered callId fromTag response now => exact h.response hkeyed callId fromTag response now
  | ended hcallback hlow hhigh =>
      apply h.erase
      rintro rfl
      exact hends ⟨hcallback, hlow, hhigh⟩

/-- A cut removes the entry. -/
theorem Cuts.erases (hkeyed : WellKeyed s.sessions) (h : Cuts s a)
    (hstep : s.step a = some (t, out)) :
    ∃ w, Established s.sessions w ∧ ¬ Ends s w a ∧ t.sessions.find w = none := by
  cases a with
  | ack request =>
      obtain ⟨key, session, hfound, hfind, hestablished, hseen⟩ := h
      have hdialog : Established s.sessions key := ⟨session, hfind, hestablished⟩
      have htag := hdialog.calleeTag hkeyed
      obtain ⟨dest, hdest⟩ :=
        (hkeyed key session hfind).resolves htag (Sessions.ofDialog_of_found hfound)
      refine ⟨key, hdialog, fun h => h, ?_⟩
      rw [step, handleAck, hfound] at hstep
      simp only [hfind, hdest, if_pos hseen] at hstep
      cases hstep
      show Table.find (Sessions.eraseCanceledSessionsLocked s.sessions key) key = none
      rw [Sessions.eraseCanceledSessionsLocked, if_neg htag]
      exact Table.find_erase_self _ _
  | _ => exact h.elim

/-- The requests that are looked up in the table. -/
def lookedUp : RouterAction → Option SipMessage
  | .invite request _ _ _ _ => if isInDialogRequest request then some request else none
  | .bye request _ => some request
  | .prack request _ => some request
  | .ack request => some request
  | _ => none

/-- A request of an established dialog comes from the callee while another entry is stored
under the request's own tags. -/
def Confuses (s : RouterState) (a : RouterAction) : Prop :=
  ∃ w request, Established s.sessions w ∧ lookedUp a = some request ∧
    Sessions.OfDialog request w ∧ Sessions.directKey request ≠ w ∧
    s.sessions.contains (Sessions.directKey request) = true

/-- The request finds the established dialog it belongs to, and is not answered 481. -/
def Finds (s : RouterState) (a : RouterAction) (out : List RouterEvent) : Prop :=
  ∀ w request, Established s.sessions w → lookedUp a = some request →
    Sessions.OfDialog request w →
    s.sessions.findSessionForRequestLocked request = some w ∧ RouterEvent.answered 481 ∉ out

/-- Where the lookup succeeds, no handler answers 481. -/
theorem not_answered_481 {target : DialogKey × Endpoint} (hlooked : lookedUp a = some request)
    (htarget : s.sessions.inDialogTarget request = some target)
    (hstep : s.step a = some (t, out)) : RouterEvent.answered 481 ∉ out := by
  obtain ⟨key, dest⟩ := target
  cases a with
  | invite request' source target branch now =>
      obtain ⟨hin, heq⟩ := Option.ite_none_right_eq_some.mp hlooked
      cases heq
      have hout : (s.handleInvite request source target branch now).2 = out :=
        congrArg Prod.snd (Option.some.inj hstep)
      rw [← hout]
      simp only [handleInvite, if_pos hin, htarget]
      cases branch <;> simp
  | bye request' branch =>
      cases hlooked
      rw [step, handleBye, htarget] at hstep
      cases branch <;> cases hstep <;> simp
  | prack request' branch =>
      cases hlooked
      rw [step, handlePrack, htarget] at hstep
      cases branch <;> cases hstep <;> simp
  | ack request' =>
      have hout : (s.handleAck request').2 = out := congrArg Prod.snd (Option.some.inj hstep)
      rw [← hout]
      unfold handleAck
      split
      · simp only
        split
        · simp
        · split <;> simp
      · split
        · simp
        · split <;> simp
  | _ => cases hlooked

theorem finds_iff_not_confuses (hkeyed : WellKeyed s.sessions)
    (hstep : s.step a = some (t, out)) : Finds s a out ↔ ¬ Confuses s a := by
  constructor
  · rintro finds ⟨w, request, hdialog, hlooked, hof, hconfused⟩
    obtain ⟨hfound, _⟩ := finds w request hdialog hlooked hof
    exact (hdialog.found_iff hof).mp hfound hconfused
  · intro hnot w request hdialog hlooked hof
    have hfound : s.sessions.findSessionForRequestLocked request = some w := by
      rw [hdialog.found_iff hof]
      exact fun hconfused => hnot ⟨w, request, hdialog, hlooked, hof, hconfused⟩
    obtain ⟨dest, htarget⟩ := hdialog.resolves hkeyed hfound
    exact ⟨hfound, not_answered_481 hlooked htarget hstep⟩

/-- An established dialog stays in the table until its BYE is accepted, and the requests of
the dialog find it. -/
structure KeepsDialogs (as : List RouterAction) : Prop where
  stays : ∀ w, routerMachine.Persists (fun s => Established s.sessions w) (Ends · w)
    (fun _ => True) init as
  finds : routerMachine.Along (fun s a _ out => Finds s a out) init as

theorem keepsDialogs_iff (as : List RouterAction) :
    KeepsDialogs as ↔
      routerMachine.Along (fun s a _ _ => ¬ Cuts s a ∧ ¬ Confuses s a) init as := by
  have invariant : ∀ s a t out, WellKeyed s.sessions → routerMachine.step s a = some (t, out) →
      WellKeyed t.sessions := fun _ _ _ _ hkeyed hstep => (step_change hstep).wellKeyed hkeyed
  have hinit : WellKeyed init.sessions := fun _ _ hfind => by cases hfind
  have stays_iff : (∀ w, routerMachine.Persists (fun s => Established s.sessions w) (Ends · w)
      (fun _ => True) init as) ↔ routerMachine.Along (fun s a _ _ => ¬ Cuts s a) init as := by
    apply Machine.forall_persists_iff (I := fun s => WellKeyed s.sessions) invariant
    · intro w s a t out hkeyed hstep h hends hcuts
      exact ⟨(step_change hstep).established hkeyed h hends hcuts, fun _ _ => trivial⟩
    · intro s a t out hkeyed hstep hcuts
      obtain ⟨w, h, hends, hgone⟩ := hcuts.erases hkeyed hstep
      refine ⟨w, h, hends, ?_⟩
      rintro ⟨⟨session, hfind, _⟩, _⟩
      cases hgone.symm.trans hfind
    · exact hinit
  have finds_iff : routerMachine.Along (fun s a _ out => Finds s a out) init as ↔
      routerMachine.Along (fun s a _ _ => ¬ Confuses s a) init as :=
    Machine.along_congr (I := fun s => WellKeyed s.sessions) invariant hinit
      fun _ _ _ _ hkeyed hstep => finds_iff_not_confuses hkeyed hstep
  constructor
  · intro keeps
    exact (stays_iff.mp keeps.stays).and (finds_iff.mp keeps.finds)
  · intro along
    exact ⟨stays_iff.mpr (along.mono fun _ _ _ _ _ h => h.1),
      finds_iff.mpr (along.mono fun _ _ _ _ _ h => h.2)⟩

/-- A CANCEL crosses the 200: the dialog is recorded with `cancelSeen`, and its ACK removes
it. -/
theorem ack_removes_dialog_after_crossed_cancel :
    ¬ ∀ as : List RouterAction, KeepsDialogs as := by
  intro keeps
  let invite := dialogRequest "INVITE" (bytes "a") []
  let ue : Endpoint := ⟨bytes "10.0.0.1", 5060, bytes "udp"⟩
  let before : List RouterAction :=
    [.invite invite ue (.ok ⟨bytes "sip:bob@ims.local", ⟨bytes "10.0.0.2", 5060, bytes "udp"⟩⟩)
        (some (bytes "z9hG4bK1")) 0,
      .cancel (dialogRequest "CANCEL" (bytes "a") []),
      .response 0 (createResponse invite 200 (bytes "OK") (bytes "b")) true 0]
  let during : List RouterAction :=
    [.ack (dialogRequest "ACK" (bytes "a") [⟨bytes "tag", some (bytes "b")⟩])]
  have stays := (keeps (before ++ (during ++ []))).stays ⟨bytes "call", bytes "a", bytes "b"⟩
    before during [] _ _ _ _ rfl rfl ⟨_, rfl, rfl⟩ rfl (And.intro id trivial)
  obtain ⟨session, hfind, _⟩ := stays.1
  cases hfind

end RouterState
end SimIms.SCscf
