import SimIms.Registration.BatchOrder
import SimIms.Registration.StoreCalls

/-!
# Requests that come too late

A request is stale where the contact that it is about has been written by a later request of the
same call. The contact is left alone then. But an upsert has written the other fields of the
binding by the time it looks, and a removal goes on to whatever else it matches.
-/

namespace SimIms.Registration

open Cxx Lib

/-- The upsert writes nothing into the binding, its contact apart, that is not there already. -/
def ContactUpsert.Agrees (args : ContactUpsert) (binding : RegistrationBinding) : Prop :=
  (args.impi = [] ∨ args.impi = binding.impi) ∧
    (args.scscfUri = [] ∨ args.scscfUri = binding.scscfUri) ∧ args.state = binding.state

/-- Whether the stored contact is from a later request of the same call. -/
def ContactBatchRemove.stale (batch : ContactBatchRemove) (existing : ContactBinding) : Bool :=
  batch.rejectOlderCseq && existing.callId == batch.callId && batch.cseq < existing.cseq

namespace MemoryRegistrationStore

variable {store next : MemoryRegistrationStore} {now : Nat} {impu : Bytes} {call : StoreCall}

/-- The same binding with the same unexpired contacts. -/
def Unchanged (store next : MemoryRegistrationStore) (now : Nat) (impu : Bytes) : Prop :=
  pruned now (next.under impu) = pruned now (store.under impu)

/-- The call is about a contact under the identity and stale for it: the first that an upsert
matches, any that a removal does. -/
inductive StaleAt (store : MemoryRegistrationStore) (now : Nat) (impu : Bytes) : StoreCall → Prop
  | upsertContact {args : ContactUpsert} {existing : ContactBinding}
      (hfirst : (store.liveContacts now impu).find? (matchesSelector · args.selector) =
        some existing)
      (hstale : args.stale existing = true) : StaleAt store now impu (.upsertContact impu args)
  | upsertContacts {batch : ContactBatchUpsert} {existing : ContactBinding}
      (hmem : impu ∈ batch.impus.elems)
      (hfirst : (store.liveContacts now impu).find? (matchesSelector · batch.selector) =
        some existing)
      (hstale : batch.stale existing = true) : StaleAt store now impu (.upsertContacts batch)
  | removeContacts {batch : ContactBatchRemove} {existing : ContactBinding}
      (hmem : impu ∈ batch.impus.elems) (hexisting : existing ∈ store.liveContacts now impu)
      (hmatches : matchesSelector existing batch.selector = true)
      (hstale : batch.stale existing = true) : StaleAt store now impu (.removeContacts batch)

/-- An upsert that is written agrees with the binding, and whatever a removal matches is later. -/
def Spared (store : MemoryRegistrationStore) (now : Nat) (impu : Bytes) : StoreCall → Prop
  | .upsertContact _ args => ∀ binding, store.under impu = some binding → args.Agrees binding
  | .upsertContacts batch => store.applies now batch = true →
      ∀ binding, store.under impu = some binding → batch.Agrees binding
  | .removeContacts batch => ∀ contact ∈ store.liveContacts now impu,
      matchesSelector contact batch.selector = true → batch.stale contact = true
  | _ => True

/-! ## What is found after pruning -/

/-- A binding with an unexpired contact survives pruning. -/
theorem exists_pruned_of_mem {contact : ContactBinding}
    (h : contact ∈ store.liveContacts now impu) :
    ∃ binding, store.under impu = some binding ∧ pruned now (store.under impu) =
      some { binding with contacts := store.liveContacts now impu } := by
  have hlive : store.liveContacts now impu ≠ [] := List.ne_nil_of_mem h
  cases hfind : store.under impu with
  | none =>
      rw [liveContacts, contacts, ← under, hfind] at h
      cases h
  | some binding =>
      have hcontacts : store.liveContacts now impu = binding.contacts.filter (·.live now) := by
        rw [liveContacts, contacts, ← under, hfind, contactsOf_some]
      refine ⟨binding, rfl, ?_⟩
      rw [pruned, Option.bind_some]
      simp only [← hcontacts, if_neg hlive]

/-- Nothing is pruned from a binding without expired contacts. -/
theorem pruned_of_live {binding : RegistrationBinding} (hne : binding.contacts ≠ [])
    (hlive : ∀ contact ∈ binding.contacts, contact.live now = true) :
    pruned now (some binding) = some binding := by
  have hcontacts : binding.contacts.filter (·.live now) = binding.contacts :=
    List.filter_eq_self.mpr hlive
  rw [pruned, Option.bind_some]
  simp only [hcontacts, if_neg hne]

/-! ## Upserts -/

variable {args : ContactUpsert} {existing : ContactBinding}

/-- A stale upsert leaves the contacts as they are. -/
theorem write_of_stale {contacts : List ContactBinding}
    (hfirst : contacts.find? (matchesSelector · args.selector) = some existing)
    (hstale : args.stale existing = true) : args.write contacts = contacts := by
  have hany : args.hasMatch contacts = true := by
    rw [ContactUpsert.hasMatch, List.any_eq_true]
    have hmatches := List.find?_some hfirst
    exact ⟨existing, List.mem_of_find?_eq_some hfirst, hmatches⟩
  obtain ⟨before, first, after, heq, hbefore, hmatches, hwrite⟩ :=
    ContactUpsert.exists_first_of_hasMatch hany
  have hnone : before.find? (matchesSelector · args.selector) = none := by
    rw [List.find?_eq_none]
    intro contact hmem
    rw [hbefore contact hmem]
    exact Bool.false_ne_true
  have hcons : (first :: after).find? (matchesSelector · args.selector) = some first :=
    List.find?_cons_of_pos hmatches
  rw [heq, List.find?_append, hnone, Option.none_or, hcons] at hfirst
  cases hfirst
  rw [hwrite, hstale, if_pos rfl, heq]

theorem written_eq_iff {binding : RegistrationBinding}
    (hwrite : args.write binding.contacts = binding.contacts) :
    written args impu (some binding) = binding ↔ args.Agrees binding := by
  have hfield : ∀ new old : Bytes, (if new = [] then old else new) = old ↔
      new = [] ∨ new = old := by
    intro new old
    split
    · rename_i hempty
      exact iff_of_true rfl (.inl hempty)
    · rename_i hne
      exact ⟨.inr, fun h => h.resolve_left hne⟩
  obtain ⟨impu', impi, scscfUri, contacts, state⟩ := binding
  simp only [written, Option.getD_some, contactsOf_some, RegistrationBinding.mk.injEq, hfield,
    true_and]
  rw [ContactUpsert.Agrees]
  exact ⟨fun h => ⟨h.1, h.2.1, h.2.2.2⟩, fun h => ⟨h.1, h.2.1, hwrite, h.2.2⟩⟩

/-- An upsert that is stale and written leaves the binding as it is if it agrees with it. -/
theorem unchanged_iff_of_written
    (hfirst : (store.liveContacts now impu).find? (matchesSelector · args.selector) = some existing)
    (hstale : args.stale existing = true)
    (hnext : next.under impu = some (written args impu (pruned now (store.under impu)))) :
    store.Unchanged next now impu ↔
      ∀ binding, store.under impu = some binding → args.Agrees binding := by
  have hmem := List.mem_of_find?_eq_some hfirst
  obtain ⟨binding, hfind, hpruned⟩ := exists_pruned_of_mem hmem
  have hwrite := write_of_stale hfirst hstale
  have hwritten : pruned now (next.under impu) = next.under impu := by
    rw [hnext, hpruned]
    apply pruned_of_live
    · rw [contacts_written, contactsOf_some, hwrite]
      exact List.ne_nil_of_mem hmem
    · rw [contacts_written, contactsOf_some, hwrite]
      exact fun contact hcontact => (List.mem_filter.mp hcontact).2
  rw [Unchanged, hwritten, hnext, hpruned, Option.some.injEq, written_eq_iff hwrite]
  constructor
  · intro hagrees other hother
    rw [hfind] at hother
    cases hother
    exact hagrees
  · intro hall
    exact hall binding hfind

/-! ## Removals -/

theorem kept_eq_true_iff (batch : ContactBatchRemove) (contact : ContactBinding) :
    kept batch.selector batch.callId batch.cseq batch.rejectOlderCseq contact = true ↔
      (matchesSelector contact batch.selector = true → batch.stale contact = true) := by
  rw [kept, ContactBatchRemove.stale]
  cases matchesSelector contact batch.selector with
  | false => simp
  | true => simp

/-- A removal leaves a binding as it is exactly where it keeps all of the contacts. -/
theorem unchanged_iff_of_removed {batch : ContactBatchRemove}
    (hexisting : existing ∈ store.liveContacts now impu)
    (hnext : next.under impu = (removedFrom batch.selector batch.callId batch.cseq
      batch.rejectOlderCseq (pruned now (store.under impu))).1) :
    store.Unchanged next now impu ↔ ∀ contact ∈ store.liveContacts now impu,
      kept batch.selector batch.callId batch.cseq batch.rejectOlderCseq contact = true := by
  obtain ⟨binding, -, hpruned⟩ := exists_pruned_of_mem hexisting
  constructor
  · intro hsame
    have hcontacts := congrArg contactsOf hsame
    rw [contactsOf_pruned, hnext, contactsOf_removedFrom, hpruned, contactsOf_some] at hcontacts
    -- What is left after both filters is all that there was, so nothing has been filtered out.
    have hle := List.length_filter_le (fun contact : ContactBinding => contact.live now)
      ((store.liveContacts now impu).filter
        (kept batch.selector batch.callId batch.cseq batch.rejectOlderCseq))
    rw [hcontacts] at hle
    exact List.length_filter_eq_length_iff.mp (le_antisymm (List.length_filter_le _ _) hle)
  · intro hall
    have hfilter := List.filter_eq_self.mpr hall
    have hkept : next.under impu = pruned now (store.under impu) := by
      rw [hnext, hpruned]
      simp only [removedFrom, hfilter, if_true]
    rw [Unchanged, hkept, pruned_pruned (le_refl now)]

/-! ## Stale calls -/

/-- A stale call leaves the binding as it is exactly where it is `Spared`. -/
theorem unchanged_iff_spared (h : store.StaleAt now impu call) :
    store.Unchanged (store.call now call).1 now impu ↔ store.Spared now impu call := by
  cases h with
  | upsertContact hfirst hstale =>
      rename_i args existing
      have hgoes : args.goesThrough ((store.pruneExpiredLocked now impu).contacts impu) = true := by
        rw [contacts, find_pruneExpiredLocked_self, contactsOf_pruned, ContactUpsert.goesThrough,
          Bool.or_eq_true]
        right
        rw [ContactUpsert.hasMatch, List.any_eq_true]
        have hmatches := List.find?_some hfirst
        exact ⟨existing, List.mem_of_find?_eq_some hfirst, hmatches⟩
      refine unchanged_iff_of_written hfirst hstale ?_
      refine (find_upsertContactLocked_self hgoes).trans ?_
      rw [find_pruneExpiredLocked_self]
      rfl
  | upsertContacts hmem hfirst hstale =>
      rename_i batch existing
      have hfind := (upsertContacts_eq store now batch).2 impu
      rw [if_pos hmem] at hfind
      cases happlies : store.applies now batch with
      | false =>
          rw [happlies, if_neg Bool.false_ne_true] at hfind
          refine iff_of_true ?_ fun h => by rw [happlies] at h; cases h
          exact (congrArg (pruned now) hfind).trans (pruned_pruned (le_refl now) _)
      | true =>
          rw [happlies, if_pos rfl] at hfind
          refine (unchanged_iff_of_written hfirst hstale hfind).trans ?_
          exact ⟨fun h _ => h, fun h => h happlies⟩
  | removeContacts hmem hexisting hmatches hstale =>
      rename_i batch existing
      have hacts := actsAt_removeContactLocked batch.selector batch.callId batch.cseq
        batch.rejectOlderCseq
      have hnext : (store.removeContacts now batch).1.under impu = (removedFrom batch.selector
          batch.callId batch.cseq batch.rejectOlderCseq (pruned now (store.under impu))).1 := by
        refine (hacts.view_performAll_of_mem batch.impus.nodup hmem
          (store.pruneAll now batch.impus.elems) 0).trans ?_
        rw [under, find_pruneAll, if_pos hmem]
        rfl
      refine (unchanged_iff_of_removed hexisting hnext).trans ?_
      simp only [kept_eq_true_iff]
      rfl

/-! ## The numbers of a contact -/

/-- Upserts that reject older requests, and calls that write no contact. -/
def ChecksCseq : StoreCall → Prop
  | .store _ => False
  | .upsertContact _ args => args.rejectOlderCseq = true
  | .upsertContacts batch => batch.rejectOlderCseq = true
  | _ => True

/-- The one contact under the identity that the selector matches. -/
def Sole (store : MemoryRegistrationStore) (impu : Bytes) (selector : ContactBindingSelector)
    (contact : ContactBinding) : Prop :=
  (store.contacts impu).filter (matchesSelector · selector) = [contact]

/-- What the one contact is that the selector matches, before and after each call of a run in
which it is unexpired whenever a call is made. -/
def Carried (impu : Bytes) (selector : ContactBindingSelector) :
    MemoryRegistrationStore → List TimedCall → List ContactBinding → Prop
  | store, [], [contact] => store.Sole impu selector contact
  | store, label :: labels, contact :: history =>
      store.Sole impu selector contact ∧ contact.live label.1 = true ∧
        Carried impu selector (store.call label.1 label.2).1 labels history
  | _, _, _ => False

variable {selector : ContactBindingSelector} {contact later : ContactBinding}

/-- Of two lists that differ in one place, where each has one element that is looked for: it is the
same one, or it stands in that place. -/
theorem eq_or_eq_of_filter_eq_singleton {α : Type} {p : α → Bool} {before after : List α}
    {x y a b : α} (hx : (before ++ x :: after).filter p = [a])
    (hy : (before ++ y :: after).filter p = [b]) : b = a ∨ a = x ∧ b = y := by
  have hmem : ∀ z, (before ++ z :: after).Subset (z :: (before ++ after)) := by
    intro z w hw
    rw [List.mem_append, List.mem_cons, or_left_comm, ← List.mem_append] at hw
    exact List.mem_cons.mpr hw
  have hstays : ∀ z ∈ before ++ after, p z = true → z = a ∧ z = b := by
    intro z hz hp
    have hall : ∀ w, z ∈ (before ++ w :: after).filter p := by
      intro w
      refine List.mem_filter.mpr ⟨?_, hp⟩
      rw [List.mem_append, List.mem_cons, or_left_comm, ← List.mem_append]
      exact .inr hz
    have hold := hall x
    have hnew := hall y
    rw [hx] at hold
    rw [hy] at hnew
    exact ⟨List.mem_singleton.mp hold, List.mem_singleton.mp hnew⟩
  obtain ⟨ha, hpa⟩ := List.mem_filter.mp (hx ▸ List.mem_singleton_self a)
  obtain ⟨hb, hpb⟩ := List.mem_filter.mp (hy ▸ List.mem_singleton_self b)
  obtain rfl | ha := List.mem_cons.mp (hmem x ha)
  · obtain rfl | hb := List.mem_cons.mp (hmem y hb)
    · exact .inr ⟨rfl, rfl⟩
    · exact .inl (hstays b hb hpb).1
  · exact .inl (hstays a ha hpa).2.symm

/-- The contact that a write leaves for a selector is the one it has found, or a new one in the
place of one that was not ahead of it. -/
theorem eq_or_replaced {contacts : List ContactBinding}
    (hsole : contacts.filter (matchesSelector · selector) = [contact])
    (hlater : (args.write contacts).filter (matchesSelector · selector) = [later]) :
    later = contact ∨ later = args.contact ∧ args.stale contact = false := by
  cases hmatch : args.hasMatch contacts with
  | false =>
      rw [ContactUpsert.write_of_not_hasMatch hmatch] at hlater
      left
      split at hlater
      · exact List.singleton_inj.mp (hlater.symm.trans hsole)
      · rw [List.filter_append, hsole, List.singleton_append, List.cons.injEq] at hlater
        exact hlater.1.symm
  | true =>
      obtain ⟨before, existing, after, heq, -, -, hwrite⟩ :=
        ContactUpsert.exists_first_of_hasMatch hmatch
      rw [hwrite] at hlater
      rw [heq] at hsole
      cases hstale : args.stale existing with
      | true =>
          rw [hstale, if_pos rfl] at hlater
          exact .inl (List.singleton_inj.mp (hlater.symm.trans hsole))
      | false =>
          rw [hstale, if_neg Bool.false_ne_true] at hlater
          obtain hsame | ⟨rfl, hnew⟩ := eq_or_eq_of_filter_eq_singleton hsole hlater
          · exact .inl hsame
          · exact .inr ⟨hnew, hstale⟩

/-- A call that adds nothing leaves the contact as it is. -/
theorem cseq_le_of_sublist {contacts : List ContactBinding}
    (hsole : store.Sole impu selector contact) (hsub : contacts.Sublist (store.contacts impu))
    (hlater : contacts.filter (matchesSelector · selector) = [later]) :
    contact.cseq ≤ later.cseq := by
  have hfilter := hsub.filter (matchesSelector · selector)
  rw [hlater, hsole] at hfilter
  rw [List.singleton_inj.mp (hfilter.eq_of_length rfl)]
  exact UInt32.le_refl _

/-- A write that rejects older requests gives it no lower number. -/
theorem cseq_le_of_write {contacts : List ContactBinding} (hreject : args.rejectOlderCseq = true)
    (hsole : contacts.filter (matchesSelector · selector) = [contact])
    (hlater : (args.write contacts).filter (matchesSelector · selector) = [later])
    (hcall : later.callId = contact.callId) : contact.cseq ≤ later.cseq := by
  obtain rfl | ⟨rfl, hstale⟩ := eq_or_replaced hsole hlater
  · exact UInt32.le_refl _
  · rw [ContactUpsert.stale, hreject, hcall, beq_self_eq_true, Bool.true_and, Bool.true_and,
      decide_eq_false_iff_not] at hstale
    exact UInt32.not_lt.mp hstale

/-- One call: the contact gets no lower number from a request of its call. -/
theorem cseq_le_of_call (hchecks : ChecksCseq call) (hsole : store.Sole impu selector contact)
    (hlive : contact.live now = true)
    (hlater : (store.call now call).1.Sole impu selector later)
    (hcall : later.callId = contact.callId) : contact.cseq ≤ later.cseq := by
  have hsoleLive : (store.liveContacts now impu).filter (matchesSelector · selector) =
      [contact] := by
    rw [liveContacts, List.filter_comm, hsole]
    exact List.filter_eq_self.mpr (by simpa using hlive)
  cases call with
  | store binding => exact hchecks.elim
  | upsertContact other args =>
      rw [Sole, MemoryRegistrationStore.call, contacts_upsertContact] at hlater
      split at hlater
      · exact cseq_le_of_write hchecks hsoleLive hlater hcall
      · exact cseq_le_of_sublist hsole (List.Sublist.refl _) hlater
  | upsertContacts batch =>
      rw [Sole, MemoryRegistrationStore.call, contacts_upsertContacts] at hlater
      split at hlater
      · split at hlater
        · exact cseq_le_of_write hchecks hsoleLive hlater hcall
        · exact cseq_le_of_sublist hsole (liveContacts_sublist store now impu) hlater
      · exact cseq_le_of_sublist hsole (List.Sublist.refl _) hlater
  | lookup other | isRegistered other =>
      exact cseq_le_of_sublist hsole (pruneExpiredLocked_shrinks store now other impu) hlater
  | removeContact other selector =>
      exact cseq_le_of_sublist hsole (removeContact_shrinks impu) hlater
  | removeContacts batch =>
      exact cseq_le_of_sublist hsole (removeContacts_shrinks batch impu) hlater
  | removeBindings impus =>
      exact cseq_le_of_sublist hsole (removeBindings_shrinks impus impu) hlater
  | remove other => exact cseq_le_of_sublist hsole (remove_shrinks impu) hlater
  | purgeExpired => exact cseq_le_of_sublist hsole (purgeExpired_shrinks impu) hlater

theorem exists_of_carried {labels : List TimedCall} {history : List ContactBinding}
    (h : Carried impu selector store labels history) :
    ∃ first rest, history = first :: rest ∧ store.Sole impu selector first := by
  match labels, history, h with
  | [], [contact], h => exact ⟨contact, [], rfl, h⟩
  | _ :: _, contact :: history, h => exact ⟨contact, history, rfl, h.1⟩

/-- Over a run, the contact never gets a lower number from a request of the same call. -/
theorem cseq_pairwise {labels : List TimedCall} {history : List ContactBinding} {callId : Bytes}
    (hchecks : ∀ label ∈ labels, ChecksCseq label.2)
    (h : Carried impu selector store labels history)
    (hcall : ∀ contact ∈ history, contact.callId = callId) :
    history.Pairwise (·.cseq ≤ ·.cseq) := by
  induction labels generalizing store history with
  | nil =>
      match history, h with
      | [contact], _ => exact List.pairwise_singleton _ _
  | cons label labels ih =>
      match history, h with
      | contact :: history, h =>
          obtain ⟨hsole, hlive, hrest⟩ := h
          obtain ⟨hlabel, hchecks⟩ := List.forall_mem_cons.mp hchecks
          obtain ⟨hcontact, hcall⟩ := List.forall_mem_cons.mp hcall
          have hpairwise := ih hchecks hrest hcall
          obtain ⟨later, history, rfl, hlater⟩ := exists_of_carried hrest
          have hle : contact.cseq ≤ later.cseq :=
            cseq_le_of_call hlabel hsole hlive hlater
              ((hcall later List.mem_cons_self).trans hcontact.symm)
          refine List.pairwise_cons.mpr ⟨fun other hmem => ?_, hpairwise⟩
          obtain rfl | hmem := List.mem_cons.mp hmem
          · exact hle
          · exact UInt32.le_trans hle (List.rel_of_pairwise_cons hpairwise hmem)

/-- What a stale call leaves, and what becomes of the number of a contact. -/
theorem staleRequests_iff (store : MemoryRegistrationStore) (impu : Bytes) :
    (∀ (now : Nat) (call : StoreCall), store.StaleAt now impu call →
      (store.Unchanged (store.call now call).1 now impu ↔ store.Spared now impu call)) ∧
    ∀ (selector : ContactBindingSelector) (labels : List TimedCall) (history : List ContactBinding)
      (callId : Bytes),
      (∀ label ∈ labels, ChecksCseq label.2) → Carried impu selector store labels history →
        (∀ contact ∈ history, contact.callId = callId) → history.Pairwise (·.cseq ≤ ·.cseq) :=
  ⟨fun _ _ h => unchanged_iff_spared h,
    fun _ _ _ _ hchecks h hcall => cseq_pairwise hchecks h hcall⟩

/-! ## A late request of another user -/

def numberedContact (cseq : UInt32) : ContactBinding :=
  { contactUri := bytes "sip:alice@10.0.0.1", instanceId := [], regId := [], path := []
    expires := 3600000, userAgent := [], callId := bytes "call", cseq }

/-- The contact is there, from the fifth request of its call. -/
def numberedStore : MemoryRegistrationStore :=
  ⟨Table.empty.insert (bytes "sip:alice@ims.example")
    { impu := bytes "sip:alice@ims.example", impi := bytes "alice@ims.example"
      scscfUri := bytes "sip:scscf.ims.example", contacts := [numberedContact 5]
      state := .registered }⟩

def numberedUpsert (impi : String) (cseq : UInt32) : StoreCall :=
  .upsertContact (bytes "sip:alice@ims.example")
    { selector := { normalizedContactUri := bytes "sip:alice@10.0.0.1" }
      contact := numberedContact cseq, impi := bytes impi
      scscfUri := bytes "sip:scscf.ims.example", state := .registered, rejectOlderCseq := true }

theorem staleAt_numberedUpsert (impi : String) :
    numberedStore.StaleAt 0 (bytes "sip:alice@ims.example") (numberedUpsert impi 4) := by
  have hfirst : (numberedStore.liveContacts 0 (bytes "sip:alice@ims.example")).find?
      (matchesSelector · { normalizedContactUri := bytes "sip:alice@10.0.0.1" }) =
        some (numberedContact 5) := by decide +kernel
  exact .upsertContact hfirst rfl

/-- The fourth request leaves everything, and the sixth gives the contact its number. -/
theorem staleRequests_iff_numbered :
    numberedStore.Unchanged (numberedStore.call 0 (numberedUpsert "alice@ims.example" 4)).1 0
        (bytes "sip:alice@ims.example") ∧
      [numberedContact 5, numberedContact 6].Pairwise (·.cseq ≤ ·.cseq) := by
  constructor
  · refine ((staleRequests_iff numberedStore (bytes "sip:alice@ims.example")).1 0 _
      (staleAt_numberedUpsert "alice@ims.example")).mpr ?_
    rintro binding hfind
    cases hfind
    exact ⟨.inr rfl, .inr rfl, rfl⟩
  · refine (staleRequests_iff numberedStore (bytes "sip:alice@ims.example")).2
      { normalizedContactUri := bytes "sip:alice@10.0.0.1" }
      [(0, numberedUpsert "alice@ims.example" 6)] _ (bytes "call") ?_ ?_ ?_
    · intro label hlabel
      rw [List.mem_singleton.mp hlabel]
      rfl
    · refine ⟨?_, rfl, ?_⟩
      · rw [Sole]
        decide +kernel
      · rw [Carried, Sole]
        decide +kernel
    · decide

/-- The fourth request, sent with another private identity, leaves that identity behind. -/
theorem staleRequest_changes : ¬ ∀ (store : MemoryRegistrationStore) (now : Nat) (impu : Bytes)
    (call : StoreCall), store.StaleAt now impu call →
      store.Unchanged (store.call now call).1 now impu := by
  intro unchanged
  have hsame : pruned 0 ((numberedStore.call 0 (numberedUpsert "bob@ims.example" 4)).1.under
      (bytes "sip:alice@ims.example")) =
        pruned 0 (numberedStore.under (bytes "sip:alice@ims.example")) :=
    unchanged numberedStore 0 _ _ (staleAt_numberedUpsert "bob@ims.example")
  revert hsame
  decide +kernel

end MemoryRegistrationStore
end SimIms.Registration
