import SimIms.Registration.StoreContents

/-!
# Batches are written everywhere or nowhere

A batch is checked in one loop and written in another. The first loop decides for both: once
every identity has the match that is required, writing one identity cannot take it away from
the next.
-/

namespace SimIms.Registration

open Cxx Lib

/-- What a batch of upserts may do. -/
structure UpsertsAllOrNothing (store : MemoryRegistrationStore) (now : Nat)
    (batch : ContactBatchUpsert) (result : MemoryRegistrationStore × Nat) : Prop where
  count : result.2 = 0 ∨ result.2 = batch.impus.elems.length
  /-- A batch that is refused only prunes. -/
  nothing : result.2 = 0 → batch.impus.elems ≠ [] → ∀ impu, result.1.bindings.find impu =
    if impu ∈ batch.impus.elems then pruned now (store.bindings.find impu)
    else store.bindings.find impu
  /-- A batch that is written is under every identity, unless a later one of its call is. -/
  all : result.2 = batch.impus.elems.length → ∀ impu ∈ batch.impus.elems, ∃ binding,
    result.1.bindings.find impu = some binding ∧
      (batch.contact ∈ binding.contacts ∨ batch.rejectOlderCseq = true ∧
        ∃ existing ∈ binding.contacts, matchesSelector existing batch.selector = true ∧
          existing.callId = batch.contact.callId ∧ batch.contact.cseq < existing.cseq)
  outside : ∀ impu, impu ∉ batch.impus.elems →
    result.1.bindings.find impu = store.bindings.find impu
  /-- Unexpired contacts keep their place, except for the first that is matched. -/
  others : ∀ impu ∈ batch.impus.elems, ∀ i contact,
    (store.liveContacts now impu)[i]? = some contact →
    (store.liveContacts now impu).findIdx? (matchesSelector · batch.selector) ≠ some i →
    (result.1.contacts impu)[i]? = some contact

/-- What a batch of removals may do. -/
structure RemovesMatchesOnly (store : MemoryRegistrationStore) (now : Nat)
    (batch : ContactBatchRemove) (result : MemoryRegistrationStore) : Prop where
  outside : ∀ impu, impu ∉ batch.impus.elems →
    result.bindings.find impu = store.bindings.find impu
  others : ∀ impu ∈ batch.impus.elems,
    (result.contacts impu).filter (fun contact => !matchesSelector contact batch.selector) =
      (store.liveContacts now impu).filter fun contact =>
        !matchesSelector contact batch.selector

namespace ContactUpsert

variable {args : ContactUpsert} {contacts : List ContactBinding}

/-- A write leaves every contact in its place, except for the first that is matched. -/
theorem getElem?_write {i : Nat} {contact : ContactBinding} (hi : contacts[i]? = some contact)
    (hne : contacts.findIdx? (matchesSelector · args.selector) ≠ some i) :
    (args.write contacts)[i]? = some contact := by
  obtain ⟨hlt, -⟩ := List.getElem?_eq_some_iff.mp hi
  rw [write]
  cases hindex : contacts.findIdx? (matchesSelector · args.selector) with
  | none =>
      simp only
      split
      · exact hi
      · rw [List.getElem?_append_left hlt]
        exact hi
  | some j =>
      simp only
      split
      · exact hi
      · have hji : j ≠ i := fun heq => hne (by rw [hindex, heq])
        rw [List.getElem?_set_ne hji]
        exact hi

/-- A write that goes through leaves its contact, or the one that is ahead of it. -/
theorem mem_write (h : args.goesThrough contacts = true) :
    args.contact ∈ args.write contacts ∨ ∃ existing ∈ args.write contacts,
      matchesSelector existing args.selector = true ∧ args.stale existing = true := by
  cases hmatch : args.hasMatch contacts with
  | false =>
      rw [goesThrough, hmatch, Bool.or_false, Bool.not_eq_true'] at h
      left
      rw [write_of_not_hasMatch hmatch, h]
      exact List.mem_append_right contacts List.mem_cons_self
  | true =>
      obtain ⟨before, existing, after, -, -, hexisting, hwrite⟩ := exists_first_of_hasMatch hmatch
      rw [hwrite]
      cases hstale : args.stale existing with
      | false => exact .inl (List.mem_append_right before List.mem_cons_self)
      | true =>
          exact .inr ⟨existing, List.mem_append_right before List.mem_cons_self, hexisting, hstale⟩

theorem stale_eq_true {existing : ContactBinding} (h : args.stale existing = true) :
    args.rejectOlderCseq = true ∧ existing.callId = args.contact.callId ∧
      args.contact.cseq < existing.cseq := by
  rw [stale, Bool.and_eq_true, Bool.and_eq_true, beq_iff_eq, decide_eq_true_eq] at h
  exact ⟨h.1.1, h.1.2, h.2⟩

end ContactUpsert

namespace MemoryRegistrationStore

variable {store : MemoryRegistrationStore} {now : Nat}

theorem upsertContacts_allOrNothing (batch : ContactBatchUpsert) :
    UpsertsAllOrNothing store now batch (store.upsertContacts now batch) := by
  obtain ⟨hcount, hfind⟩ := upsertContacts_eq store now batch
  have applies_iff : batch.impus.elems ≠ [] →
      ((store.upsertContacts now batch).2 = 0 ↔ store.applies now batch = false) := by
    intro hne
    rw [hcount]
    cases store.applies now batch with
    | false => exact ⟨fun _ => rfl, fun _ => rfl⟩
    | true => simp [hne]
  constructor
  case count =>
    rw [hcount]
    cases store.applies now batch with
    | false => exact .inl rfl
    | true => exact .inr rfl
  case nothing =>
    intro hzero hne impu
    rw [hfind impu, (applies_iff hne).mp hzero]
    rfl
  case all =>
    intro hall impu hmem
    have hne : batch.impus.elems ≠ [] := List.ne_nil_of_mem hmem
    have happlies : store.applies now batch = true := by
      rw [← Bool.not_eq_false, ← applies_iff hne, hall, List.length_eq_zero_iff]
      exact hne
    refine ⟨_, by rw [hfind impu, if_pos hmem, if_pos happlies], ?_⟩
    rw [contacts_written, contactsOf_pruned]
    obtain hcontact | ⟨existing, hexisting, hmatches, hstale⟩ :=
      ContactUpsert.mem_write (List.all_eq_true.mp happlies impu hmem)
    · exact .inl hcontact
    · obtain ⟨hreject, hcall, hcseq⟩ := ContactUpsert.stale_eq_true hstale
      exact .inr ⟨hreject, existing, hexisting, hmatches, hcall, hcseq⟩
  case outside =>
    intro impu hmem
    rw [hfind impu, if_neg hmem]
  case others =>
    intro impu hmem i contact hi hfirst
    rw [contacts_upsertContacts, if_pos hmem]
    split
    · exact ContactUpsert.getElem?_write hi hfirst
    · exact hi

theorem removeContacts_matchesOnly (batch : ContactBatchRemove) :
    RemovesMatchesOnly store now batch (store.removeContacts now batch).1 := by
  refine ⟨fun impu hmem => find_removeContacts_of_not_mem batch hmem, ?_⟩
  intro impu hmem
  rw [contacts_removeContacts, if_pos hmem, List.filter_filter]
  apply List.filter_congr
  intro contact _
  cases hmatches : matchesSelector contact batch.selector with
  | false => simp [kept, hmatches]
  | true => rfl

/-- Upserts are all or nothing, and neither kind of batch touches anything else. -/
theorem batches_allOrNothing (store : MemoryRegistrationStore) (now : Nat) :
    (∀ batch, UpsertsAllOrNothing store now batch (store.upsertContacts now batch)) ∧
      ∀ batch, RemovesMatchesOnly store now batch (store.removeContacts now batch).1 :=
  ⟨upsertContacts_allOrNothing, removeContacts_matchesOnly⟩

end MemoryRegistrationStore
end SimIms.Registration
