import SimIms.Lib.Persistence
import SimIms.Registration.StoreCalls

/-!
# When contacts stay unique

A contact is known by its instance and registration identifiers, or by its URI when it lacks
one of them. An upsert by URI also finds contacts that have both, and takes the place of the
first: if a contact without them has that URI too, two contacts are then known by it. Nothing
else brings this about.
-/

namespace SimIms.Registration

open Cxx Lib Sip

def ContactBinding.hasInstanceAndRegId (contact : ContactBinding) : Bool :=
  !contact.instanceId.isEmpty && !contact.regId.isEmpty

/-- The selector that `makeContactSelector` derives from a contact. -/
def ContactBinding.selector (contact : ContactBinding) : ContactBindingSelector :=
  { normalizedContactUri := extractUriFromNameAddr contact.contactUri
    instanceId := if contact.hasInstanceAndRegId then contact.instanceId else []
    regId := if contact.hasInstanceAndRegId then contact.regId else [] }

/-- Two contacts that should be one. -/
def ContactBinding.Clashes (a b : ContactBinding) : Prop :=
  (a.hasInstanceAndRegId = true ∧ a.instanceId = b.instanceId ∧ a.regId = b.regId) ∨
    (a.hasInstanceAndRegId = false ∧ b.hasInstanceAndRegId = false ∧
      extractUriFromNameAddr a.contactUri = extractUriFromNameAddr b.contactUri)

instance (a b : ContactBinding) : Decidable (a.Clashes b) :=
  inferInstanceAs (Decidable (_ ∨ _))

def UniqueContacts (contacts : List ContactBinding) : Prop :=
  contacts.Pairwise fun a b => ¬ a.Clashes b

instance (contacts : List ContactBinding) : Decidable (UniqueContacts contacts) :=
  inferInstanceAs (Decidable (List.Pairwise _ _))

/-! ## Keys -/

/-- What a contact is known by. -/
def ContactBinding.key (contact : ContactBinding) : (Bytes × Bytes) ⊕ Bytes :=
  if contact.hasInstanceAndRegId then .inl (contact.instanceId, contact.regId)
  else .inr (extractUriFromNameAddr contact.contactUri)

theorem ContactBinding.clashes_iff {a b : ContactBinding} : a.Clashes b ↔ a.key = b.key := by
  rw [Clashes, key, key]
  cases ha : a.hasInstanceAndRegId with
  | true =>
      cases hb : b.hasInstanceAndRegId with
      | true => simp
      | false =>
          simp only [true_and, Bool.true_eq_false, false_and, or_false, if_true,
            Bool.false_eq_true, if_false, reduceCtorEq, iff_false]
          rintro ⟨hinstance, hreg⟩
          rw [hasInstanceAndRegId, hinstance, hreg] at ha
          rw [hasInstanceAndRegId, ha] at hb
          cases hb
  | false => cases hb : b.hasInstanceAndRegId <;> simp

theorem uniqueContacts_iff {contacts : List ContactBinding} :
    UniqueContacts contacts ↔ (contacts.map ContactBinding.key).Nodup := by
  rw [UniqueContacts, List.Nodup, List.pairwise_map]
  simp only [ContactBinding.clashes_iff, ne_eq]

theorem UniqueContacts.sublist {contacts some : List ContactBinding}
    (h : UniqueContacts contacts) (hsub : some.Sublist contacts) : UniqueContacts some :=
  List.Pairwise.sublist hsub h

/-- A derived selector with both identifiers matches by key. -/
theorem matchesSelector_selector_of_hasInstanceAndRegId {contact existing : ContactBinding}
    (h : contact.hasInstanceAndRegId = true) :
    matchesSelector existing contact.selector = true ↔ existing.key = contact.key := by
  have huses : contact.selector.usesInstanceAndRegId = true := by
    rw [ContactBindingSelector.usesInstanceAndRegId, ContactBinding.selector]
    simp only [h, if_true]
    exact h
  rw [matchesSelector, if_pos huses, ← ContactBinding.clashes_iff, ContactBinding.Clashes,
    ContactBinding.selector]
  simp only [h, if_true, Bool.and_eq_true, beq_iff_eq, Bool.true_eq_false, false_and, and_false,
    or_false]
  constructor
  · rintro ⟨hinstance, hreg⟩
    refine ⟨?_, hinstance, hreg⟩
    rw [ContactBinding.hasInstanceAndRegId, hinstance, hreg]
    exact h
  · exact fun hclash => ⟨hclash.2.1, hclash.2.2⟩

/-- One without them matches by URI, whatever else the stored contact has. -/
theorem matchesSelector_selector_of_not_hasInstanceAndRegId {contact existing : ContactBinding}
    (h : contact.hasInstanceAndRegId = false) :
    matchesSelector existing contact.selector = true ↔
      extractUriFromNameAddr existing.contactUri = extractUriFromNameAddr contact.contactUri := by
  have huses : contact.selector.usesInstanceAndRegId = false := by
    rw [ContactBindingSelector.usesInstanceAndRegId, ContactBinding.selector]
    simp only [h, Bool.false_eq_true, if_false]
    rfl
  rw [matchesSelector, huses, ContactBinding.selector]
  simp only [Bool.false_eq_true, if_false, beq_iff_eq]

theorem matchesSelector_selector_of_key_eq {contact existing : ContactBinding}
    (h : existing.key = contact.key) : matchesSelector existing contact.selector = true := by
  cases hcontact : contact.hasInstanceAndRegId with
  | true => exact (matchesSelector_selector_of_hasInstanceAndRegId hcontact).mpr h
  | false =>
      rw [matchesSelector_selector_of_not_hasInstanceAndRegId hcontact]
      rw [← ContactBinding.clashes_iff] at h
      obtain ⟨hexisting, hinstance, hreg⟩ | ⟨-, -, huri⟩ := h
      · rw [ContactBinding.hasInstanceAndRegId, hinstance, hreg] at hexisting
        rw [ContactBinding.hasInstanceAndRegId, hexisting] at hcontact
        cases hcontact
      · exact huri

/-! ## Writing one contact -/

/-- The write that makes a clash: by URI, in the place of a contact with both identifiers,
next to a contact of that URI without them. -/
def ContactUpsert.displaces (args : ContactUpsert) (contacts : List ContactBinding) : Bool :=
  !args.contact.hasInstanceAndRegId &&
    (contacts.find? (matchesSelector · args.selector)).any fun existing =>
      existing.hasInstanceAndRegId && !args.stale existing &&
        contacts.any fun other => !other.hasInstanceAndRegId &&
          extractUriFromNameAddr other.contactUri == extractUriFromNameAddr args.contact.contactUri

theorem uniqueContacts_middle {before after : List ContactBinding} {contact : ContactBinding} :
    UniqueContacts (before ++ contact :: after) ↔
      contact.key ∉ (before ++ after).map ContactBinding.key ∧
        UniqueContacts (before ++ after) := by
  rw [uniqueContacts_iff, uniqueContacts_iff, List.map_append, List.map_cons, List.nodup_middle,
    List.nodup_cons, List.map_append]

namespace ContactUpsert

variable {args : ContactUpsert} {contacts : List ContactBinding}

theorem displaces_of_not_hasMatch (h : args.hasMatch contacts = false) :
    args.displaces contacts = false := by
  have hnone : contacts.find? (matchesSelector · args.selector) = none := by
    rw [List.find?_eq_none]
    exact List.any_eq_false.mp h
  rw [displaces, hnone, Option.any_none, Bool.and_false]

/-- A write without a match adds a contact that nothing else is known by. -/
theorem uniqueContacts_write_of_not_hasMatch (hselector : args.selector = args.contact.selector)
    (h : UniqueContacts contacts) (hmatch : args.hasMatch contacts = false) :
    UniqueContacts (args.write contacts) := by
  rw [write_of_not_hasMatch hmatch]
  split
  · exact h
  · rw [uniqueContacts_middle, List.append_nil]
    refine ⟨?_, h⟩
    intro hmem
    obtain ⟨existing, hexisting, hkey⟩ := List.mem_map.mp hmem
    rw [hasMatch, List.any_eq_false] at hmatch
    apply hmatch existing hexisting
    rw [hselector]
    exact matchesSelector_selector_of_key_eq hkey

/-- By URI, a contact is known that lacks an identifier and has this URI. -/
theorem mem_keys_iff {contact : ContactBinding} (h : contact.hasInstanceAndRegId = false) :
    contact.key ∈ contacts.map ContactBinding.key ↔
      contacts.any (fun other => !other.hasInstanceAndRegId &&
        extractUriFromNameAddr other.contactUri == extractUriFromNameAddr contact.contactUri) =
          true := by
  rw [List.mem_map, List.any_eq_true]
  apply exists_congr
  intro other
  rw [← ContactBinding.clashes_iff, ContactBinding.Clashes, Bool.and_eq_true, Bool.not_eq_true',
    beq_iff_eq, h]
  constructor
  · rintro ⟨hmem, ⟨hother, hinstance, hreg⟩ | ⟨hother, -, huri⟩⟩
    · rw [ContactBinding.hasInstanceAndRegId, hinstance, hreg] at hother
      rw [ContactBinding.hasInstanceAndRegId, hother] at h
      cases h
    · exact ⟨hmem, hother, huri⟩
  · exact fun ⟨hmem, hother, huri⟩ => ⟨hmem, .inr ⟨hother, rfl, huri⟩⟩

theorem uniqueContacts_write_iff (hselector : args.selector = args.contact.selector)
    (h : UniqueContacts contacts) :
    UniqueContacts (args.write contacts) ↔ args.displaces contacts = false := by
  cases hmatch : args.hasMatch contacts with
  | false =>
      rw [displaces_of_not_hasMatch hmatch]
      exact iff_of_true (uniqueContacts_write_of_not_hasMatch hselector h hmatch) rfl
  | true =>
      obtain ⟨before, existing, after, heq, hbefore, hexisting, hwrite⟩ :=
        exists_first_of_hasMatch hmatch
      have hfind : contacts.find? (matchesSelector · args.selector) = some existing := by
        rw [List.find?_eq_some_iff_append]
        refine ⟨hexisting, before, after, heq, ?_⟩
        intro contact hmem
        rw [hbefore contact hmem]
        rfl
      rw [displaces, hfind, Option.any_some, hwrite]
      have hunique : UniqueContacts (before ++ existing :: after) := heq ▸ h
      -- Where the key stays, so does what else is known by it.
      have same_key : existing.key = args.contact.key →
          UniqueContacts (before ++ args.contact :: after) := by
        intro hkey
        rw [uniqueContacts_middle] at hunique ⊢
        rwa [← hkey]
      cases hstale : args.stale existing with
      | true =>
          refine iff_of_true ?_ (by simp)
          rw [if_pos rfl]
          exact hunique
      | false =>
          rw [if_neg Bool.false_ne_true]
          cases hcontact : args.contact.hasInstanceAndRegId with
          | true =>
              refine iff_of_true (same_key ?_) rfl
              rw [hselector] at hexisting
              exact (matchesSelector_selector_of_hasInstanceAndRegId hcontact).mp hexisting
          | false =>
              rw [hselector, matchesSelector_selector_of_not_hasInstanceAndRegId hcontact]
                at hexisting
              cases hpair : existing.hasInstanceAndRegId with
              | false =>
                  refine iff_of_true (same_key ?_) (by simp)
                  rw [← ContactBinding.clashes_iff]
                  exact .inr ⟨hpair, hcontact, hexisting⟩
              | true =>
                  have hrest : UniqueContacts (before ++ after) :=
                    (uniqueContacts_middle.mp hunique).2
                  rw [uniqueContacts_middle, mem_keys_iff hcontact, heq, List.any_append,
                    List.any_append, List.any_cons, hpair]
                  simp [hrest]

end ContactUpsert

/-! ## Runs -/

/-- A call of the kinds that go on while a store is in use, an upsert with the selector that is
derived from its contact. -/
def StoreCall.Derived : StoreCall → Prop
  | .store _ => False
  | .upsertContact _ args => args.selector = args.contact.selector
  | .upsertContacts batch => batch.selector = batch.contact.selector
  | _ => True

abbrev DerivedCall := { call : StoreCall // call.Derived }

def contactMachine : Machine MemoryRegistrationStore (Nat × DerivedCall) CallAnswer :=
  ⟨fun store label => some ((store.call label.1 label.2.1).1, [(store.call label.1 label.2.1).2])⟩

namespace MemoryRegistrationStore

variable {store : MemoryRegistrationStore} {now : Nat}

/-- No binding holds two contacts that are known by the same. -/
def Unique (store : MemoryRegistrationStore) : Prop := ∀ impu, UniqueContacts (store.contacts impu)

/-- The call writes a contact where it makes a clash. -/
def Displaces (store : MemoryRegistrationStore) (label : Nat × DerivedCall) : Prop :=
  match label.2.1 with
  | .upsertContact impu args => args.displaces (store.liveContacts label.1 impu) = true
  | .upsertContacts batch => store.applies label.1 batch = true ∧
      ∃ impu ∈ batch.impus.elems, batch.displaces (store.liveContacts label.1 impu) = true
  | _ => False

theorem Unique.shrinks {next : MemoryRegistrationStore} (h : store.Unique)
    (hshrinks : store.Shrinks next) : next.Unique := fun impu => (h impu).sublist (hshrinks impu)

theorem Unique.liveContacts (h : store.Unique) (impu : Bytes) :
    UniqueContacts (store.liveContacts now impu) :=
  (h impu).sublist (liveContacts_sublist store now impu)

theorem Unique.upsertContact_iff (h : store.Unique) {impu : Bytes} {args : ContactUpsert}
    (hselector : args.selector = args.contact.selector) :
    (store.upsertContact now impu args).1.Unique ↔
      args.displaces (store.liveContacts now impu) = false := by
  rw [← ContactUpsert.uniqueContacts_write_iff hselector (h.liveContacts impu)]
  constructor
  · intro hunique
    have himpu := hunique impu
    rwa [contacts_upsertContact, if_pos rfl] at himpu
  · intro hwrite other
    rw [contacts_upsertContact]
    split
    · rename_i heq
      rw [heq]
      exact hwrite
    · exact h other

theorem Unique.upsertContacts_iff (h : store.Unique) {batch : ContactBatchUpsert}
    (hselector : batch.selector = batch.contact.selector) :
    (store.upsertContacts now batch).1.Unique ↔ ¬ (store.applies now batch = true ∧
      ∃ impu ∈ batch.impus.elems, batch.displaces (store.liveContacts now impu) = true) := by
  rw [Unique]
  simp only [contacts_upsertContacts]
  cases happlies : store.applies now batch with
  | false =>
      refine iff_of_true ?_ (by simp)
      intro impu
      split
      · exact h.liveContacts impu
      · exact h impu
  | true =>
      simp only [if_true, true_and, not_exists, not_and, Bool.not_eq_true]
      constructor
      · intro hunique impu hmem
        rw [← ContactUpsert.uniqueContacts_write_iff hselector (h.liveContacts impu)]
        have himpu := hunique impu
        rwa [if_pos hmem] at himpu
      · intro hall impu
        split
        · rename_i hmem
          rw [ContactUpsert.uniqueContacts_write_iff hselector (h.liveContacts impu)]
          exact hall impu hmem
        · exact h impu

/-- From a store without a clash, exactly the displacing calls make one. -/
theorem Unique.call_iff (h : store.Unique) (label : Nat × DerivedCall) :
    (store.call label.1 label.2.1).1.Unique ↔ ¬ store.Displaces label := by
  obtain ⟨now, call, hderived⟩ := label
  cases call with
  | store binding => exact hderived.elim
  | lookup impu =>
      rw [call, fst_lookup]
      exact iff_of_true (h.shrinks (pruneExpiredLocked_shrinks store now impu)) id
  | upsertContact impu args =>
      refine (h.upsertContact_iff hderived).trans ?_
      rw [Displaces, Bool.not_eq_true]
  | removeContact impu selector => exact iff_of_true (h.shrinks removeContact_shrinks) id
  | upsertContacts batch => exact h.upsertContacts_iff hderived
  | removeContacts batch => exact iff_of_true (h.shrinks (removeContacts_shrinks batch)) id
  | removeBindings impus => exact iff_of_true (h.shrinks (removeBindings_shrinks impus)) id
  | remove impu => exact iff_of_true (h.shrinks remove_shrinks) id
  | purgeExpired => exact iff_of_true (h.shrinks purgeExpired_shrinks) id
  | isRegistered impu =>
      rw [call, fst_isRegistered]
      exact iff_of_true (h.shrinks (pruneExpiredLocked_shrinks store now impu)) id

/-- Contacts are unique in all that a run from the empty store reaches exactly when no call of
the run displaces. -/
theorem staysUnique_iff (as : List (Nat × DerivedCall)) :
    (∀ before after store answers, as = before ++ after →
      contactMachine.exec init before = some (store, answers) → store.Unique) ↔
      contactMachine.Along (fun store label _ _ => ¬ store.Displaces label) init as := by
  have calls : ∀ store label next out (log : List CallAnswer), True → store.Unique →
      contactMachine.step store label = some (next, out) →
      (next.Unique ↔ ¬ store.Displaces label) := by
    intro store label next out log _ hunique hstep
    cases hstep
    exact hunique.call_iff label
  exact Machine.forall_reached_iff (fun _ _ _ _ _ _ _ => trivial) calls trivial
    fun _ => List.Pairwise.nil

/-! ## A clash -/

/-- One contact of a user, as it stands in a REGISTER. -/
def clashingUpsert (uri instanceId regId : String) : Nat × DerivedCall :=
  let contact : ContactBinding :=
    { contactUri := bytes uri, instanceId := bytes instanceId, regId := bytes regId, path := []
      expires := 3600000, userAgent := [], callId := [], cseq := 1 }
  (0, ⟨.upsertContact (bytes "sip:alice@ims.example")
    { selector := contact.selector, contact, impi := bytes "alice@ims.example"
      scscfUri := bytes "sip:scscf.ims.example", state := .registered, rejectOlderCseq := true },
    rfl⟩)

/-- A phone with an instance registers, a second one without, the first takes over the address
of the second, and the second registers again. -/
def clashingRun : List (Nat × DerivedCall) :=
  [clashingUpsert "<sip:alice@10.0.0.1>" "<urn:uuid:1>" "1",
    clashingUpsert "<sip:alice@10.0.0.2>" "" "",
    clashingUpsert "<sip:alice@10.0.0.2>" "<urn:uuid:1>" "1",
    clashingUpsert "<sip:alice@10.0.0.2>" "" ""]

theorem clashingRun_not_unique :
    ¬ ∀ (as : List (Nat × DerivedCall)) store answers,
      contactMachine.exec init as = some (store, answers) → store.Unique := by
  intro unique
  have himpu : UniqueContacts (((contactMachine.exec init clashingRun).map fun result =>
      result.1.contacts (bytes "sip:alice@ims.example")).getD []) :=
    unique clashingRun _ _ rfl (bytes "sip:alice@ims.example")
  revert himpu
  decide +kernel

end MemoryRegistrationStore

end SimIms.Registration
