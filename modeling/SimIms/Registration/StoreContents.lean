import SimIms.Lib.SeparateKeys
import SimIms.Registration.Store

/-!
# What the operations of the store do

Every operation acts on each identity alone. Its effect is stated for what is found under an
identity and for the list of contacts there: pruning leaves the unexpired ones, an upsert
writes one contact, a removal keeps those that it does not match. A batch does the same under
each of its identities, and nothing anywhere else.
-/

namespace SimIms.Registration

open Cxx Lib Sip

/-! ## Contacts -/

/-- Whether the selector matches one of the contacts. -/
def ContactUpsert.hasMatch (args : ContactUpsert) (contacts : List ContactBinding) : Bool :=
  contacts.any (matchesSelector · args.selector)

/-- The contacts of a binding after the write. -/
def ContactUpsert.write (args : ContactUpsert) (contacts : List ContactBinding) :
    List ContactBinding :=
  match contacts.findIdx? (matchesSelector · args.selector) with
  | none => if args.requireExistingMatch then contacts else contacts ++ [args.contact]
  | some i => if contacts[i]?.any args.stale then contacts else contacts.set i args.contact

namespace ContactUpsert

variable {args : ContactUpsert} {contacts : List ContactBinding}

theorem write_of_not_hasMatch (h : args.hasMatch contacts = false) :
    args.write contacts =
      if args.requireExistingMatch then contacts else contacts ++ [args.contact] := by
  have hnone : contacts.findIdx? (matchesSelector · args.selector) = none := by
    rw [List.findIdx?_eq_none_iff]
    intro contact hmem
    rw [hasMatch, List.any_eq_false] at h
    exact Bool.eq_false_iff.mpr (h contact hmem)
  rw [write, hnone]

/-- The first contact that the selector matches, with what is before and after it. -/
theorem exists_first_of_hasMatch (h : args.hasMatch contacts = true) :
    ∃ before existing after, contacts = before ++ existing :: after ∧
      (∀ contact ∈ before, matchesSelector contact args.selector = false) ∧
      matchesSelector existing args.selector = true ∧
      args.write contacts =
        before ++ (if args.stale existing then existing else args.contact) :: after := by
  induction contacts with
  | nil => cases h
  | cons contact contacts ih =>
      cases hcontact : matchesSelector contact args.selector with
      | true =>
          refine ⟨[], contact, contacts, rfl, by simp, hcontact, ?_⟩
          have hfirst : (contact :: contacts).findIdx? (matchesSelector · args.selector) =
              some 0 := by
            rw [List.findIdx?_cons, if_pos hcontact]
          rw [write, hfirst]
          simp only [List.getElem?_cons_zero, Option.any_some, List.set_cons_zero, List.nil_append]
          split <;> rfl
      | false =>
          rw [hasMatch, List.any_cons, hcontact, Bool.false_or] at h
          obtain ⟨before, existing, after, heq, hbefore, hexisting, hwrite⟩ := ih h
          refine ⟨contact :: before, existing, after, by rw [heq]; rfl, ?_, hexisting, ?_⟩
          · intro other hother
            obtain rfl | hother := List.mem_cons.mp hother
            · exact hcontact
            · exact hbefore other hother
          · have hshift : args.write (contact :: contacts) = contact :: args.write contacts := by
              obtain ⟨i, hi⟩ : ∃ i, contacts.findIdx? (matchesSelector · args.selector) =
                  some i := by
                rw [← Option.isSome_iff_exists, List.findIdx?_isSome]
                exact h
              have hnext : (contact :: contacts).findIdx? (matchesSelector · args.selector) =
                  some (i + 1) := by
                rw [List.findIdx?_cons, hcontact, hi]
                rfl
              rw [write, write, hnext, hi]
              simp only [List.getElem?_cons_succ, List.set_cons_succ]
              split <;> rfl
            rw [hshift, hwrite]
            rfl

/-- Among the contacts that the selector matches, a write concerns the first, or adds one. -/
theorem filter_write (contacts : List ContactBinding)
    (hcontact : matchesSelector args.contact args.selector = true) :
    (args.write contacts).filter (matchesSelector · args.selector) =
      match contacts.filter (matchesSelector · args.selector) with
      | [] => if args.requireExistingMatch then [] else [args.contact]
      | existing :: rest => (if args.stale existing then existing else args.contact) :: rest := by
  cases hmatch : args.hasMatch contacts with
  | false =>
      have hnone : contacts.filter (matchesSelector · args.selector) = [] := by
        rwa [List.filter_eq_nil_iff, ← List.any_eq_false]
      rw [write_of_not_hasMatch hmatch, hnone]
      simp only
      split
      · exact hnone
      · rw [List.filter_append, hnone, List.filter_singleton, hcontact]
        rfl
  | true =>
      obtain ⟨before, existing, after, rfl, hbefore, hexisting, hwrite⟩ :=
        exists_first_of_hasMatch hmatch
      have hnone : before.filter (matchesSelector · args.selector) = [] :=
        List.filter_eq_nil_iff.mpr fun contact hmem => Bool.eq_false_iff.mp (hbefore contact hmem)
      have hmatches : matchesSelector (if args.stale existing then existing else args.contact)
          args.selector = true := by
        split
        · exact hexisting
        · exact hcontact
      rw [hwrite, List.filter_append, List.filter_append, hnone]
      simp only [List.nil_append, List.filter_cons, hexisting, hmatches, if_true]

end ContactUpsert

/-- Whether the upsert of a contact into this list goes through. -/
def ContactUpsert.goesThrough (args : ContactUpsert) (contacts : List ContactBinding) : Bool :=
  !args.requireExistingMatch || args.hasMatch contacts

/-! ## Bindings -/

/-- What pruning leaves of what is found under an identity. -/
def pruned (now : Nat) (found : Option RegistrationBinding) : Option RegistrationBinding :=
  found.bind fun binding =>
    let contacts := binding.contacts.filter (·.live now)
    if contacts = [] then none else some { binding with contacts }

/-- The contacts of what is found under an identity. -/
def contactsOf (found : Option RegistrationBinding) : List ContactBinding :=
  (found.map RegistrationBinding.contacts).getD []

@[simp] theorem contactsOf_none : contactsOf none = [] := rfl

@[simp] theorem contactsOf_some (binding : RegistrationBinding) :
    contactsOf (some binding) = binding.contacts := rfl

@[simp] theorem contactsOf_pruned (now : Nat) (found : Option RegistrationBinding) :
    contactsOf (pruned now found) = (contactsOf found).filter (·.live now) := by
  cases found with
  | none => rfl
  | some binding =>
      rw [pruned, Option.bind_some]
      by_cases hempty : binding.contacts.filter (·.live now) = []
      · simp only [hempty, if_true, contactsOf_none, contactsOf_some]
      · simp only [hempty, if_false, contactsOf_some]

theorem ContactBinding.live_of_le {contact : ContactBinding} {now later : Nat} (h : now ≤ later)
    (hlive : contact.live later = true) : contact.live now = true := by
  rw [ContactBinding.live, decide_eq_true_eq] at hlive ⊢
  exact Nat.lt_of_le_of_lt h hlive

theorem filter_live_filter_live (contacts : List ContactBinding) {now later : Nat}
    (h : now ≤ later) :
    (contacts.filter (·.live now)).filter (·.live later) = contacts.filter (·.live later) := by
  rw [List.filter_filter]
  apply List.filter_congr
  intro contact _
  cases hlive : contact.live later with
  | true => rw [ContactBinding.live_of_le h hlive]; rfl
  | false => rfl

/-- Pruning now does not change what pruning later will leave. -/
theorem pruned_pruned {now later : Nat} (h : now ≤ later) (found : Option RegistrationBinding) :
    pruned later (pruned now found) = pruned later found := by
  cases found with
  | none => rfl
  | some binding =>
      have htwice := filter_live_filter_live binding.contacts h
      rw [pruned, pruned, pruned, Option.bind_some, Option.bind_some]
      by_cases hnow : binding.contacts.filter (·.live now) = []
      · rw [hnow, List.filter_nil] at htwice
        simp only [hnow, ← htwice, if_true, Option.bind_none]
      · simp only [hnow, if_false, Option.bind_some, htwice]

/-! ## The operations -/

namespace MemoryRegistrationStore

variable {store : MemoryRegistrationStore} {now : Nat} {impu other : Bytes}
variable {follower : Option Bytes}

/-- The contacts stored under an identity. -/
def contacts (store : MemoryRegistrationStore) (impu : Bytes) : List ContactBinding :=
  contactsOf (store.bindings.find impu)

/-- Those that have not expired. -/
def liveContacts (store : MemoryRegistrationStore) (now : Nat) (impu : Bytes) :
    List ContactBinding := (store.contacts impu).filter (·.live now)

theorem hasMatch_eq (store : MemoryRegistrationStore) (args : ContactUpsert) (impu : Bytes) :
    store.hasMatch args.selector impu = args.hasMatch (store.contacts impu) := by
  rw [hasMatch, contacts]
  cases store.bindings.find impu with
  | none => rfl
  | some binding => rfl

theorem find_pruneExpiredLocked (store : MemoryRegistrationStore) (now : Nat)
    (impu other : Bytes) :
    (store.pruneExpiredLocked now impu).bindings.find other =
      if other = impu then pruned now (store.bindings.find impu)
      else store.bindings.find other := by
  rw [pruneExpiredLocked]
  cases hfind : store.bindings.find impu with
  | none =>
      by_cases heq : other = impu
      · rw [if_pos heq, heq]
        exact hfind
      · rw [if_neg heq]
  | some binding =>
      rw [pruned, Option.bind_some]
      by_cases hempty : binding.contacts.filter (·.live now) = []
      · simp only [hempty, if_true, Table.find_erase]
      · simp only [hempty, if_false, Table.find_insert]

@[simp] theorem find_pruneExpiredLocked_self :
    (store.pruneExpiredLocked now impu).bindings.find impu =
      pruned now (store.bindings.find impu) := by
  rw [find_pruneExpiredLocked, if_pos rfl]

theorem find_pruneExpiredLocked_of_ne (h : other ≠ impu) :
    (store.pruneExpiredLocked now impu).bindings.find other = store.bindings.find other := by
  rw [find_pruneExpiredLocked, if_neg h]

/-! ### Look-ups -/

/-- There is a binding, and all its contacts have expired. -/
def Lapsed (store : MemoryRegistrationStore) (now : Nat) (impu : Bytes) : Prop :=
  ∃ binding, store.bindings.find impu = some binding ∧ pruned now (some binding) = none

theorem prunedEntry_of_not_lapsed (h : ¬ store.Lapsed now impu) :
    store.prunedEntry now impu follower = pruned now (store.bindings.find impu) := by
  rw [prunedEntry]
  cases hfind : store.bindings.find impu with
  | none => rfl
  | some binding =>
      have hne : pruned now (some binding) ≠ none := fun heq => h ⟨binding, hfind, heq⟩
      rw [pruned, Option.bind_some] at hne ⊢
      simp only at hne ⊢
      split
      · rename_i hnil
        rw [if_pos hnil] at hne
        exact (hne rfl).elim
      · rfl

/-- Then it is the entry of another identity that is found. -/
theorem prunedEntry_of_lapsed (h : store.Lapsed now impu) :
    store.prunedEntry now impu follower = follower.bind fun other =>
      if other = impu then none else store.bindings.find other := by
  obtain ⟨binding, hfind, hlapsed⟩ := h
  have hnil : binding.contacts.filter (·.live now) = [] := by
    by_contra hne
    rw [pruned, Option.bind_some] at hlapsed
    simp only [if_neg hne] at hlapsed
    cases hlapsed
  rw [prunedEntry, hfind]
  simp only [if_pos hnil]
  congr 1
  funext other
  rw [find_pruneExpiredLocked]
  split
  · rw [hfind, hlapsed]
  · rfl

/-- What is found is the binding of the identity, or one of another. -/
theorem prunedEntry_eq_some {binding : RegistrationBinding}
    (h : store.prunedEntry now impu follower = some binding) :
    pruned now (store.bindings.find impu) = some binding ∨
      store.Lapsed now impu ∧ ∃ other, other ≠ impu ∧ follower = some other ∧
        store.bindings.find other = some binding := by
  by_cases hlapsed : store.Lapsed now impu
  · rw [prunedEntry_of_lapsed hlapsed] at h
    obtain ⟨other, hother, hfind⟩ := Option.bind_eq_some_iff.mp h
    split at hfind
    · cases hfind
    · rename_i hne
      exact .inr ⟨hlapsed, other, hne, hother, hfind⟩
  · rw [prunedEntry_of_not_lapsed hlapsed] at h
    exact .inl h

theorem lookup_eq_ok_iff {binding : RegistrationBinding} :
    (store.lookup now impu follower).2 = .ok binding ↔
      store.prunedEntry now impu follower = some binding := by
  rw [lookup]
  cases store.prunedEntry now impu follower with
  | none => exact iff_of_false (fun heq => by cases heq) fun heq => by cases heq
  | some found =>
      rw [Option.some.injEq]
      exact ⟨Except.ok.inj, congrArg _⟩

/-! ### Pruning for batches -/

theorem find_pruneAll (store : MemoryRegistrationStore) (now : Nat) (impus : List Bytes)
    (impu : Bytes) :
    (store.pruneAll now impus).bindings.find impu =
      if impu ∈ impus then pruned now (store.bindings.find impu)
      else store.bindings.find impu := by
  induction impus generalizing store with
  | nil => rfl
  | cons first impus ih =>
      rw [pruneAll, List.foldl_cons]
      refine (ih (store.pruneExpiredLocked now first)).trans ?_
      rw [find_pruneExpiredLocked]
      by_cases hfirst : impu = first
      · subst hfirst
        simp only [if_true, List.mem_cons, true_or, pruned_pruned (le_refl now), ite_self]
      · simp only [hfirst, if_false, List.mem_cons, false_or]

theorem contacts_pruneAll_of_mem {impus : List Bytes} (h : impu ∈ impus) :
    (store.pruneAll now impus).contacts impu = store.liveContacts now impu := by
  rw [contacts, find_pruneAll, if_pos h, contactsOf_pruned]
  rfl

/-! ### Upserts -/

variable {args : ContactUpsert}

/-- The binding that an upsert writes. -/
def written (args : ContactUpsert) (impu : Bytes) (found : Option RegistrationBinding) :
    RegistrationBinding :=
  let binding := found.getD
    { impu, impi := args.impi, scscfUri := args.scscfUri, contacts := [], state := args.state }
  { binding with
    impi := if args.impi = [] then binding.impi else args.impi
    scscfUri := if args.scscfUri = [] then binding.scscfUri else args.scscfUri
    state := args.state
    contacts := args.write (contactsOf found) }

@[simp] theorem contacts_written (args : ContactUpsert) (impu : Bytes)
    (found : Option RegistrationBinding) :
    (written args impu found).contacts = args.write (contactsOf found) := rfl

/-- Nothing is created for an identity without a binding when a match is required. -/
theorem upsertContactLocked_of_unbound (hfind : store.bindings.find impu = none)
    (h : args.requireExistingMatch = true) :
    store.upsertContactLocked impu args = (store, false) := by
  simp only [upsertContactLocked, hfind, h, and_self, if_true]

theorem upsertContactLocked_eq
    (h : store.bindings.find impu ≠ none ∨ args.requireExistingMatch = false) :
    store.upsertContactLocked impu args =
      (⟨store.bindings.insert impu (written args impu (store.bindings.find impu))⟩,
        args.goesThrough (store.contacts impu)) := by
  have hguard : ¬ (store.bindings.find impu = none ∧ args.requireExistingMatch) := by
    intro hboth
    obtain hfound | hnot := h
    · exact hfound hboth.1
    · rw [hnot] at hboth
      cases hboth.2
  have hcontacts : contactsOf (store.bindings.find impu) = ((store.bindings.find impu).getD
      { impu, impi := args.impi, scscfUri := args.scscfUri, contacts := [],
        state := args.state }).contacts := by
    cases store.bindings.find impu with
    | none => rfl
    | some binding => rfl
  rw [upsertContactLocked, if_neg hguard, contacts, written, hcontacts, ContactUpsert.write,
    ContactUpsert.goesThrough, ContactUpsert.hasMatch]
  simp only
  generalize (store.bindings.find impu).getD _ = binding
  cases hindex : binding.contacts.findIdx? (matchesSelector · args.selector) with
  | none =>
      have hany : binding.contacts.any (matchesSelector · args.selector) = false := by
        rw [← List.findIdx?_isSome, hindex]
        rfl
      cases hrequire : args.requireExistingMatch with
      | true => simp [hany]
      | false => simp [hany]
  | some i =>
      have hany : binding.contacts.any (matchesSelector · args.selector) = true := by
        rw [← List.findIdx?_isSome, hindex]
        rfl
      obtain ⟨hi, -⟩ := List.findIdx?_eq_some_iff_getElem.mp hindex
      simp only [List.getElem?_eq_getElem hi, Option.any_some, ContactUpsert.stale, hany,
        Bool.or_true]
      split <;> simp_all

/-- The answer of an upsert: it fails only when a match is required and there is none. -/
theorem snd_upsertContactLocked (store : MemoryRegistrationStore) (args : ContactUpsert)
    (impu : Bytes) :
    (store.upsertContactLocked impu args).2 = args.goesThrough (store.contacts impu) := by
  by_cases h : store.bindings.find impu ≠ none ∨ args.requireExistingMatch = false
  · rw [upsertContactLocked_eq h]
  · rw [not_or, not_not, Bool.not_eq_false] at h
    rw [upsertContactLocked_of_unbound h.1 h.2, contacts, h.1, ContactUpsert.goesThrough, h.2]
    rfl

theorem find_upsertContactLocked_of_ne (h : other ≠ impu) :
    (store.upsertContactLocked impu args).1.bindings.find other = store.bindings.find other := by
  by_cases hwrites : store.bindings.find impu ≠ none ∨ args.requireExistingMatch = false
  · rw [upsertContactLocked_eq hwrites]
    exact Table.find_insert_of_ne _ _ h
  · rw [not_or, not_not, Bool.not_eq_false] at hwrites
    rw [upsertContactLocked_of_unbound hwrites.1 hwrites.2]

/-- What an upsert that goes through leaves under its identity. -/
theorem find_upsertContactLocked_self (h : args.goesThrough (store.contacts impu) = true) :
    (store.upsertContactLocked impu args).1.bindings.find impu =
      some (written args impu (store.bindings.find impu)) := by
  by_cases hwrites : store.bindings.find impu ≠ none ∨ args.requireExistingMatch = false
  · rw [upsertContactLocked_eq hwrites]
    exact Table.find_insert_self _ _ _
  · rw [not_or, not_not, Bool.not_eq_false] at hwrites
    rw [ContactUpsert.goesThrough, contacts, hwrites.1, hwrites.2] at h
    cases h

/-- Whether or not it goes through, the contacts are those of `write`. -/
theorem contacts_upsertContactLocked_self :
    (store.upsertContactLocked impu args).1.contacts impu = args.write (store.contacts impu) := by
  by_cases hwrites : store.bindings.find impu ≠ none ∨ args.requireExistingMatch = false
  · rw [upsertContactLocked_eq hwrites, contacts, Table.find_insert_self]
    rfl
  · rw [not_or, not_not, Bool.not_eq_false] at hwrites
    rw [upsertContactLocked_of_unbound hwrites.1 hwrites.2, contacts, hwrites.1,
      ContactUpsert.write_of_not_hasMatch rfl, hwrites.2]
    rfl

theorem contacts_upsertContact :
    (store.upsertContact now impu args).1.contacts other =
      if other = impu then args.write (store.liveContacts now other) else store.contacts other := by
  split
  · rename_i heq
    subst heq
    rw [upsertContact, contacts_upsertContactLocked_self, contacts, find_pruneExpiredLocked_self,
      contactsOf_pruned]
    rfl
  · rename_i hne
    rw [contacts, upsertContact, find_upsertContactLocked_of_ne hne,
      find_pruneExpiredLocked_of_ne hne]
    rfl

/-- The loop of a batch that goes through everywhere: it writes every identity once. -/
theorem upsertAll_of_goesThrough {impus : List Bytes} (hnodup : impus.Nodup)
    (h : ∀ impu ∈ impus, args.goesThrough (store.contacts impu) = true) :
    (upsertAll args impus store).2 = true ∧
      ∀ impu, (upsertAll args impus store).1.bindings.find impu =
        if impu ∈ impus then some (written args impu (store.bindings.find impu))
        else store.bindings.find impu := by
  induction impus generalizing store with
  | nil => exact ⟨rfl, fun _ => rfl⟩
  | cons first impus ih =>
      obtain ⟨hfirst, hnodup⟩ := List.nodup_cons.mp hnodup
      have hsnd := snd_upsertContactLocked store args first
      rw [h first List.mem_cons_self] at hsnd
      obtain ⟨next, hnext⟩ : ∃ next, store.upsertContactLocked first args = (next, true) :=
        ⟨_, Prod.ext rfl hsnd⟩
      have hfind_of_ne : ∀ impu, impu ≠ first →
          next.bindings.find impu = store.bindings.find impu := by
        intro impu hne
        have hframe : (store.upsertContactLocked first args).1.bindings.find impu =
            store.bindings.find impu := find_upsertContactLocked_of_ne hne
        rwa [hnext] at hframe
      have hrest : ∀ impu ∈ impus, args.goesThrough (next.contacts impu) = true := by
        intro impu hmem
        rw [contacts, hfind_of_ne impu fun heq => hfirst (heq ▸ hmem)]
        exact h impu (List.mem_cons_of_mem first hmem)
      obtain ⟨htrue, hfind⟩ := ih hnodup hrest
      simp only [upsertAll, hnext]
      refine ⟨htrue, ?_⟩
      intro impu
      rw [hfind impu]
      by_cases heq : impu = first
      · subst heq
        rw [if_neg hfirst, if_pos List.mem_cons_self,
          ← find_upsertContactLocked_self (h impu List.mem_cons_self), hnext]
      · rw [hfind_of_ne impu heq]
        simp only [List.mem_cons, heq, false_or]

/-- Whether a batch is written: a required match is there under every identity. -/
def applies (store : MemoryRegistrationStore) (now : Nat) (batch : ContactBatchUpsert) : Bool :=
  batch.impus.elems.all fun impu => batch.goesThrough (store.liveContacts now impu)

theorem applies_of_not_requireExistingMatch {batch : ContactBatchUpsert}
    (h : batch.requireExistingMatch = false) : store.applies now batch = true := by
  rw [applies, List.all_eq_true]
  intro impu _
  rw [ContactUpsert.goesThrough, h]
  rfl

/-- The two loops of a batch agree: it is written everywhere or nowhere. -/
theorem upsertContacts_eq (store : MemoryRegistrationStore) (now : Nat)
    (batch : ContactBatchUpsert) :
    (store.upsertContacts now batch).2 =
        (if store.applies now batch then batch.impus.elems.length else 0) ∧
      ∀ impu, (store.upsertContacts now batch).1.bindings.find impu =
        if impu ∈ batch.impus.elems then
          if store.applies now batch then
            some (written batch.toContactUpsert impu (pruned now (store.bindings.find impu)))
          else pruned now (store.bindings.find impu)
        else store.bindings.find impu := by
  have hfind := find_pruneAll store now batch.impus.elems
  have hcontacts : ∀ impu ∈ batch.impus.elems,
      (store.pruneAll now batch.impus.elems).contacts impu = store.liveContacts now impu :=
    fun impu hmem => contacts_pruneAll_of_mem hmem
  have hguard : (batch.requireExistingMatch = true ∧ ¬ batch.impus.elems.all
      ((store.pruneAll now batch.impus.elems).hasMatch batch.selector) = true) ↔
      store.applies now batch = false := by
    rw [applies, List.all_eq_true, List.all_eq_false]
    constructor
    · rintro ⟨hrequire, hnot⟩
      rw [not_forall] at hnot
      obtain ⟨impu, hnot⟩ := hnot
      rw [Classical.not_imp] at hnot
      refine ⟨impu, hnot.1, ?_⟩
      rw [ContactUpsert.goesThrough, hrequire, ← hcontacts impu hnot.1, ← hasMatch_eq]
      exact hnot.2
    · rintro ⟨impu, hmem, hnot⟩
      rw [ContactUpsert.goesThrough, Bool.or_eq_true, not_or, Bool.not_eq_true',
        Bool.not_eq_false] at hnot
      refine ⟨hnot.1, fun hall => hnot.2 ?_⟩
      rw [← hcontacts impu hmem, ← hasMatch_eq]
      exact hall impu hmem
  rw [upsertContacts]
  simp only [hguard]
  cases happlies : store.applies now batch with
  | false =>
      refine ⟨rfl, fun impu => ?_⟩
      simp only [if_true, Bool.false_eq_true, if_false]
      exact hfind impu
  | true =>
      have hgoes : ∀ impu ∈ batch.impus.elems, batch.goesThrough
          ((store.pruneAll now batch.impus.elems).contacts impu) = true := by
        intro impu hmem
        rw [hcontacts impu hmem]
        exact List.all_eq_true.mp happlies impu hmem
      obtain ⟨htrue, hwritten⟩ := upsertAll_of_goesThrough batch.impus.nodup hgoes
      generalize upsertAll batch.toContactUpsert batch.impus.elems
        (store.pruneAll now batch.impus.elems) = result at htrue hwritten
      obtain ⟨next, changed⟩ := result
      simp only at htrue hwritten
      subst htrue
      simp only [Bool.true_eq_false, if_false, if_true, true_and]
      intro impu
      rw [hwritten impu, hfind impu]
      split <;> rfl

/-- What a batch leaves of the contacts under an identity. -/
theorem contacts_upsertContacts (store : MemoryRegistrationStore) (now : Nat)
    (batch : ContactBatchUpsert) (impu : Bytes) :
    (store.upsertContacts now batch).1.contacts impu =
      if impu ∈ batch.impus.elems then
        if store.applies now batch then batch.write (store.liveContacts now impu)
        else store.liveContacts now impu
      else store.contacts impu := by
  rw [contacts, (upsertContacts_eq store now batch).2 impu]
  split
  · split
    · rw [contactsOf_some, contacts_written, contactsOf_pruned]
      rfl
    · exact contactsOf_pruned now _
  · rfl

/-! ### Removals -/

variable {selector : ContactBindingSelector} {callId : Bytes} {cseq : UInt32}
variable {rejectOlderCseq : Bool}

theorem find_removeContactLocked_of_ne (h : other ≠ impu) :
    (store.removeContactLocked impu selector callId cseq rejectOlderCseq).1.bindings.find other =
      store.bindings.find other := by
  rw [removeContactLocked]
  cases store.bindings.find impu with
  | none => rfl
  | some binding =>
      simp only
      split
      · rfl
      · split
        · exact Table.find_erase_of_ne _ h
        · exact Table.find_insert_of_ne _ _ h

/-- What is found under an identity: all that a store holds. -/
def under (store : MemoryRegistrationStore) (impu : Bytes) : Option RegistrationBinding :=
  store.bindings.find impu

/-- What a removal leaves of what is found under its identity, and whether it removes anything. -/
def removedFrom (selector : ContactBindingSelector) (callId : Bytes) (cseq : UInt32)
    (rejectOlderCseq : Bool) (found : Option RegistrationBinding) :
    Option RegistrationBinding × Bool :=
  match found with
  | none => (none, false)
  | some binding =>
      let contacts := binding.contacts.filter (kept selector callId cseq rejectOlderCseq)
      if contacts.length = binding.contacts.length then (some binding, false)
      else if contacts = [] then (none, true)
      else (some { binding with contacts, state := .registered }, true)

theorem actsAt_removeContactLocked (selector : ContactBindingSelector) (callId : Bytes)
    (cseq : UInt32) (rejectOlderCseq : Bool) :
    ActsAt under
      (fun store impu => store.removeContactLocked impu selector callId cseq rejectOlderCseq)
      fun _ found => removedFrom selector callId cseq rejectOlderCseq found := by
  constructor
  case frame =>
    intro store impu other hne
    exact find_removeContactLocked_of_ne hne
  case seen =>
    intro store impu
    rw [under, under, removeContactLocked]
    cases hfind : store.bindings.find impu with
    | none => exact hfind
    | some binding =>
        simp only [removedFrom]
        split
        · exact hfind
        · split
          · exact Table.find_erase_self _ _
          · exact Table.find_insert_self _ _ _
  case answer =>
    intro store impu
    rw [under, removeContactLocked]
    cases store.bindings.find impu with
    | none => rfl
    | some binding =>
        simp only [removedFrom]
        split
        · rfl
        · split
          · rfl
          · rfl

theorem contactsOf_removedFrom (selector : ContactBindingSelector) (callId : Bytes) (cseq : UInt32)
    (rejectOlderCseq : Bool) (found : Option RegistrationBinding) :
    contactsOf (removedFrom selector callId cseq rejectOlderCseq found).1 =
      (contactsOf found).filter (kept selector callId cseq rejectOlderCseq) := by
  cases found with
  | none => rfl
  | some binding =>
      simp only [removedFrom, contactsOf_some]
      split
      · rename_i hlength
        exact (List.filter_sublist.eq_of_length hlength).symm
      · split
        · rename_i hempty
          exact hempty.symm
        · rfl

theorem contacts_removeContactLocked_self :
    (store.removeContactLocked impu selector callId cseq rejectOlderCseq).1.contacts impu =
      (store.contacts impu).filter (kept selector callId cseq rejectOlderCseq) :=
  (congrArg contactsOf ((actsAt_removeContactLocked selector callId cseq rejectOlderCseq).seen
    store impu)).trans (contactsOf_removedFrom selector callId cseq rejectOlderCseq _)

/-- The loop of `removeContacts`: a removal under each of the identities. -/
def removeAll (batch : ContactBatchRemove) (impus : List Bytes)
    (result : MemoryRegistrationStore × Nat) : MemoryRegistrationStore × Nat :=
  impus.foldl
    (fun result impu =>
      let (store, removed) := result.1.removeContactLocked impu batch.selector batch.callId
        batch.cseq batch.rejectOlderCseq
      (store, if removed then result.2 + 1 else result.2))
    result

theorem removeAll_cons (batch : ContactBatchRemove) (impu : Bytes) (impus : List Bytes)
    (store : MemoryRegistrationStore) (n : Nat) :
    removeAll batch (impu :: impus) (store, n) = removeAll batch impus
      ((store.removeContactLocked impu batch.selector batch.callId batch.cseq
          batch.rejectOlderCseq).1,
        if (store.removeContactLocked impu batch.selector batch.callId batch.cseq
          batch.rejectOlderCseq).2 then n + 1 else n) := rfl

/-- The loop performs the removal for each identity, which acts on that identity alone. -/
theorem removeAll_eq (batch : ContactBatchRemove) : removeAll batch =
    performAll fun store impu => store.removeContactLocked impu batch.selector batch.callId
      batch.cseq batch.rejectOlderCseq := rfl

theorem find_removeAll_of_not_mem (batch : ContactBatchRemove) {impus : List Bytes}
    (h : impu ∉ impus) (n : Nat) :
    (removeAll batch impus (store, n)).1.bindings.find impu = store.bindings.find impu := by
  rw [removeAll_eq]
  exact (actsAt_removeContactLocked batch.selector batch.callId batch.cseq
    batch.rejectOlderCseq).view_performAll_of_not_mem h store n

theorem contacts_removeAll_of_mem (batch : ContactBatchRemove) {impus : List Bytes}
    (hnodup : impus.Nodup) (h : impu ∈ impus) (n : Nat) :
    (removeAll batch impus (store, n)).1.contacts impu = (store.contacts impu).filter
      (kept batch.selector batch.callId batch.cseq batch.rejectOlderCseq) := by
  have hview := (actsAt_removeContactLocked batch.selector batch.callId batch.cseq
    batch.rejectOlderCseq).view_performAll_of_mem hnodup h store n
  rw [removeAll_eq]
  exact (congrArg contactsOf hview).trans (contactsOf_removedFrom _ _ _ _ _)

/-- Outside of a batch, nothing is removed. -/
theorem find_removeContacts_of_not_mem (batch : ContactBatchRemove)
    (h : impu ∉ batch.impus.elems) :
    (store.removeContacts now batch).1.bindings.find impu = store.bindings.find impu := by
  refine (find_removeAll_of_not_mem batch h 0).trans ?_
  rw [find_pruneAll, if_neg h]

theorem contacts_removeContacts (store : MemoryRegistrationStore) (now : Nat)
    (batch : ContactBatchRemove) (impu : Bytes) :
    (store.removeContacts now batch).1.contacts impu =
      if impu ∈ batch.impus.elems then
        (store.liveContacts now impu).filter
          (kept batch.selector batch.callId batch.cseq batch.rejectOlderCseq)
      else store.contacts impu := by
  split
  · rename_i hmem
    refine (contacts_removeAll_of_mem batch batch.impus.nodup hmem 0).trans ?_
    rw [contacts_pruneAll_of_mem hmem]
  · rename_i hmem
    exact congrArg contactsOf (find_removeContacts_of_not_mem batch hmem)

theorem actsAt_erase : ActsAt under
    (fun store impu =>
      ((⟨store.bindings.erase impu⟩ : MemoryRegistrationStore), store.bindings.contains impu))
    fun _ found => (none, found.isSome) where
  seen _ _ := Table.find_erase_self _ _
  answer _ _ := rfl
  frame _ _ _ hne := Table.find_erase_of_ne _ hne

/-- The loop of `removeBindings` erases the identities of the set. -/
theorem find_removeBindings (store : MemoryRegistrationStore) (impus : ImpuSet) (impu : Bytes) :
    (store.removeBindings impus).1.bindings.find impu =
      if impu ∈ impus.elems then none else store.bindings.find impu := by
  split
  · rename_i hmem
    exact actsAt_erase.view_performAll_of_mem impus.nodup hmem store 0
  · rename_i hmem
    exact actsAt_erase.view_performAll_of_not_mem hmem store 0

theorem find_purgeExpired (store : MemoryRegistrationStore) (now : Nat) (impu : Bytes) :
    (store.purgeExpired now).1.bindings.find impu = pruned now (store.bindings.find impu) := by
  have hmap := Table.find_mapValues store.bindings (fun _ binding =>
    { binding with contacts := binding.contacts.filter (·.live now) }) impu
  cases hfind : store.bindings.find impu with
  | none =>
      rw [hfind] at hmap
      rw [pruned, Option.bind_none, Option.eq_none_iff_forall_ne_some]
      intro binding hbinding
      obtain ⟨hfound, -⟩ := Table.find_eraseIf_eq_some_iff.mp hbinding
      rw [hmap] at hfound
      cases hfound
  | some binding =>
      rw [hfind, Option.map_some] at hmap
      rw [pruned, Option.bind_some]
      by_cases hempty : binding.contacts.filter (·.live now) = []
      · simp only [hempty, if_true]
        rw [Option.eq_none_iff_forall_ne_some]
        intro other hother
        obtain ⟨hfound, hkept⟩ := Table.find_eraseIf_eq_some_iff.mp hother
        rw [hmap] at hfound
        cases hfound
        rw [hempty] at hkept
        cases hkept
      · simp only [hempty, if_false]
        apply Table.find_eraseIf_eq_some_iff.mpr
        refine ⟨hmap, ?_⟩
        rwa [List.isEmpty_eq_false_iff]

/-! ### Operations that add nothing -/

/-- Under every identity, only contacts that were there are left, in their order. -/
def Shrinks (store next : MemoryRegistrationStore) : Prop :=
  ∀ impu, (next.contacts impu).Sublist (store.contacts impu)

theorem liveContacts_sublist (store : MemoryRegistrationStore) (now : Nat) (impu : Bytes) :
    (store.liveContacts now impu).Sublist (store.contacts impu) := List.filter_sublist

theorem pruneExpiredLocked_shrinks (store : MemoryRegistrationStore) (now : Nat) (impu : Bytes) :
    store.Shrinks (store.pruneExpiredLocked now impu) := by
  intro other
  by_cases heq : other = impu
  · subst heq
    rw [contacts, find_pruneExpiredLocked_self, contactsOf_pruned]
    exact List.filter_sublist
  · rw [contacts, find_pruneExpiredLocked_of_ne heq]
    exact List.Sublist.refl _

@[simp] theorem fst_lookup :
    (store.lookup now impu follower).1 = store.pruneExpiredLocked now impu := rfl

theorem contacts_pruneExpiredLocked :
    (store.pruneExpiredLocked now impu).contacts other =
      if other = impu then store.liveContacts now other else store.contacts other := by
  rw [contacts, find_pruneExpiredLocked]
  split
  · rename_i heq
    rw [heq, contactsOf_pruned]
    rfl
  · rfl

@[simp] theorem fst_isRegistered :
    (store.isRegistered now impu follower).1 = store.pruneExpiredLocked now impu := rfl

theorem removeContact_shrinks : store.Shrinks (store.removeContact now impu selector).1 := by
  intro other
  refine List.Sublist.trans ?_ (pruneExpiredLocked_shrinks store now impu other)
  by_cases heq : other = impu
  · subst heq
    rw [removeContact, contacts_removeContactLocked_self]
    exact List.filter_sublist
  · rw [removeContact, contacts, find_removeContactLocked_of_ne heq]
    exact List.Sublist.refl _

theorem removeContacts_shrinks (batch : ContactBatchRemove) :
    store.Shrinks (store.removeContacts now batch).1 := by
  intro impu
  rw [contacts_removeContacts]
  split
  · exact List.filter_sublist.trans List.filter_sublist
  · exact List.Sublist.refl _

theorem removeBindings_shrinks (impus : ImpuSet) :
    store.Shrinks (store.removeBindings impus).1 := by
  intro impu
  rw [contacts, find_removeBindings]
  split
  · exact List.nil_sublist _
  · exact List.Sublist.refl _

theorem remove_shrinks : store.Shrinks (store.remove impu) := by
  intro other
  rw [contacts, remove, Table.find_erase]
  split
  · exact List.nil_sublist _
  · exact List.Sublist.refl _

theorem purgeExpired_shrinks : store.Shrinks (store.purgeExpired now).1 := by
  intro impu
  rw [contacts, find_purgeExpired, contactsOf_pruned]
  exact List.filter_sublist

end MemoryRegistrationStore
end SimIms.Registration
