import SimIms.Registration.StoreContents

/-!
# The order of a batch

A batch goes through an unordered set. What it does under one identity depends on what is found
there only, so neither its answer nor what it leaves depends on the order of the iteration. An
upsert that needs no match is the same as a single upsert for each identity.
-/

namespace SimIms.Registration

open Cxx Lib

namespace MemoryRegistrationStore

variable {store next : MemoryRegistrationStore} {now : Nat} {impu : Bytes}

/-- Both stores hold the same bindings. -/
def Same (store next : MemoryRegistrationStore) : Prop := ∀ impu, store.under impu = next.under impu

/-- An operation on a set of identities answers and leaves the same however the set is iterated. -/
def IgnoresOrder (operation : ImpuSet → MemoryRegistrationStore × Nat) : Prop :=
  ∀ impus impus' : ImpuSet, impus.elems.Perm impus'.elems →
    (operation impus).2 = (operation impus').2 ∧ (operation impus).1.Same (operation impus').1

/-- Single upserts for each of the identities, each with a clock reading of its own. -/
def upsertEach (args : ContactUpsert) (clock : Bytes → Nat) (impus : List Bytes)
    (store : MemoryRegistrationStore) : MemoryRegistrationStore :=
  impus.foldl (fun store impu => (store.upsertContact (clock impu) impu args).1) store

/-- The batch operations on a store, at one clock reading each. -/
structure OrderIndependent (store : MemoryRegistrationStore) (now : Nat) : Prop where
  upsertContacts : ∀ args : ContactUpsert,
    IgnoresOrder fun impus => store.upsertContacts now { args with impus }
  removeContacts : ∀ selector callId cseq rejectOlderCseq, IgnoresOrder fun impus =>
    store.removeContacts now { impus, selector, callId, cseq, rejectOlderCseq }
  removeBindings : IgnoresOrder store.removeBindings
  /-- The single upserts may come later than the batch, as long as nothing has expired since. -/
  oneByOne : ∀ (args : ContactUpsert) (impus : ImpuSet), args.requireExistingMatch = false →
    ∀ order : List Bytes, order.Perm impus.elems → ∀ clock : Bytes → Nat,
      (∀ impu ∈ order, ∀ contact ∈ store.contacts impu,
        contact.live (clock impu) = contact.live now) →
      (store.upsertContacts now { args with impus }).1.Same (store.upsertEach args clock order)

/-! ## Upserts -/

theorem upsertContacts_ignoresOrder (store : MemoryRegistrationStore) (now : Nat)
    (args : ContactUpsert) :
    IgnoresOrder fun impus => store.upsertContacts now { args with impus } := by
  intro impus impus' hperm
  have happlies : store.applies now { args with impus } =
      store.applies now { args with impus := impus' } :=
    hperm.all_eq
  obtain ⟨hcount, hfind⟩ := upsertContacts_eq store now { args with impus }
  obtain ⟨hcount', hfind'⟩ := upsertContacts_eq store now { args with impus := impus' }
  constructor
  · rw [hcount, hcount', happlies, hperm.length_eq]
  · intro impu
    refine (hfind impu).trans (Eq.trans ?_ (hfind' impu).symm)
    simp only [happlies, hperm.mem_iff]

/-- The action of a single upsert that needs no match. -/
theorem actsAt_upsertContact {args : ContactUpsert} (clock : Bytes → Nat)
    (hrequire : args.requireExistingMatch = false) :
    ActsAt under (fun store impu => store.upsertContact (clock impu) impu args)
      fun impu found => (some (written args impu (pruned (clock impu) found)), true) := by
  have hgoes : ∀ contacts, args.goesThrough contacts = true := by
    intro contacts
    rw [ContactUpsert.goesThrough, hrequire]
    rfl
  constructor
  case seen =>
    intro store impu
    rw [under, upsertContact, find_upsertContactLocked_self (hgoes _), find_pruneExpiredLocked_self]
    rfl
  case answer =>
    intro store impu
    exact (snd_upsertContactLocked _ _ _).trans (hgoes _)
  case frame =>
    intro store impu other hne
    rw [under, upsertContact, find_upsertContactLocked_of_ne hne, find_pruneExpiredLocked_of_ne hne]
    rfl

theorem upsertEach_eq (args : ContactUpsert) (clock : Bytes → Nat) (impus : List Bytes)
    (store : MemoryRegistrationStore) : store.upsertEach args clock impus =
      (performAll (fun store impu => store.upsertContact (clock impu) impu args) impus
        (store, 0)).1 := by
  generalize 0 = n
  induction impus generalizing store n with
  | nil => rfl
  | cons first impus ih => exact ih (store.upsertContact (clock first) first args).1 _

theorem pruned_congr {now later : Nat} {found : Option RegistrationBinding}
    (h : ∀ contact ∈ contactsOf found, contact.live later = contact.live now) :
    pruned later found = pruned now found := by
  cases found with
  | none => rfl
  | some binding =>
      have hcontacts : binding.contacts.filter (·.live later) =
          binding.contacts.filter (·.live now) :=
        List.filter_congr h
      rw [pruned, pruned, Option.bind_some, Option.bind_some, hcontacts]

theorem upsertContacts_same_upsertEach {args : ContactUpsert} {impus : ImpuSet}
    (hrequire : args.requireExistingMatch = false) {order : List Bytes}
    (hperm : order.Perm impus.elems) {clock : Bytes → Nat}
    (hclock : ∀ impu ∈ order, ∀ contact ∈ store.contacts impu,
      contact.live (clock impu) = contact.live now) :
    (store.upsertContacts now { args with impus }).1.Same (store.upsertEach args clock order) := by
  intro impu
  have hnodup : order.Nodup := hperm.nodup_iff.mpr impus.nodup
  have hacts := actsAt_upsertContact clock hrequire
  have happlies : store.applies now { args with impus } = true :=
    applies_of_not_requireExistingMatch hrequire
  refine ((upsertContacts_eq store now { args with impus }).2 impu).trans ?_
  rw [upsertEach_eq]
  by_cases hmem : impu ∈ impus.elems
  · have hmem' : impu ∈ order := hperm.mem_iff.mpr hmem
    rw [hacts.view_performAll_of_mem hnodup hmem', if_pos hmem, if_pos happlies, under,
      pruned_congr (hclock impu hmem')]
  · rw [hacts.view_performAll_of_not_mem fun hmem' => hmem (hperm.mem_iff.mp hmem'), if_neg hmem]
    rfl

/-! ## Removals -/

theorem removeContacts_ignoresOrder (store : MemoryRegistrationStore) (now : Nat)
    (selector : ContactBindingSelector) (callId : Bytes) (cseq : UInt32) (rejectOlderCseq : Bool) :
    IgnoresOrder fun impus =>
      store.removeContacts now { impus, selector, callId, cseq, rejectOlderCseq } := by
  intro impus impus' hperm
  have hacts := actsAt_removeContactLocked selector callId cseq rejectOlderCseq
  -- Both loops start from stores that hold the same: pruning acts on each identity alone, too.
  have hpruned : (store.pruneAll now impus.elems).Same (store.pruneAll now impus'.elems) := by
    intro impu
    rw [under, under, find_pruneAll, find_pruneAll]
    simp only [hperm.mem_iff]
  obtain ⟨hcount, hview⟩ := hacts.performAll_perm impus.nodup hperm
    (store.pruneAll now impus.elems) 0
  obtain ⟨hcount', hview'⟩ := hacts.performAll_congr impus'.nodup hpruned 0
  exact ⟨hcount.trans hcount', fun impu => (hview impu).trans (hview' impu)⟩

theorem removeBindings_ignoresOrder (store : MemoryRegistrationStore) :
    IgnoresOrder store.removeBindings := fun impus _ hperm =>
  actsAt_erase.performAll_perm impus.nodup hperm store 0

/-- No batch operation depends on the order in which the identities are iterated. -/
theorem batches_orderIndependent (store : MemoryRegistrationStore) (now : Nat) :
    store.OrderIndependent now where
  upsertContacts := upsertContacts_ignoresOrder store now
  removeContacts := removeContacts_ignoresOrder store now
  removeBindings := removeBindings_ignoresOrder store
  oneByOne _ _ hrequire _ hperm _ hclock := upsertContacts_same_upsertEach hrequire hperm hclock

end MemoryRegistrationStore
end SimIms.Registration
