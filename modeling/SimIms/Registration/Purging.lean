import SimIms.Registration.StoreCalls

/-!
# When purging is invisible

Every operation prunes what it is about before it looks at it. Two stores that pruning makes
equal therefore stay so, and purging only does to a store what pruning would have done. They answer
alike except where pruning erases the binding that is looked for: the iterator goes on to the next
entry of the map, and what belongs to another identity is taken for the answer.
-/

namespace SimIms.Registration

open Cxx Lib

/-- The calls whose answers users of the store act on. -/
def StoreCall.observed : StoreCall → Bool
  | .lookup _ _ => true
  | .isRegistered _ _ => true
  | .upsertContact _ _ => true
  | .upsertContacts _ => true
  | .removeContact _ _ => true
  | .removeContacts _ => true
  | _ => false

/-- The same call, with another entry next in the map. -/
def StoreCall.followedBy (follower : Option Bytes) : StoreCall → StoreCall
  | .lookup impu _ => .lookup impu follower
  | .isRegistered impu _ => .isRegistered impu follower
  | call => call

theorem StoreCall.exists_followedBy (call : StoreCall) :
    ∃ follower, call.followedBy follower = call := by
  cases call with
  | lookup impu follower | isRegistered impu follower => exact ⟨follower, rfl⟩
  | store | upsertContact | removeContact | upsertContacts | removeContacts | removeBindings
  | remove | purgeExpired => exact ⟨none, rfl⟩

theorem StoreCall.observed_followedBy (call : StoreCall) (follower : Option Bytes) :
    (call.followedBy follower).observed = call.observed := by
  cases call <;> rfl

/-- The second run has further purges, at any points, and its map any order. -/
inductive Purged : List TimedCall → List TimedCall → Prop where
  | nil : Purged [] []
  | keep {as bs : List TimedCall} (label : TimedCall) (follower : Option Bytes) : Purged as bs →
      Purged (label :: as) ((label.1, label.2.followedBy follower) :: bs)
  | purge {as bs : List TimedCall} (now : Nat) : Purged as bs →
      Purged as ((now, .purgeExpired) :: bs)

/-- The clock does not go back. -/
def ClockSorted (as : List TimedCall) : Prop := as.Pairwise fun a b => a.1 ≤ b.1

theorem Purged.refl (as : List TimedCall) : Purged as as := by
  induction as with
  | nil => exact .nil
  | cons label as ih =>
      obtain ⟨follower, hsame⟩ := label.2.exists_followedBy
      have hkeep := ih.keep label follower
      rwa [hsame] at hkeep

/-- The answers of a run that are observed, each with its call. -/
def observe (answers : List (StoreCall × CallAnswer)) : List (StoreCall × CallAnswer) :=
  (answers.filter fun answer => answer.1.observed).map fun answer =>
    (answer.1.followedBy none, answer.2)

namespace MemoryRegistrationStore

variable {s t : MemoryRegistrationStore} {now later : Nat} {impu : Bytes}

/-- The stores differ at most in what has expired. -/
def Agree (now : Nat) (s t : MemoryRegistrationStore) : Prop :=
  ∀ impu, pruned now (s.bindings.find impu) = pruned now (t.bindings.find impu)

theorem Agree.mono (h : Agree now s t) (hle : now ≤ later) : Agree later s t := by
  intro impu
  rw [← pruned_pruned hle, h impu, pruned_pruned hle]

theorem Agree.purge (h : Agree now s t) : Agree now s (t.purgeExpired now).1 := by
  intro impu
  rw [find_purgeExpired, pruned_pruned (le_refl now)]
  exact h impu

theorem agree_lookup (now : Nat) (store : MemoryRegistrationStore) (impu : Bytes)
    (follower : Option Bytes) : Agree now store (store.lookup now impu follower).1 := by
  intro other
  rw [fst_lookup, find_pruneExpiredLocked]
  split
  · rename_i heq
    rw [heq, pruned_pruned (le_refl now)]
  · rfl

theorem Agree.liveContacts (h : Agree now s t) (impu : Bytes) :
    s.liveContacts now impu = t.liveContacts now impu := by
  have hcontacts := congrArg contactsOf (h impu)
  rwa [contactsOf_pruned, contactsOf_pruned] at hcontacts

theorem Agree.applies (h : Agree now s t) (batch : ContactBatchUpsert) :
    s.applies now batch = t.applies now batch := by
  rw [MemoryRegistrationStore.applies, MemoryRegistrationStore.applies]
  simp only [h.liveContacts]

/-- The second store is the first, with some of what has expired gone. -/
def Behind (now : Nat) (s t : MemoryRegistrationStore) : Prop :=
  ∀ impu, t.bindings.find impu = s.bindings.find impu ∨
    ∃ earlier ≤ now, t.bindings.find impu = pruned earlier (s.bindings.find impu)

theorem Behind.refl (now : Nat) (s : MemoryRegistrationStore) : Behind now s s := fun _ => .inl rfl

theorem Behind.agree (h : Behind now s t) : Agree now s t := by
  intro impu
  obtain heq | ⟨earlier, hle, heq⟩ := h impu
  · rw [heq]
  · rw [heq, pruned_pruned hle]

theorem Behind.mono (h : Behind now s t) (hle : now ≤ later) : Behind later s t := by
  intro impu
  obtain heq | ⟨earlier, hearlier, heq⟩ := h impu
  · exact .inl heq
  · exact .inr ⟨earlier, Nat.le_trans hearlier hle, heq⟩

theorem Behind.purge (h : Behind now s t) : Behind now s (t.purgeExpired now).1 := by
  intro impu
  rw [find_purgeExpired]
  obtain heq | ⟨earlier, hle, heq⟩ := h impu
  · exact .inr ⟨now, Nat.le_refl now, by rw [heq]⟩
  · exact .inr ⟨now, Nat.le_refl now, by rw [heq, pruned_pruned hle]⟩

/-- What the second store holds under an identity, the first holds with no fewer contacts. -/
theorem Behind.exists_find (h : Behind now s t) {binding : RegistrationBinding}
    (hfind : t.bindings.find impu = some binding) :
    ∃ stored, s.bindings.find impu = some stored ∧ stored.state = binding.state ∧
      binding.contacts ⊆ stored.contacts := by
  obtain heq | ⟨earlier, -, heq⟩ := h impu
  · exact ⟨binding, by rw [← heq, hfind], rfl, List.Subset.refl _⟩
  · rw [hfind] at heq
    obtain ⟨stored, hstored, hpruned⟩ := Option.bind_eq_some_iff.mp heq.symm
    simp only at hpruned
    split at hpruned
    · cases hpruned
    · cases hpruned
      exact ⟨stored, hstored, rfl, List.filter_subset_self _⟩

/-- Under each identity, the stores have come to hold the same, or hold what they held before. -/
def Converge (s t s' t' : MemoryRegistrationStore) : Prop :=
  ∀ impu, s'.bindings.find impu = t'.bindings.find impu ∨
    s'.bindings.find impu = s.bindings.find impu ∧ t'.bindings.find impu = t.bindings.find impu

theorem Converge.behind {s' t' : MemoryRegistrationStore} (hconverge : Converge s t s' t')
    (h : Behind now s t) : Behind now s' t' := by
  intro impu
  obtain heq | ⟨hs, ht⟩ := hconverge impu
  · exact .inl heq.symm
  · rw [hs, ht]
    exact h impu

/-! ## Single bindings -/

/-- A function of the store that reads and writes the binding of one identity only. -/
structure ActsOn (impu : Bytes) {α : Type} (f : MemoryRegistrationStore →
    MemoryRegistrationStore × α) : Prop where
  outside : ∀ s other, other ≠ impu → (f s).1.bindings.find other = s.bindings.find other
  inside : ∀ s t, s.bindings.find impu = t.bindings.find impu →
    (f s).2 = (f t).2 ∧ (f s).1.bindings.find impu = (f t).1.bindings.find impu

theorem upsertContactLocked_actsOn (impu : Bytes) (args : ContactUpsert) :
    ActsOn impu (·.upsertContactLocked impu args) where
  outside s other hne := find_upsertContactLocked_of_ne hne
  inside s t h := by
    have hcontacts : s.contacts impu = t.contacts impu := congrArg contactsOf h
    refine ⟨by rw [snd_upsertContactLocked, snd_upsertContactLocked, hcontacts], ?_⟩
    by_cases hwrites : t.bindings.find impu ≠ none ∨ args.requireExistingMatch = false
    · rw [upsertContactLocked_eq hwrites, upsertContactLocked_eq (h ▸ hwrites),
        Table.find_insert_self, Table.find_insert_self, h]
    · rw [not_or, not_not, Bool.not_eq_false] at hwrites
      rw [upsertContactLocked_of_unbound hwrites.1 hwrites.2,
        upsertContactLocked_of_unbound (h.trans hwrites.1) hwrites.2]
      exact h

theorem removeContactLocked_actsOn (impu : Bytes) (selector : ContactBindingSelector)
    (callId : Bytes) (cseq : UInt32) (rejectOlderCseq : Bool) :
    ActsOn impu (·.removeContactLocked impu selector callId cseq rejectOlderCseq) where
  outside s other hne := find_removeContactLocked_of_ne hne
  inside s t h := by
    rw [removeContactLocked, removeContactLocked, h]
    cases hfind : t.bindings.find impu with
    | none => exact ⟨rfl, h⟩
    | some binding =>
        simp only
        split
        · exact ⟨rfl, h⟩
        · split
          · exact ⟨rfl, by rw [Table.find_erase_self, Table.find_erase_self]⟩
          · exact ⟨rfl, by rw [Table.find_insert_self, Table.find_insert_self]⟩

theorem Agree.find_pruneExpiredLocked (h : Agree now s t) (impu : Bytes) :
    (s.pruneExpiredLocked now impu).bindings.find impu =
      (t.pruneExpiredLocked now impu).bindings.find impu := by
  rw [find_pruneExpiredLocked_self, find_pruneExpiredLocked_self]
  exact h impu

/-- After pruning its identity, such a function cannot tell the stores apart. -/
theorem Agree.act (h : Agree now s t) {α : Type} {f : MemoryRegistrationStore →
    MemoryRegistrationStore × α} (hf : ActsOn impu f) :
    (f (s.pruneExpiredLocked now impu)).2 = (f (t.pruneExpiredLocked now impu)).2 ∧
      Converge s t (f (s.pruneExpiredLocked now impu)).1 (f (t.pruneExpiredLocked now impu)).1 := by
  obtain ⟨hanswer, hinside⟩ := hf.inside _ _ (h.find_pruneExpiredLocked impu)
  refine ⟨hanswer, fun other => ?_⟩
  by_cases heq : other = impu
  · rw [heq]
    exact .inl hinside
  · rw [hf.outside _ _ heq, hf.outside _ _ heq, find_pruneExpiredLocked_of_ne heq,
      find_pruneExpiredLocked_of_ne heq]
    exact .inr ⟨rfl, rfl⟩

/-! ## Batches -/

/-- The same is found under each of these identities. -/
def SameOn (impus : List Bytes) (s t : MemoryRegistrationStore) : Prop :=
  ∀ impu ∈ impus, s.bindings.find impu = t.bindings.find impu

theorem SameOn.act {impus : List Bytes} (h : SameOn impus s t) (hmem : impu ∈ impus) {α : Type}
    {f : MemoryRegistrationStore → MemoryRegistrationStore × α} (hf : ActsOn impu f) :
    (f s).2 = (f t).2 ∧ SameOn impus (f s).1 (f t).1 := by
  obtain ⟨hanswer, hinside⟩ := hf.inside s t (h impu hmem)
  refine ⟨hanswer, ?_⟩
  intro other hother
  by_cases heq : other = impu
  · rw [heq, hinside]
  · rw [hf.outside s other heq, hf.outside t other heq]
    exact h other hother

theorem SameOn.removeAll {impus todo : List Bytes} (h : SameOn impus s t) (htodo : todo ⊆ impus)
    (batch : ContactBatchRemove) (n : Nat) :
    (MemoryRegistrationStore.removeAll batch todo (s, n)).2 =
        (MemoryRegistrationStore.removeAll batch todo (t, n)).2 ∧
      SameOn impus (MemoryRegistrationStore.removeAll batch todo (s, n)).1
        (MemoryRegistrationStore.removeAll batch todo (t, n)).1 := by
  induction todo generalizing s t n with
  | nil => exact ⟨rfl, h⟩
  | cons first todo ih =>
      obtain ⟨hfirst, htodo⟩ := List.cons_subset.mp htodo
      obtain ⟨hanswer, hsame⟩ := h.act hfirst (removeContactLocked_actsOn first batch.selector
        batch.callId batch.cseq batch.rejectOlderCseq)
      rw [removeAll_cons, removeAll_cons, hanswer]
      exact ih hsame htodo _

theorem Agree.sameOn_pruneAll (h : Agree now s t) (impus : List Bytes) :
    SameOn impus (s.pruneAll now impus) (t.pruneAll now impus) := by
  intro impu hmem
  rw [find_pruneAll, find_pruneAll, if_pos hmem, if_pos hmem]
  exact h impu

theorem Agree.removeContacts (h : Agree now s t) (batch : ContactBatchRemove) :
    (s.removeContacts now batch).2 = (t.removeContacts now batch).2 ∧
      Converge s t (s.removeContacts now batch).1 (t.removeContacts now batch).1 := by
  obtain ⟨hanswer, hsame⟩ :=
    (h.sameOn_pruneAll batch.impus.elems).removeAll (List.Subset.refl _) batch 0
  refine ⟨hanswer, fun impu => ?_⟩
  by_cases hmem : impu ∈ batch.impus.elems
  · exact .inl (hsame impu hmem)
  · rw [find_removeContacts_of_not_mem batch hmem, find_removeContacts_of_not_mem batch hmem]
    exact .inr ⟨rfl, rfl⟩

theorem Agree.upsertContacts (h : Agree now s t) (batch : ContactBatchUpsert) :
    (s.upsertContacts now batch).2 = (t.upsertContacts now batch).2 ∧
      Converge s t (s.upsertContacts now batch).1 (t.upsertContacts now batch).1 := by
  obtain ⟨hcount, hfind⟩ := upsertContacts_eq s now batch
  obtain ⟨hcount', hfind'⟩ := upsertContacts_eq t now batch
  refine ⟨by rw [hcount, hcount', h.applies], fun impu => ?_⟩
  rw [hfind, hfind', h.applies, h impu]
  split
  · exact .inl rfl
  · exact .inr ⟨rfl, rfl⟩

/-! ## Calls -/

/-- A call that may be given what belongs to another identity: the binding has lapsed, and another
may follow it in the map. Of a registration only one that counts makes a difference. -/
def Misled (store : MemoryRegistrationStore) (now : Nat) : StoreCall → Prop
  | .lookup impu _ => store.Lapsed now impu ∧
      ∃ other binding, other ≠ impu ∧ store.bindings.find other = some binding
  | .isRegistered impu _ => store.Lapsed now impu ∧
      ∃ other binding, other ≠ impu ∧ store.bindings.find other = some binding ∧
        binding.state = .registered ∧ binding.contacts ≠ []
  | _ => False

theorem fst_call_followedBy (store : MemoryRegistrationStore) (call : StoreCall)
    (follower : Option Bytes) :
    (store.call now (call.followedBy follower)).1 = (store.call now call).1 := by
  cases call with
  | store | lookup | upsertContact | removeContact | upsertContacts | removeContacts
  | removeBindings | remove | purgeExpired | isRegistered => rfl

/-- One call on stores that agree. -/
theorem Agree.call (h : Agree now s t) (call : StoreCall) :
    Converge s t (s.call now call).1 (t.call now call).1 := by
  cases call with
  | store binding =>
      intro impu
      change Table.find (Table.insert _ _ _) impu = Table.find (Table.insert _ _ _) impu ∨
        Table.find (Table.insert _ _ _) impu = _ ∧ Table.find (Table.insert _ _ _) impu = _
      rw [Table.find_insert, Table.find_insert]
      split
      · exact .inl rfl
      · exact .inr ⟨rfl, rfl⟩
  | lookup impu follower | isRegistered impu follower =>
      intro other
      change (s.pruneExpiredLocked now impu).bindings.find other =
        (t.pruneExpiredLocked now impu).bindings.find other ∨ _
      by_cases heq : other = impu
      · rw [heq]
        exact .inl (h.find_pruneExpiredLocked impu)
      · exact .inr ⟨find_pruneExpiredLocked_of_ne heq, find_pruneExpiredLocked_of_ne heq⟩
  | upsertContact impu args => exact (h.act (upsertContactLocked_actsOn impu args)).2
  | removeContact impu selector =>
      exact (h.act (removeContactLocked_actsOn impu selector [] 0 false)).2
  | upsertContacts batch => exact (h.upsertContacts batch).2
  | removeContacts batch => exact (h.removeContacts batch).2
  | removeBindings impus =>
      intro impu
      simp only [MemoryRegistrationStore.call, find_removeBindings]
      split
      · exact .inl rfl
      · exact .inr ⟨rfl, rfl⟩
  | remove impu =>
      intro other
      simp only [MemoryRegistrationStore.call, MemoryRegistrationStore.remove, Table.find_erase]
      split
      · exact .inl rfl
      · exact .inr ⟨rfl, rfl⟩
  | purgeExpired =>
      intro impu
      simp only [MemoryRegistrationStore.call, find_purgeExpired]
      exact .inl (h impu)

theorem Behind.lapsed_of (h : Behind now s t) (hlapsed : t.Lapsed now impu) :
    s.Lapsed now impu := by
  obtain ⟨binding, hfind, hpruned⟩ := hlapsed
  obtain ⟨stored, hstored, -, -⟩ := h.exists_find hfind
  refine ⟨stored, hstored, ?_⟩
  rw [← hstored, h.agree impu, hfind, hpruned]

theorem Lapsed.pruned_eq_none (h : s.Lapsed now impu) :
    pruned now (s.bindings.find impu) = none := by
  obtain ⟨binding, hfind, hpruned⟩ := h
  rw [hfind, hpruned]

/-- Where pruning leaves nothing, what is taken for the answer belongs to another identity. -/
theorem exists_other_of_prunedEntry {follower : Option Bytes} {binding : RegistrationBinding}
    (hnone : pruned now (s.bindings.find impu) = none)
    (hentry : s.prunedEntry now impu follower = some binding) :
    ∃ other, other ≠ impu ∧ s.bindings.find other = some binding := by
  obtain hown | ⟨-, other, hne, -, hfind⟩ := prunedEntry_eq_some hentry
  · rw [hnone] at hown
    cases hown
  · exact ⟨other, hne, hfind⟩

/-- A look-up that is not misled answers from what pruning leaves, in both stores. -/
theorem Behind.prunedEntry (h : Behind now s t) {follower : Option Bytes}
    (hmisled : ¬ s.Misled now (.lookup impu follower)) (follower' : Option Bytes) :
    s.prunedEntry now impu follower = pruned now (s.bindings.find impu) ∧
      t.prunedEntry now impu follower' = pruned now (s.bindings.find impu) := by
  by_cases hlapsed : s.Lapsed now impu
  · rw [hlapsed.pruned_eq_none, Option.eq_none_iff_forall_ne_some,
      Option.eq_none_iff_forall_ne_some]
    constructor
    · intro binding hentry
      obtain ⟨other, hne, hfind⟩ := exists_other_of_prunedEntry hlapsed.pruned_eq_none hentry
      exact hmisled ⟨hlapsed, other, binding, hne, hfind⟩
    · intro binding hentry
      obtain ⟨other, hne, hfind⟩ := exists_other_of_prunedEntry
        ((h.agree impu).symm.trans hlapsed.pruned_eq_none) hentry
      obtain ⟨stored, hstored, -, -⟩ := h.exists_find hfind
      exact hmisled ⟨hlapsed, other, stored, hne, hstored⟩
  · rw [prunedEntry_of_not_lapsed hlapsed,
      prunedEntry_of_not_lapsed fun ht => hlapsed (h.lapsed_of ht)]
    exact ⟨rfl, (h.agree impu).symm⟩

theorem isRegistered_eq_true_iff {store : MemoryRegistrationStore} {follower : Option Bytes} :
    (store.isRegistered now impu follower).2 = true ↔
      ∃ binding, store.prunedEntry now impu follower = some binding ∧
        binding.state = .registered ∧ binding.contacts ≠ [] := by
  rw [isRegistered]
  cases store.prunedEntry now impu follower with
  | none => simp
  | some binding => simp

theorem Behind.isRegistered (h : Behind now s t) {follower : Option Bytes}
    (hmisled : ¬ s.Misled now (.isRegistered impu follower)) (follower' : Option Bytes) :
    (s.isRegistered now impu follower).2 = (t.isRegistered now impu follower').2 := by
  rw [Bool.eq_iff_iff, isRegistered_eq_true_iff, isRegistered_eq_true_iff]
  by_cases hlapsed : s.Lapsed now impu
  · constructor
    · rintro ⟨binding, hentry, hregistered⟩
      obtain ⟨other, hne, hfind⟩ := exists_other_of_prunedEntry hlapsed.pruned_eq_none hentry
      exact (hmisled ⟨hlapsed, other, binding, hne, hfind, hregistered⟩).elim
    · rintro ⟨binding, hentry, hregistered, hcontacts⟩
      obtain ⟨other, hne, hfind⟩ := exists_other_of_prunedEntry
        ((h.agree impu).symm.trans hlapsed.pruned_eq_none) hentry
      obtain ⟨stored, hstored, hstate, hsubset⟩ := h.exists_find hfind
      exact (hmisled ⟨hlapsed, other, stored, hne, hstored, hstate.trans hregistered,
        fun hnil => hcontacts (List.subset_nil.mp (hnil ▸ hsubset))⟩).elim
  · rw [prunedEntry_of_not_lapsed hlapsed,
      prunedEntry_of_not_lapsed fun ht => hlapsed (h.lapsed_of ht), h.agree impu]

/-- A call that is not misled is answered in both stores alike, whatever the order of the second. -/
theorem Behind.answer (h : Behind now s t) {call : StoreCall} (hobserved : call.observed = true)
    (hmisled : ¬ s.Misled now call) (follower : Option Bytes) :
    (s.call now call).2 = (t.call now (call.followedBy follower)).2 := by
  cases call with
  | store | removeBindings | remove | purgeExpired => exact (Bool.false_ne_true hobserved).elim
  | lookup impu _ =>
      obtain ⟨hs, ht⟩ := h.prunedEntry hmisled follower
      simp only [MemoryRegistrationStore.call, StoreCall.followedBy, lookup, hs, ht]
  | isRegistered impu _ => exact congrArg CallAnswer.flag (h.isRegistered hmisled follower)
  | upsertContact impu args =>
      exact congrArg CallAnswer.flag (h.agree.act (upsertContactLocked_actsOn impu args)).1
  | removeContact impu selector =>
      exact congrArg CallAnswer.flag
        (h.agree.act (removeContactLocked_actsOn impu selector [] 0 false)).1
  | upsertContacts batch => exact congrArg CallAnswer.count (h.agree.upsertContacts batch).1
  | removeContacts batch => exact congrArg CallAnswer.count (h.agree.removeContacts batch).1

/-! ## Runs -/

/-- What is looked up in this step has contacts, none of which has expired. -/
def LooksLive (_ : MemoryRegistrationStore) (label : TimedCall) (_ : MemoryRegistrationStore)
    (out : List (StoreCall × CallAnswer)) : Prop :=
  ∀ call binding, (call, CallAnswer.binding (.ok binding)) ∈ out →
    binding.contacts ≠ [] ∧ ∀ contact ∈ binding.contacts, label.1 < contact.expires

/-- Further purges, none of them before this time, change no observed answer of the run, and all
that is looked up is live. -/
def PurgingInvisible (store : MemoryRegistrationStore) (now : Nat) (as : List TimedCall) : Prop :=
  ∀ bs, Purged as bs → ClockSorted bs → (∀ label ∈ bs, now ≤ label.1) →
    ∃ s t answers answers', storeMachine.exec store as = some (s, answers) ∧
      storeMachine.exec store bs = some (t, answers') ∧ observe answers = observe answers' ∧
      storeMachine.Along LooksLive store bs

/-- No call of the run may be misled. -/
def NeverMisled (store : MemoryRegistrationStore) (as : List TimedCall) : Prop :=
  storeMachine.Along (fun s label _ _ => ¬ s.Misled label.1 label.2) store as

theorem live_of_pruned {found : Option RegistrationBinding} {binding : RegistrationBinding}
    (h : pruned now found = some binding) :
    binding.contacts ≠ [] ∧ ∀ contact ∈ binding.contacts, now < contact.expires := by
  obtain ⟨stored, -, hpruned⟩ := Option.bind_eq_some_iff.mp h
  simp only at hpruned
  split at hpruned
  · cases hpruned
  · rename_i hne
    cases hpruned
    exact ⟨hne, fun contact hmem => of_decide_eq_true (List.mem_filter.mp hmem).2⟩

theorem Behind.looksLive (h : Behind now s t) {call : StoreCall} (hmisled : ¬ s.Misled now call)
    (follower : Option Bytes) {u : MemoryRegistrationStore} :
    LooksLive t (now, call.followedBy follower) u
      [(call.followedBy follower, (t.call now (call.followedBy follower)).2)] := by
  intro _ binding hmem
  have hanswer := congrArg Prod.snd (List.mem_singleton.mp hmem)
  cases call with
  | lookup impu _ =>
      have hlookup : (t.lookup now impu follower).2 = .ok binding :=
        (CallAnswer.binding.inj hanswer).symm
      rw [lookup_eq_ok_iff, (h.prunedEntry hmisled follower).2] at hlookup
      exact live_of_pruned hlookup
  | store | upsertContact | removeContact | upsertContacts | removeContacts | removeBindings
  | remove | purgeExpired | isRegistered => cases hanswer

theorem observe_cons (answer : StoreCall × CallAnswer) (answers : List (StoreCall × CallAnswer)) :
    observe (answer :: answers) =
      if answer.1.observed = true then (answer.1.followedBy none, answer.2) :: observe answers
      else observe answers := by
  rw [observe, List.filter_cons]
  split
  · rfl
  · rfl

/-- Where no call may be misled, the run with further purges answers as the run without them. -/
theorem Behind.exec {as bs : List TimedCall} (hpurged : Purged as bs) (hclock : ClockSorted bs)
    (h : Behind now s t) (hnow : ∀ label ∈ bs, now ≤ label.1) (hnever : NeverMisled s as) :
    ∃ s' t' answers answers', storeMachine.exec s as = some (s', answers) ∧
      storeMachine.exec t bs = some (t', answers') ∧ observe answers = observe answers' ∧
      storeMachine.Along LooksLive t bs := by
  induction hpurged generalizing s t now with
  | nil => exact ⟨s, t, [], [], rfl, rfl, rfl, trivial⟩
  | @keep as bs label follower hpurged ih =>
      obtain ⟨hlabel, hclock⟩ := List.pairwise_cons.mp hclock
      obtain ⟨hmisled, hnever⟩ := along_storeMachine_cons.mp hnever
      have hbehind : Behind label.1 s t :=
        h.mono (hnow (label.1, label.2.followedBy follower) List.mem_cons_self)
      have hnext : Behind label.1 (s.call label.1 label.2).1
          (t.call label.1 (label.2.followedBy follower)).1 := by
        rw [fst_call_followedBy]
        exact (hbehind.agree.call label.2).behind hbehind
      obtain ⟨s', t', answers, answers', hrun, hrun', hobserve, hlive⟩ :=
        ih hclock hnext hlabel hnever
      refine ⟨s', t', _, _, Machine.exec_cons_iff.mpr ⟨_, _, answers, rfl, hrun, rfl⟩,
        Machine.exec_cons_iff.mpr ⟨_, _, answers', rfl, hrun', rfl⟩, ?_,
        along_storeMachine_cons.mpr ⟨hbehind.looksLive hmisled follower, hlive⟩⟩
      simp only [List.singleton_append, observe_cons, StoreCall.observed_followedBy, hobserve]
      split
      · rename_i hobserved
        rw [hbehind.answer hobserved hmisled follower]
        cases label.2 <;> rfl
      · rfl
  | @purge as bs later hpurged ih =>
      obtain ⟨hlabel, hclock⟩ := List.pairwise_cons.mp hclock
      have hbehind : Behind later s (t.purgeExpired later).1 :=
        (h.mono (hnow _ List.mem_cons_self)).purge
      obtain ⟨s', t', answers, answers', hrun, hrun', hobserve, hlive⟩ :=
        ih hclock hbehind hlabel hnever
      refine ⟨s', t', answers, _, hrun,
        Machine.exec_cons_iff.mpr ⟨_, _, answers', rfl, hrun', rfl⟩, hobserve,
        along_storeMachine_cons.mpr ⟨fun _ _ hmem => ?_, hlive⟩⟩
      cases List.mem_singleton.mp hmem

section

variable {store : MemoryRegistrationStore} {label : TimedCall} {as : List TimedCall}

/-- The first call of a run, in another order of the map or after a purge. -/
theorem PurgingInvisible.answers (h : PurgingInvisible store now (label :: as))
    (hclock : ClockSorted (label :: as)) (hnow : now ≤ label.1)
    (hobserved : label.2.observed = true) :
    (∀ follower, (store.call label.1 label.2).2 =
        (store.call label.1 (label.2.followedBy follower)).2) ∧
      (store.call label.1 label.2).2 =
        ((store.purgeExpired label.1).1.call label.1 label.2).2 := by
  obtain ⟨hlabel, hclock⟩ := List.pairwise_cons.mp hclock
  have hafter : ∀ other ∈ as, now ≤ other.1 := fun other hmem =>
    Nat.le_trans hnow (hlabel other hmem)
  constructor
  · intro follower
    obtain ⟨s, t, answers, answers', hrun, hrun', hobserve, -⟩ :=
      h _ ((Purged.refl as).keep label follower) (List.pairwise_cons.mpr ⟨hlabel, hclock⟩)
        (List.forall_mem_cons.mpr ⟨hnow, hafter⟩)
    obtain ⟨_, _, rest, hstep, -, rfl⟩ := Machine.exec_cons_iff.mp hrun
    obtain ⟨_, _, rest', hstep', -, rfl⟩ := Machine.exec_cons_iff.mp hrun'
    cases hstep
    cases hstep'
    simp only [List.singleton_append, observe_cons, StoreCall.observed_followedBy, hobserved,
      if_true, List.cons.injEq, Prod.mk.injEq] at hobserve
    exact hobserve.1.2
  · have hsorted : ClockSorted ((label.1, .purgeExpired) :: label :: as) :=
      List.pairwise_cons.mpr ⟨List.forall_mem_cons.mpr ⟨Nat.le_refl _, hlabel⟩,
        List.pairwise_cons.mpr ⟨hlabel, hclock⟩⟩
    obtain ⟨s, t, answers, answers', hrun, hrun', hobserve, -⟩ :=
      h _ ((Purged.refl (label :: as)).purge label.1) hsorted
        (List.forall_mem_cons.mpr ⟨hnow, List.forall_mem_cons.mpr ⟨hnow, hafter⟩⟩)
    obtain ⟨_, _, rest, hstep, -, rfl⟩ := Machine.exec_cons_iff.mp hrun
    obtain ⟨_, _, _, hpurge, hrest, rfl⟩ := Machine.exec_cons_iff.mp hrun'
    cases hpurge
    obtain ⟨_, _, rest', hstep', -, rfl⟩ := Machine.exec_cons_iff.mp hrest
    cases hstep
    cases hstep'
    have hunobserved : StoreCall.purgeExpired.observed = false := rfl
    simp only [List.singleton_append, observe_cons, hobserved, hunobserved, Bool.false_eq_true,
      if_true, if_false, List.cons.injEq, Prod.mk.injEq] at hobserve
    exact hobserve.1.2

theorem prunedEntry_purgeExpired (h : store.Lapsed now impu) (follower : Option Bytes) :
    (store.purgeExpired now).1.prunedEntry now impu follower = none := by
  rw [prunedEntry_of_not_lapsed, find_purgeExpired, h.pruned_eq_none]
  · rfl
  · rintro ⟨binding, hfind, -⟩
    rw [find_purgeExpired, h.pruned_eq_none] at hfind
    cases hfind

/-- A call that is misled answers otherwise than after a purge. -/
theorem PurgingInvisible.not_misled (h : PurgingInvisible store now (label :: as))
    (hclock : ClockSorted (label :: as)) (hnow : now ≤ label.1) :
    ¬ store.Misled label.1 label.2 := by
  obtain ⟨time, call⟩ := label
  intro hmisled
  cases call with
  | lookup impu follower =>
      obtain ⟨hlapsed, other, binding, hne, hfind⟩ := hmisled
      obtain ⟨hreordered, hpurged⟩ := h.answers hclock hnow rfl
      have hreturned : store.prunedEntry time impu (some other) = some binding := by
        rw [prunedEntry_of_lapsed hlapsed, Option.bind_some, if_neg hne]
        exact hfind
      have hgone := hpurged.symm.trans (hreordered (some other))
      simp only [MemoryRegistrationStore.call, StoreCall.followedBy, lookup, hreturned,
        prunedEntry_purgeExpired hlapsed] at hgone
      cases hgone
  | isRegistered impu follower =>
      obtain ⟨hlapsed, other, binding, hne, hfind, hregistered⟩ := hmisled
      obtain ⟨hreordered, hpurged⟩ := h.answers hclock hnow rfl
      have hreturned : (store.isRegistered time impu (some other)).2 = true := by
        rw [isRegistered_eq_true_iff, prunedEntry_of_lapsed hlapsed, Option.bind_some, if_neg hne]
        exact ⟨binding, hfind, hregistered⟩
      have hgone : ((store.purgeExpired time).1.isRegistered time impu follower).2 = false := by
        simp only [isRegistered, prunedEntry_purgeExpired hlapsed]
      have hsame := CallAnswer.flag.inj (hpurged.symm.trans (hreordered (some other)))
      rw [hgone, hreturned] at hsame
      cases hsame
  | store | upsertContact | removeContact | upsertContacts | removeContacts | removeBindings
  | remove | purgeExpired => exact hmisled

/-- What is invisible in a run is so in what follows its first call. -/
theorem PurgingInvisible.tail (h : PurgingInvisible store now (label :: as))
    (hnow : now ≤ label.1) : PurgingInvisible (store.call label.1 label.2).1 label.1 as := by
  intro bs hpurged hclock hlater
  obtain ⟨follower, hsame⟩ := label.2.exists_followedBy
  have hkeep := hpurged.keep label follower
  rw [hsame] at hkeep
  obtain ⟨s, t, answers, answers', hrun, hrun', hobserve, hlive⟩ :=
    h _ hkeep (List.pairwise_cons.mpr ⟨hlater, hclock⟩)
      (List.forall_mem_cons.mpr ⟨hnow, fun other hmem => Nat.le_trans hnow (hlater other hmem)⟩)
  obtain ⟨_, _, rest, hstep, hrest, rfl⟩ := Machine.exec_cons_iff.mp hrun
  obtain ⟨_, _, rest', hstep', hrest', rfl⟩ := Machine.exec_cons_iff.mp hrun'
  cases hstep
  cases hstep'
  refine ⟨s, t, rest, rest', hrest, hrest', ?_, (along_storeMachine_cons.mp hlive).2⟩
  simp only [List.singleton_append, observe_cons] at hobserve
  split at hobserve
  · exact (List.cons.inj hobserve).2
  · exact hobserve

theorem PurgingInvisible.neverMisled (h : PurgingInvisible store now as)
    (hclock : ClockSorted as) (hnow : ∀ label ∈ as, now ≤ label.1) : NeverMisled store as := by
  induction as generalizing store now with
  | nil => trivial
  | cons label as ih =>
      obtain ⟨hlabel, hrest⟩ := List.pairwise_cons.mp hclock
      have hfirst := hnow label List.mem_cons_self
      exact along_storeMachine_cons.mpr
        ⟨h.not_misled hclock hfirst, ih (h.tail hfirst) hrest hlabel⟩

end

/-- Under a clock that does not go back, further purges change no observed answer of a run and what
is looked up is live, exactly if no call of the run may be misled: whenever one looks for a binding
whose contacts have all expired, there is no other that its iterator could go on to. -/
theorem purgingInvisible_iff (store : MemoryRegistrationStore) (as : List TimedCall)
    (hclock : ClockSorted as) : PurgingInvisible store 0 as ↔ NeverMisled store as := by
  constructor
  · exact fun h => h.neverMisled hclock fun _ _ => Nat.zero_le _
  · intro hnever bs hpurged hsorted hnow
    exact (Behind.refl 0 store).exec hpurged hsorted hnow hnever

/-! ## Alice and Bob -/

/-- A registration with one contact. -/
def registeredUntil (impu contact : String) (expires : Nat) : RegistrationBinding :=
  { impu := bytes impu, impi := [], scscfUri := []
    contacts := [{ contactUri := bytes contact, instanceId := [], regId := [], path := [], expires
                   userAgent := [], callId := [], cseq := 1 }]
    state := .registered }

/-- A lookup after a purge that has removed an expired registration, and one before. -/
theorem purgingInvisible_iff_alone :
    PurgingInvisible
      (init.storeBinding (registeredUntil "sip:alice@ims.local" "sip:alice@10.0.0.1" 10)) 0
      [(20, .lookup (bytes "sip:alice@ims.local") none)] := by
  refine (purgingInvisible_iff _ _ (List.pairwise_singleton _ _)).mpr ⟨?_, trivial⟩
  rintro ⟨-, other, binding, hne, hfind⟩
  cases (Table.find_insert_of_ne _ _ hne).symm.trans hfind

/-- Alice's registration has expired, Bob's has not. She is taken for him until it is purged. -/
theorem follower_returned :
    let bob := registeredUntil "sip:bob@ims.local" "sip:bob@10.0.0.2" 100
    let store := (init.storeBinding bob).storeBinding
      (registeredUntil "sip:alice@ims.local" "sip:alice@10.0.0.1" 10)
    let lookup := StoreCall.lookup (bytes "sip:alice@ims.local") (some (bytes "sip:bob@ims.local"))
    (store.call 20 lookup).2 = .binding (.ok bob) ∧
      ¬ store.PurgingInvisible 0 [(20, lookup)] := by
  intro bob store lookup
  have hreturned : (store.call 20 lookup).2 = .binding (.ok bob) := rfl
  refine ⟨hreturned, fun h => ?_⟩
  obtain ⟨-, hpurged⟩ := h.answers (List.pairwise_singleton _ _) (Nat.zero_le _) rfl
  cases hreturned.symm.trans hpurged

end MemoryRegistrationStore
end SimIms.Registration
