import SimIms.Registration.StoreCalls

/-!
# Bindings are kept under their own identity

What is stored under an identity is the binding of that identity.
-/

namespace SimIms.Registration

open Cxx Lib Sip

namespace MemoryRegistrationStore

def Keyed (store : MemoryRegistrationStore) : Prop :=
  ∀ impu binding, store.bindings.find impu = some binding → binding.impu = impu

variable {store : MemoryRegistrationStore} {now : Nat} {impu : Bytes}
    {binding : RegistrationBinding}

theorem Keyed.init : init.Keyed := by
  intro impu binding hfind
  cases hfind

theorem Keyed.insert (h : store.Keyed) (heq : binding.impu = impu) :
    Keyed ⟨store.bindings.insert impu binding⟩ := by
  intro other found hfind
  rw [Table.find_insert] at hfind
  split at hfind
  · rename_i hother
    cases hfind
    exact heq.trans hother.symm
  · exact h other found hfind

theorem Keyed.erase (h : store.Keyed) (impu : Bytes) : Keyed ⟨store.bindings.erase impu⟩ :=
  fun other found hfind => h other found (Table.find_of_find_erase hfind).2

theorem Keyed.pruneExpiredLocked (h : store.Keyed) (now : Nat) (impu : Bytes) :
    (store.pruneExpiredLocked now impu).Keyed := by
  rw [MemoryRegistrationStore.pruneExpiredLocked]
  cases hfind : store.bindings.find impu with
  | none => exact h
  | some binding =>
      simp only
      split
      · exact h.erase impu
      · exact h.insert (h impu binding hfind)

theorem Keyed.pruneAll (h : store.Keyed) (now : Nat) (impus : List Bytes) :
    (store.pruneAll now impus).Keyed := by
  induction impus generalizing store with
  | nil => exact h
  | cons first impus ih => exact ih (h.pruneExpiredLocked now first)

theorem Keyed.written (h : store.Keyed) (args : ContactUpsert) (impu : Bytes) :
    (written args impu (store.bindings.find impu)).impu = impu := by
  rw [MemoryRegistrationStore.written]
  cases hfind : store.bindings.find impu with
  | none => rfl
  | some binding => exact h impu binding hfind

theorem Keyed.upsertContactLocked (h : store.Keyed) (impu : Bytes) (args : ContactUpsert) :
    (store.upsertContactLocked impu args).1.Keyed := by
  by_cases hwrites : store.bindings.find impu ≠ none ∨ args.requireExistingMatch = false
  · rw [upsertContactLocked_eq hwrites]
    exact h.insert (h.written args impu)
  · rw [not_or, not_not, Bool.not_eq_false] at hwrites
    rw [upsertContactLocked_of_unbound hwrites.1 hwrites.2]
    exact h

theorem Keyed.upsertAll (h : store.Keyed) (args : ContactUpsert) (impus : List Bytes) :
    (upsertAll args impus store).1.Keyed := by
  induction impus generalizing store with
  | nil => exact h
  | cons first impus ih =>
      rw [MemoryRegistrationStore.upsertAll]
      have hnext := h.upsertContactLocked first args
      split
      · rename_i next hupsert
        rwa [hupsert] at hnext
      · rename_i next hupsert
        rw [hupsert] at hnext
        exact ih hnext

theorem Keyed.upsertContacts (h : store.Keyed) (now : Nat) (batch : ContactBatchUpsert) :
    (store.upsertContacts now batch).1.Keyed := by
  rw [MemoryRegistrationStore.upsertContacts]
  have hpruned := h.pruneAll now batch.impus.elems
  have hwritten := hpruned.upsertAll batch.toContactUpsert batch.impus.elems
  split
  · exact hpruned
  · split
    · rename_i next hupsert
      rwa [hupsert] at hwritten
    · rename_i next hupsert
      rwa [hupsert] at hwritten

theorem Keyed.removeContactLocked (h : store.Keyed) (impu : Bytes)
    (selector : ContactBindingSelector) (callId : Bytes) (cseq : UInt32) (rejectOlderCseq : Bool) :
    (store.removeContactLocked impu selector callId cseq rejectOlderCseq).1.Keyed := by
  rw [MemoryRegistrationStore.removeContactLocked]
  cases hfind : store.bindings.find impu with
  | none => exact h
  | some binding =>
      simp only
      split
      · exact h
      · split
        · exact h.erase impu
        · exact h.insert (h impu binding hfind)

theorem Keyed.removeContacts (h : store.Keyed) (now : Nat) (batch : ContactBatchRemove) :
    (store.removeContacts now batch).1.Keyed := by
  have hremoval : ∀ (store : MemoryRegistrationStore) (impu : Bytes), store.Keyed →
      (store.removeContactLocked impu batch.selector batch.callId batch.cseq
        batch.rejectOlderCseq).1.Keyed :=
    fun _ impu hkeyed => hkeyed.removeContactLocked impu _ _ _ _
  exact performAll_preserves hremoval batch.impus.elems (h.pruneAll now batch.impus.elems) 0

theorem Keyed.removeBindings (h : store.Keyed) (impus : ImpuSet) :
    (store.removeBindings impus).1.Keyed := by
  intro impu binding hfind
  rw [find_removeBindings] at hfind
  split at hfind
  · cases hfind
  · exact h impu binding hfind

theorem Keyed.purgeExpired (h : store.Keyed) (now : Nat) : (store.purgeExpired now).1.Keyed := by
  intro impu binding hfind
  rw [find_purgeExpired, pruned] at hfind
  obtain ⟨found, hfound, hkept⟩ := Option.bind_eq_some_iff.mp hfind
  simp only at hkept
  split at hkept
  · cases hkept
  · cases hkept
    exact h impu found hfound

/-- What is left of a binding is that of the identity. -/
theorem Keyed.impu_of_pruned (h : store.Keyed)
    (hpruned : pruned now (store.bindings.find impu) = some binding) : binding.impu = impu := by
  rw [← find_pruneExpiredLocked_self] at hpruned
  exact h.pruneExpiredLocked now impu impu binding hpruned

/-- Every method of the store keeps it so. -/
theorem Keyed.call (h : store.Keyed) (now : Nat) (storeCall : StoreCall) :
    (store.call now storeCall).1.Keyed := by
  cases storeCall with
  | store binding => exact h.insert rfl
  | lookup impu | isRegistered impu => exact h.pruneExpiredLocked now impu
  | upsertContact impu args => exact (h.pruneExpiredLocked now impu).upsertContactLocked impu args
  | removeContact impu selector =>
      exact (h.pruneExpiredLocked now impu).removeContactLocked impu selector [] 0 false
  | upsertContacts batch => exact h.upsertContacts now batch
  | removeContacts batch => exact h.removeContacts now batch
  | removeBindings impus => exact h.removeBindings impus
  | remove impu => exact h.erase impu
  | purgeExpired => exact h.purgeExpired now

theorem keyed_of_run {calls : List TimedCall} {out : List (StoreCall × CallAnswer)}
    (hrun : storeMachine.exec .init calls = some (store, out)) : store.Keyed := by
  refine Machine.exec_invariant (I := Keyed) ?_ Keyed.init hrun
  intro s label t out h hstep
  cases hstep
  exact h.call label.1 label.2

end MemoryRegistrationStore
end SimIms.Registration
