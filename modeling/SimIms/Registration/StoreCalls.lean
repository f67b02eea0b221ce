import SimIms.Lib.Machine
import SimIms.Registration.StoreContents

/-!
# Runs of the registration store

The methods of the store as the labels of a machine, each with the clock reading that it
makes, and what they answer.
-/

namespace SimIms.Registration

open Cxx Lib

/-- What follows in the map where a binding goes, `lookup` and `isRegistered` are told. -/
inductive StoreCall where
  | store (binding : RegistrationBinding)
  | lookup (impu : Bytes) (follower : Option Bytes)
  | upsertContact (impu : Bytes) (args : ContactUpsert)
  | removeContact (impu : Bytes) (selector : ContactBindingSelector)
  | upsertContacts (batch : ContactBatchUpsert)
  | removeContacts (batch : ContactBatchRemove)
  | removeBindings (impus : ImpuSet)
  | remove (impu : Bytes)
  | purgeExpired
  | isRegistered (impu : Bytes) (follower : Option Bytes)

inductive CallAnswer where
  | done
  | binding (result : Result RegistrationBinding)
  | flag (value : Bool)
  | count (value : Nat)

namespace MemoryRegistrationStore

def call (store : MemoryRegistrationStore) (now : Nat) :
    StoreCall → MemoryRegistrationStore × CallAnswer
  | .store binding => (store.storeBinding binding, .done)
  | .lookup impu follower =>
      ((store.lookup now impu follower).1, .binding (store.lookup now impu follower).2)
  | .upsertContact impu args =>
      ((store.upsertContact now impu args).1, .flag (store.upsertContact now impu args).2)
  | .removeContact impu selector =>
      ((store.removeContact now impu selector).1, .flag (store.removeContact now impu selector).2)
  | .upsertContacts batch =>
      ((store.upsertContacts now batch).1, .count (store.upsertContacts now batch).2)
  | .removeContacts batch =>
      ((store.removeContacts now batch).1, .count (store.removeContacts now batch).2)
  | .removeBindings impus =>
      ((store.removeBindings impus).1, .count (store.removeBindings impus).2)
  | .remove impu => (store.remove impu, .done)
  | .purgeExpired => ((store.purgeExpired now).1, .count (store.purgeExpired now).2)
  | .isRegistered impu follower =>
      ((store.isRegistered now impu follower).1, .flag (store.isRegistered now impu follower).2)

end MemoryRegistrationStore

/-- A method with its clock reading. -/
abbrev TimedCall := Nat × StoreCall

def storeMachine : Machine MemoryRegistrationStore TimedCall (StoreCall × CallAnswer) :=
  ⟨fun store label => some ((store.call label.1 label.2).1,
    [(label.2, (store.call label.1 label.2).2)])⟩

theorem along_storeMachine_cons {store : MemoryRegistrationStore} {label : TimedCall}
    {as : List TimedCall} {P : MemoryRegistrationStore → TimedCall → MemoryRegistrationStore →
      List (StoreCall × CallAnswer) → Prop} :
    storeMachine.Along P store (label :: as) ↔
      P store label (store.call label.1 label.2).1 [(label.2, (store.call label.1 label.2).2)] ∧
        storeMachine.Along P (store.call label.1 label.2).1 as := Machine.along_cons rfl

end SimIms.Registration
