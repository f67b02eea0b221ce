import Mathlib.Data.List.Dedup
import SimIms.Lib.Table
import SimIms.Sip.UriUtils

/-!
# The in-memory registration store

A binding for each public identity, with the contacts under it. Every method locks the store
once; it is one function of the state and of the clock reading that it makes. The order in which the
map keeps its entries is left to the surroundings.
-/

namespace SimIms.Registration

open Cxx Lib Sip

structure ContactBinding where
  contactUri : Bytes
  instanceId : Bytes
  regId : Bytes
  path : Bytes
  expires : Nat
  userAgent : Bytes
  callId : Bytes
  cseq : UInt32
deriving DecidableEq, Repr

inductive RegistrationState where
  | registered
  | unregistered
  | notRegistered
deriving DecidableEq, Repr

structure RegistrationBinding where
  impu : Bytes
  impi : Bytes
  scscfUri : Bytes
  contacts : List ContactBinding
  state : RegistrationState
deriving DecidableEq, Repr

structure ContactBindingSelector where
  normalizedContactUri : Bytes := []
  instanceId : Bytes := []
  regId : Bytes := []
deriving DecidableEq, Repr

def ContactBindingSelector.usesInstanceAndRegId (selector : ContactBindingSelector) : Bool :=
  !selector.instanceId.isEmpty && !selector.regId.isEmpty

/-- An unordered set of public identities, in the order in which it is iterated. -/
structure ImpuSet where
  elems : List Bytes
  nodup : elems.Nodup

/-- What `upsertContact` is called with, the identity apart. -/
structure ContactUpsert where
  selector : ContactBindingSelector
  contact : ContactBinding
  impi : Bytes
  scscfUri : Bytes
  state : RegistrationState
  requireExistingMatch : Bool := false
  rejectOlderCseq : Bool := false

/-- Whether the stored contact is from a later request of the same call. -/
def ContactUpsert.stale (args : ContactUpsert) (existing : ContactBinding) : Bool :=
  args.rejectOlderCseq && existing.callId == args.contact.callId &&
    args.contact.cseq < existing.cseq

structure ContactBatchUpsert extends ContactUpsert where
  impus : ImpuSet

structure ContactBatchRemove where
  impus : ImpuSet
  selector : ContactBindingSelector
  callId : Bytes
  cseq : UInt32
  rejectOlderCseq : Bool

def matchesSelector (contact : ContactBinding) (selector : ContactBindingSelector) : Bool :=
  if selector.usesInstanceAndRegId then
    contact.instanceId == selector.instanceId && contact.regId == selector.regId
  else extractUriFromNameAddr contact.contactUri == selector.normalizedContactUri

/-- A contact that has not expired at this time. -/
def ContactBinding.live (contact : ContactBinding) (now : Nat) : Bool := now < contact.expires

structure MemoryRegistrationStore where
  bindings : Table Bytes RegistrationBinding

namespace MemoryRegistrationStore

def init : MemoryRegistrationStore := ⟨.empty⟩

def pruneExpiredLocked (store : MemoryRegistrationStore) (now : Nat) (impu : Bytes) :
    MemoryRegistrationStore :=
  match store.bindings.find impu with
  | none => store
  | some binding =>
      let contacts := binding.contacts.filter (·.live now)
      if contacts = [] then ⟨store.bindings.erase impu⟩
      else ⟨store.bindings.insert impu { binding with contacts }⟩

/-- The entry that the iterator which `pruneExpiredLocked` returns points to, if it is not the end.
Where the binding has been erased, that is the entry which follows in the map, the one of
`follower`. -/
def prunedEntry (store : MemoryRegistrationStore) (now : Nat) (impu : Bytes)
    (follower : Option Bytes) : Option RegistrationBinding :=
  match store.bindings.find impu with
  | none => none
  | some binding =>
      let contacts := binding.contacts.filter (·.live now)
      if contacts = [] then follower.bind (store.pruneExpiredLocked now impu).bindings.find
      else some { binding with contacts }

/-- The first loop of the batch operations. -/
def pruneAll (store : MemoryRegistrationStore) (now : Nat) (impus : List Bytes) :
    MemoryRegistrationStore := impus.foldl (·.pruneExpiredLocked now ·) store

/-- `store`. -/
def storeBinding (store : MemoryRegistrationStore) (binding : RegistrationBinding) :
    MemoryRegistrationStore := ⟨store.bindings.insert binding.impu binding⟩

def lookup (store : MemoryRegistrationStore) (now : Nat) (impu : Bytes)
    (follower : Option Bytes) : MemoryRegistrationStore × Result RegistrationBinding :=
  (store.pruneExpiredLocked now impu,
    match store.prunedEntry now impu follower with
    | none =>
        .error { code := .registrationNotFound
                 message := bytes "Registration not found for IMPU: " ++ impu }
    | some binding => .ok binding)

/-- Write a contact into one binding: append it, or replace the first that matches unless
the request is stale. -/
def upsertContactLocked (store : MemoryRegistrationStore) (impu : Bytes)
    (args : ContactUpsert) : MemoryRegistrationStore × Bool :=
  let found := store.bindings.find impu
  if found = none ∧ args.requireExistingMatch then (store, false)
  else
    let binding := found.getD
      { impu, impi := args.impi, scscfUri := args.scscfUri, contacts := [], state := args.state }
    let binding := { binding with
      impi := if args.impi = [] then binding.impi else args.impi
      scscfUri := if args.scscfUri = [] then binding.scscfUri else args.scscfUri
      state := args.state }
    match binding.contacts.findIdx? (matchesSelector · args.selector) with
    | none =>
        if args.requireExistingMatch then (⟨store.bindings.insert impu binding⟩, false)
        else
          (⟨store.bindings.insert impu
            { binding with contacts := binding.contacts ++ [args.contact] }⟩, true)
    | some i =>
        if binding.contacts[i]?.any args.stale then (⟨store.bindings.insert impu binding⟩, true)
        else
          (⟨store.bindings.insert impu
            { binding with contacts := binding.contacts.set i args.contact }⟩, true)

/-- Whether a removal leaves the contact: it does not match, or is from a later request of the
same call. -/
def kept (selector : ContactBindingSelector) (callId : Bytes) (cseq : UInt32)
    (rejectOlderCseq : Bool) (candidate : ContactBinding) : Bool :=
  !matchesSelector candidate selector ||
    (rejectOlderCseq && candidate.callId == callId && cseq < candidate.cseq)

def removeContactLocked (store : MemoryRegistrationStore) (impu : Bytes)
    (selector : ContactBindingSelector) (callId : Bytes) (cseq : UInt32)
    (rejectOlderCseq : Bool) : MemoryRegistrationStore × Bool :=
  match store.bindings.find impu with
  | none => (store, false)
  | some binding =>
      let contacts := binding.contacts.filter (kept selector callId cseq rejectOlderCseq)
      if contacts.length = binding.contacts.length then (store, false)
      else if contacts = [] then (⟨store.bindings.erase impu⟩, true)
      else (⟨store.bindings.insert impu { binding with contacts, state := .registered }⟩, true)

def upsertContact (store : MemoryRegistrationStore) (now : Nat) (impu : Bytes)
    (args : ContactUpsert) : MemoryRegistrationStore × Bool :=
  (store.pruneExpiredLocked now impu).upsertContactLocked impu args

def removeContact (store : MemoryRegistrationStore) (now : Nat) (impu : Bytes)
    (selector : ContactBindingSelector) : MemoryRegistrationStore × Bool :=
  (store.pruneExpiredLocked now impu).removeContactLocked impu selector [] 0 false

/-- The loop of `upsertContacts`: it stops at the first identity that is not written. -/
def upsertAll (args : ContactUpsert) :
    List Bytes → MemoryRegistrationStore → MemoryRegistrationStore × Bool
  | [], store => (store, true)
  | impu :: impus, store =>
      match store.upsertContactLocked impu args with
      | (store, false) => (store, false)
      | (store, true) => upsertAll args impus store

/-- Whether a contact that the selector matches is stored under the identity. -/
def hasMatch (store : MemoryRegistrationStore) (selector : ContactBindingSelector)
    (impu : Bytes) : Bool :=
  match store.bindings.find impu with
  | none => false
  | some binding => binding.contacts.any (matchesSelector · selector)

/-- The number of identities written, or zero. -/
def upsertContacts (store : MemoryRegistrationStore) (now : Nat) (batch : ContactBatchUpsert) :
    MemoryRegistrationStore × Nat :=
  let store := store.pruneAll now batch.impus.elems
  if batch.requireExistingMatch ∧ ¬ batch.impus.elems.all (store.hasMatch batch.selector) then
    (store, 0)
  else
    match upsertAll batch.toContactUpsert batch.impus.elems store with
    | (store, false) => (store, 0)
    | (store, true) => (store, batch.impus.elems.length)

def removeContacts (store : MemoryRegistrationStore) (now : Nat) (batch : ContactBatchRemove) :
    MemoryRegistrationStore × Nat :=
  let store := store.pruneAll now batch.impus.elems
  batch.impus.elems.foldl
    (fun result impu =>
      let (store, removed) := result.1.removeContactLocked impu batch.selector batch.callId
        batch.cseq batch.rejectOlderCseq
      (store, if removed then result.2 + 1 else result.2))
    (store, 0)

def removeBindings (store : MemoryRegistrationStore) (impus : ImpuSet) :
    MemoryRegistrationStore × Nat :=
  impus.elems.foldl
    (fun result impu =>
      (⟨result.1.bindings.erase impu⟩,
        if result.1.bindings.contains impu then result.2 + 1 else result.2))
    (store, 0)

def remove (store : MemoryRegistrationStore) (impu : Bytes) : MemoryRegistrationStore :=
  ⟨store.bindings.erase impu⟩

/-- The number of contacts removed. Bindings without contacts go with them. -/
def purgeExpired (store : MemoryRegistrationStore) (now : Nat) :
    MemoryRegistrationStore × Nat :=
  (⟨(store.bindings.mapValues fun _ binding =>
      { binding with contacts := binding.contacts.filter (·.live now) }).eraseIf
    fun _ binding => binding.contacts.isEmpty⟩,
    (store.bindings.entries.map fun entry =>
      (entry.2.contacts.filter fun contact => !contact.live now).length).sum)

def isRegistered (store : MemoryRegistrationStore) (now : Nat) (impu : Bytes)
    (follower : Option Bytes) : MemoryRegistrationStore × Bool :=
  (store.pruneExpiredLocked now impu,
    match store.prunedEntry now impu follower with
    | none => false
    | some binding => binding.state == .registered && !binding.contacts.isEmpty)

end MemoryRegistrationStore
end SimIms.Registration
