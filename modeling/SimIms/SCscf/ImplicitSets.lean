import Mathlib.Data.Set.Defs
import SimIms.Registration.Purging
import SimIms.SCscf.RegistrarRuns

/-!
# Implicit registration sets

The identities that the HSS assigns together are written together: every write of the store is
for all of them or for none. So they hold the same contacts.
-/

namespace SimIms.SCscf

open Cxx Lib Sip Diameter Registration

variable {A : Set Bytes}

/-- An assignment for an identity of the set returns the set, any other returns none of it. -/
def AssignsSet (A : Set Bytes) : (op : RegistrarOp) → op.Answer → Prop
  | .hss (.serverAssignment params), answer =>
      (params.impu ∈ A → ∃ profile, answer = .ok profile ∧
        ∀ impu, impu ∈ profile.associatedImpus ↔ impu ∈ A) ∧
      (params.impu ∉ A → ∀ profile, answer = .ok profile →
        ∀ impu ∈ profile.associatedImpus, impu ∉ A)
  | _, _ => True

/-- All the identities of the set hold the same contacts now. -/
def Coherent (A : Set Bytes) (s : RegistrarState) : Prop :=
  ∀ u ∈ A, ∀ v ∈ A, s.store.liveContacts s.now u = s.store.liveContacts s.now v

/-- The set is written as a whole or left alone. -/
def Whole (A : Set Bytes) (impus : List Bytes) : Prop :=
  (∀ u ∈ A, u ∈ impus) ∨ ∀ u ∈ A, u ∉ impus

/-! ## Which identities are written -/

theorem AssignsSet.whole {params : SarParams} {saa : Result UserProfile}
    (h : AssignsSet A (.hss (.serverAssignment params)) saa) :
    Whole A (makeImpuSet (deregisteredImpus saa) params.impu).elems := by
  by_cases hmem : params.impu ∈ A
  · obtain ⟨profile, rfl, hprofile⟩ := h.1 hmem
    exact .inl fun u hu => mem_makeImpuSet_iff.mpr (.inr ((hprofile u).mpr hu))
  · refine .inr fun u hu hwritten => ?_
    obtain rfl | hassociated := mem_makeImpuSet_iff.mp hwritten
    · exact hmem hu
    · cases saa with
      | error error => cases hassociated
      | ok profile => exact h.2 hmem profile rfl u hassociated hu

/-! ## Writes -/

namespace Coherent

variable {s : RegistrarState} {store : MemoryRegistrationStore}

/-- A write that changes the contacts of a whole set in the same way. -/
theorem write (h : Coherent A s) {impus : List Bytes} (hwhole : Whole A impus)
    {f : List ContactBinding → List ContactBinding}
    (hinside : ∀ u ∈ impus, store.contacts u = f (s.store.liveContacts s.now u))
    (houtside : ∀ u, u ∉ impus → store.contacts u = s.store.contacts u) :
    Coherent A { s with store } := by
  intro u hu v hv
  obtain hall | hnone := hwhole
  · rw [MemoryRegistrationStore.liveContacts, MemoryRegistrationStore.liveContacts,
      hinside u (hall u hu), hinside v (hall v hv), h u hu v hv]
  · rw [MemoryRegistrationStore.liveContacts, MemoryRegistrationStore.liveContacts,
      houtside u (hnone u hu), houtside v (hnone v hv)]
    exact h u hu v hv

theorem upsertContacts (h : Coherent A s) {batch : ContactBatchUpsert}
    (hwhole : Whole A batch.impus.elems) :
    Coherent A { s with store := (s.store.upsertContacts s.now batch).1 } := by
  refine h.write (f := fun contacts =>
    if s.store.applies s.now batch then batch.write contacts else contacts) hwhole ?_ ?_
  · intro u hu
    rw [MemoryRegistrationStore.contacts_upsertContacts, if_pos hu]
  · intro u hu
    rw [MemoryRegistrationStore.contacts_upsertContacts, if_neg hu]

theorem removeContacts (h : Coherent A s) {batch : ContactBatchRemove}
    (hwhole : Whole A batch.impus.elems) :
    Coherent A { s with store := (s.store.removeContacts s.now batch).1 } := by
  refine h.write (f := List.filter (MemoryRegistrationStore.kept batch.selector batch.callId
    batch.cseq batch.rejectOlderCseq)) hwhole ?_ ?_
  · intro u hu
    rw [MemoryRegistrationStore.contacts_removeContacts, if_pos hu]
  · intro u hu
    rw [MemoryRegistrationStore.contacts_removeContacts, if_neg hu]

theorem removeBindings (h : Coherent A s) {impus : ImpuSet} (hwhole : Whole A impus.elems) :
    Coherent A { s with store := (s.store.removeBindings impus).1 } := by
  refine h.write (f := fun _ => []) hwhole ?_ ?_
  · intro u hu
    rw [MemoryRegistrationStore.contacts, MemoryRegistrationStore.find_removeBindings, if_pos hu]
    rfl
  · intro u hu
    rw [MemoryRegistrationStore.contacts, MemoryRegistrationStore.find_removeBindings, if_neg hu]
    rfl

/-- What is there now is what was there and is still alive. -/
theorem later (h : Coherent A s) {now : Nat} (hle : s.now ≤ now) (u : Bytes) (hu : u ∈ A)
    (v : Bytes) (hv : v ∈ A) : s.store.liveContacts now u = s.store.liveContacts now v := by
  have hlive : ∀ impu, s.store.liveContacts now impu =
      (s.store.liveContacts s.now impu).filter (·.live now) :=
    fun impu => (filter_live_filter_live (s.store.contacts impu) hle).symm
  rw [hlive u, hlive v, h u hu v hv]

/-- Nothing in the background changes what is alive, but for the time. -/
theorem background (h : Coherent A s) (event : RegistrarBackground) :
    Coherent A (s.background event) := by
  have hagree : ∀ {store}, MemoryRegistrationStore.Agree s.now s.store store →
      Coherent A { s with store } := fun hagree u hu v hv =>
    (hagree.liveContacts u).symm.trans ((h u hu v hv).trans (hagree.liveContacts v))
  cases event with
  | elapse milliseconds => exact h.later (Nat.le_add_right s.now milliseconds)
  | purgeExpired => exact hagree (MemoryRegistrationStore.Agree.purge fun _ => rfl)
  | lookup impu => exact hagree (MemoryRegistrationStore.agree_lookup s.now s.store impu none)

variable [OsipParser]

theorem writes {providers : List Nat} {domain : Bytes} {thread : RegistrarThread} {op : StoreOp}
    (h : Coherent A s) (hwrites : thread.Writes ⟨providers, domain, AssignsSet A⟩ op) :
    Coherent A { s with store := (serveStore s.store s.now none op).1 } := by
  cases hwrites with
  | refresh _ _ _ _ _ _ _ _ _ _ _ hsaa _ _ =>
      obtain hall | hnone := AssignsSet.whole hsaa
      · exact h.upsertContacts (.inl fun u hu => mem_refreshedImpus_iff.mpr (hall u hu))
      · exact h.upsertContacts
          (.inr fun u hu hmem => hnone u hu (mem_refreshedImpus_iff.mp hmem))
  | register _ _ _ _ _ _ hsaa _ _ => exact h.upsertContacts (AssignsSet.whole hsaa)
  | removeContacts _ _ _ _ hsaa _ => exact h.removeContacts (AssignsSet.whole hsaa)
  | removeBindings _ _ _ hsaa => exact h.removeBindings (AssignsSet.whole hsaa)

end Coherent

/-- In every run in which the HSS assigns the set for each identity of it, and none of it for any
other, the identities hold the same contacts from any state reached on. -/
theorem implicitSet_coherent [OsipParser] (A : Set Bytes) (providers : List Nat) (domain : Bytes)
    (now : Nat) (as : List
      (ThreadAction RegistrarEnvironment (SipMessage × Nat) RegistrarBackground))
    (s : RegistrarThreads) (log : List (Nat × Nat × SipMessage))
    (hassigns : (threadsMachine (Registrar.service providers domain)).Along
      (fun s a _ _ => s.Respects (Registrar.service providers domain) (AssignsSet A) a)
      (.init ⟨.init, now⟩) as)
    (hrun : (threadsMachine (Registrar.service providers domain)).exec (.init ⟨.init, now⟩) as =
      some (s, log)) :
    ∀ u ∈ A, ∀ v ∈ A, ∀ later, s.shared.now ≤ later →
      s.shared.store.liveContacts later u = s.shared.store.liveContacts later v := by
  have hkept : KeptByRegistrar ⟨providers, domain, AssignsSet A⟩ (Coherent A) :=
    ⟨fun _ event h => h.background event, fun _ _ _ h hwrites => h.writes hwrites⟩
  have hinv := (registrarDiscipline_sound hkept).exec (fun _ _ _ _ => rfl) hassigns hrun
  exact fun u hu v hv later hle => Coherent.later hinv.shared hle u hu v hv

/-! ## Alice registers for two identities -/

/-- What the HSS assigns whenever it is asked, it assigns in the run. -/
theorem along_assignsSet [OsipParser] {providers : List Nat} {domain : Bytes} {s : RegistrarThreads}
    {as : List (ThreadAction RegistrarEnvironment (SipMessage × Nat) RegistrarBackground)}
    (h : ∀ id environment, .run id environment ∈ as → ∀ params,
      AssignsSet A (.hss (.serverAssignment params)) (environment.hss (.serverAssignment params))) :
    (threadsMachine (Registrar.service providers domain)).Along
      (fun s a _ _ => s.Respects (Registrar.service providers domain) (AssignsSet A) a) s as := by
  rw [Machine.along_iff]
  intro before a after t u first out heq _ _
  cases a with
  | start request => trivial
  | background event => trivial
  | run id environment =>
      intro history op next shared answer events _ hserve
      cases op with
      | hss op =>
          cases op with
          | multimediaAuth params => trivial
          | serverAssignment params =>
              cases hserve
              exact h id environment (heq ▸ List.mem_append_right _ List.mem_cons_self) params
      | store | provider | environment | respond => trivial

def aliceRegisters :
    List (ThreadAction RegistrarEnvironment (SipMessage × Nat) RegistrarBackground) :=
  .start (aliceRequest [contactAt "sip:alice@10.0.0.1"] true, 0) ::
    List.replicate 9 (.run 0 aliceEnvironment)

theorem implicitSet_coherent_registered :
    ∃ s log, aliceRegistrar.exec (.init ⟨.init, 0⟩) aliceRegisters = some (s, log) ∧
      (s.shared.store.liveContacts 0 (bytes "tel:+1")).length = 1 ∧
      ∀ u ∈ aliceImpus, ∀ v ∈ aliceImpus, ∀ later, s.shared.now ≤ later →
        s.shared.store.liveContacts later u = s.shared.store.liveContacts later v := by
  have hsummary : (aliceRegistrar.exec (.init ⟨.init, 0⟩) aliceRegisters).map
        (fun run => (run.1.shared.store.liveContacts 0 (bytes "tel:+1")).length) = some 1 := by
    decide +kernel
  obtain ⟨⟨s, log⟩, hrun, hlength⟩ := Option.map_eq_some_iff.mp hsummary
  refine ⟨s, log, hrun, hlength, ?_⟩
  refine @implicitSet_coherent plainUris { impu | impu ∈ aliceImpus } [0] (bytes "ims.local") 0
    aliceRegisters s log (@along_assignsSet _ plainUris _ _ _ _ ?_) hrun
  intro id environment hmem params
  have heq : environment = aliceEnvironment := by
    obtain hstart | hmem := List.mem_cons.mp hmem
    · cases hstart
    · cases List.eq_of_mem_replicate hmem
      rfl
  subst heq
  refine ⟨fun hparams => ⟨_, rfl, fun impu => ?_⟩, fun hparams profile hprofile impu himpu => ?_⟩
  · simp only [if_pos (List.contains_iff_mem.mpr hparams)]
    rfl
  · cases hprofile
    rw [if_neg (mt List.contains_iff_mem.mp hparams)] at himpu
    cases himpu

end SimIms.SCscf
