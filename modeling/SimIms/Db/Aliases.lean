import Mathlib.Data.List.Nodup
import SimIms.Db.Identities
import SimIms.Db.PublicIdentities

/-!
# The names of a subscriber

A subscriber has two names, its IMSI and its telephone number, each with or without its realm.
In a collection in which no two subscribers have a name in common, all of them lead to its record.
-/

namespace SimIms.Db

open Cxx Lib Sip

/-! ## Collections -/

/-- The records of a collection, as they are provisioned. A realm is no name address, and does not
hold the separator of the keys that are made of private identities. -/
structure Collection.Provisioned (collection : Collection) : Prop where
  imsi : ∀ record ∈ collection, record.imsi ≠ [] ∧ ∀ c ∈ record.imsi, isDigit c = true
  tel : ∀ record ∈ collection, record.tel ≠ [] → ∃ digits, record.tel = '+'.toUInt8 :: digits ∧
    ∀ c ∈ digits, isDigit c = true
  impi : ∀ record ∈ collection,
    record.identities.impi = userAtHostText record.imsi record.identities.realm
  realm : ∀ record ∈ collection,
    '<'.toUInt8 ∉ record.identities.realm ∧ 0x1f ∉ record.identities.realm
  imsis : (collection.map SubscriberRecord.imsi).Nodup
  tels : ((collection.map SubscriberRecord.tel).filter (· ≠ [])).Nodup

namespace Collection.Provisioned

variable {collection : Collection} (h : collection.Provisioned) {record other : SubscriberRecord}

include h

/-- What updates change makes no difference. -/
theorem of_fixed {later : Collection} (hfixed : later.fixed = collection.fixed) :
    later.Provisioned := by
  have hsame : ∀ record ∈ later, ∃ original ∈ collection, original.imsi = record.imsi ∧
      original.tel = record.tel ∧ original.identities = record.identities := by
    intro record hmem
    have hfixedmem : record.fixed ∈ collection.fixed := hfixed ▸ List.mem_map_of_mem hmem
    obtain ⟨original, horiginal, heq⟩ := List.mem_map.mp hfixedmem
    have himsi : original.fixed.imsi = record.fixed.imsi := by rw [heq]
    have htel : original.fixed.tel = record.fixed.tel := by rw [heq]
    have hidentities : original.fixed.identities = record.fixed.identities := by rw [heq]
    exact ⟨original, horiginal, himsi, htel, hidentities⟩
  have hmap : ∀ f : SubscriberRecord → Bytes, (∀ record, f record.fixed = f record) →
      later.map f = collection.map f := by
    intro f hf
    have hall : ∀ records : Collection, records.fixed.map f = records.map f := by
      intro records
      rw [Collection.fixed, List.map_map]
      exact List.map_congr_left fun record _ => hf record
    rw [← hall later, hfixed, hall]
  refine ⟨?_, ?_, ?_, ?_, ?_, ?_⟩
  · intro record hmem
    obtain ⟨original, horiginal, himsi, -⟩ := hsame record hmem
    rw [← himsi]
    exact h.imsi original horiginal
  · intro record hmem
    obtain ⟨original, horiginal, -, htel, -⟩ := hsame record hmem
    rw [← htel]
    exact h.tel original horiginal
  · intro record hmem
    obtain ⟨original, horiginal, himsi, -, hidentities⟩ := hsame record hmem
    rw [← himsi, ← hidentities]
    exact h.impi original horiginal
  · intro record hmem
    obtain ⟨original, horiginal, -, -, hidentities⟩ := hsame record hmem
    rw [← hidentities]
    exact h.realm original horiginal
  · rw [hmap SubscriberRecord.imsi fun _ => rfl]
    exact h.imsis
  · rw [hmap SubscriberRecord.tel fun _ => rfl]
    exact h.tels

theorem plainUser_imsi (hmem : record ∈ collection) : PlainUser record.imsi where
  nonempty := (h.imsi record hmem).1
  chars c hc := by rw [isUserChar, (h.imsi record hmem).2 c hc, Bool.true_or]

theorem plainUser_tel (hmem : record ∈ collection) (htel : record.tel ≠ []) :
    PlainUser record.tel := by
  obtain ⟨digits, heq, hdigits⟩ := h.tel record hmem htel
  refine ⟨htel, fun c hc => ?_⟩
  rw [heq] at hc
  obtain rfl | hc := List.mem_cons.mp hc
  · decide
  · rw [isUserChar, hdigits c hc, Bool.true_or]

theorem isTel_imsi (hmem : record ∈ collection) : isTel record.imsi = false := by
  obtain ⟨hne, hdigits⟩ := h.imsi record hmem
  obtain ⟨c, digits, heq⟩ := List.exists_cons_of_ne_nil hne
  rw [heq] at hdigits ⊢
  refine not_isPrefixOf_of_ne ?_ digits
  rintro rfl
  exact absurd (hdigits '+'.toUInt8 List.mem_cons_self) (by decide)

theorem isTel_tel (hmem : record ∈ collection) (htel : record.tel ≠ []) :
    isTel record.tel = true := by
  obtain ⟨digits, heq, -⟩ := h.tel record hmem htel
  rw [heq]
  rfl

theorem eq_of_imsi_eq (hmem : record ∈ collection) (hother : other ∈ collection)
    (heq : other.imsi = record.imsi) : other = record :=
  List.inj_on_of_nodup_map h.imsis hother hmem heq

theorem eq_of_tel_eq (hmem : record ∈ collection) (hother : other ∈ collection)
    (htel : record.tel ≠ []) (heq : other.tel = record.tel) : other = record := by
  have hnodup := h.tels
  rw [List.filter_map] at hnodup
  refine List.inj_on_of_nodup_map hnodup ?_ ?_ heq
  · exact List.mem_filter.mpr ⟨hother, decide_eq_true (heq ▸ htel)⟩
  · exact List.mem_filter.mpr ⟨hmem, decide_eq_true htel⟩

theorem eq_of_userAtHostText_eq (hmem : record ∈ collection) (hother : other ∈ collection)
    {rest rest' : Bytes}
    (heq : userAtHostText other.imsi rest' = userAtHostText record.imsi rest) : other = record :=
  h.eq_of_imsi_eq hmem hother
    (append_cons_inj (fun hin => ((h.plainUser_imsi hother).inert _ hin).2.2.2.1 rfl)
      (fun hin => ((h.plainUser_imsi hmem).inert _ hin).2.2.2.1 rfl) heq).1

theorem eq_of_impi_eq (hmem : record ∈ collection) (hother : other ∈ collection)
    (heq : other.identities.impi = record.identities.impi) : other = record := by
  rw [h.impi other hother, h.impi record hmem] at heq
  exact h.eq_of_userAtHostText_eq hmem hother heq

theorem find?_imsi (hmem : record ∈ collection) :
    collection.find? (fun subscriber => subscriber.imsi == record.imsi) = some record :=
  find?_eq_some_of_unique hmem (beq_self_eq_true _)
    fun _ hother heq => h.eq_of_imsi_eq hmem hother (beq_iff_eq.mp heq)

theorem find?_tel (hmem : record ∈ collection) (htel : record.tel ≠ []) :
    collection.find? (fun subscriber => subscriber.tel == record.tel) = some record :=
  find?_eq_some_of_unique hmem (beq_self_eq_true _)
    fun _ hother heq => h.eq_of_tel_eq hmem hother htel (beq_iff_eq.mp heq)

/-- A telephone number is no IMSI. -/
theorem find?_imsi_tel (hmem : record ∈ collection) (htel : record.tel ≠ []) :
    collection.find? (fun subscriber => subscriber.imsi == record.tel) = none := by
  rw [List.find?_eq_none]
  intro other hother heq
  have hnot := h.isTel_imsi hother
  rw [beq_iff_eq.mp heq, h.isTel_tel hmem htel] at hnot
  cases hnot

end Collection.Provisioned

/-! ## Looking up -/

/-- The record that is found under these IMSIs and telephone numbers. -/
def Collection.findRecord (collection : Collection) (candidates : List Bytes × List Bytes) :
    Option SubscriberRecord :=
  (candidates.1.findSome? fun imsi => collection.find? fun record => record.imsi == imsi).or
    (candidates.2.findSome? fun tel => collection.find? fun record => record.tel == tel)

/-- The IMSI or the telephone number, alone or in the realm. -/
def SubscriberRecord.HasUsername (record : SubscriberRecord) (username : Bytes) : Prop :=
  ∃ user, (user = record.imsi ∨ user = record.tel ∧ record.tel ≠ []) ∧
    (username = user ∨ username = userAtHostText user record.identities.realm)

theorem SubscriberRecord.HasUsername.ne_nil {record : SubscriberRecord} {username : Bytes}
    (h : record.HasUsername username) {collection : Collection}
    (hcollection : collection.Provisioned) (hmem : record ∈ collection) : username ≠ [] := by
  obtain ⟨user, huser, husername⟩ := h
  have hne : user ≠ [] := by
    obtain rfl | ⟨rfl, htel⟩ := huser
    · exact (hcollection.imsi record hmem).1
    · exact htel
  obtain rfl | rfl := husername
  · exact hne
  · exact List.append_ne_nil_of_left_ne_nil hne _

/-- Every name of a subscriber leads to its record. -/
theorem Collection.Provisioned.findRecord_usernameCandidates [OsipParser]
    (hparser : SchemesComeFirst) {collection : Collection} (h : collection.Provisioned)
    {record : SubscriberRecord}
    (hmem : record ∈ collection) {username : Bytes} (husername : record.HasUsername username) :
    collection.findRecord (usernameCandidates username record.identities.realm) = some record := by
  have hrealm := (h.realm record hmem).1
  obtain ⟨user, rfl | ⟨rfl, htel⟩, husername⟩ := husername
  · rw [usernameCandidates_eq hparser (h.plainUser_imsi hmem) hrealm husername,
      Collection.findRecord, List.findSome?_cons, h.find?_imsi hmem]
    rfl
  · rw [usernameCandidates_eq hparser (h.plainUser_tel hmem htel) hrealm husername,
      h.isTel_tel hmem htel, Collection.findRecord, List.findSome?_cons, h.find?_imsi_tel hmem htel,
      if_pos rfl, List.findSome?_cons, h.find?_tel hmem htel]
    rfl

/-! ## Private identities -/

/-- A private identity begins with the IMSI, and is not made longer by a separator. -/
theorem Collection.Provisioned.normalizeImpuUri_impi [OsipParser] (hparser : SchemesComeFirst)
    {collection : Collection} (h : collection.Provisioned) {record : SubscriberRecord}
    (hmem : record ∈ collection) :
    ∃ rest, normalizeImpuUri record.identities.impi = userAtHostText record.imsi rest ∧
      0x1f ∉ userAtHostText record.imsi rest := by
  obtain ⟨hangle, hseparator⟩ := h.realm record hmem
  have huser := h.plainUser_imsi hmem
  refine ⟨_, (congrArg normalizeImpuUri (h.impi record hmem)).trans
    (normalizeImpuUri_userAtHostText hparser huser hangle), fun hin => ?_⟩
  obtain hin | hin := List.mem_append.mp hin
  · exact (huser.inert _ hin).2.2.2.2.2.2 rfl
  · obtain heq | hin := List.mem_cons.mp hin
    · exact absurd heq (by decide)
    · obtain ⟨c, hc, heq⟩ := List.mem_map.mp hin
      rw [eq_separator_of_toLower heq] at hc
      exact hseparator (List.mem_reverse.mp
        ((List.dropWhile_suffix _).subset (List.mem_reverse.mp hc)))

end SimIms.Db
