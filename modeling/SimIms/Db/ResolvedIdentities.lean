import SimIms.Db.PublicIdentities
import SimIms.Db.WrittenSubscribers
import SimIms.WebUi.PlainTexts

/-!
# The public identities of a written subscriber

A document lists up to three public identities: the IMSI and the telephone number as SIP URIs, and
the number as a `tel` URI. The resolver takes the user of a SIP URI without `+` for an IMSI, so it
does not find a subscriber under a SIP URI with a national number.
-/

namespace SimIms.Db

open Cxx Lib Sip WebUi

/-! ## The collection -/

def Field.key : Field → String
  | .imsi => "imsi"
  | .tel => "tel"

/-- `find_one_by_field` on documents. -/
def findDocument (documents : List BsonDocument) (field : Field) (value : Bytes) :
    Result (Option SubscriberRecord) :=
  match documents.find? fun document => extractUtf8 document field.key == some value with
  | none => .ok none
  | some document => (decodeSubscriber document).map some

/-- The documents are not changed by looking for them. -/
def AnswersFrom {σ : Type} (world : σ → (op : RepositoryOp) → σ × RepositoryAnswer op)
    (documents : List BsonDocument) : Prop :=
  ∀ s field value, world s (.findOneByField field value) = (s, findDocument documents field value)

section

variable [OsipParser] {σ : Type} {world : σ → (op : RepositoryOp) → σ × RepositoryAnswer op}
variable {documents : List BsonDocument} {s : σ}

omit [OsipParser] in
theorem result_findOneByField (hworld : AnswersFrom world documents) (field : Field)
    (value : Bytes) :
    ((MongoSubscriberRepository.findOneByField (G := repository) field value).runIn
      world s).result = .ok (findDocument documents field value) := by
  change Except.ok (world s (.findOneByField field value)).2 = _
  rw [hworld]

omit [OsipParser] in
theorem result_findFirst_singleton (hworld : AnswersFrom world documents) (field : Field)
    (value : Bytes) :
    ((MongoSubscriberRepository.findFirst (G := repository) field [value]).runIn world s).result =
      .ok (findDocument documents field value) := by
  have hfind := result_findOneByField (s := s) hworld field value
  cases hfound : findDocument documents field value with
  | error error => exact Program.result_andThen_of_error (hfind.trans (by rw [hfound]))
  | ok found =>
      refine (Program.result_andThen_of_ok (hfind.trans (by rw [hfound]))).trans ?_
      cases found with
      | none => rfl
      | some record => rfl

/-- A single candidate is all that is looked up. -/
theorem result_findByIdentity_imsi (hworld : AnswersFrom world documents) {identity user : Bytes}
    (h : identityCandidates identity = ([user], [])) :
    ((MongoSubscriberRepository.findByIdentity (G := repository) identity).runIn world s).result =
      .ok (findDocument documents .imsi user) := by
  rw [MongoSubscriberRepository.findByIdentity, h]
  have hfind := result_findFirst_singleton (s := s) hworld .imsi user
  cases hfound : findDocument documents .imsi user with
  | error error => exact Program.result_andThen_of_error (hfind.trans (by rw [hfound]))
  | ok found =>
      refine (Program.result_andThen_of_ok (hfind.trans (by rw [hfound]))).trans ?_
      cases found with
      | none => rfl
      | some record => rfl

theorem result_findByIdentity_tel (hworld : AnswersFrom world documents) {identity user : Bytes}
    (h : identityCandidates identity = ([], [user])) :
    ((MongoSubscriberRepository.findByIdentity (G := repository) identity).runIn world s).result =
      .ok (findDocument documents .tel user) := by
  rw [MongoSubscriberRepository.findByIdentity, h]
  exact result_findFirst_singleton hworld .tel user

end

/-! ## Subscribers of the web UI -/

/-- Documents of payloads that the UI has accepted, with identities that are told apart. -/
structure IsCollection (collection : List SubscriberFields) : Prop where
  accepted : ∀ fields ∈ collection, ∃ payload defaultScscfUri,
    readFields payload defaultScscfUri = .ok fields
  imsi : ∀ fields ∈ collection, IsDigits fields.imsi
  tel : ∀ fields ∈ collection, ∀ tel, fields.tel = some tel → tel ≠ [] → IsTelNumber tel
  realm : ∀ fields ∈ collection, IsHostName fields.realm
  unique_imsi : ∀ fields ∈ collection, ∀ other ∈ collection, fields.imsi = other.imsi →
    fields = other
  unique_tel : ∀ fields ∈ collection, ∀ other ∈ collection, ∀ tel, tel ≠ [] →
    fields.tel = some tel → other.tel = some tel → fields = other
  distinct : ∀ fields ∈ collection, ∀ other ∈ collection, fields.tel = some other.imsi →
    fields = other

namespace IsCollection

variable {collection : List SubscriberFields} (h : IsCollection collection)
variable {fields : SubscriberFields}

include h

theorem checked (hmem : fields ∈ collection) : fields.Checked := by
  obtain ⟨payload, defaultScscfUri, haccepted⟩ := h.accepted fields hmem
  exact checked_of_readFields haccepted

/-- Where a document is found, its record is read if the sequence number is small. -/
theorem findDocument_of_find? {field : Field} {value : Bytes} (hmem : fields ∈ collection)
    (hfind : collection.find? (fun fields => extractUtf8 (stored fields) field.key == some value) =
      some fields) :
    (∃ record, Represents record fields ∧
      findDocument (collection.map stored) field value = .ok (some record)) ↔
      fields.sqn < 2 ^ 31 := by
  obtain ⟨hreads, hfails⟩ := decodeSubscriber_stored (h.checked hmem)
  have hdocument : (collection.map stored).find?
      (fun document => extractUtf8 document field.key == some value) = some (stored fields) := by
    rw [List.find?_map]
    exact congrArg (Option.map stored) hfind
  constructor
  · rintro ⟨record, -, hfound⟩
    by_contra hlarge
    rw [findDocument, hdocument] at hfound
    simp only [hfails hlarge] at hfound
    cases hfound
  · intro hsmall
    obtain ⟨record, hdecode, hrepresents⟩ := hreads hsmall
    refine ⟨record, hrepresents, ?_⟩
    rw [findDocument, hdocument]
    simp only [hdecode]
    rfl

theorem findDocument_imsi (hmem : fields ∈ collection) :
    (∃ record, Represents record fields ∧
      findDocument (collection.map stored) .imsi (utf8 fields.imsi) = .ok (some record)) ↔
      fields.sqn < 2 ^ 31 := by
  apply h.findDocument_of_find? hmem
  refine find?_eq_some_of_unique hmem (beq_iff_eq.mpr (extractUtf8_stored_imsi fields)) ?_
  intro other hother heq
  rw [beq_iff_eq, Field.key, extractUtf8_stored_imsi, Option.some.injEq] at heq
  exact h.unique_imsi other hother fields hmem (utf8_injective_of_isAscii
    (h.imsi other hother).isAscii (h.imsi fields hmem).isAscii heq)

theorem findDocument_tel (hmem : fields ∈ collection) {tel : JsString}
    (htel : fields.tel = some tel) (hne : tel ≠ []) :
    (∃ record, Represents record fields ∧
      findDocument (collection.map stored) .tel (utf8 tel) = .ok (some record)) ↔
      fields.sqn < 2 ^ 31 := by
  apply h.findDocument_of_find? hmem
  refine find?_eq_some_of_unique hmem ?_ ?_
  · rw [beq_iff_eq, Field.key, extractUtf8_stored_tel, htel, Option.bind_some, if_neg hne]
  · intro other hother heq
    rw [beq_iff_eq, Field.key, extractUtf8_stored_tel] at heq
    obtain ⟨number, hnumber, hsome⟩ := Option.bind_eq_some_iff.mp heq
    split at hsome
    · cases hsome
    · rename_i hnumberne
      have hequal := utf8_injective_of_isAscii (h.tel other hother number hnumber hnumberne).isAscii
        (h.tel fields hmem tel htel hne).isAscii (Option.some.inj hsome)
      rw [hequal] at hnumber
      exact h.unique_tel other hother fields hmem tel hne hnumber htel

/-- A national number that is no IMSI is not found as one. -/
theorem findDocument_imsi_of_tel (hmem : fields ∈ collection) {tel : JsString}
    (htel : fields.tel = some tel) (hne : tel ≠ []) (hnot : tel ≠ fields.imsi) :
    findDocument (collection.map stored) .imsi (utf8 tel) = .ok none := by
  have hfind : (collection.map stored).find?
      (fun document => extractUtf8 document Field.imsi.key == some (utf8 tel)) = none := by
    rw [List.find?_map, Option.map_eq_none_iff, List.find?_eq_none]
    intro other hother heq
    rw [Function.comp, beq_iff_eq, Field.key, extractUtf8_stored_imsi, Option.some.injEq] at heq
    have hequal := utf8_injective_of_isAscii (h.imsi other hother).isAscii
      (h.tel fields hmem tel htel hne).isAscii heq
    have hsame := h.distinct fields hmem other hother (htel.trans (congrArg some hequal.symm))
    exact hnot (hequal.symm.trans (congrArg SubscriberFields.imsi hsame.symm))
  rw [findDocument, hfind]

end IsCollection

/-- The public identities of a document. -/
theorem mem_buildAssociatedImpus_iff {imsi realm impu : JsString} {tel : Option JsString}
    (htel : ∀ number, tel = some number → number ≠ [] → IsTelNumber number) :
    impu ∈ buildAssociatedImpus imsi realm tel ↔ impu = sipIdentity imsi realm ∨
      ∃ number, tel = some number ∧ number ≠ [] ∧
        (impu = sipIdentity number realm ∨ impu = js "tel:" ++ number) := by
  cases tel with
  | none => simp [buildAssociatedImpus, sipIdentity]
  | some number =>
      by_cases hne : number = []
      · subst hne
        have htrim : jsTrim [] = [] := rfl
        simp [buildAssociatedImpus, htrim, sipIdentity]
      · have htrim := (htel number rfl hne).jsTrim_eq
        simp [buildAssociatedImpus, htrim, hne, sipIdentity]

theorem sipIdentity_injective {user other realm : JsString}
    (h : sipIdentity user realm = sipIdentity other realm) : user = other :=
  List.append_cancel_left (List.append_cancel_right (List.append_cancel_right h))

section

variable [OsipParser] {σ : Type} {world : σ → (op : RepositoryOp) → σ × RepositoryAnswer op}
variable {documents : List BsonDocument} {s : σ}

/-- The SIP URI of a user is looked up as a number or as an IMSI. -/
theorem result_findByIdentity_sipIdentity (hparser : ParsesSipUris)
    (hworld : AnswersFrom world documents) {user realm : JsString} (hu : IsTelNumber user)
    (hr : IsHostName realm) :
    ((MongoSubscriberRepository.findByIdentity (G := repository)
      (normalizeImpuUri (utf8 (sipIdentity user realm)))).runIn world s).result =
      .ok (findDocument documents (if user.head? = some 0x2B then .tel else .imsi)
        (utf8 user)) := by
  have hcandidates : identityCandidates (normalizeImpuUri (utf8 (sipIdentity user realm))) =
      userCandidates (utf8 user) := by
    rw [utf8_sipIdentity hu.isAscii hr.isAscii,
      normalizeImpuUri_sipUri hparser hu.plainUser hr.plainHost]
    exact identityCandidates_sipUri hparser hu.plainUser hr.plainHost.lowercase
  by_cases hplus : user.head? = some 0x2B
  · rw [if_pos hplus]
    refine result_findByIdentity_tel hworld (hcandidates.trans ?_)
    rw [userCandidates, isTel, if_pos (hu.plus_iff.mpr hplus)]
  · rw [if_neg hplus]
    refine result_findByIdentity_imsi hworld (hcandidates.trans ?_)
    rw [userCandidates, isTel, if_neg fun h => hplus (hu.plus_iff.mp h)]

theorem result_findByIdentity_telIdentity (hworld : AnswersFrom world documents) {tel : JsString}
    (ht : IsTelNumber tel) :
    ((MongoSubscriberRepository.findByIdentity (G := repository)
      (normalizeImpuUri (utf8 (js "tel:" ++ tel)))).runIn world s).result =
      .ok (findDocument documents .tel (utf8 tel)) := by
  apply result_findByIdentity_tel hworld
  rw [utf8_telIdentity ht.isAscii, normalizeImpuUri_telUri ht.plainUser]
  exact identityCandidates_telUri ht.plainUser

/-- A written subscriber is found under one of its public identities exactly when its document can
be read and the identity is not the SIP URI of a national number. -/
theorem findByIdentity_associated_iff (hparser : ParsesSipUris) {collection : List SubscriberFields}
    (hcollection : IsCollection collection) (hworld : AnswersFrom world (collection.map stored))
    {fields : SubscriberFields} (hmem : fields ∈ collection) {impu : JsString}
    (himpu : impu ∈ buildAssociatedImpus fields.imsi fields.realm fields.tel) (s : σ) :
    (∃ record, Represents record fields ∧
      ((MongoSubscriberRepository.findByIdentity (G := repository)
        (normalizeImpuUri (utf8 impu))).runIn world s).result = .ok (.ok (some record))) ↔
      fields.sqn < 2 ^ 31 ∧ ∀ tel, fields.tel = some tel → impu = sipIdentity tel fields.realm →
        tel.head? = some 0x2B ∨ tel = fields.imsi := by
  have himsi := hcollection.imsi fields hmem
  have hrealm := hcollection.realm fields hmem
  have hbyImsi := hcollection.findDocument_imsi hmem
  obtain rfl | ⟨number, htel, hne, rfl | rfl⟩ :=
    (mem_buildAssociatedImpus_iff (hcollection.tel fields hmem)).mp himpu
  · -- The IMSI in the realm.
    have hplus : fields.imsi.head? ≠ some 0x2B := fun h =>
      absurd ((IsTelNumber.plus_iff (.inl himsi)).mpr h) (by rw [himsi.not_plus]; decide)
    rw [result_findByIdentity_sipIdentity hparser hworld (.inl himsi) hrealm, if_neg hplus]
    simp only [Except.ok.injEq]
    rw [hbyImsi, iff_self_and]
    exact fun _ tel _ heq => .inr (sipIdentity_injective heq).symm
  · -- The number in the realm.
    have hnumber := hcollection.tel fields hmem number htel hne
    have hother : (∀ tel, fields.tel = some tel → sipIdentity number fields.realm =
        sipIdentity tel fields.realm → tel.head? = some 0x2B ∨ tel = fields.imsi) ↔
        number.head? = some 0x2B ∨ number = fields.imsi := by
      constructor
      · exact fun h => h number htel rfl
      · intro h tel hsome heq
        rwa [← sipIdentity_injective heq]
    rw [result_findByIdentity_sipIdentity hparser hworld hnumber hrealm, hother]
    simp only [Except.ok.injEq]
    by_cases hplus : number.head? = some 0x2B
    · rw [if_pos hplus, hcollection.findDocument_tel hmem htel hne]
      exact (and_iff_left (.inl hplus)).symm
    · rw [if_neg hplus]
      by_cases hequal : number = fields.imsi
      · rw [hequal, hbyImsi]
        exact (and_iff_left (.inr rfl)).symm
      · rw [hcollection.findDocument_imsi_of_tel hmem htel hne hequal]
        refine iff_of_false ?_ fun h => h.2.elim hplus hequal
        rintro ⟨record, -, hnone⟩
        cases hnone
  · -- The number as a `tel` URI.
    have hnumber := hcollection.tel fields hmem number htel hne
    rw [result_findByIdentity_telIdentity hworld hnumber]
    simp only [Except.ok.injEq]
    rw [hcollection.findDocument_tel hmem htel hne, iff_self_and]
    intro _ tel _ heq
    cases congrArg List.head? heq

end

/-! ## Two numbers -/

/-- A repository that does nothing but look documents up. -/
def documentWorld (documents : List BsonDocument) (s : Unit) :
    (op : RepositoryOp) → Unit × RepositoryAnswer op
  | .findOneByField field value => (s, findDocument documents field value)
  | .updateSqn _ _ _ => (s, .ok false)
  | .updateServing _ _ => (s, .ok false)

theorem documentWorld_answersFrom (documents : List BsonDocument) :
    AnswersFrom (documentWorld documents) documents := fun _ _ _ => rfl

/-- A subscriber is a collection. -/
theorem isCollection_singleton {payload : UePayload} {defaultScscfUri : JsString}
    {fields : SubscriberFields} (haccepted : readFields payload defaultScscfUri = .ok fields)
    (himsi : IsDigits fields.imsi) (htel : ∀ tel, fields.tel = some tel → IsTelNumber tel)
    (hrealm : IsHostName fields.realm) : IsCollection [fields] where
  accepted := List.forall_mem_singleton.mpr ⟨payload, defaultScscfUri, haccepted⟩
  imsi := List.forall_mem_singleton.mpr himsi
  tel := List.forall_mem_singleton.mpr fun tel hsome _ => htel tel hsome
  realm := List.forall_mem_singleton.mpr hrealm
  unique_imsi := List.forall_mem_singleton.mpr (List.forall_mem_singleton.mpr fun _ => rfl)
  unique_tel := List.forall_mem_singleton.mpr
    (List.forall_mem_singleton.mpr fun _ _ _ _ => rfl)
  distinct := List.forall_mem_singleton.mpr (List.forall_mem_singleton.mpr fun _ => rfl)

/-- Bob, with this number. -/
def bobPayload (tel : String) : UePayload where
  imsi := some (js "460001234567891")
  realm := some (js "ims.local")
  tel := some (js tel)
  password := some (js "secret")
  ki := some (js "465b5ce8b199b49faa5f0a2ee238a6bc")
  operatorCodeType := some (js "opc")
  operatorCode := some (js "cd63cb71954a9f4e48a5994e37a02baf")

def bobFields (tel : String) : SubscriberFields where
  imsi := js "460001234567891"
  realm := js "ims.local"
  password := js "secret"
  ki := js "465b5ce8b199b49faa5f0a2ee238a6bc"
  operatorCodeType := js "opc"
  operatorCode := js "cd63cb71954a9f4e48a5994e37a02baf"
  amf := js "8000"
  sqn := 0
  tel := some (js tel)
  assignedScscf := js "sip:127.0.0.1:5062;transport=udp"

theorem bobCollection (tel : String)
    (haccepted : readFields (bobPayload tel) (js "sip:127.0.0.1:5062;transport=udp") =
      .ok (bobFields tel)) (htel : IsTelNumber (js tel)) : IsCollection [bobFields tel] :=
  have himsi : IsDigits (js "460001234567891") := by decide +kernel
  have hrealm : IsHostName (js "ims.local") := by decide +kernel
  isCollection_singleton haccepted himsi (fun _ hsome => Option.some.inj hsome ▸ htel) hrealm

/-- An international number is found in the realm. -/
theorem findByIdentity_associated_iff_international :
    let _ : OsipParser := plainUris
    ∃ record, Represents record (bobFields "+13800000001") ∧
      ((MongoSubscriberRepository.findByIdentity (G := repository)
        (normalizeImpuUri (utf8 (sipIdentity (js "+13800000001") (js "ims.local"))))).runIn
          (documentWorld [stored (bobFields "+13800000001")]) ()).result =
        .ok (.ok (some record)) := by
  intro parser
  have hcollection := bobCollection "+13800000001" (by decide +kernel)
    (.inr ⟨js "13800000001", by decide +kernel, by decide +kernel⟩)
  refine (findByIdentity_associated_iff plainUris_parsesSipUris hcollection
    (documentWorld_answersFrom _) List.mem_cons_self (by decide +kernel) ()).mpr
      ⟨by decide, fun tel htel _ => .inl ?_⟩
  cases Option.some.inj htel
  decide

/-- A national number in the realm is looked up as an IMSI. -/
theorem national_number_is_not_found :
    let _ : OsipParser := plainUris
    IsCollection [bobFields "13800000001"] ∧
      sipIdentity (js "13800000001") (js "ims.local") ∈
        buildAssociatedImpus (js "460001234567891") (js "ims.local") (some (js "13800000001")) ∧
      ((MongoSubscriberRepository.findByIdentity (G := repository)
        (normalizeImpuUri (utf8 (sipIdentity (js "13800000001") (js "ims.local"))))).runIn
          (documentWorld [stored (bobFields "13800000001")]) ()).result = .ok (.ok none) := by
  intro parser
  have htel : IsTelNumber (js "13800000001") := .inl (by decide +kernel)
  have hcollection := bobCollection "13800000001" (by decide +kernel) htel
  refine ⟨hcollection, by decide +kernel, ?_⟩
  rw [result_findByIdentity_sipIdentity plainUris_parsesSipUris (documentWorld_answersFrom _) htel
    (by decide +kernel), if_neg (by decide +kernel)]
  exact congrArg Except.ok (hcollection.findDocument_imsi_of_tel List.mem_cons_self rfl (by decide)
    (by decide))

end SimIms.Db
