import SimIms.Db.SubscriberCodec
import SimIms.WebUi.SubscriberDocument

/-!
# Documents of the web UI, read by the repository

The driver stores texts as UTF-8, whole numbers of 32 bits as such, and all other numbers as
doubles. The reader takes integers only. So a document of the web UI is read back as it was
written, unless its sequence number does not fit into 32 bits.
-/

namespace SimIms.Db

open Cxx WebUi

/-! ## The driver -/

mutual

/-- How the driver stores a value. -/
def toBson : JsValue → Bson
  | .string text => .utf8 (utf8 text)
  | .number value =>
      if -2 ^ 31 ≤ value ∧ value < 2 ^ 31 then .int32 (.ofInt value) else .double value
  | .array values => .array (toBsons values)
  | .object fields => .document (toBsonDocument fields)

def toBsons : List JsValue → List Bson
  | [] => []
  | value :: values => toBson value :: toBsons values

def toBsonDocument : List (String × JsValue) → BsonDocument
  | [] => []
  | (key, value) :: fields => (key, toBson value) :: toBsonDocument fields

end

theorem toBsons_map_string (texts : List JsString) :
    toBsons (texts.map .string) = (texts.map utf8).map .utf8 := by
  induction texts with
  | nil => rw [List.map_nil, toBsons]; rfl
  | cons text texts ih => rw [List.map_cons, toBsons, toBson, ih]; rfl

/-! ## What is read back -/

/-- A record that says what the fields of a document say. -/
structure Represents (record : SubscriberRecord) (fields : SubscriberFields) : Prop where
  imsi : record.imsi = utf8 fields.imsi
  tel : record.tel = utf8 (fields.tel.getD [])
  impi : record.identities.impi = utf8 (fields.imsi ++ js "@" ++ fields.realm)
  canonicalImpu :
    record.identities.canonicalImpu = utf8 (js "sip:" ++ fields.imsi ++ js "@" ++ fields.realm)
  associatedImpus : record.identities.associatedImpus =
    (buildAssociatedImpus fields.imsi fields.realm fields.tel).map utf8
  realm : record.identities.realm = utf8 fields.realm
  password : record.auth.password = utf8 fields.password
  ki : record.auth.ki = utf8 fields.ki
  operatorCodeType : record.auth.operatorCodeType = utf8 fields.operatorCodeType
  opc : record.auth.opc =
    utf8 (if fields.operatorCodeType = js "opc" then fields.operatorCode else [])
  op : record.auth.op =
    utf8 (if fields.operatorCodeType = js "op" then fields.operatorCode else [])
  sqn : (record.auth.sqn.toNat : Int) = fields.sqn
  amf : record.auth.amf = utf8 fields.amf
  assignedScscf : record.assignedScscf = utf8 fields.assignedScscf

variable {fields : SubscriberFields}

/-- The document as it is stored. -/
def stored (fields : SubscriberFields) : BsonDocument := toBsonDocument fields.document

theorem stored_eq (fields : SubscriberFields) : stored fields =
    [("imsi", .utf8 (utf8 fields.imsi))] ++
    (match fields.tel with
      | none => []
      | some tel => if tel = [] then [] else [("tel", .utf8 (utf8 tel))]) ++
    [("realm", .utf8 (utf8 fields.realm)),
      ("identities", .document
        [("impi", .utf8 (utf8 (fields.imsi ++ js "@" ++ fields.realm))),
          ("canonical_impu", .utf8 (utf8 (js "sip:" ++ fields.imsi ++ js "@" ++ fields.realm))),
          ("associated_impus", .array
            (((buildAssociatedImpus fields.imsi fields.realm fields.tel).map utf8).map .utf8)),
          ("username", .utf8 (utf8 fields.imsi)),
          ("realm", .utf8 (utf8 fields.realm))]),
      ("auth", .document
        [("password", .utf8 (utf8 fields.password)),
          ("ki", .utf8 (utf8 fields.ki)),
          ("operator_code_type", .utf8 (utf8 fields.operatorCodeType)),
          ("opc", .utf8 (utf8
            (if fields.operatorCodeType = js "opc" then fields.operatorCode else []))),
          ("op", .utf8 (utf8
            (if fields.operatorCodeType = js "op" then fields.operatorCode else []))),
          ("sqn", toBson (.number fields.sqn)),
          ("amf", .utf8 (utf8 fields.amf))]),
      ("profile", .document [("ifcs", .array [])]),
      ("serving", .document [("assigned_scscf", .utf8 (utf8 fields.assignedScscf))])] := by
  rw [stored, SubscriberFields.document]
  cases fields.tel with
  | none => simp [toBsonDocument, toBson, toBsons, toBsons_map_string]
  | some tel =>
      by_cases hempty : tel = []
      · simp [hempty, toBsonDocument, toBson, toBsons, toBsons_map_string]
      · simp [hempty, toBsonDocument, toBson, toBsons, toBsons_map_string]

/-- An integer is read back if it is stored as one. -/
theorem uint64?_toBson_number {n : Int} (h : 0 ≤ n) :
    (toBson (.number n)).uint64? = if n < 2 ^ 31 then some (.ofNat n.toNat) else none := by
  rw [toBson]
  by_cases hrange : n < 2 ^ 31
  · have htoInt : (Int32.ofInt n).toInt = n := Int32.toInt_ofInt_of_le (by omega) hrange
    have hnonneg : ¬ Int32.ofInt n < 0 := by
      rw [Int32.lt_iff_toInt_lt, htoInt]
      exact not_lt.mpr h
    have hwide : (Int32.ofInt n).toInt64 = .ofNat n.toNat := by
      rw [← Int64.ofInt_int32ToInt, htoInt, ← Int64.ofInt_eq_ofNat, Int.toNat_of_nonneg h]
    rw [if_pos ⟨by omega, hrange⟩, if_pos hrange, Bson.uint64?, if_neg hnonneg, hwide,
      Int64.toUInt64_ofNat']
  · rw [if_neg fun hboth => hrange hboth.2, if_neg hrange]
    rfl

section

variable (fields : SubscriberFields)

theorem extractUtf8_stored_imsi : extractUtf8 (stored fields) "imsi" = some (utf8 fields.imsi) := by
  rw [stored_eq]
  rfl

theorem extractUtf8_stored_tel :
    extractUtf8 (stored fields) "tel" =
      fields.tel.bind fun tel => if tel = [] then none else some (utf8 tel) := by
  rw [stored_eq]
  cases fields.tel with
  | none => rfl
  | some tel =>
      by_cases hempty : tel = []
      · simp [hempty, extractUtf8, findField]
      · simp [hempty, extractUtf8, findField, Bson.utf8?]

/-- The parts of a stored document, behind the telephone number or without it. -/
theorem extractDocument_stored_identities :
    extractDocument (stored fields) "identities" = some
      [("impi", .utf8 (utf8 (fields.imsi ++ js "@" ++ fields.realm))),
        ("canonical_impu", .utf8 (utf8 (js "sip:" ++ fields.imsi ++ js "@" ++ fields.realm))),
        ("associated_impus", .array
          (((buildAssociatedImpus fields.imsi fields.realm fields.tel).map utf8).map .utf8)),
        ("username", .utf8 (utf8 fields.imsi)),
        ("realm", .utf8 (utf8 fields.realm))] := by
  rw [stored_eq]
  cases htel : fields.tel with
  | none => rfl
  | some tel =>
      by_cases hempty : tel = []
      · simp [hempty, extractDocument, findField]
      · simp [hempty, extractDocument, findField]

theorem extractDocument_stored_auth :
    extractDocument (stored fields) "auth" = some
      [("password", .utf8 (utf8 fields.password)),
        ("ki", .utf8 (utf8 fields.ki)),
        ("operator_code_type", .utf8 (utf8 fields.operatorCodeType)),
        ("opc", .utf8 (utf8
          (if fields.operatorCodeType = js "opc" then fields.operatorCode else []))),
        ("op", .utf8 (utf8
          (if fields.operatorCodeType = js "op" then fields.operatorCode else []))),
        ("sqn", toBson (.number fields.sqn)),
        ("amf", .utf8 (utf8 fields.amf))] := by
  rw [stored_eq]
  cases fields.tel with
  | none => rfl
  | some tel =>
      by_cases hempty : tel = []
      · simp [hempty, extractDocument, findField]
      · simp [hempty, extractDocument, findField]

theorem extractDocument_stored_serving :
    extractDocument (stored fields) "serving" =
      some [("assigned_scscf", .utf8 (utf8 fields.assignedScscf))] := by
  rw [stored_eq]
  cases fields.tel with
  | none => rfl
  | some tel =>
      by_cases hempty : tel = []
      · simp [hempty, extractDocument, findField]
      · simp [hempty, extractDocument, findField]

end

theorem mapM_utf8? (values : List Bytes) :
    (values.map Bson.utf8).mapM Bson.utf8? = some values := by
  induction values with
  | nil => rfl
  | cons value values ih =>
      rw [List.map_cons, List.mapM_cons, ih]
      rfl

/-- The identities are read back, with the user name that stands before the first `@`. -/
theorem decodeIdentities_stored (legacyTel : Option Bytes)
    (impi canonicalImpu username realm : Bytes) (associatedImpus : List Bytes) :
    ∃ identities, decodeIdentities legacyTel
      [("impi", .utf8 impi), ("canonical_impu", .utf8 canonicalImpu),
        ("associated_impus", .array (associatedImpus.map .utf8)), ("username", .utf8 username),
        ("realm", .utf8 realm)] = .ok identities ∧ identities.impi = impi ∧
      identities.canonicalImpu = canonicalImpu ∧ identities.associatedImpus = associatedImpus ∧
      identities.realm = realm := by
  have harray : extractStringArray
      [("impi", .utf8 impi), ("canonical_impu", .utf8 canonicalImpu),
        ("associated_impus", .array (associatedImpus.map .utf8)), ("username", .utf8 username),
        ("realm", .utf8 realm)] "associated_impus" = some associatedImpus :=
          mapM_utf8? associatedImpus
  rw [decodeIdentities, harray]
  exact ⟨_, rfl, rfl, rfl, rfl, rfl⟩

/-- The secrets as they are read back. -/
def readAuth (fields : SubscriberFields) : SubscriberAuth where
  password := utf8 fields.password
  ki := utf8 fields.ki
  operatorCodeType := utf8 fields.operatorCodeType
  opc := utf8 (if fields.operatorCodeType = js "opc" then fields.operatorCode else [])
  op := utf8 (if fields.operatorCodeType = js "op" then fields.operatorCode else [])
  sqn := .ofNat fields.sqn.toNat
  amf := utf8 fields.amf

/-- The secrets are read back exactly when the sequence number is one of 32 bits. -/
theorem decodeAuth_stored (h : fields.Checked) :
    decodeAuth
      [("password", .utf8 (utf8 fields.password)),
        ("ki", .utf8 (utf8 fields.ki)),
        ("operator_code_type", .utf8 (utf8 fields.operatorCodeType)),
        ("opc", .utf8 (utf8
          (if fields.operatorCodeType = js "opc" then fields.operatorCode else []))),
        ("op", .utf8 (utf8
          (if fields.operatorCodeType = js "op" then fields.operatorCode else []))),
        ("sqn", toBson (.number fields.sqn)),
        ("amf", .utf8 (utf8 fields.amf))] =
      if fields.sqn < 2 ^ 31 then
        .ok (readAuth fields)
      else .error (invalidField "auth") := by
  have hsqn := uint64?_toBson_number h.sqn
  have hcode : hasCode (some (utf8 fields.operatorCode)) = true := by
    have hne : fields.operatorCode ≠ [] := by
      rw [← List.length_pos_iff, h.operatorCode]
      decide
    simp [hasCode, utf8_ne_nil hne]
  by_cases hrange : fields.sqn < 2 ^ 31
  · rw [if_pos hrange] at hsqn ⊢
    have hne : js "op" ≠ js "opc" := by decide
    have hopc : utf8 (js "opc") = bytes "opc" := by decide
    have hop : utf8 (js "op") = bytes "op" := by decide
    have hopne : bytes "op" ≠ bytes "opc" := by decide
    obtain htype | htype := h.operatorCodeType
    · simp [decodeAuth, readAuth, extractUtf8, extractUint64, findField, Bson.utf8?, hsqn, htype,
        hopc, hcode]
      rfl
    · simp [decodeAuth, readAuth, extractUtf8, extractUint64, findField, Bson.utf8?, hsqn, htype,
        hop, hopne, hcode]
      rfl
  · rw [if_neg hrange] at hsqn ⊢
    simp [decodeAuth, extractUtf8, extractUint64, findField, Bson.utf8?, hsqn]
    rfl

theorem decodeSubscriber_stored (h : fields.Checked) :
    (fields.sqn < 2 ^ 31 → ∃ record, decodeSubscriber (stored fields) = .ok record ∧
      Represents record fields) ∧
    (¬ fields.sqn < 2 ^ 31 → decodeSubscriber (stored fields) = .error (invalidField "auth")) := by
  obtain ⟨identities, hidentities, himpi, hcanonical, hassociated, hrealm⟩ :=
    decodeIdentities_stored (extractUtf8 (stored fields) "tel")
      (utf8 (fields.imsi ++ js "@" ++ fields.realm))
      (utf8 (js "sip:" ++ fields.imsi ++ js "@" ++ fields.realm)) (utf8 fields.imsi)
      (utf8 fields.realm) ((buildAssociatedImpus fields.imsi fields.realm fields.tel).map utf8)
  have hauth := decodeAuth_stored h
  have htel : (extractUtf8 (stored fields) "tel").getD [] = utf8 (fields.tel.getD []) := by
    rw [extractUtf8_stored_tel]
    cases fields.tel with
    | none => rfl
    | some tel =>
        by_cases hempty : tel = []
        · rw [hempty]
          rfl
        · rw [Option.bind_some, if_neg hempty]
          rfl
  constructor
  · intro hrange
    rw [if_pos hrange] at hauth
    have hsqn : ((UInt64.ofNat fields.sqn.toNat).toNat : Int) = fields.sqn := by
      have hnonneg := h.sqn
      rw [UInt64.toNat_ofNat_of_lt' (by rw [UInt64.size]; omega), Int.toNat_of_nonneg hnonneg]
    refine ⟨{ imsi := utf8 fields.imsi, tel := utf8 (fields.tel.getD []), identities
              auth := readAuth fields, assignedScscf := utf8 fields.assignedScscf }, ?_, ?_⟩
    · rw [decodeSubscriber, extractDocument_stored_identities, extractDocument_stored_auth,
        extractDocument_stored_serving, extractUtf8_stored_imsi]
      simp only [hidentities, hauth, htel]
      rfl
    · exact { imsi := rfl, tel := rfl, impi := himpi, canonicalImpu := hcanonical
              associatedImpus := hassociated, realm := hrealm, password := rfl, ki := rfl
              operatorCodeType := rfl, opc := rfl, op := rfl, sqn := hsqn, amf := rfl
              assignedScscf := rfl }
  · intro hrange
    rw [if_neg hrange] at hauth
    rw [decodeSubscriber, extractDocument_stored_identities, extractDocument_stored_auth]
    simp only [hidentities, hauth]
    rfl

/-- A payload that the UI accepts is read back as it was written exactly when its sequence number
fits into 32 bits with a sign. -/
theorem decodeSubscriber_represents_iff {payload : UePayload} {defaultScscfUri : JsString}
    (accepted : readFields payload defaultScscfUri = .ok fields) :
    (∃ document record, buildSubscriberDocument payload defaultScscfUri = .ok document ∧
      decodeSubscriber (toBsonDocument document) = .ok record ∧ Represents record fields) ↔
      fields.sqn < 2 ^ 31 := by
  obtain ⟨hreads, hfails⟩ := decodeSubscriber_stored (checked_of_readFields accepted)
  constructor
  · rintro ⟨document, record, hbuild, hdecode, -⟩
    by_contra hlarge
    rw [buildSubscriberDocument, accepted] at hbuild
    cases hbuild
    cases (hfails hlarge).symm.trans hdecode
  · intro hsmall
    obtain ⟨record, hdecode, hrepresents⟩ := hreads hsmall
    refine ⟨fields.document, record, ?_, hdecode, hrepresents⟩
    rw [buildSubscriberDocument, accepted]
    rfl

/-- A subscriber with a telephone number, and this sequence number. -/
def alicePayload (sqn : String) : UePayload where
  imsi := some (js "460001234567890 ")
  realm := some (js "ims.local")
  tel := some (js "+8613800000001")
  password := some (js "secret")
  ki := some (js "465B5CE8B199B49FAA5F0A2EE238A6BC")
  operatorCodeType := some (js "opc")
  operatorCode := some (js "cd63cb71954a9f4e48a5994e37a02baf")
  sqn := some (js sqn)

def aliceFields (sqn : Int) : SubscriberFields where
  imsi := js "460001234567890"
  realm := js "ims.local"
  password := js "secret"
  ki := js "465b5ce8b199b49faa5f0a2ee238a6bc"
  operatorCodeType := js "opc"
  operatorCode := js "cd63cb71954a9f4e48a5994e37a02baf"
  amf := js "8000"
  sqn
  tel := some (js "+8613800000001")
  assignedScscf := js "sip:127.0.0.1:5062;transport=udp"

theorem decodeSubscriber_represents_iff_alice :
    ∃ document record, buildSubscriberDocument (alicePayload " 0x1f ")
        (js "sip:127.0.0.1:5062;transport=udp") = .ok document ∧
      decodeSubscriber (toBsonDocument document) = .ok record ∧
      Represents record (aliceFields 31) :=
  (decodeSubscriber_represents_iff (by decide +kernel)).mpr (by decide)

/-- A sequence number of 2^31 is stored as a double, which the reader does not take. -/
theorem large_sqn_is_rejected :
    readFields (alicePayload "2147483648") (js "sip:127.0.0.1:5062;transport=udp") =
        .ok (aliceFields (2 ^ 31)) ∧
      ∃ document, buildSubscriberDocument (alicePayload "2147483648")
          (js "sip:127.0.0.1:5062;transport=udp") = .ok document ∧
        decodeSubscriber (toBsonDocument document) = .error (invalidField "auth") := by
  have accepted : readFields (alicePayload "2147483648") (js "sip:127.0.0.1:5062;transport=udp") =
      .ok (aliceFields (2 ^ 31)) := by decide +kernel
  refine ⟨accepted, (aliceFields (2 ^ 31)).document, ?_, ?_⟩
  · rw [buildSubscriberDocument, accepted]
    rfl
  · exact (decodeSubscriber_stored (checked_of_readFields accepted)).2 (by decide)

end SimIms.Db
