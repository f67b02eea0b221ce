import SimIms.WebUi.Collections

/-!
# Writing and editing a UE

`POST /api/ue` replaces the document of a subscriber, `PUT /api/ue/:id` sets the fields of the
document with an id. The document of a payload without a telephone number has no field for one, so
what `PUT` sets leaves the number of the payload before in place.
-/

namespace SimIms.WebUi

open Lib

/-! ## Replies -/

inductive Reply (α : Type) where
  | failed (status : Nat) (message : JsString)
  | done (message : JsString) (content : α)

structure IdentitiesDetail where
  impi : JsString
  canonicalImpu : JsString
  associatedImpus : List JsString
  username : JsString

structure AuthDetail where
  password : JsString
  ki : JsString
  operatorCodeType : JsString
  opc : JsString
  op : JsString
  sqn : JsString
  amf : JsString

structure SubscriberDetail where
  id : JsString
  imsi : JsString
  tel : JsString
  realm : JsString
  identities : IdentitiesDetail
  auth : AuthDetail
  assignedScscf : JsString

section

variable [MongoDriver]

def mapSubscriberDetail (document : StoredDocument) : SubscriberDetail :=
  let value (name : String) : Option JsValue := document.fields.lookup name
  let property (object name : String) : Option JsValue := (value object).bind (JsValue.field name)
  { id := MongoDriver.idText document.id
    imsi := textOr (value "imsi") []
    tel := textOr (value "tel") []
    realm := textOr ((value "realm").or (property "identities" "realm")) []
    identities :=
      { impi := textOr (property "identities" "impi") []
        canonicalImpu := textOr (property "identities" "canonical_impu") []
        associatedImpus :=
          (((property "identities" "associated_impus").map JsValue.items).getD []).map
            JsValue.toText
        username := textOr (property "identities" "username") [] }
    auth :=
      { password := textOr (property "auth" "password") []
        ki := textOr (property "auth" "ki") []
        operatorCodeType := textOr (property "auth" "operator_code_type") []
        opc := textOr (property "auth" "opc") []
        op := textOr (property "auth" "op") []
        sqn := textOr (property "auth" "sqn") []
        amf := textOr (property "auth" "amf") [] }
    assignedScscf := textOr (property "serving" "assigned_scscf") [] }

/-! ## Handlers -/

/-- `PUT /api/ue/:id`. -/
def putUe (defaultScscfUri : JsString) (collection : SubscriberCollection) (id : JsString)
    (body : UePayload) : SubscriberCollection × Reply SubscriberDetail :=
  match ensureNonEmpty (some id) (js "UE ID") >>= MongoDriver.objectId with
  | .error message => (collection, .failed 400 message)
  | .ok objectId =>
      match collection.findById objectId with
      | none => (collection, .failed 404 (js "UE 不存在"))
      | some _ =>
          match buildSubscriberDocument body defaultScscfUri with
          | .error message => (collection, .failed 400 message)
          | .ok document =>
              if collection.documents.any fun other =>
                  decide (other.id ≠ objectId ∧ impiOf other.fields = impiOf document) then
                (collection, .failed 409 (js "保存失败，IMPI 与其他 UE 冲突"))
              else
                match collection.updateOne objectId document with
                | .error message => (collection, .failed 400 message)
                | .ok updated =>
                    match updated.findById objectId with
                    | none => (updated, .failed 400 (js "UE 保存后读取失败"))
                    | some saved => (updated, .done (js "UE 已保存") (mapSubscriberDetail saved))

/-- `POST /api/ue`, which answers with the IMPI. -/
def postUe (defaultScscfUri : JsString) (collection : SubscriberCollection) (body : UePayload) :
    SubscriberCollection × Reply JsString :=
  match buildSubscriberDocument body defaultScscfUri with
  | .error message => (collection, .failed 400 message)
  | .ok document =>
      match collection.replaceOne document with
      | .error message => (collection, .failed 400 message)
      | .ok after =>
          (after, .done (js "UE 已写入 MongoDB")
            (textOr ((document.lookup "identities").bind (JsValue.field "impi")) []))

end

/-! ## The fields of a document -/

/-- There is a telephone number in the payload that is not blank. -/
def UePayload.HasTel (payload : UePayload) : Prop := (payload.tel.map jsTrim).getD [] ≠ []

instance (payload : UePayload) : Decidable payload.HasTel :=
  inferInstanceAs (Decidable ((payload.tel.map jsTrim).getD [] ≠ []))

theorem ensureNonEmpty_eq_ok {value : Option JsString} {field text : JsString}
    (h : ensureNonEmpty value field = .ok text) : value.map jsTrim = some text ∧ text ≠ [] := by
  rw [ensureNonEmpty.eq_def] at h
  split at h
  · cases h
  · split at h
    · cases h
    · rename_i hne
      cases h
      exact ⟨rfl, hne⟩

/-- What the document takes over from a payload. -/
theorem texts_of_readFields {payload : UePayload} {defaultScscfUri : JsString}
    {fields : SubscriberFields} (h : readFields payload defaultScscfUri = .ok fields) :
    payload.imsi.map jsTrim = some fields.imsi ∧ payload.realm.map jsTrim = some fields.realm ∧
      payload.tel.map jsTrim = fields.tel := by
  obtain ⟨imsi, himsi, h⟩ := exists_of_bind_eq_ok h
  obtain ⟨realm, hrealm, h⟩ := exists_of_bind_eq_ok h
  obtain ⟨password, -, h⟩ := exists_of_bind_eq_ok h
  obtain ⟨rawKi, -, h⟩ := exists_of_bind_eq_ok h
  obtain ⟨ki, -, h⟩ := exists_of_bind_eq_ok h
  obtain ⟨operatorCodeType, -, h⟩ := exists_of_bind_eq_ok h
  obtain ⟨rawCode, -, h⟩ := exists_of_bind_eq_ok h
  obtain ⟨operatorCode, -, h⟩ := exists_of_bind_eq_ok h
  obtain ⟨amf, -, h⟩ := exists_of_bind_eq_ok h
  obtain ⟨sqn, -, h⟩ := exists_of_bind_eq_ok h
  dsimp only at h
  split at h
  · cases h
  · cases h
    exact ⟨(ensureNonEmpty_eq_ok himsi).1, (ensureNonEmpty_eq_ok hrealm).1, rfl⟩

variable {payload : UePayload} {defaultScscfUri : JsString} {document : Document}

/-- Every document has the same fields, but for the telephone number. -/
theorem names_of_buildSubscriberDocument
    (h : buildSubscriberDocument payload defaultScscfUri = .ok document) :
    document.map Prod.fst = "imsi" :: ((if payload.HasTel then ["tel"] else []) ++
      ["realm", "identities", "auth", "profile", "serving"]) := by
  rw [buildSubscriberDocument] at h
  cases hread : readFields payload defaultScscfUri with
  | error message =>
      rw [hread] at h
      cases h
  | ok fields =>
      rw [hread] at h
      cases h
      have hhas : payload.HasTel ↔ fields.tel.getD [] ≠ [] := by
        rw [UePayload.HasTel, (texts_of_readFields hread).2.2]
      rw [SubscriberFields.document]
      cases hfields : fields.tel with
      | none =>
          rw [hfields] at hhas
          rw [if_neg (hhas.not.mpr (not_not.mpr rfl))]
          rfl
      | some tel =>
          rw [hfields, Option.getD_some] at hhas
          by_cases hempty : tel = []
          · rw [if_neg (hhas.not.mpr (not_not.mpr hempty))]
            simp [hempty]
          · rw [if_pos (hhas.mpr hempty)]
            simp [hempty]

theorem nodup_of_buildSubscriberDocument
    (h : buildSubscriberDocument payload defaultScscfUri = .ok document) :
    (document.map Prod.fst).Nodup := by
  rw [names_of_buildSubscriberDocument h]
  split <;> decide

/-- The only field that one document may have and another one not is the telephone number. -/
theorem names_subset_iff {old new : UePayload} {uri uri' : JsString} {before after : Document}
    (hold : buildSubscriberDocument old uri = .ok before)
    (hnew : buildSubscriberDocument new uri' = .ok after) :
    (∀ name ∈ before.map Prod.fst, name ∈ after.map Prod.fst) ↔ (old.HasTel → new.HasTel) := by
  rw [names_of_buildSubscriberDocument hold, names_of_buildSubscriberDocument hnew]
  by_cases ho : old.HasTel
  · by_cases hn : new.HasTel
    · simp [ho, hn]
    · simp only [ho, hn, if_true, if_false]
      decide
  · by_cases hn : new.HasTel
    · simp only [ho, hn, if_true, if_false]
      decide
    · simp [ho, hn]

theorem imsiOf_setFields (h : buildSubscriberDocument payload defaultScscfUri = .ok document)
    (fields : Document) : imsiOf (setFields fields document) = imsiOf document := by
  have hmem : "imsi" ∈ document.map Prod.fst := by
    rw [names_of_buildSubscriberDocument h]
    exact List.mem_cons_self
  obtain ⟨value, hvalue⟩ := Option.ne_none_iff_exists'.mp
    (mt lookup_eq_none_iff_not_mem.mp (not_not.mpr hmem))
  rw [imsiOf, imsiOf, lookup_setFields (nodup_of_buildSubscriberDocument h), hvalue, Option.some_or]

/-! ## Editing -/

section

variable [MongoDriver] {collection : SubscriberCollection} {id : JsString} {objectId : ObjectId}
variable {stored : StoredDocument}

/-- The payload passes the checks of `PUT`: the id is that of a document, and no other document has
its IMPI. -/
structure Edits (defaultScscfUri : JsString) (collection : SubscriberCollection) (id : JsString)
    (payload : UePayload) (objectId : ObjectId) (stored : StoredDocument) (document : Document) :
    Prop where
  id : (ensureNonEmpty (some id) (js "UE ID") >>= MongoDriver.objectId) = .ok objectId
  stored : collection.findById objectId = some stored
  accepted : buildSubscriberDocument payload defaultScscfUri = .ok document
  noConflict : ∀ other ∈ collection.documents, other.id ≠ objectId →
    impiOf other.fields ≠ impiOf document

/-- The document that is found under the id afterwards. -/
theorem findById_putUe (h : Edits defaultScscfUri collection id payload objectId stored document) :
    (putUe defaultScscfUri collection id payload).1.findById objectId = some
      (if collection.Free objectId document then
        { stored with fields := setFields stored.fields document } else stored) := by
  have hduplicate : ¬ (collection.documents.any fun other =>
      decide (other.id ≠ objectId ∧ impiOf other.fields = impiOf document)) = true := by
    rw [List.any_eq_true]
    rintro ⟨other, hmem, hother⟩
    obtain ⟨hne, heq⟩ := of_decide_eq_true hother
    exact h.noConflict other hmem hne heq
  have hfree : collection.Free objectId (setFields stored.fields document) ↔
      collection.Free objectId document := by
    rw [SubscriberCollection.Free, SubscriberCollection.Free, imsiOf_setFields h.accepted]
  rw [putUe, h.id]
  simp only [h.stored, h.accepted]
  rw [if_neg hduplicate, SubscriberCollection.updateOne]
  simp only [h.stored]
  by_cases hindex : collection.Free objectId document
  · have hsaved := SubscriberCollection.findById_overwrite (hfree.mpr hindex) h.stored
    rw [dif_pos (hfree.mpr hindex), if_pos hindex]
    simp only [hsaved]
  · rw [dif_neg (mt hfree.mp hindex), if_neg hindex]
    exact h.stored

/-- What a refused edit leaves is another document: it has another IMSI. -/
theorem not_sameFields_of_taken
    (h : Edits defaultScscfUri collection id payload objectId stored document)
    (htaken : ¬ collection.Free objectId document) : ¬ SameFields stored.fields document := by
  intro hsame
  simp only [SubscriberCollection.Free, not_forall, not_not] at htaken
  obtain ⟨other, hmem, hne, himsi⟩ := htaken
  have hid : stored.id = objectId := by simpa using List.find?_some h.stored
  have hapart : other.Apart stored :=
    collection.apart.forall hmem (List.mem_of_find?_eq_some h.stored)
      fun heq => hne (heq ▸ hid)
  refine hapart.2 (himsi.trans ?_)
  rw [imsiOf, imsiOf, hsame]

end

/-- An edit leaves the fields that a new document would have exactly if no other document has the
IMSI, and a telephone number that was there is replaced by another one. -/
theorem putUe_rewrites_iff [MongoDriver] (defaultScscfUri : JsString)
    (collection : SubscriberCollection) (id : JsString) (old new : UePayload) (objectId : ObjectId)
    (stored : StoredDocument) (document : Document)
    (hstored : buildSubscriberDocument old defaultScscfUri = .ok stored.fields)
    (hedits : Edits defaultScscfUri collection id new objectId stored document) :
    ((∃ saved, (putUe defaultScscfUri collection id new).1.findById objectId = some saved ∧
        SameFields saved.fields document) ↔
      collection.Free objectId document ∧ (old.HasTel → new.HasTel)) ∧
    ∀ (others after : SubscriberCollection) (message impi : JsString),
      postUe defaultScscfUri others new = (after, .done message impi) →
        ∃ posted ∈ after.documents, posted.fields = document := by
  constructor
  · rw [findById_putUe hedits]
    simp only [Option.some.injEq, exists_eq_left']
    by_cases hfree : collection.Free objectId document
    · rw [if_pos hfree, and_iff_right hfree, ← names_subset_iff hstored hedits.accepted]
      exact sameFields_setFields_iff (nodup_of_buildSubscriberDocument hedits.accepted)
    · rw [if_neg hfree]
      exact iff_of_false (not_sameFields_of_taken hedits hfree) fun h => hfree h.1
  · intro others after message impi hpost
    rw [postUe, hedits.accepted] at hpost
    dsimp only at hpost
    split at hpost
    · cases hpost
    · rename_i hreplace
      cases hpost
      exact SubscriberCollection.exists_of_replaceOne hreplace

/-! ### Carol changes her number, and gives it up -/

/-- Ids are 24 hexadecimal digits, and counted. -/
@[reducible] def countingDriver : MongoDriver where
  objectId text :=
    if text.length = 24 ∧ text.all isHexDigit then .ok ((parseInt text 16).getD 0).toNat
    else .error (js "input must be a 24 character hex string")
  idText id := List.replicate (24 - (Nat.toDigits 16 id).length) 0x30 ++
    js (.ofList (Nat.toDigits 16 id))
  freshId ids := ids.max?.getD 0 + 1
  freshId_not_mem ids hmem := by
    have hle := List.le_max?_getD_of_mem (k := 0) hmem
    omega
  duplicateKey := js "E11000 duplicate key error"
  arrange documents := documents
  arrange_perm _ := List.Perm.refl _

def carolPayload (tel : String) : UePayload where
  imsi := some (js "1")
  realm := some (js "a")
  tel := some (js tel)
  password := some (js "b")
  ki := some (List.replicate 32 0x30)
  operatorCodeType := some (js "op")
  operatorCode := some (List.replicate 32 0x30)

def carolFields (tel : String) : SubscriberFields where
  imsi := js "1"
  realm := js "a"
  password := js "b"
  ki := List.replicate 32 0x30
  operatorCodeType := js "op"
  operatorCode := List.replicate 32 0x30
  amf := js "8000"
  sqn := 0
  tel := some (js tel)
  assignedScscf := js "sip:s"

def carolStored : StoredDocument := ⟨1, (carolFields "23").document⟩

def carolCollection : SubscriberCollection := ⟨[carolStored], List.pairwise_singleton _ _⟩

/-- The id of Carol's document. -/
def carolId : JsString := List.replicate 23 0x30 ++ [0x31]

theorem carol_accepted (tel : String)
    (h : readFields (carolPayload tel) (js "sip:s") = .ok (carolFields tel)) :
    buildSubscriberDocument (carolPayload tel) (js "sip:s") = .ok (carolFields tel).document := by
  rw [buildSubscriberDocument, h]
  rfl

theorem carol_edits (tel : String)
    (h : readFields (carolPayload tel) (js "sip:s") = .ok (carolFields tel)) :
    @Edits countingDriver (js "sip:s") carolCollection carolId (carolPayload tel) 1 carolStored
      (carolFields tel).document := by
  let _ : MongoDriver := countingDriver
  refine ⟨by decide +kernel, rfl, carol_accepted tel h, fun other hmem hne => ?_⟩
  cases List.mem_singleton.mp hmem
  exact (hne rfl).elim

theorem putUe_rewrites_iff_newNumber :
    ∃ saved, (@putUe countingDriver (js "sip:s") carolCollection carolId
        (carolPayload "45")).1.findById 1 = some saved ∧
      SameFields saved.fields (carolFields "45").document := by
  have hedits := carol_edits "45" (by decide +kernel)
  refine (@putUe_rewrites_iff countingDriver (js "sip:s") carolCollection carolId
    (carolPayload "23") (carolPayload "45") 1 carolStored (carolFields "45").document
    (carol_accepted "23" (by decide +kernel)) hedits).1.mpr ⟨?_, fun _ => by decide +kernel⟩
  intro other hmem hne
  cases List.mem_singleton.mp hmem
  exact (hne rfl).elim

/-- An edit without a number leaves the one that was there. -/
theorem number_is_left :
    buildSubscriberDocument (carolPayload "23") (js "sip:s") = .ok carolStored.fields ∧
      @Edits countingDriver (js "sip:s") carolCollection carolId (carolPayload "") 1 carolStored
        (carolFields "").document ∧
      ∃ saved, (@putUe countingDriver (js "sip:s") carolCollection carolId
          (carolPayload "")).1.findById 1 = some saved ∧
        saved.fields.lookup "tel" = some (.string (js "23")) ∧
        ¬ SameFields saved.fields (carolFields "").document := by
  have hedits := carol_edits "" (by decide +kernel)
  have hfree : carolCollection.Free 1 (carolFields "").document := by
    intro other hmem hne
    cases List.mem_singleton.mp hmem
    exact (hne rfl).elim
  have haccepted := carol_accepted "" (by decide +kernel)
  have hnone : (carolFields "").document.lookup "tel" = none := rfl
  have hleft : (setFields carolStored.fields (carolFields "").document).lookup "tel" =
      some (.string (js "23")) := by
    rw [lookup_setFields (nodup_of_buildSubscriberDocument haccepted), hnone]
    rfl
  refine ⟨carol_accepted "23" (by decide +kernel), hedits,
    { carolStored with fields := setFields carolStored.fields (carolFields "").document }, ?_,
      hleft,
    fun hsame => ?_⟩
  · let _ : MongoDriver := countingDriver
    rw [findById_putUe hedits, if_pos hfree]
  · have hsame := hsame "tel"
    rw [hleft, hnone] at hsame
    cases hsame

end SimIms.WebUi
