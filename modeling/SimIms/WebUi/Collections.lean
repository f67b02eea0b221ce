import SimIms.Lib.Fields
import SimIms.WebUi.SubscriberDocument
import Mathlib.Data.List.Pairwise

/-!
# The collection of the web UI

The documents of subscribers have ids, and a unique index keeps two of them from having the same
IMSI: a write that would do this is refused by the database. `$set` overwrites the fields that it is
given, a replacement overwrites all of them.
-/

namespace SimIms.WebUi

open Cxx Lib

abbrev ObjectId := Nat

abbrev Document := List (String × JsValue)

/-- What the database driver decides: the ids that texts stand for, the ids of new documents, its
error for an index that does not allow a write, and in which order it performs writes whose order
does not matter. -/
class MongoDriver where
  objectId : JsString → Checked ObjectId
  idText : ObjectId → JsString
  freshId : List ObjectId → ObjectId
  freshId_not_mem : ∀ ids, freshId ids ∉ ids
  duplicateKey : JsString
  arrange : List Document → List Document
  arrange_perm : ∀ documents, (arrange documents).Perm documents

/-! ## Values in documents -/

namespace JsValue

def asText : JsValue → Option JsString
  | .string text => some text
  | _ => none

def items : JsValue → List JsValue
  | .array values => values
  | _ => []

/-- A property, where there is one. -/
def field (name : String) : JsValue → Option JsValue
  | .object fields => fields.lookup name
  | _ => none

mutual

/-- `String(value)`. -/
def toText : JsValue → JsString
  | .string text => text
  | .number value => js (toString value)
  | .array values => textOfItems values
  | .object _ => js "[object Object]"

def textOfItems : List JsValue → JsString
  | [] => []
  | [value] => value.toText
  | value :: next :: rest => value.toText ++ js "," ++ textOfItems (next :: rest)

end

end JsValue

/-- `String(value ?? fallback)`. -/
def textOr (value : Option JsValue) (fallback : JsString) : JsString :=
  (value.map JsValue.toText).getD fallback

/-- The IMSI of a document, as it is stored. -/
def imsiOf (fields : Document) : Option Bytes :=
  ((fields.lookup "imsi").bind JsValue.asText).map utf8

def impiOf (fields : Document) : Option Bytes :=
  (((fields.lookup "identities").bind (JsValue.field "impi")).bind JsValue.asText).map utf8

/-! ## Collections -/

structure StoredDocument where
  id : ObjectId
  fields : Document

/-- What the indexes keep apart. -/
def StoredDocument.Apart (a b : StoredDocument) : Prop :=
  a.id ≠ b.id ∧ imsiOf a.fields ≠ imsiOf b.fields

instance : Std.Symm StoredDocument.Apart := ⟨fun _ _ h => ⟨h.1.symm, h.2.symm⟩⟩

/-- What becomes of a document when the fields of the one with this id are overwritten. -/
def StoredDocument.overwrite (id : ObjectId) (fields : Document) (document : StoredDocument) :
    StoredDocument :=
  if document.id = id then { document with fields } else document

structure SubscriberCollection where
  documents : List StoredDocument
  apart : documents.Pairwise StoredDocument.Apart

namespace SubscriberCollection

def findById (collection : SubscriberCollection) (id : ObjectId) : Option StoredDocument :=
  collection.documents.find? (·.id = id)

def findByImpi (collection : SubscriberCollection) (impi : Option Bytes) : Option StoredDocument :=
  collection.documents.find? (impiOf ·.fields = impi)

/-- No document but the one with this id has the IMSI of these fields. -/
def Free (collection : SubscriberCollection) (id : ObjectId) (fields : Document) : Prop :=
  ∀ other ∈ collection.documents, other.id ≠ id → imsiOf other.fields ≠ imsiOf fields

instance (collection : SubscriberCollection) (id : ObjectId) (fields : Document) :
    Decidable (collection.Free id fields) :=
  List.decidableBAll _ _

end SubscriberCollection

/-! ## Overwriting -/

theorem StoredDocument.id_overwrite (id : ObjectId) (fields : Document)
    (document : StoredDocument) :
    (document.overwrite id fields).id = document.id := by
  rw [overwrite]
  split
  · rfl
  · rfl

theorem StoredDocument.apart_overwrite {id : ObjectId} {fields : Document} {a b : StoredDocument}
    (h : a.Apart b) (ha : a.id ≠ id → imsiOf a.fields ≠ imsiOf fields)
    (hb : b.id ≠ id → imsiOf b.fields ≠ imsiOf fields) :
    (a.overwrite id fields).Apart (b.overwrite id fields) := by
  refine ⟨by rw [id_overwrite, id_overwrite]; exact h.1, ?_⟩
  rw [overwrite, overwrite]
  split
  · rename_i hid
    rw [if_neg fun heq => h.1 (hid.trans heq.symm)]
    exact (hb fun heq => h.1 (hid.trans heq.symm)).symm
  · rename_i hid
    split
    · exact ha hid
    · exact h.2

namespace SubscriberCollection

variable (collection : SubscriberCollection) (id : ObjectId) (fields : Document)

/-- The collection with other fields in the document of this id. -/
def overwrite (h : collection.Free id fields) : SubscriberCollection where
  documents := collection.documents.map (StoredDocument.overwrite id fields)
  apart := List.pairwise_map.mpr <| collection.apart.imp_of_mem fun ha hb hapart =>
    StoredDocument.apart_overwrite hapart (h _ ha) (h _ hb)

variable [MongoDriver]

/-- The id of the next document. -/
def nextId : ObjectId := MongoDriver.freshId (collection.documents.map StoredDocument.id)

theorem ne_nextId {document : StoredDocument} (h : document ∈ collection.documents) :
    document.id ≠ collection.nextId := by
  intro heq
  have hmem := List.mem_map_of_mem (f := StoredDocument.id) h
  rw [heq] at hmem
  exact MongoDriver.freshId_not_mem _ hmem

/-- The collection with one more document. -/
def insert (h : collection.Free collection.nextId fields) : SubscriberCollection where
  documents := collection.documents ++ [⟨collection.nextId, fields⟩]
  apart := List.pairwise_append.mpr ⟨collection.apart, List.pairwise_singleton _ _,
    fun document hmem new hnew => by
      cases List.mem_singleton.mp hnew
      exact ⟨collection.ne_nextId hmem, h document hmem (collection.ne_nextId hmem)⟩⟩

/-! ## Writes -/

/-- `updateOne({ _id: id }, { $set: update })`. -/
def updateOne (update : Document) : Checked SubscriberCollection :=
  match collection.findById id with
  | none => .ok collection
  | some document =>
      if h : collection.Free id (setFields document.fields update) then .ok
        (collection.overwrite id _ h)
      else .error MongoDriver.duplicateKey

/-- `replaceOne({ 'identities.impi': impi }, replacement, { upsert: true })`, with the IMPI of the
replacement. -/
def replaceOne (replacement : Document) : Checked SubscriberCollection :=
  match collection.findByImpi (impiOf replacement) with
  | none =>
      if h : collection.Free collection.nextId replacement then .ok
        (collection.insert replacement h)
      else .error MongoDriver.duplicateKey
  | some document =>
      if h : collection.Free document.id replacement then
        .ok (collection.overwrite document.id replacement h)
      else .error MongoDriver.duplicateKey

/-! ## What is found afterwards -/

variable {collection id fields}

omit [MongoDriver] in
theorem findById_overwrite {document : StoredDocument} (h : collection.Free id fields)
    (hfind : collection.findById id = some document) :
    (collection.overwrite id fields h).findById id = some { document with fields } := by
  have hid : document.id = id := by simpa using List.find?_some hfind
  have hsame : (fun other : StoredDocument => decide ((other.overwrite id fields).id = id)) =
      fun other => decide (other.id = id) := by
    funext other
    rw [StoredDocument.id_overwrite]
  rw [findById, overwrite, List.find?_map, Function.comp_def, hsame]
  rw [findById] at hfind
  rw [hfind, Option.map_some, StoredDocument.overwrite, if_pos hid]

/-- A replacement is in the collection, if it has not been refused. -/
theorem exists_of_replaceOne {after : SubscriberCollection} {replacement : Document}
    (h : collection.replaceOne replacement = .ok after) :
    ∃ document ∈ after.documents, document.fields = replacement := by
  rw [replaceOne] at h
  split at h
  · split at h
    · cases h
      exact ⟨_, List.mem_append_right _ List.mem_cons_self, rfl⟩
    · cases h
  · rename_i document hfind
    split at h
    · cases h
      refine ⟨_, List.mem_map_of_mem (List.mem_of_find?_eq_some hfind), ?_⟩
      rw [StoredDocument.overwrite, if_pos rfl]
    · cases h

end SubscriberCollection
end SimIms.WebUi
