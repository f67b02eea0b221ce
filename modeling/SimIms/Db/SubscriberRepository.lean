import SimIms.Lib.Program
import SimIms.Sip.UriUtils

/-!
# The subscriber repository

A subscriber is found by its IMSI or its telephone number, which are read off the identities
of a request. `find_one_by_field` and the conditional updates are single operations on the
collection, and any of them can fail.
-/

namespace SimIms.Db

open Cxx Lib Sip

structure SubscriberIdentities where
  impi : Bytes
  canonicalImpu : Bytes
  associatedImpus : List Bytes
  username : Bytes := []
  realm : Bytes
deriving DecidableEq, Repr

structure SubscriberAuth where
  password : Bytes := []
  ki : Bytes
  operatorCodeType : Bytes
  opc : Bytes
  op : Bytes
  sqn : UInt64
  amf : Bytes
deriving DecidableEq, Repr

structure SubscriberRecord where
  imsi : Bytes
  tel : Bytes
  identities : SubscriberIdentities
  auth : SubscriberAuth
  assignedScscf : Bytes
deriving DecidableEq, Repr

/-- The canonical and the associated public identities. -/
def SubscriberRecord.impus (subscriber : SubscriberRecord) : List Bytes :=
  subscriber.identities.canonicalImpu :: subscriber.identities.associatedImpus

/-- The fields by which subscribers are looked up. -/
inductive Field where
  | imsi
  | tel
deriving DecidableEq, Repr

def Field.value (subscriber : SubscriberRecord) : Field → Bytes
  | .imsi => subscriber.imsi
  | .tel => subscriber.tel

/-! ## Which keys are tried -/

def addUniqueCandidate (candidates : List Bytes) (value : Bytes) : List Bytes :=
  if value = [] ∨ value ∈ candidates then candidates else candidates ++ [value]

def stripScheme (value : Bytes) : Bytes :=
  if (bytes "sip:").isPrefixOf value then value.drop 4
  else if (bytes "sips:").isPrefixOf value then value.drop 5
  else if (bytes "tel:").isPrefixOf value then value.drop 4
  else value

def userPart (value : Bytes) : Bytes :=
  let value := stripScheme value
  let value := match find value ';'.toUInt8 0 with
    | some semicolon => value.take semicolon
    | none => value
  match find value '@'.toUInt8 0 with
  | some atSign => value.take atSign
  | none => value

section

variable [OsipParser]

/-- The IMSIs and the telephone numbers that an identity may stand for. -/
def identityCandidates (identity : Bytes) : List Bytes × List Bytes :=
  if identity = [] then ([], [])
  else
    let normalized := normalizeImpuUri identity
    let value := if normalized = [] then identity else normalized
    let user := userPart value
    if (bytes "tel:").isPrefixOf value ∨ (bytes "+").isPrefixOf user then
      ([], addUniqueCandidate [] user)
    else (addUniqueCandidate [] user, [])

def privateIdentityImsi (impi : Bytes) : Option Bytes :=
  if impi = [] then none
  else
    let user := userPart (normalizeImpuUri impi)
    let user := if user = [] then userPart impi else user
    if user = [] then none else some user

/-- The keys of `findByImpiOrImpu`, in the order in which they are tried. -/
def imsisAndTels (impi impu : Bytes) : List Bytes × List Bytes :=
  let imsis := match privateIdentityImsi impi with
    | none => []
    | some imsi => addUniqueCandidate [] imsi
  let candidates := if impu = [] then ([], []) else identityCandidates impu
  (candidates.1.foldl addUniqueCandidate imsis, candidates.2.foldl addUniqueCandidate [])

/-- The keys of `findByUsernameRealm`. -/
def usernameCandidates (username realm : Bytes) : List Bytes × List Bytes :=
  let imsis := addUniqueCandidate [] (userPart username)
  let tels :=
    if (bytes "+").isPrefixOf username ∨ (bytes "tel:").isPrefixOf username then
      addUniqueCandidate [] (userPart username)
    else []
  let impi :=
    if '@'.toUInt8 ∈ username then username else username ++ bytes "@" ++ realm
  match privateIdentityImsi impi with
  | none => (imsis, tels)
  | some imsi => (addUniqueCandidate imsis imsi, tels)

end

/-! ## Operations on the collection -/

inductive RepositoryOp where
  | findOneByField (field : Field) (value : Bytes)
  | updateSqn (imsi : Bytes) (oldSqn newSqn : UInt64)
  | updateServing (imsi scscfUri : Bytes)

/-- A record, or whether a record was matched by the update. -/
abbrev RepositoryAnswer : RepositoryOp → Type
  | .findOneByField _ _ => Result (Option SubscriberRecord)
  | .updateSqn _ _ _ => Result Bool
  | .updateServing _ _ => Result Bool

def repository : Interface := ⟨RepositoryOp, RepositoryAnswer⟩

namespace MongoSubscriberRepository

variable [OsipParser] {G : Interface} [Includes repository G]

abbrev Query (G : Interface) (α : Type) := Program G Exception (Result α)

def findOneByField (field : Field) (value : Bytes) : Query G (Option SubscriberRecord) :=
  Program.perform (F := repository) (RepositoryOp.findOneByField field value)

/-- The first of the values under which there is a record. -/
def findFirst (field : Field) : List Bytes → Query G (Option SubscriberRecord)
  | [] => .pure (.ok none)
  | value :: values =>
      (findOneByField field value).andThen fun
        | none => findFirst field values
        | some record => .pure (.ok (some record))

def findOneByImsiOrTel (imsis tels : List Bytes) : Query G (Option SubscriberRecord) :=
  (findFirst .imsi imsis).andThen fun
    | none => findFirst .tel tels
    | some record => .pure (.ok (some record))

def findByImpiOrImpu (impi impu : Bytes) : Query G (Option SubscriberRecord) :=
  findOneByImsiOrTel (imsisAndTels impi impu).1 (imsisAndTels impi impu).2

def findByIdentity (identity : Bytes) : Query G (Option SubscriberRecord) :=
  findOneByImsiOrTel (identityCandidates identity).1 (identityCandidates identity).2

def findByUsernameRealm (username realm : Bytes) : Query G (Option SubscriberRecord) :=
  findOneByImsiOrTel (usernameCandidates username realm).1 (usernameCandidates username realm).2

def notFound (detail : String) : ErrorInfo :=
  { code := .diameterUserNotFound, message := bytes "Subscriber not found"
    detail := bytes detail }

/-- The rounds of `advanceSqn`: read, and write if the number read is still there. -/
def advanceSqnRounds (imsi : Bytes) (step mask : UInt64) : Nat → Query G UInt64
  | 0 => .pure (.error { code := .internalError
                         message := bytes "Mongo advanceSqn exceeded max retries"
                         detail := bytes "CAS conflict" })
  | rounds + 1 =>
      (findOneByField .imsi imsi).andThen fun
        | none => .pure (.error (notFound "Subscriber not found for advanceSqn"))
        | some record =>
            let oldSqn := record.auth.sqn
            let updated : Query G Bool := Program.perform (F := repository)
              (RepositoryOp.updateSqn imsi oldSqn ((oldSqn + step) &&& mask))
            updated.andThen fun
              | true => .pure (.ok oldSqn)
              | false => advanceSqnRounds imsi step mask rounds

def advanceSqn (impi : Bytes) (step mask : UInt64) : Query G UInt64 :=
  advanceSqnRounds ((privateIdentityImsi impi).getD impi) step mask 5

def setServingScscf (impi scscfUri : Bytes) : Query G Unit :=
  let updated : Query G Bool := Program.perform (F := repository)
    (RepositoryOp.updateServing ((privateIdentityImsi impi).getD impi) scscfUri)
  updated.andThen fun
    | true => .pure (.ok ())
    | false => .pure (.error (notFound "No subscriber matched for update"))

end MongoSubscriberRepository

/-! ## What the operations do -/

abbrev Collection := List SubscriberRecord

/-- The only element that satisfies a condition is the first that does. -/
theorem find?_eq_some_of_unique {α : Type} {p : α → Bool} {l : List α} {a : α} (ha : a ∈ l)
    (hp : p a = true) (hunique : ∀ b ∈ l, p b = true → b = a) : l.find? p = some a := by
  cases hfind : l.find? p with
  | none => exact absurd hp (List.find?_eq_none.mp hfind a ha)
  | some b => rw [hunique b (List.mem_of_find?_eq_some hfind) (List.find?_some hfind)]

namespace Collection

/-- Change the first record that satisfies the filter. -/
def updateOne (collection : Collection) (filter : SubscriberRecord → Bool)
    (update : SubscriberRecord → SubscriberRecord) : Collection × Bool :=
  match collection.findIdx? filter with
  | none => (collection, false)
  | some i => (collection.modify i update, true)

/-- An update changes nothing, or one record that satisfies the filter. -/
theorem updateOne_cases (collection : Collection) (filter : SubscriberRecord → Bool)
    (update : SubscriberRecord → SubscriberRecord) :
    collection.updateOne filter update = (collection, false) ∨
      ∃ before subscriber after, collection = before ++ subscriber :: after ∧
        filter subscriber = true ∧
        collection.updateOne filter update = (before ++ update subscriber :: after, true) := by
  rw [updateOne]
  cases hindex : collection.findIdx? filter with
  | none => exact .inl rfl
  | some i =>
      obtain ⟨hlt, hfilter, -⟩ := List.findIdx?_eq_some_iff_getElem.mp hindex
      refine .inr ⟨collection.take i, collection[i], collection.drop (i + 1), ?_, hfilter, ?_⟩
      · rw [List.getElem_cons_drop, List.take_append_drop]
      · exact congrArg (·, true) (List.modify_eq_take_cons_drop hlt)

def serve (collection : Collection) :
    (op : RepositoryOp) → Option ErrorInfo → Collection × RepositoryAnswer op
  | .findOneByField field value, none =>
      (collection, .ok (collection.find? fun subscriber => field.value subscriber == value))
  | .updateSqn imsi oldSqn newSqn, none =>
      let result := collection.updateOne
        (fun subscriber => subscriber.imsi == imsi && subscriber.auth.sqn == oldSqn)
        fun subscriber => { subscriber with auth := { subscriber.auth with sqn := newSqn } }
      (result.1, .ok result.2)
  | .updateServing imsi scscfUri, none =>
      let result := collection.updateOne (fun subscriber => subscriber.imsi == imsi)
        fun subscriber => { subscriber with assignedScscf := scscfUri }
      (result.1, .ok result.2)
  | .findOneByField _ _, some error => (collection, .error error)
  | .updateSqn _ _ _, some error => (collection, .error error)
  | .updateServing _ _, some error => (collection, .error error)

end Collection
end SimIms.Db
