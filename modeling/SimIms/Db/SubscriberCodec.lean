import SimIms.Db.SubscriberRepository

/-!
# Reading subscriber documents

A document is read field by field. The first part that is missing or of another type is named in
the error.
-/

namespace SimIms.Db

open Cxx

/-- The values of a document that are told apart here. Doubles are those of whole numbers. -/
inductive Bson where
  | utf8 (value : Bytes)
  | int32 (value : Int32)
  | int64 (value : Int64)
  | double (value : Int)
  | document (fields : List (String × Bson))
  | array (values : List Bson)

abbrev BsonDocument := List (String × Bson)

/-- `bson_iter_init_find`: the first field of this name. -/
def findField (document : BsonDocument) (key : String) : Option Bson :=
  (document.find? fun field => field.1 == key).map Prod.snd

def invalidField (field : String) : ErrorInfo :=
  { code := .configInvalidValue
    message := bytes "Invalid subscriber document field"
    detail := bytes field }

def Bson.utf8? : Bson → Option Bytes
  | .utf8 value => some value
  | _ => none

def extractUtf8 (document : BsonDocument) (key : String) : Option Bytes :=
  (findField document key).bind Bson.utf8?

/-- Integers of both widths. -/
def Bson.uint64? : Bson → Option UInt64
  | .int64 value => if value < 0 then none else some value.toUInt64
  | .int32 value => if value < 0 then none else some value.toInt64.toUInt64
  | _ => none

def extractUint64 (document : BsonDocument) (key : String) : Option UInt64 :=
  (findField document key).bind Bson.uint64?

def extractDocument (document : BsonDocument) (key : String) : Option BsonDocument :=
  match findField document key with
  | some (.document fields) => some fields
  | _ => none

def extractStringArray (document : BsonDocument) (key : String) : Option (List Bytes) :=
  match findField document key with
  | some (.array values) => values.mapM Bson.utf8?
  | _ => none

/-- The identities of a document. Those of an old one are made of its telephone number. -/
def decodeIdentities (legacyTel : Option Bytes) (identities : BsonDocument) :
    Result SubscriberIdentities := do
  let some impi := extractUtf8 identities "impi" | throw (invalidField "identities")
  let some canonicalImpu := extractUtf8 identities "canonical_impu"
    | throw (invalidField "identities")
  let some realm := extractUtf8 identities "realm" | throw (invalidField "identities")
  let associatedImpus ← match extractStringArray identities "associated_impus", legacyTel with
    | some associatedImpus, _ => pure associatedImpus
    | none, some tel =>
        pure [bytes "tel:" ++ tel, bytes "sip:" ++ tel ++ bytes "@" ++ realm, canonicalImpu]
    | none, none => throw (invalidField "identities.associated_impus")
  return { impi, canonicalImpu, associatedImpus, realm
           username := match find impi '@'.toUInt8 0 with
            | some atSign => impi.take atSign
            | none => [] }

/-- An operator code that is there and not empty. -/
def hasCode (code : Option Bytes) : Bool := code.any fun code => !code.isEmpty

def decodeAuth (auth : BsonDocument) : Result SubscriberAuth := do
  let some password := extractUtf8 auth "password" | throw (invalidField "auth")
  let some ki := extractUtf8 auth "ki" | throw (invalidField "auth")
  let some operatorCodeType := extractUtf8 auth "operator_code_type" | throw (invalidField "auth")
  let opc := extractUtf8 auth "opc"
  let op := extractUtf8 auth "op"
  let some sqn := extractUint64 auth "sqn" | throw (invalidField "auth")
  let some amf := extractUtf8 auth "amf" | throw (invalidField "auth")
  if operatorCodeType = bytes "opc" then
    if !hasCode opc then throw (invalidField "auth.opc")
  else if operatorCodeType = bytes "op" then
    if !hasCode op then throw (invalidField "auth.op")
  else if !hasCode opc && !hasCode op then throw (invalidField "auth.opc/auth.op")
  return { password, ki, operatorCodeType, opc := opc.getD [], op := op.getD [], sqn, amf }

def decodeSubscriber (document : BsonDocument) : Result SubscriberRecord := do
  let legacyTel := extractUtf8 document "tel"
  let some identities := extractDocument document "identities" | throw (invalidField "identities")
  let identities ← decodeIdentities legacyTel identities
  let some auth := extractDocument document "auth" | throw (invalidField "auth")
  let auth ← decodeAuth auth
  let assignedScscf := (extractDocument document "serving").bind (extractUtf8 · "assigned_scscf")
  return { imsi := (extractUtf8 document "imsi").getD [], tel := legacyTel.getD [], identities, auth
           assignedScscf := assignedScscf.getD [] }

end SimIms.Db
