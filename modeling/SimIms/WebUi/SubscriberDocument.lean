import SimIms.Lib.Outcome
import SimIms.WebUi.JsText

/-!
# The documents that the web UI writes

A payload is checked field by field, and the first field that fails is named in the error. The
document of one that passes is what the UI inserts into the collection.
-/

namespace SimIms.WebUi

open Lib

/-- The request of a UE. A field is there only if it is a string. -/
structure UePayload where
  imsi : Option JsString := none
  realm : Option JsString := none
  tel : Option JsString := none
  password : Option JsString := none
  ki : Option JsString := none
  operatorCodeType : Option JsString := none
  operatorCode : Option JsString := none
  sqn : Option JsString := none
  amf : Option JsString := none
  assignedScscf : Option JsString := none

/-- Values of a document. Numbers are exact, as they are below 2^53. -/
inductive JsValue where
  | string (text : JsString)
  | number (value : Int)
  | array (values : List JsValue)
  | object (fields : List (String × JsValue))

abbrev Checked (α : Type) := Except JsString α

/-! ## Checks -/

def ensureNonEmpty (value : Option JsString) (field : JsString) : Checked JsString :=
  match value with
  | none => .error (field ++ js " 不能为空")
  | some text => if jsTrim text = [] then .error (field ++ js " 不能为空") else .ok (jsTrim text)

def isHexDigit (unit : UInt16) : Bool :=
  (0x30 ≤ unit && unit ≤ 0x39) || (0x61 ≤ unit && unit ≤ 0x66)

def ensureHex (value : JsString) (length : Nat) (field : JsString) : Checked JsString :=
  let normalized := jsToLowerCase (jsTrim value)
  if normalized.length = length ∧ normalized.all isHexDigit then .ok normalized
  else .error (field ++ js " 必须是 " ++ js (toString length) ++ js " 位十六进制")

def parseSqn (rawValue : Option JsString) : Checked Int :=
  let value := jsTrim (rawValue.getD (js "0"))
  if value = [] then .ok 0
  else
    let parsed :=
      if (js "0x").isPrefixOf value ∨ (js "0X").isPrefixOf value then parseInt (value.drop 2) 16
      else parseInt value 10
    match parsed with
    | none => .error (js "SQN 格式不正确")
    | some n => if ¬ isFinite n ∨ n < 0 then .error (js "SQN 格式不正确") else .ok n

/-- `value?.trim() || fallback`. -/
def trimmedOr (value : Option JsString) (fallback : JsString) : JsString :=
  let trimmed := (value.map jsTrim).getD []
  if trimmed = [] then fallback else trimmed

/-! ## Documents -/

def buildAssociatedImpus (imsi realm : JsString) (tel : Option JsString) : List JsString :=
  let associated := [js "sip:" ++ imsi ++ js "@" ++ realm]
  match tel with
  | none => associated
  | some tel =>
      if jsTrim tel = [] then associated
      else associated ++ [js "sip:" ++ jsTrim tel ++ js "@" ++ realm, js "tel:" ++ jsTrim tel]

/-- What `buildSubscriberDocument` reads from a payload. -/
structure SubscriberFields where
  imsi : JsString
  realm : JsString
  password : JsString
  ki : JsString
  operatorCodeType : JsString
  operatorCode : JsString
  amf : JsString
  sqn : Int
  tel : Option JsString
  assignedScscf : JsString
deriving DecidableEq

/-- The first part of `buildSubscriberDocument`, up to the last check. -/
def readFields (payload : UePayload) (defaultScscfUri : JsString) : Checked SubscriberFields := do
  let imsi ← ensureNonEmpty payload.imsi (js "IMSI")
  let realm ← ensureNonEmpty payload.realm (js "Realm")
  let password ← ensureNonEmpty payload.password (js "Password")
  let ki ← ensureHex (← ensureNonEmpty payload.ki (js "KI")) 32 (js "KI")
  let operatorCodeType ← ensureNonEmpty payload.operatorCodeType (js "OperatorCodeType")
  let operatorCode ← ensureHex (← ensureNonEmpty payload.operatorCode (js "OperatorCode")) 32
    (jsToUpperCase operatorCodeType)
  let amf ← ensureHex (trimmedOr payload.amf (js "8000")) 4 (js "AMF")
  let sqn ← parseSqn payload.sqn
  let tel := payload.tel.map jsTrim
  let assignedScscf := trimmedOr payload.assignedScscf defaultScscfUri
  if operatorCodeType ≠ js "opc" ∧ operatorCodeType ≠ js "op" then
    throw (js "operatorCodeType 只能是 opc 或 op")
  return { imsi, realm, password, ki, operatorCodeType, operatorCode, amf, sqn, tel, assignedScscf }

/-- Its second part, the document that it returns. -/
def SubscriberFields.document (fields : SubscriberFields) : List (String × JsValue) :=
  [("imsi", .string fields.imsi)] ++
  (match fields.tel with
    | none => []
    | some tel => if tel = [] then [] else [("tel", .string tel)]) ++
  [("realm", .string fields.realm),
    ("identities", .object
      [("impi", .string (fields.imsi ++ js "@" ++ fields.realm)),
        ("canonical_impu", .string (js "sip:" ++ fields.imsi ++ js "@" ++ fields.realm)),
        ("associated_impus", .array
          ((buildAssociatedImpus fields.imsi fields.realm fields.tel).map .string)),
        ("username", .string fields.imsi),
        ("realm", .string fields.realm)]),
    ("auth", .object
      [("password", .string fields.password),
        ("ki", .string fields.ki),
        ("operator_code_type", .string fields.operatorCodeType),
        ("opc", .string (if fields.operatorCodeType = js "opc" then fields.operatorCode else [])),
        ("op", .string (if fields.operatorCodeType = js "op" then fields.operatorCode else [])),
        ("sqn", .number fields.sqn),
        ("amf", .string fields.amf)]),
    ("profile", .object [("ifcs", .array [])]),
    ("serving", .object [("assigned_scscf", .string fields.assignedScscf)])]

def buildSubscriberDocument (payload : UePayload) (defaultScscfUri : JsString) :
    Checked (List (String × JsValue)) :=
  (readFields payload defaultScscfUri).map SubscriberFields.document

/-! ## What has been checked -/

theorem ensureHex_length {value text : JsString} {length : Nat} {field : JsString}
    (h : ensureHex value length field = .ok text) : text.length = length := by
  rw [ensureHex] at h
  split at h
  · rename_i hhex
    cases h
    exact hhex.1
  · cases h

theorem parseSqn_nonneg {rawValue : Option JsString} {n : Int} (h : parseSqn rawValue = .ok n) :
    0 ≤ n := by
  rw [parseSqn] at h
  dsimp only at h
  split at h
  · cases h
    exact le_refl _
  · split at h
    · cases h
    · rename_i hparsed
      split at h
      · cases h
      · rename_i hrange
        cases h
        exact not_lt.mp (not_or.mp hrange).2

/-- What the reader of a document relies on. -/
structure SubscriberFields.Checked (fields : SubscriberFields) : Prop where
  operatorCodeType : fields.operatorCodeType = js "opc" ∨ fields.operatorCodeType = js "op"
  operatorCode : fields.operatorCode.length = 32
  sqn : 0 ≤ fields.sqn

theorem checked_of_readFields {payload : UePayload} {defaultScscfUri : JsString}
    {fields : SubscriberFields} (h : readFields payload defaultScscfUri = .ok fields) :
    fields.Checked := by
  obtain ⟨imsi, -, h⟩ := exists_of_bind_eq_ok h
  obtain ⟨realm, -, h⟩ := exists_of_bind_eq_ok h
  obtain ⟨password, -, h⟩ := exists_of_bind_eq_ok h
  obtain ⟨rawKi, -, h⟩ := exists_of_bind_eq_ok h
  obtain ⟨ki, -, h⟩ := exists_of_bind_eq_ok h
  obtain ⟨operatorCodeType, -, h⟩ := exists_of_bind_eq_ok h
  obtain ⟨rawCode, -, h⟩ := exists_of_bind_eq_ok h
  obtain ⟨operatorCode, hcode, h⟩ := exists_of_bind_eq_ok h
  obtain ⟨amf, -, h⟩ := exists_of_bind_eq_ok h
  obtain ⟨sqn, hsqn, h⟩ := exists_of_bind_eq_ok h
  dsimp only at h
  split at h
  · cases h
  · rename_i htype
    cases h
    rw [not_and_or, not_not, not_not] at htype
    exact ⟨htype, ensureHex_length hcode, parseSqn_nonneg hsqn⟩

end SimIms.WebUi
