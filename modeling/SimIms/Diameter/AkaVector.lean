import SimIms.Common.Types

/-!
# Authentication vectors

The key material of a subscriber is read from hexadecimal texts. The Milenage functions
themselves enter as `Milenage`.
-/

namespace SimIms.Diameter

open Cxx

structure AuthVector where
  rand : Bytes
  autn : Bytes
  xres : Bytes
  ck : Bytes
  ik : Bytes
deriving DecidableEq, Repr

structure MilenageVector where
  autn : Bytes
  ck : Bytes
  ik : Bytes
  xres : Bytes
deriving DecidableEq, Repr

/-- The functions of `milenage_adapter`. -/
class Milenage where
  computeOpc : (k op : Bytes) → Result Bytes
  generateVector : (opc k sqn amf rand : Bytes) → Result MilenageVector

structure HssSubscriberConfig where
  imsi : Bytes
  realm : Bytes
  ki : Bytes
  operatorCodeType : Bytes
  opc : Bytes
  op : Bytes
  sqn : Bytes
  amf : Bytes
deriving DecidableEq, Repr

def hexValue (ch : UInt8) : Option UInt8 :=
  if isDigit ch then some (ch - '0'.toUInt8)
  else if 'a'.toUInt8 ≤ ch ∧ ch ≤ 'f'.toUInt8 then some (ch - 'a'.toUInt8 + 10)
  else if 'A'.toUInt8 ≤ ch ∧ ch ≤ 'F'.toUInt8 then some (ch - 'A'.toUInt8 + 10)
  else none

/-- Pairs of hexadecimal digits. -/
def hexPairs : Bytes → Option Bytes
  | hi :: lo :: rest =>
      match hexValue hi, hexValue lo, hexPairs rest with
      | some hi, some lo, some bytes => some ((hi <<< 4 ||| lo) :: bytes)
      | _, _, _ => none
  | _ => some []

def parseHexExact (n : Nat) (value : Bytes) (fieldName : String) : Result Bytes :=
  if value.length ≠ n * 2 then
    .error { code := .configInvalidValue, message := bytes "invalid AKA hex field length"
             detail := bytes fieldName }
  else
    match hexPairs value with
    | none => .error { code := .configInvalidValue
                       message := bytes "invalid AKA hex field value"
                       detail := bytes fieldName }
    | some out => .ok out

variable [Milenage]

def resolveOpc (subscriber : HssSubscriberConfig) (k : Bytes) : Result Bytes :=
  let missing (message : String) : ErrorInfo :=
    { code := .configInvalidValue, message := bytes message, detail := subscriber.imsi }
  let fromOp : Result Bytes :=
    match parseHexExact 16 subscriber.op "op" with
    | .error error => .error error
    | .ok op => Milenage.computeOpc k op
  if subscriber.operatorCodeType = bytes "opc" then
    if subscriber.opc = [] then .error (missing "missing AKA opc for operator_code_type=opc")
    else parseHexExact 16 subscriber.opc "opc"
  else if subscriber.operatorCodeType = bytes "op" then
    if subscriber.op = [] then .error (missing "missing AKA op for operator_code_type=op")
    else fromOp
  else if subscriber.opc ≠ [] then parseHexExact 16 subscriber.opc "opc"
  else if subscriber.op = [] then .error (missing "missing AKA operator code")
  else fromOp

/-- What the random number is combined with: OPc, K, SQN and AMF. -/
structure AkaMaterial where
  opc : Bytes
  k : Bytes
  sqn : Bytes
  amf : Bytes

/-- `build_aka_auth_vector` up to the random number. -/
def akaMaterial (subscriber : HssSubscriberConfig) : Result AkaMaterial :=
  if subscriber.ki = [] ∨ subscriber.sqn = [] then
    .error { code := .configInvalidValue, message := bytes "missing AKA subscriber material"
             detail := subscriber.imsi }
  else do
    let k ← parseHexExact 16 subscriber.ki "ki"
    let opc ← resolveOpc subscriber k
    let sqn ← parseHexExact 6 subscriber.sqn "sqn"
    let amf ← parseHexExact 2 (if subscriber.amf = [] then bytes "8000" else subscriber.amf) "amf"
    return { opc, k, sqn, amf }

/-- And from it on. -/
def akaVector (material : AkaMaterial) (rand : Bytes) : Result AuthVector := do
  let vector ← Milenage.generateVector material.opc material.k material.sqn material.amf rand
  return { rand, autn := vector.autn, xres := vector.xres, ck := vector.ck, ik := vector.ik }

end SimIms.Diameter
