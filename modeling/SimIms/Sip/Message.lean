import SimIms.Common.Types

/-!
# SIP messages

A message as the parser library stores it: the header fields that have a place of their
own, with their parameters as texts, and the other header fields as a list of names and
values. Texts are kept as they were received. Copying a message and building a response
allocate memory, which is taken to succeed.
-/

namespace SimIms.Sip

open Cxx

/-- What `osip_message_get_via` returns where a message has a `Via` at the position. The code takes
the `Via` only where this is 0, as it is for the first. -/
class OsipAccessor where
  getVia : Nat → Int
  getVia_zero : getVia 0 = 0

/-- The library returns the position. -/
def OsipAccessor.ReturnsPosition [OsipAccessor] : Prop := ∀ pos, getVia pos = pos

instance (priority := low) returnedPositions : OsipAccessor where
  getVia pos := pos
  getVia_zero := rfl

theorem returnsPosition_returnedPositions : OsipAccessor.ReturnsPosition := fun _ => rfl

/-- A parameter, with the text after its `=` when there is one. -/
structure Param where
  name : Bytes
  value : Option Bytes
deriving DecidableEq, Repr

def sameName (a b : Bytes) : Bool := a.map toLower == b.map toLower

/-- The value of the first parameter of that name, in any case. -/
def paramValue (params : List Param) (name : Bytes) : Option Bytes :=
  (params.find? fun param => sameName param.name name).bind Param.value

structure Via where
  protocol : Bytes
  host : Bytes
  port : Option Bytes
  params : List Param
deriving DecidableEq, Repr

/-- A `From`, `To` or `Contact` value: the text of its URI and its header parameters. -/
structure NameAddr where
  url : Option Bytes
  params : List Param
  text : Bytes
deriving DecidableEq, Repr

structure CSeq where
  number : Option Bytes
  method : Option Bytes
deriving DecidableEq, Repr

structure Header where
  name : Bytes
  value : Option Bytes
deriving DecidableEq, Repr

inductive StartLine where
  | request (method uri : Bytes)
  | response (statusCode : Int) (reasonPhrase : Bytes)
deriving DecidableEq, Repr

structure SipMessage where
  start : StartLine
  vias : List Via
  fromAddr : Option NameAddr
  toAddr : Option NameAddr
  callIdText : Bytes
  cseqField : Option CSeq
  contacts : List NameAddr := []
  authorizations : List Bytes := []
  routes : List Bytes := []
  recordRoutes : List Bytes := []
  headers : List Header := []
  bodyText : Option Bytes := none
deriving DecidableEq, Repr

namespace SipMessage

def isRequest (msg : SipMessage) : Bool :=
  match msg.start with
  | .request _ _ => true
  | .response _ _ => false

def isResponse (msg : SipMessage) : Bool := !msg.isRequest

def method (msg : SipMessage) : Bytes :=
  match msg.start with
  | .request method _ => method
  | .response _ _ => []

def requestUri (msg : SipMessage) : Bytes :=
  match msg.start with
  | .request _ uri => uri
  | .response _ _ => []

def setRequestUri (msg : SipMessage) (uri : Bytes) : SipMessage :=
  match msg.start with
  | .request method _ => { msg with start := .request method uri }
  | .response _ _ => msg

def statusCode (msg : SipMessage) : Int :=
  match msg.start with
  | .request _ _ => 0
  | .response code _ => code

def callId (msg : SipMessage) : Bytes := msg.callIdText

/-- The tag of a `From` or `To` value, empty when it has none. -/
def tagOf (addr : Option NameAddr) : Bytes :=
  match addr with
  | none => []
  | some addr => (paramValue addr.params (bytes "tag")).getD []

def fromTag (msg : SipMessage) : Bytes := tagOf msg.fromAddr

def toTag (msg : SipMessage) : Bytes := tagOf msg.toAddr

def fromHeader (msg : SipMessage) : Bytes :=
  match msg.fromAddr with
  | none => []
  | some addr => addr.text

/-- Set the tag of the `To` value. -/
def setToTag (msg : SipMessage) (tag : Bytes) : SipMessage :=
  { msg with toAddr := msg.toAddr.map fun addr =>
      { addr with params := addr.params ++ [⟨bytes "tag", some tag⟩] } }

def cseqMethod (msg : SipMessage) : Bytes :=
  match msg.cseqField with
  | none => []
  | some cseq => cseq.method.getD []

def viaCount (msg : SipMessage) : Nat := msg.vias.length

/-- The `Via` at a position, if it is taken. -/
def takenVia [OsipAccessor] (via : Via × Nat) : Option Via :=
  if OsipAccessor.getVia via.2 = 0 then some via.1 else none

/-- The `Via`s that a loop over all positions takes. -/
def takenVias [OsipAccessor] (msg : SipMessage) : List Via := msg.vias.zipIdx.filterMap takenVia

/-- The top `Via` is taken, whatever is returned for the others. -/
theorem takenVias_eq_cons [OsipAccessor] {msg : SipMessage} {via : Via} {vias : List Via}
    (h : msg.vias = via :: vias) : msg.takenVias = via :: (vias.zipIdx 1).filterMap takenVia := by
  rw [takenVias, h, List.zipIdx_cons]
  exact List.filterMap_cons_some (if_pos OsipAccessor.getVia_zero)

/-- Where positions are returned, no other is. -/
theorem takenVias_of_returnsPosition [OsipAccessor] (h : OsipAccessor.ReturnsPosition)
    (msg : SipMessage) : msg.takenVias = msg.vias.head?.toList := by
  cases hvias : msg.vias with
  | nil =>
      rw [takenVias, hvias]
      rfl
  | cons via vias =>
      have hrest : (vias.zipIdx 1).filterMap takenVia = [] := by
        rw [List.filterMap_eq_nil_iff]
        intro other hmem
        have hpos := (List.mem_zipIdx hmem).1
        refine if_neg ?_
        rw [h other.2]
        omega
      rw [takenVias_eq_cons hvias, hrest]
      rfl

/-- The branch of one `Via`, when it has the parameter with a value. -/
def branchOf (via : Via) : Option Bytes := paramValue via.params (bytes "branch")

/-- The branch of the top `Via`, empty when there is none. -/
def viaBranch (msg : SipMessage) : Bytes :=
  match msg.vias with
  | [] => []
  | via :: _ => (branchOf via).getD []

def addVia (msg : SipMessage) (via : Via) : SipMessage := { msg with vias := via :: msg.vias }

def removeTopVia (msg : SipMessage) : SipMessage := { msg with vias := msg.vias.drop 1 }

@[simp] theorem statusCode_removeTopVia (msg : SipMessage) :
    msg.removeTopVia.statusCode = msg.statusCode := rfl

@[simp] theorem statusCode_setToTag (msg : SipMessage) (tag : Bytes) :
    (msg.setToTag tag).statusCode = msg.statusCode := rfl

end SipMessage

/-- `createResponse`: a response that copies the header fields which identify the
transaction and the dialog. A missing `To` tag is generated, except for a 100. -/
def createResponse (request : SipMessage) (statusCode : Int) (reason : Bytes)
    (generatedTag : Bytes) : SipMessage :=
  let resp : SipMessage :=
    { start := .response statusCode reason, vias := request.vias, fromAddr := request.fromAddr
      toAddr := request.toAddr, callIdText := request.callIdText, cseqField := request.cseqField }
  if 100 < statusCode ∧ resp.toTag = [] then resp.setToTag generatedTag else resp

@[simp] theorem statusCode_createResponse (request : SipMessage) (statusCode : Int)
    (reason generatedTag : Bytes) :
    (createResponse request statusCode reason generatedTag).statusCode = statusCode := by
  simp only [createResponse]
  split
  · rfl
  · rfl

/-- A request of one call with these tags, and nothing else but its method. -/
def dialogRequest (method : String) (fromTag : Bytes) (toTag : List Param) : SipMessage :=
  { start := .request (bytes method) (bytes "sip:bob@ims.local"), vias := []
    fromAddr := some ⟨none, [⟨bytes "tag", some fromTag⟩], []⟩
    toAddr := some ⟨none, toTag, []⟩, callIdText := bytes "call"
    cseqField := some ⟨some (bytes "1"), some (bytes method)⟩ }

end SimIms.Sip
