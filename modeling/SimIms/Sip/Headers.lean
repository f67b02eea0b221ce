import SimIms.Sip.Message
import SimIms.Sip.UriUtils

/-!
# Reading and writing header fields

The accessors of `SipMessage` that registration uses. `Authorization` and `Contact` fields
have a place of their own in a message; a name without one is looked up among the other
fields. `getHeaders` is modelled for these names only: route sets and the other
authentication fields are read elsewhere.
-/

namespace SimIms.Sip.SipMessage

open Cxx

/-- The loop of `getHeaders` over the other fields, from one position to the end: each round
takes the first field of that name from its position on, and the position moves on by one. -/
def headerValues (name : Bytes) : List Header → List Bytes
  | [] => []
  | header :: rest =>
      match (header :: rest).find? fun header => sameName header.name name with
      | none => []
      | some found => found.value.toList ++ headerValues name rest

def getHeaders (msg : SipMessage) (name : Bytes) : List Bytes :=
  if lowercase name = bytes "authorization" then msg.authorizations.filter (· ≠ [])
  else if lowercase name = bytes "contact" then
    (msg.contacts.map NameAddr.text).filter (· ≠ [])
  else headerValues name msg.headers

def getHeader (msg : SipMessage) (name : Bytes) : Option Bytes := (msg.getHeaders name).head?

def addHeader (msg : SipMessage) (name value : Bytes) : SipMessage :=
  { msg with headers := msg.headers ++ [⟨name, some value⟩] }

@[simp] theorem statusCode_addHeader (msg : SipMessage) (name value : Bytes) :
    (msg.addHeader name value).statusCode = msg.statusCode := rfl

theorem mem_headers_addHeader {msg : SipMessage} {header : Header} (h : header ∈ msg.headers)
    (name value : Bytes) : header ∈ (msg.addHeader name value).headers :=
  List.mem_append_left _ h

def toHeader (msg : SipMessage) : Bytes :=
  match msg.toAddr with
  | none => []
  | some addr => addr.text

/-- The text of a URI, when there is one. -/
def uriOf (addr : Option NameAddr) : Option Bytes :=
  (addr.bind NameAddr.url).filter (· ≠ [])

def fromUri (msg : SipMessage) : Option Bytes := uriOf msg.fromAddr

def toUri (msg : SipMessage) : Option Bytes := uriOf msg.toAddr

def contact (msg : SipMessage) : Option Bytes := msg.contacts.head?.map NameAddr.text

/-- The URI of the first contact. One that has not been parsed is taken out of its text. -/
def contactUri (msg : SipMessage) : Option Bytes :=
  match msg.contacts.head? with
  | none => none
  | some contact =>
      match contact.url with
      | some url => if url = [] then none else some url
      | none =>
          if contact.text = bytes "*" then some contact.text
          else if extractUriFromNameAddr contact.text = [] then none
          else some (extractUriFromNameAddr contact.text)

/-- A parameter of the first contact, without its quotes. -/
def contactParam (msg : SipMessage) (key : Bytes) : Option Bytes :=
  (msg.contacts.head?.bind fun contact => paramValue contact.params key).map trimQuotes

/-- `std::stoul` narrowed to 32 bits, where it does not throw. -/
def parseUintHeader (value : Bytes) : Option UInt32 :=
  match stoul value with
  | .error _ => none
  | .ok n => some (UInt32.ofNat n)

def contactExpires (msg : SipMessage) : Option UInt32 :=
  (msg.contactParam (bytes "expires")).bind parseUintHeader

def expiresValue (msg : SipMessage) : Option UInt32 :=
  (msg.getHeader (bytes "Expires")).bind parseUintHeader

def isWildcardContact (msg : SipMessage) : Bool := msg.contact == some (bytes "*")

/-- The sequence number. An ill-formed one throws. -/
def cseq (msg : SipMessage) : Except Exception UInt32 :=
  match msg.cseqField.bind CSeq.number with
  | none => .ok 0
  | some number => (stoul number).map UInt32.ofNat

def impuFromTo (msg : SipMessage) : Option Bytes := msg.toUri

def impiFromAuthorizationOrFrom (msg : SipMessage) : Option Bytes :=
  let fromFrom := msg.fromUri.map fun uri =>
    if (bytes "sip:").isPrefixOf uri then uri.drop 4 else uri
  match msg.getHeader (bytes "Authorization") with
  | none => fromFrom
  | some auth =>
      match parseDigestAuthorization auth with
      | .error _ => fromFrom
      | .ok parsed => if parsed.username = [] then fromFrom else some parsed.username

/-- Replace the contacts by the one whose text is given. -/
def setContact (msg : SipMessage) (contact : NameAddr) : SipMessage :=
  { msg with contacts := [contact] }

/-- A REGISTER of one call, from one identity to another, with these contacts. -/
def register (fromUri toUri : String) (contacts : List NameAddr := []) : SipMessage :=
  { start := .request (bytes "REGISTER") (bytes "sip:ims.local"), vias := []
    fromAddr := some ⟨some (bytes fromUri), [], bytes fromUri⟩
    toAddr := some ⟨some (bytes toUri), [], bytes toUri⟩, callIdText := bytes "call"
    cseqField := some ⟨some (bytes "1"), some (bytes "REGISTER")⟩, contacts }

end SimIms.Sip.SipMessage
