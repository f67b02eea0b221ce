import SimIms.Common.Types

/-!
# Public identities and digest credentials as texts

`normalize_impu_uri` is the form in which public identities are compared everywhere: a name
address is reduced to its URI, the host is put in lower case and parameters are dropped. The
parser of the osip library is outside of the repository and enters as `OsipParser`.
-/

namespace SimIms.Sip

open Cxx

/-- The parts of a parsed URI that are looked at. -/
structure OsipUri where
  scheme : Option Bytes
  username : Option Bytes
  host : Option Bytes
  port : Option Bytes := none
  transport : Option Bytes := none
deriving DecidableEq, Repr

/-- `osip_uri_parse`. -/
class OsipParser where
  uriParse : Bytes → Option OsipUri

/-- A parser for URIs that have a scheme, a user and a host and nothing else. -/
@[reducible] def plainUris : OsipParser where
  uriParse text :=
    match find text ':'.toUInt8 0 with
    | none => none
    | some colon =>
        let rest := text.drop (colon + 1)
        match find rest '@'.toUInt8 0 with
        | none => some { scheme := some (text.take colon), username := none, host := some rest }
        | some atSign =>
            some { scheme := some (text.take colon), username := some (rest.take atSign)
                   host := some (rest.drop (atSign + 1)) }

/-- The same with a port and parameters after the host, of which the transport is looked at. -/
@[reducible] def addressUris : OsipParser where
  uriParse text :=
    (plainUris.uriParse text).map fun uri =>
      let pieces := getlines ';'.toUInt8 (uri.host.getD [])
      let hostPort := getlines ':'.toUInt8 (pieces.headD [])
      { uri with
        host := hostPort.head?
        port := hostPort.tail.head?
        transport := pieces.findSome? fun piece =>
          if (bytes "transport=").isPrefixOf piece then some (piece.drop 10) else none }

def trimQuotes (value : Bytes) : Bytes :=
  if 2 ≤ value.length ∧ value.head? = some '"'.toUInt8 ∧ value.getLast? = some '"'.toUInt8 then
    substr value 1 (value.length - 2)
  else value

/-- What stands between the angle brackets, or the text itself. The parameters of a
telephone number without brackets go as well. -/
def extractUriFromNameAddr (value : Bytes) : Bytes :=
  let trimmed := trim value
  if trimmed = [] ∨ trimmed = bytes "*" then trimmed
  else
    let withoutBrackets :=
      if (bytes "tel:").isPrefixOf (lowercase trimmed) then
        match find trimmed ';'.toUInt8 0 with
        | some semi => trimmed.take semi
        | none => trimmed
      else trimmed
    match find trimmed '<'.toUInt8 0 with
    | none => withoutBrackets
    | some angleStart =>
        match find trimmed '>'.toUInt8 (angleStart + 1) with
        | none => withoutBrackets
        | some angleEnd => substr trimmed (angleStart + 1) (angleEnd - angleStart - 1)

def normalizeImpuUri [OsipParser] (value : Bytes) : Bytes :=
  let uriText := extractUriFromNameAddr value
  if uriText = [] ∨ uriText = bytes "*" then uriText
  else
    let lowered := lowercase uriText
    if (bytes "tel:").isPrefixOf lowered then lowered
    else
      match OsipParser.uriParse uriText with
      | none => lowered
      | some uri =>
          let scheme := lowercase (uri.scheme.getD [])
          if scheme = bytes "tel" then bytes "tel:" ++ uri.username.getD []
          else if scheme ≠ bytes "sip" ∧ scheme ≠ bytes "sips" then lowered
          else
            match uri.username, uri.host with
            | some username, some host =>
                scheme ++ bytes ":" ++ username ++ bytes "@" ++ lowercase host
            | _, _ => lowered

/-! ## Endpoints -/

section

variable [OsipParser]

/-- The host and the port of a URI. A port that is no number makes it useless, one that is too
large is cut down to 16 bits. -/
def parseEndpointFromUri (sipUri : Bytes) : Option Endpoint :=
  let uriText := extractUriFromNameAddr sipUri
  if uriText = [] ∨ uriText = bytes "*" then none
  else
    match OsipParser.uriParse uriText with
    | none => none
    | some uri =>
        match uri.host with
        | none => none
        | some host =>
            let transport := match uri.transport with
              | none => bytes "udp"
              | some value => lowercase value
            match uri.port with
            | none => some { address := host, port := 5060, transport }
            | some text =>
                match stoi text with
                | .error _ => none
                | .ok port => some { address := host, port := UInt16.ofInt port, transport }

def routePointsToEndpoint (routeValue : Bytes) (endpoint : Endpoint)
    (fallbackTransport : Bytes := bytes "udp") : Bool :=
  match parseEndpointFromUri routeValue with
  | none => false
  | some route =>
      let transportOf (endpoint : Endpoint) : Bytes :=
        lowercase (if endpoint.transport = [] then fallbackTransport else endpoint.transport)
      let portOf (endpoint : Endpoint) : UInt16 := if endpoint.port = 0 then 5060 else endpoint.port
      lowercase route.address == lowercase endpoint.address &&
        transportOf endpoint == transportOf route && portOf route == portOf endpoint

end

/-! ## Digest credentials -/

structure DigestAuthFields where
  username : Bytes := []
  realm : Bytes := []
  nonce : Bytes := []
  response : Bytes := []
  uri : Bytes := []
  algorithm : Bytes := []
  qop : Bytes := []
  nc : Bytes := []
  cnonce : Bytes := []
deriving DecidableEq, Repr

namespace DigestAuthFields

/-- One field by its name; a later one of the same name wins. -/
def set (fields : DigestAuthFields) (key value : Bytes) : DigestAuthFields :=
  if key = bytes "username" then { fields with username := value }
  else if key = bytes "realm" then { fields with realm := value }
  else if key = bytes "nonce" then { fields with nonce := value }
  else if key = bytes "response" then { fields with response := value }
  else if key = bytes "uri" then { fields with uri := value }
  else if key = bytes "algorithm" then { fields with algorithm := value }
  else if key = bytes "qop" then { fields with qop := value }
  else if key = bytes "nc" then { fields with nc := value }
  else if key = bytes "cnonce" then { fields with cnonce := value }
  else fields

/-- One piece of the header between commas. -/
def readToken (fields : DigestAuthFields) (token : Bytes) : DigestAuthFields :=
  let token := trim token
  match find token '='.toUInt8 0 with
  | none => fields
  | some eq =>
      fields.set (lowercase (trim (token.take eq))) (trimQuotes (trim (token.drop (eq + 1))))

end DigestAuthFields

def parseDigestAuthorization (header : Bytes) : Result DigestAuthFields :=
  match (findSub (bytes "Digest ") header).or (findSub (bytes "digest ") header) with
  | none =>
      .error { code := .sipParseError
               message := bytes "Missing Digest scheme in Authorization header" }
  | some pos =>
      let fields := (getlines ','.toUInt8 (header.drop (pos + 7))).foldl
        DigestAuthFields.readToken {}
      if fields.username = [] then
        .error { code := .sipParseError
                 message := bytes "Missing username in Authorization header" }
      else .ok fields

end SimIms.Sip
