import SimIms.Sip.ProxyCore

/-!
# Ports as they are written

Three functions take the port of an endpoint from a text: from a URI by `stoi`, from a `Via` by
`atoi`, both narrowed to 16 bits. The port is the written one exactly where the text is a number
that a port can have, or, in a URI, where it cannot be read at all.
-/

namespace SimIms.PCscf

open Cxx Lib Sip

/-! ## Destinations of a UE -/

/-- The bottom `Via`, if it is taken. -/
def bottomVia [OsipAccessor] (request : SipMessage) : Option Via :=
  if OsipAccessor.getVia (request.viaCount - 1) = 0 then request.vias.getLast? else none

/-- The `Via` of a request that has no other. -/
def onlyVia (request : SipMessage) : Option Via :=
  match request.vias with
  | [via] => some via
  | _ => none

/-- Where positions are returned, the bottom `Via` is taken only if it is the top one. -/
theorem bottomVia_of_returnsPosition [OsipAccessor] (hpos : OsipAccessor.ReturnsPosition)
    (request : SipMessage) : bottomVia request = onlyVia request := by
  rw [bottomVia, onlyVia, SipMessage.viaCount, hpos]
  cases request.vias with
  | nil => rfl
  | cons top vias =>
      cases vias with
      | nil => rfl
      | cons via vias =>
          refine if_neg ?_
          rw [List.length_cons, List.length_cons]
          omega

section

variable [OsipParser]

def withTransport (endpoint : Endpoint) : Endpoint :=
  if endpoint.transport = [] then { endpoint with transport := bytes "udp" } else endpoint

/-- The Request-URI, where it names a host other than the domain, or the Contact, or the bottom
`Via`. -/
def resolveUeDestination [OsipAccessor] (request : SipMessage) : Option Endpoint :=
  let parsedRequestUri := (parseEndpointFromUri request.requestUri).filter fun endpoint =>
    endpoint.address ≠ [] ∧ endpoint.address ≠ bytes "ims.local"
  match parsedRequestUri with
  | some endpoint => some (withTransport endpoint)
  | none =>
      match request.contactUri.bind parseEndpointFromUri with
      | some endpoint => some (withTransport endpoint)
      | none =>
          (bottomVia request).map fun bottomVia =>
            { address := bottomVia.host, port := ProxyCore.viaPort bottomVia
              transport := ProxyCore.viaTransport bottomVia }

end

/-! ## Written ports -/

/-- A text that is a decimal number from 1 to 65535. -/
structure IsPort (text : Bytes) : Prop where
  nonempty : text ≠ []
  digits : ∀ d ∈ text, isDigit d = true
  pos : 1 ≤ digitsValue text
  le : digitsValue text ≤ 65535

/-- The port is the one that is written, or 5060 where none is. -/
def IsWritten (written : Option Bytes) (port : UInt16) : Prop :=
  match written with
  | none => port = 5060
  | some text => IsPort text ∧ port.toNat = digitsValue text

/-- Nothing is written, or a port. -/
def Readable (written : Option Bytes) : Prop := ∀ text, written = some text → IsPort text

theorem readable_none : Readable none := fun text h => by cases h

theorem Readable.of_isWritten {written : Option Bytes} {port : UInt16}
    (h : IsWritten written port) : Readable written := by
  rintro text rfl
  exact h.1

/-- A number that a port can have survives the narrowing. -/
theorem toNat_ofInt_digitsValue {text : Bytes} (h : IsPort text) :
    (UInt16.ofInt (digitsValue text)).toNat = digitsValue text := by
  have hle := h.le
  rw [UInt16.ofInt, Int.emod_eq_of_lt (by omega) (by omega), Int.toNat_natCast, UInt16.toNat_ofNat']
  omega

theorem stoi_of_isPort {text : Bytes} (h : IsPort text) : stoi text = .ok (digitsValue text) := by
  have hle := h.le
  exact stoi_digits h.nonempty h.digits (by omega)

theorem atoi_of_isPort {text : Bytes} (h : IsPort text) : atoi text = digitsValue text := by
  have hle := h.le
  exact atoi_digits h.nonempty h.digits (by omega)

/-! ### In a `Via` -/

/-- The text of a `Via` that is taken for a port. -/
def viaPortText (via : Via) : Option Bytes :=
  ((paramValue via.params (bytes "rport")).filter (· ≠ [])).or via.port

theorem viaPort_eq (via : Via) : ProxyCore.viaPort via =
    match viaPortText via with
    | none => 5060
    | some text => UInt16.ofInt (atoi text) := by
  rw [ProxyCore.viaPort, viaPortText]
  cases (paramValue via.params (bytes "rport")).filter (· ≠ []) with
  | some rport => rfl
  | none =>
      rw [Option.none_or]
      cases via.port with
      | none => rfl
      | some port => rfl

theorem isWritten_viaPort_iff (via : Via) :
    IsWritten (viaPortText via) (ProxyCore.viaPort via) ↔ Readable (viaPortText via) := by
  refine ⟨Readable.of_isWritten, fun h => ?_⟩
  rw [viaPort_eq]
  cases hwritten : viaPortText via with
  | none => rfl
  | some text =>
      have hport := h text hwritten
      refine ⟨hport, ?_⟩
      simp only
      rw [atoi_of_isPort hport, toNat_ofInt_digitsValue hport]

/-! ### In a URI -/

section

variable [OsipParser]

/-- The host and the text of the port of a URI that is not given up: it has been parsed, has a host,
and `stoi` does not throw. -/
def uriHostPort (value : Bytes) : Option (Bytes × Option Bytes) :=
  let uriText := extractUriFromNameAddr value
  if uriText = [] ∨ uriText = bytes "*" then none
  else
    (OsipParser.uriParse uriText).bind fun uri =>
      uri.host.bind fun host =>
        match uri.port with
        | none => some (host, none)
        | some text => if (stoi text).toOption.isSome then some (host, some text) else none

/-- The endpoint of a URI has its host, and its port exactly where that is readable. -/
structure EndpointOf (hostPort : Bytes × Option Bytes) (endpoint : Endpoint) : Prop where
  host : endpoint.address = hostPort.1
  port : IsWritten hostPort.2 endpoint.port ↔ Readable hostPort.2

theorem parseEndpointFromUri_cases (value : Bytes) :
    (uriHostPort value = none ∧ parseEndpointFromUri value = none) ∨
      ∃ hostPort endpoint, uriHostPort value = some hostPort ∧
        parseEndpointFromUri value = some endpoint ∧ EndpointOf hostPort endpoint := by
  rw [uriHostPort, parseEndpointFromUri]
  by_cases hempty : extractUriFromNameAddr value = [] ∨ extractUriFromNameAddr value = bytes "*"
  · exact .inl ⟨if_pos hempty, if_pos hempty⟩
  simp only [if_neg hempty]
  cases OsipParser.uriParse (extractUriFromNameAddr value) with
  | none => exact .inl ⟨rfl, rfl⟩
  | some uri =>
      obtain ⟨scheme, username, host, port, transport⟩ := uri
      cases host with
      | none => exact .inl ⟨rfl, rfl⟩
      | some host =>
          cases port with
          | none => exact .inr ⟨_, _, rfl, rfl, rfl, fun _ => readable_none, fun _ => rfl⟩
          | some text =>
              simp only [Option.bind_some]
              cases hread : stoi text with
              | error error => exact .inl ⟨rfl, rfl⟩
              | ok number =>
                  refine .inr ⟨(host, some text), _, rfl, rfl, rfl, Readable.of_isWritten, ?_⟩
                  intro hreadable
                  have hport := hreadable text rfl
                  rw [stoi_of_isPort hport] at hread
                  cases hread
                  exact ⟨hport, toNat_ofInt_digitsValue hport⟩

/-! ## The functions that read ports -/

inductive PortReader where
  | parseEndpointFromUri (value : Bytes)
  | routePointsToEndpoint (value : Bytes)
  | forwardResponse (msg : SipMessage)
  | resolveUeDestination (request : SipMessage)

/-- The port by which endpoints are compared. -/
def portOf (endpoint : Endpoint) : UInt16 := if endpoint.port = 0 then 5060 else endpoint.port

omit [OsipParser] in
/-- A written port is not zero, so it is compared as it is. -/
theorem isWritten_portOf {written : Option Bytes} {endpoint : Endpoint}
    (h : IsWritten written endpoint.port) : IsWritten written (portOf endpoint) := by
  have hne : endpoint.port ≠ 0 := by
    intro hzero
    rw [hzero] at h
    cases written with
    | none =>
        have hdefault : (0 : UInt16) ≠ 5060 := by decide
        exact hdefault h
    | some text =>
        have hpos := h.1.pos
        rw [← h.2] at hpos
        exact absurd hpos (by decide)
  rwa [portOf, if_neg hne]

namespace PortReader

/-- The text of the port, if any, at the place where the function finds an address. -/
def place : PortReader → Option (Option Bytes)
  | parseEndpointFromUri value => (uriHostPort value).map Prod.snd
  | routePointsToEndpoint value => (uriHostPort value).map Prod.snd
  | forwardResponse msg => msg.vias[1]?.map viaPortText
  | resolveUeDestination request =>
      match (uriHostPort request.requestUri).filter fun hostPort =>
          hostPort.1 ≠ [] ∧ hostPort.1 ≠ bytes "ims.local" with
      | some hostPort => some hostPort.2
      | none =>
          match request.contactUri.bind uriHostPort with
          | some hostPort => some hostPort.2
          | none => (onlyVia request).map viaPortText

/-- The function goes on with this port. -/
def Uses [OsipAccessor] : PortReader → UInt16 → Prop
  | parseEndpointFromUri value, port =>
      ∃ endpoint, Sip.parseEndpointFromUri value = some endpoint ∧ endpoint.port = port
  | routePointsToEndpoint value, port =>
      ∃ endpoint fallbackTransport,
        Sip.routePointsToEndpoint value endpoint fallbackTransport = true ∧ portOf endpoint = port
  | forwardResponse msg, port =>
      ∃ sent dest, ProxyCore.forwardResponse msg = .ok (sent, dest) ∧ dest.port = port
  | resolveUeDestination request, port =>
      ∃ endpoint, PCscf.resolveUeDestination request = some endpoint ∧ endpoint.port = port

/-- Every port that is used is the written one. -/
def UsesWritten [OsipAccessor] (reader : PortReader) : Prop :=
  ∀ port, reader.Uses port → ∃ written, reader.place = some written ∧ IsWritten written port

/-- The function has no place to take a port from, or goes on with exactly one port, which is the
written one exactly where that is readable. -/
def Decided [OsipAccessor] (reader : PortReader) : Prop :=
  (reader.place = none ∧ ∀ port, ¬ reader.Uses port) ∨
    ∃ written port, reader.place = some written ∧ reader.Uses port ∧
      (∀ port', reader.Uses port' → port' = port) ∧ (IsWritten written port ↔ Readable written)

theorem decided_parseEndpointFromUri [OsipAccessor] (value : Bytes) :
    (parseEndpointFromUri value).Decided := by
  obtain ⟨hplace, hparse⟩ | ⟨hostPort, endpoint, hplace, hparse, hendpoint⟩ :=
    parseEndpointFromUri_cases value
  · refine .inl ⟨congrArg (Option.map Prod.snd) hplace, ?_⟩
    rintro port ⟨endpoint, hsome, -⟩
    rw [hparse] at hsome
    cases hsome
  · refine .inr ⟨hostPort.2, endpoint.port, congrArg (Option.map Prod.snd) hplace,
      ⟨endpoint, hparse, rfl⟩, ?_, hendpoint.port⟩
    rintro port ⟨endpoint', hsome, rfl⟩
    rw [hparse] at hsome
    cases hsome
    rfl

theorem decided_routePointsToEndpoint [OsipAccessor] (value : Bytes) :
    (routePointsToEndpoint value).Decided := by
  obtain ⟨hplace, hparse⟩ | ⟨hostPort, route, hplace, hparse, hendpoint⟩ :=
    parseEndpointFromUri_cases value
  · refine .inl ⟨congrArg (Option.map Prod.snd) hplace, ?_⟩
    rintro port ⟨endpoint, fallbackTransport, hpoints, -⟩
    rw [Sip.routePointsToEndpoint, hparse] at hpoints
    cases hpoints
  · refine .inr ⟨hostPort.2, portOf route, congrArg (Option.map Prod.snd) hplace,
      ⟨route, [], ?_, rfl⟩, ?_, ?_⟩
    · rw [Sip.routePointsToEndpoint, hparse]
      simp
    · rintro port ⟨endpoint, fallbackTransport, hpoints, rfl⟩
      rw [Sip.routePointsToEndpoint, hparse] at hpoints
      simp only [Bool.and_eq_true, beq_iff_eq] at hpoints
      exact hpoints.2.symm
    · refine ⟨Readable.of_isWritten, fun hreadable => ?_⟩
      exact isWritten_portOf (hendpoint.port.mpr hreadable)

omit [OsipParser] in
theorem forwardResponse_cases (msg : SipMessage) :
    (msg.vias[1]? = none ∧ ∃ error, ProxyCore.forwardResponse msg = .error error) ∨
      ∃ via dest, msg.vias[1]? = some via ∧
        ProxyCore.forwardResponse msg = .ok (msg.removeTopVia, dest) ∧
          dest.port = ProxyCore.viaPort via := by
  rw [ProxyCore.forwardResponse, SipMessage.viaCount, SipMessage.removeTopVia]
  cases msg.vias with
  | nil => exact .inl ⟨rfl, _, rfl⟩
  | cons topVia vias =>
      rw [if_neg (by rw [List.length_cons]; omega)]
      cases vias with
      | nil => exact .inl ⟨rfl, _, rfl⟩
      | cons via vias => exact .inr ⟨via, _, rfl, rfl, rfl⟩

theorem decided_forwardResponse [OsipAccessor] (msg : SipMessage) :
    (forwardResponse msg).Decided := by
  obtain ⟨hvia, error, herror⟩ | ⟨via, dest, hvia, hsent, hport⟩ := forwardResponse_cases msg
  · refine .inl ⟨congrArg (Option.map viaPortText) hvia, ?_⟩
    rintro port ⟨sent, dest, hsent, -⟩
    cases herror.symm.trans hsent
  · refine .inr ⟨viaPortText via, dest.port, congrArg (Option.map viaPortText) hvia,
      ⟨_, dest, hsent, rfl⟩, ?_, ?_⟩
    · rintro port ⟨sent, dest', hsent', rfl⟩
      cases hsent.symm.trans hsent'
      rfl
    · rw [hport]
      exact isWritten_viaPort_iff via

/-- What `resolveUeDestination` makes of one place. -/
theorem decided_of_resolved [OsipAccessor] {request : SipMessage} (written : Option Bytes)
    (endpoint : Endpoint) (hplace : (resolveUeDestination request).place = some written)
    (hresolved : PCscf.resolveUeDestination request = some endpoint)
    (hwritten : IsWritten written endpoint.port ↔ Readable written) :
    (resolveUeDestination request).Decided := by
  refine .inr ⟨written, endpoint.port, hplace, ⟨endpoint, hresolved, rfl⟩, ?_, hwritten⟩
  rintro port ⟨endpoint', hsome, rfl⟩
  cases hresolved.symm.trans hsome
  rfl

/-- An address other than the domain is taken from the Request-URI. -/
theorem parsedRequestUri_cases (value : Bytes) :
    ((uriHostPort value).filter (fun hostPort =>
          hostPort.1 ≠ [] ∧ hostPort.1 ≠ bytes "ims.local") = none ∧
        (Sip.parseEndpointFromUri value).filter (fun endpoint =>
          endpoint.address ≠ [] ∧ endpoint.address ≠ bytes "ims.local") = none) ∨
      ∃ hostPort endpoint,
        (uriHostPort value).filter (fun hostPort =>
          hostPort.1 ≠ [] ∧ hostPort.1 ≠ bytes "ims.local") = some hostPort ∧
        (Sip.parseEndpointFromUri value).filter (fun endpoint =>
          endpoint.address ≠ [] ∧ endpoint.address ≠ bytes "ims.local") = some endpoint ∧
        EndpointOf hostPort endpoint := by
  obtain ⟨hplace, hparse⟩ | ⟨hostPort, endpoint, hplace, hparse, hendpoint⟩ :=
    parseEndpointFromUri_cases value
  · rw [hplace, hparse]
    exact .inl ⟨rfl, rfl⟩
  · rw [hplace, hparse, Option.filter_some, Option.filter_some, hendpoint.host]
    by_cases husable : hostPort.1 ≠ [] ∧ hostPort.1 ≠ bytes "ims.local"
    · rw [if_pos (decide_eq_true husable), if_pos (decide_eq_true husable)]
      exact .inr ⟨hostPort, endpoint, rfl, rfl, hendpoint⟩
    · rw [if_neg (by simpa using husable), if_neg (by simpa using husable)]
      exact .inl ⟨rfl, rfl⟩

theorem contactUri_cases (contact : Option Bytes) :
    (contact.bind uriHostPort = none ∧ contact.bind Sip.parseEndpointFromUri = none) ∨
      ∃ hostPort endpoint, contact.bind uriHostPort = some hostPort ∧
        contact.bind Sip.parseEndpointFromUri = some endpoint ∧ EndpointOf hostPort endpoint := by
  cases contact with
  | none => exact .inl ⟨rfl, rfl⟩
  | some value => exact parseEndpointFromUri_cases value

omit [OsipParser] in
theorem port_withTransport (endpoint : Endpoint) :
    (withTransport endpoint).port = endpoint.port := by
  rw [withTransport]
  split
  · rfl
  · rfl

theorem decided_resolveUeDestination [OsipAccessor] (hpos : OsipAccessor.ReturnsPosition)
    (request : SipMessage) : (resolveUeDestination request).Decided := by
  obtain ⟨hplace, hparse⟩ | ⟨hostPort, endpoint, hplace, hparse, hendpoint⟩ :=
    parsedRequestUri_cases request.requestUri
  · obtain ⟨hcontact, hparsed⟩ | ⟨hostPort, endpoint, hcontact, hparsed, hendpoint⟩ :=
      contactUri_cases request.contactUri
    · have hbottom : (resolveUeDestination request).place =
          (onlyVia request).map viaPortText := by
        rw [place, hplace, hcontact]
      have hresolved : PCscf.resolveUeDestination request = (onlyVia request).map fun via =>
          ⟨via.host, ProxyCore.viaPort via, ProxyCore.viaTransport via⟩ := by
        rw [PCscf.resolveUeDestination, hparse, hparsed, bottomVia_of_returnsPosition hpos]
      cases hvia : onlyVia request with
      | none =>
          rw [hvia] at hbottom hresolved
          refine .inl ⟨hbottom, ?_⟩
          rintro port ⟨endpoint, hsome, -⟩
          cases hresolved.symm.trans hsome
      | some via =>
          rw [hvia] at hbottom hresolved
          exact decided_of_resolved _ _ hbottom hresolved (isWritten_viaPort_iff via)
    · refine decided_of_resolved hostPort.2 (withTransport endpoint) ?_ ?_ ?_
      · rw [place, hplace, hcontact]
      · rw [PCscf.resolveUeDestination, hparse, hparsed]
      · rw [port_withTransport]
        exact hendpoint.port
  · refine decided_of_resolved hostPort.2 (withTransport endpoint) ?_ ?_ ?_
    · rw [place, hplace]
    · rw [PCscf.resolveUeDestination, hparse]
    · rw [port_withTransport]
      exact hendpoint.port

/-- A function uses the written port exactly where that, if there is one, is a number that a port
can have. -/
theorem usesWritten_iff [OsipAccessor] (hpos : OsipAccessor.ReturnsPosition) (reader : PortReader) :
    reader.UsesWritten ↔ ∀ text, reader.place = some (some text) → IsPort text := by
  have hdecided : reader.Decided := by
    cases reader with
    | parseEndpointFromUri value => exact decided_parseEndpointFromUri value
    | routePointsToEndpoint value => exact decided_routePointsToEndpoint value
    | forwardResponse msg => exact decided_forwardResponse msg
    | resolveUeDestination request => exact decided_resolveUeDestination hpos request
  obtain ⟨hplace, hunused⟩ | ⟨written, port, hplace, huses, hunique, hwritten⟩ := hdecided
  · refine ⟨fun _ text htext => ?_, fun _ port huses => (hunused port huses).elim⟩
    rw [hplace] at htext
    cases htext
  · constructor
    · intro h text htext
      obtain ⟨written', hplace', hiswritten⟩ := h port huses
      rw [hplace'] at htext
      cases htext
      exact hiswritten.1
    · intro h port' huses'
      cases hunique port' huses'
      refine ⟨written, hplace, hwritten.mpr fun text htext => h text ?_⟩
      rw [hplace, htext]

end PortReader

end

/-! ## A port of 70596 -/

/-- The bottom `Via` of two is not taken, whatever is written there. -/
theorem usesWritten_iff_relayed :
    @PortReader.UsesWritten addressUris _ (.resolveUeDestination
      { dialogRequest "INVITE" (bytes "a") [] with
        vias := [⟨bytes "UDP", bytes "10.0.0.1", none, []⟩,
          ⟨bytes "UDP", bytes "10.0.0.9", none, [⟨bytes "rport", some (bytes "70596")⟩]⟩] }) := by
  refine (@PortReader.usesWritten_iff addressUris _ returnsPosition_returnedPositions _).mpr ?_
  intro text hplace
  have hnone : (none : Option (Option Bytes)) = some (some text) := hplace
  cases hnone

/-- A Route to 10.0.0.9:70596 is taken for one to 10.0.0.9:5060, and a response whose sender is at
`rport=70596` is sent to 5060. -/
theorem not_usesWritten_overflow :
    ¬ @PortReader.UsesWritten addressUris _
        (.routePointsToEndpoint (bytes "<sip:10.0.0.9:70596;lr>")) ∧
      ¬ @PortReader.UsesWritten addressUris _ (.forwardResponse
        { dialogRequest "INVITE" (bytes "a") [] with
          start := .response 200 (bytes "OK")
          vias := [⟨bytes "UDP", bytes "10.0.0.1", none, []⟩,
            ⟨bytes "UDP", bytes "10.0.0.9", none, [⟨bytes "rport", some (bytes "70596")⟩]⟩] }) := by
  have hlarge : ¬ IsPort (bytes "70596") := by
    intro h
    exact absurd h.le (by decide)
  constructor
  · intro h
    have hpoints : @routePointsToEndpoint addressUris (bytes "<sip:10.0.0.9:70596;lr>")
        ⟨bytes "10.0.0.9", 5060, bytes "udp"⟩ (bytes "udp") = true := by decide +kernel
    have hplace : @PortReader.place addressUris
        (.routePointsToEndpoint (bytes "<sip:10.0.0.9:70596;lr>")) =
          some (some (bytes "70596")) := by
      decide +kernel
    obtain ⟨written, hwritten, hiswritten⟩ := h 5060 ⟨_, _, hpoints, rfl⟩
    rw [hplace] at hwritten
    cases hwritten
    exact hlarge hiswritten.1
  · intro h
    obtain ⟨written, hwritten, hiswritten⟩ := h 5060 ⟨_, _, rfl, by decide +kernel⟩
    cases hwritten
    exact hlarge hiswritten.1

end SimIms.PCscf
