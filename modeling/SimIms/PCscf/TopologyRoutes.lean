import SimIms.Lib.Table
import SimIms.Sip.HopLimit
import SimIms.Sip.PlainIdentities

/-!
# Requests with a topology token

A request that went to a UE has left a token in the Record-Route, and the table says for each token
which core endpoint the way back leads to. The stateful path looks the token up before the proxy
takes its own Route off, the stateless path only after that, so that it looks at the next Route.
-/

namespace SimIms.PCscf

open Cxx Lib Sip

structure TopologyRouteEntry where
  endpoint : Endpoint
  expiresAt : Nat
deriving DecidableEq, Repr

abbrev TopologyRoutes := Table Bytes TopologyRouteEntry

/-- `s.find_first_of(chars, pos)`. -/
def findFirstOf (s chars : Bytes) (pos : Nat) : Option Nat :=
  ((s.drop pos).findIdx? (· ∈ chars)).map (pos + ·)

/-- The addresses of the service. The advertised one is the name or the number of a host. -/
structure PcscfService where
  proxyPublicAddr : Bytes
  listenPort : UInt16
  coreEntryAddr : Bytes
  coreEntryPort : UInt16
  coreEntryTransport : Bytes
  isHost : ∀ c ∈ proxyPublicAddr, c ≠ '='.toUInt8 ∧ c ≠ '>'.toUInt8

def purgeExpiredTopologyRoutes (routes : TopologyRoutes) (now : Nat) : TopologyRoutes :=
  routes.eraseIf fun _ entry => entry.expiresAt ≤ now

/-- The token of a Route. -/
def topologyToken (route : Bytes) : Option Bytes :=
  match findSub (bytes "th=") route with
  | none => none
  | some pos =>
      let keyPos := pos + 3
      let endPos := (findFirstOf route (bytes ";>") keyPos).getD route.length
      if endPos ≤ keyPos then none else some (substr route keyPos (endPos - keyPos))

/-- The token of the top Route. -/
def extractTopologyToken (request : SipMessage) : Option Bytes :=
  match request.routes with
  | [] => none
  | top :: _ => topologyToken top

namespace PcscfService

variable (service : PcscfService)

def proxy : ProxyCore := ⟨service.proxyPublicAddr, service.listenPort⟩

def coreEntry : Endpoint where
  address := service.coreEntryAddr
  port := service.coreEntryPort
  transport := if service.coreEntryTransport = [] then bytes "udp" else service.coreEntryTransport

/-- The destination, and the table, which is purged where it is looked at. -/
def resolveCoreDestination (routes : TopologyRoutes) (now : Nat) (request : SipMessage) :
    TopologyRoutes × Endpoint :=
  match extractTopologyToken request with
  | none => (routes, service.coreEntry)
  | some token =>
      let routes := purgeExpiredTopologyRoutes routes now
      match routes.find token with
      | some entry => (routes, entry.endpoint)
      | none => (routes, service.coreEntry)

/-- The URI of the Record-Route that `addTopologyRecordRoute` puts into a request. -/
def topologyUri (token : Bytes) : Bytes :=
  bytes "sip:" ++ service.proxyPublicAddr ++ bytes ":" ++ decimal service.listenPort.toNat ++
    bytes ";lr;th=" ++ token

def topologyRecordRoute (token : Bytes) : Bytes :=
  bytes "<" ++ service.topologyUri token ++ bytes ">"

variable [OsipParser]

/-- The request as it goes to the transaction layer and where to, or the status that it is answered
with. -/
def forwardStatefulToCore [OsipAccessor] (routes : TopologyRoutes) (now : Nat)
    (request : SipMessage)
    (branch : Bytes) : Except Exception (Except Int (SipMessage × Endpoint)) := do
  let dest := (service.resolveCoreDestination routes now request).2
  match ← service.proxy.prepareStateful request dest {} branch with
  | .ok prepared => return .ok (prepared, dest)
  | .error status => return .error status

/-- The request as it goes to the transport and where to, unless it is dropped. -/
def forwardStatelessToCore [OsipAccessor] (routes : TopologyRoutes) (now : Nat)
    (request : SipMessage)
    (branch : Bytes) : Except Exception (Option (SipMessage × Endpoint)) := do
  if service.proxy.isLoopDetected request then return none
  else
    let request := service.proxy.processRouteHeaders request
    let dest := (service.resolveCoreDestination routes now request).2
    match ← service.proxy.prepareRequestForForward request dest.transport branch with
    | .ok prepared => return some (prepared, dest)
    | .error _ => return none

end PcscfService

/-! ## What the table says -/

/-- The endpoint that is remembered for a token, unless that has expired. -/
def remembered (routes : TopologyRoutes) (now : Nat) (token : Bytes) : Option Endpoint :=
  ((routes.find token).filter fun entry => now < entry.expiresAt).map TopologyRouteEntry.endpoint

namespace PcscfService

variable (service : PcscfService)

/-- The endpoint that is remembered for the token, or the core entry. -/
def destinationFor (routes : TopologyRoutes) (now : Nat) (token : Option Bytes) : Endpoint :=
  (token.bind (remembered routes now)).getD service.coreEntry

theorem resolveCoreDestination_eq (routes : TopologyRoutes) (now : Nat) (request : SipMessage) :
    (service.resolveCoreDestination routes now request).2 =
      service.destinationFor routes now (extractTopologyToken request) := by
  rw [resolveCoreDestination, destinationFor]
  cases extractTopologyToken request with
  | none => rfl
  | some token =>
      rw [Option.bind_some, remembered]
      cases hfind : routes.find token with
      | none =>
          have hpurged : (purgeExpiredTopologyRoutes routes now).find token = none :=
            Table.find_eraseIf_of_eq_none _ hfind
          simp only [hpurged]
          rfl
      | some entry =>
          by_cases hexpired : entry.expiresAt ≤ now
          · have hpurged : (purgeExpiredTopologyRoutes routes now).find token = none := by
              rw [Option.eq_none_iff_forall_ne_some]
              intro other hother
              obtain ⟨hsame, hkept⟩ := Table.find_eraseIf_eq_some_iff.mp hother
              cases hfind.symm.trans hsame
              exact of_decide_eq_false hkept hexpired
            simp only [hpurged]
            rw [Option.filter_some, if_neg]
            · rfl
            · simpa using hexpired
          · have hpurged : (purgeExpiredTopologyRoutes routes now).find token = some entry :=
              Table.find_eraseIf_eq_some_iff.mpr ⟨hfind, decide_eq_false hexpired⟩
            simp only [hpurged]
            rw [Option.filter_some, if_pos]
            · rfl
            · simpa using hexpired

end PcscfService

/-! ## The own Route -/

/-- The first occurrence of a pattern is where its last character comes for the first time. -/
theorem findSub_append_concat {front w : Bytes} {c : UInt8} (hw : c ∉ w) (hfront : c ∉ front)
    (s : Bytes) : findSub (front ++ [c]) (w ++ (front ++ [c] ++ s)) = some w.length := by
  induction w with
  | nil =>
      have hprefix : (front ++ [c]).isPrefixOf (front ++ [c] ++ s) = true :=
        List.isPrefixOf_iff_prefix.mpr ⟨s, rfl⟩
      obtain ⟨d, rest, hcons⟩ := List.exists_cons_of_ne_nil
        (List.append_ne_nil_of_right_ne_nil front (List.cons_ne_nil c []))
      rw [hcons] at hprefix ⊢
      exact if_pos hprefix
  | cons d w ih =>
      have hnot : ¬ (front ++ [c]).isPrefixOf (d :: (w ++ (front ++ [c] ++ s))) = true := by
        intro hprefix
        have hbefore : d :: w ++ front <+: d :: (w ++ (front ++ [c] ++ s)) :=
          ⟨[c] ++ s, by rw [List.cons_append, List.cons_append, List.append_assoc,
            List.append_assoc]⟩
        have hshort : front ++ [c] <+: d :: w ++ front := by
          apply List.prefix_of_prefix_length_le (List.isPrefixOf_iff_prefix.mp hprefix) hbefore
          simp only [List.length_append, List.length_cons, List.length_nil]
          omega
        have hmem := hshort.subset (List.mem_append_right front (List.mem_singleton.mpr rfl))
        exact (List.mem_append.mp hmem).elim hw hfront
      rw [List.mem_cons, not_or] at hw
      rw [List.cons_append, findSub, if_neg hnot, ih hw.2]
      rfl

theorem ne_of_mem_decimal {n : Nat} {c : UInt8} (hc : c ∈ decimal n) :
    c ≠ '='.toUInt8 ∧ c ≠ '>'.toUInt8 := by
  have hrange := isDigit_iff.mp (isDigit_of_mem_decimal hc)
  refine ⟨?_, ?_⟩
  · rintro rfl
    exact absurd hrange.2 (by decide)
  · rintro rfl
    exact absurd hrange.2 (by decide)

/-- A token, which ends before the next parameter or the bracket. -/
structure TopologyToken where
  text : Bytes
  nonempty : text ≠ []
  ends : ∀ c ∈ text, c ≠ ';'.toUInt8 ∧ c ≠ '>'.toUInt8

namespace PcscfService

variable (service : PcscfService)

/-- The own Route up to the parameter with the token. -/
def topologyPrefix : Bytes :=
  bytes "<sip:" ++ service.proxyPublicAddr ++ bytes ":" ++ decimal service.listenPort.toNat ++
    bytes ";lr;"

theorem topologyRecordRoute_eq (token : Bytes) : service.topologyRecordRoute token =
    service.topologyPrefix ++ (bytes "th" ++ ['='.toUInt8] ++ (token ++ bytes ">")) := by
  have hopens : bytes "<sip:" = bytes "<" ++ bytes "sip:" := rfl
  have hcloses : bytes ";lr;th=" = bytes ";lr;" ++ (bytes "th" ++ ['='.toUInt8]) := rfl
  simp only [topologyRecordRoute, topologyUri, topologyPrefix, hopens, hcloses, List.append_assoc]

theorem not_mem_topologyPrefix : '='.toUInt8 ∉ service.topologyPrefix := by
  have hhost : '='.toUInt8 ∉ service.proxyPublicAddr := fun hmem => (service.isHost _ hmem).1 rfl
  have hport : '='.toUInt8 ∉ decimal service.listenPort.toNat :=
    fun hmem => (ne_of_mem_decimal hmem).1 rfl
  simp only [topologyPrefix, List.mem_append, hhost, hport, or_false]
  decide

/-- The token is read off the Route that was made with it: no other parameter has a value. -/
theorem topologyToken_topologyRecordRoute (token : TopologyToken) :
    topologyToken (service.topologyRecordRoute token.text) = some token.text := by
  have hkey : findSub (bytes "th=") (service.topologyRecordRoute token.text) =
      some service.topologyPrefix.length := by
    have hpattern : bytes "th=" = bytes "th" ++ ['='.toUInt8] := rfl
    have hfront : '='.toUInt8 ∉ bytes "th" := by decide
    rw [topologyRecordRoute_eq, hpattern]
    exact findSub_append_concat service.not_mem_topologyPrefix hfront _
  have hend : findFirstOf (service.topologyRecordRoute token.text) (bytes ";>")
      (service.topologyPrefix.length + 3) =
        some (service.topologyPrefix.length + 3 + token.text.length) := by
    have hdrop : (service.topologyRecordRoute token.text).drop (service.topologyPrefix.length + 3) =
        token.text ++ bytes ">" := by
      rw [topologyRecordRoute_eq, ← List.append_assoc]
      apply List.drop_left'
      rw [List.length_append]
      rfl
    have hnone : token.text.findIdx? (· ∈ bytes ";>") = none := by
      rw [List.findIdx?_eq_none_iff]
      intro c hc
      have hends := token.ends c hc
      simpa [bytes] using hends
    have hbracket : (bytes ">").findIdx? (· ∈ bytes ";>") = some 0 := by decide
    rw [findFirstOf, hdrop, List.findIdx?_append, hnone, hbracket, Option.none_or, Option.map_some,
      Option.map_some, Nat.zero_add]
  have hat : At (service.topologyRecordRoute token.text) (service.topologyPrefix.length + 3)
      token.text := by
    refine ⟨service.topologyPrefix ++ (bytes "th" ++ ['='.toUInt8]), bytes ">", ?_, ?_⟩
    · rw [topologyRecordRoute_eq, List.append_assoc, List.append_assoc, List.append_assoc]
    · rw [List.length_append]
      rfl
  rw [topologyToken, hkey]
  simp only [hend, Option.getD_some]
  have hpos := List.length_pos_iff.mpr token.nonempty
  rw [if_neg (by omega), Nat.add_sub_cancel_left, hat.substr_eq]

/-- The parser takes the URI of the own Route apart. -/
def SplitsOwnRoute [OsipParser] (token : Bytes) : Prop :=
  ∃ uri, OsipParser.uriParse (service.topologyUri token) = some uri ∧
    uri.host = some service.proxyPublicAddr ∧ uri.port = some (decimal service.listenPort.toNat) ∧
      uri.transport = none

variable {service}

theorem parseEndpointFromUri_own [OsipParser] {token : TopologyToken}
    (hsplits : service.SplitsOwnRoute token.text) :
    parseEndpointFromUri (service.topologyRecordRoute token.text) =
      some ⟨service.proxyPublicAddr, service.listenPort, bytes "udp"⟩ := by
  obtain ⟨uri, hparse, hhost, hport, htransport⟩ := hsplits
  have hbracket : '>'.toUInt8 ∉ service.topologyUri token.text := by
    have hhost : '>'.toUInt8 ∉ service.proxyPublicAddr := fun hmem => (service.isHost _ hmem).2 rfl
    have hport : '>'.toUInt8 ∉ decimal service.listenPort.toNat :=
      fun hmem => (ne_of_mem_decimal hmem).2 rfl
    have htoken : '>'.toUInt8 ∉ token.text := fun hmem => (token.ends _ hmem).2 rfl
    simp only [topologyUri, List.mem_append, hhost, hport, htoken, or_false]
    decide
  have hextract : extractUriFromNameAddr (service.topologyRecordRoute token.text) =
      service.topologyUri token.text := extractUriFromNameAddr_brackets hbracket
  have hne : ¬(service.topologyUri token.text = [] ∨
      service.topologyUri token.text = bytes "*") := by
    rintro (heq | heq)
    · cases congrArg List.head? heq
    · cases congrArg List.head? heq
  have hstoi : stoi (decimal service.listenPort.toNat) = .ok (service.listenPort.toNat : Int) := by
    have hlt := service.listenPort.toNat_lt
    have hread := stoi_decimalInt (i := service.listenPort.toNat) (by omega) (by omega)
    rwa [decimalInt, if_neg (by omega), Int.natAbs_natCast] at hread
  have hcast : UInt16.ofInt service.listenPort.toNat = service.listenPort := by
    have hlt := service.listenPort.toNat_lt
    rw [UInt16.ofInt, Int.emod_eq_of_lt (by omega) (by omega), Int.toNat_natCast,
      UInt16.ofNat_toNat]
  rw [parseEndpointFromUri, hextract]
  simp only [if_neg hne, hparse, hhost, hport, htransport, hstoi]
  rw [hcast]

theorem processRouteHeaders_of_own [OsipParser] {token : TopologyToken} {request : SipMessage}
    {further : List Bytes} (hsplits : service.SplitsOwnRoute token.text)
    (hroutes : request.routes = service.topologyRecordRoute token.text :: further) :
    service.proxy.processRouteHeaders request = { request with routes := further } := by
  have hpoints : routePointsToEndpoint (service.topologyRecordRoute token.text)
      ⟨service.proxyPublicAddr, service.listenPort, bytes "udp"⟩ = true := by
    rw [routePointsToEndpoint, parseEndpointFromUri_own hsplits]
    simp
  rw [ProxyCore.processRouteHeaders, hroutes]
  simp only [proxy, hpoints, if_true]
  rw [SipMessage.removeTopRoute, hroutes]
  rfl

end PcscfService

/-! ## The two paths -/

namespace PcscfService

variable [OsipParser] (service : PcscfService) (routes : TopologyRoutes) (now : Nat)
variable (request : SipMessage) (branch : Bytes)

/-- Where the request goes on either path, it goes where the table says for this token. -/
structure SameDestination [OsipAccessor] (token : Bytes) : Prop where
  stateful : ∀ sent dest, service.forwardStatefulToCore routes now request branch =
    .ok (.ok (sent, dest)) → dest = service.destinationFor routes now (some token)
  stateless : ∀ sent dest, service.forwardStatelessToCore routes now request branch =
    .ok (some (sent, dest)) → dest = service.destinationFor routes now (some token)

/-- A request that the proxy does not keep back. -/
structure Forwardable [OsipAccessor] : Prop where
  noLoop : service.proxy.isLoopDetected request = false
  hops : ∃ mf, request.maxForwards = .ok mf ∧ mf ≠ 0

variable {service routes now request branch}

/-- The request comes back with the Route that this service has given it, and further ones. -/
structure ReturnsOwnRoute (service : PcscfService) (request : SipMessage) (token : TopologyToken)
    (further : List Bytes) : Prop where
  splits : service.SplitsOwnRoute token.text
  routes : request.routes = service.topologyRecordRoute token.text :: further

variable {token : TopologyToken} {further : List Bytes}

/-- The stateful path looks at the own Route. -/
theorem dest_of_forwardStatefulToCore [OsipAccessor] {sent : SipMessage} {dest : Endpoint}
    (hown : ReturnsOwnRoute service request token further)
    (h : service.forwardStatefulToCore routes now request branch = .ok (.ok (sent, dest))) :
    dest = service.destinationFor routes now (some token.text) := by
  have htoken : extractTopologyToken request = some token.text := by
    rw [extractTopologyToken, hown.routes]
    exact service.topologyToken_topologyRecordRoute token
  obtain ⟨result, -, h⟩ := exists_of_bind_eq_ok h
  cases result with
  | error status => cases h
  | ok prepared =>
      cases h
      rw [resolveCoreDestination_eq, htoken]

/-- The stateless path looks at the Route after it. -/
theorem dest_of_forwardStatelessToCore [OsipAccessor] {sent : SipMessage} {dest : Endpoint}
    (hown : ReturnsOwnRoute service request token further)
    (h : service.forwardStatelessToCore routes now request branch = .ok (some (sent, dest))) :
    service.Forwardable request ∧
      dest = service.destinationFor routes now (further.head?.bind topologyToken) := by
  have htoken : extractTopologyToken { request with routes := further } =
      further.head?.bind topologyToken := by
    cases further with
    | nil => rfl
    | cons next further => rfl
  rw [forwardStatelessToCore, processRouteHeaders_of_own hown.splits hown.routes] at h
  split at h
  · cases h
  · rename_i hloop
    obtain ⟨result, hresult, h⟩ := exists_of_bind_eq_ok h
    cases result with
    | error error => cases h
    | ok prepared =>
        cases h
        obtain ⟨mf, hmf, hne, -⟩ := ProxyCore.maxForwards_of_prepareRequestForForward hresult
        refine ⟨⟨Bool.eq_false_iff.mpr hloop, mf, hmf, hne⟩, ?_⟩
        rw [resolveCoreDestination_eq, htoken]

theorem exists_forwardStatelessToCore [OsipAccessor] (routes : TopologyRoutes) (now : Nat)
    (branch : Bytes) (hforwardable : service.Forwardable request) :
    ∃ sent dest, service.forwardStatelessToCore routes now request branch =
      .ok (some (sent, dest)) := by
  obtain ⟨hloop, mf, hmf, hne⟩ := hforwardable
  have hrouted : (service.proxy.processRouteHeaders request).maxForwards = .ok mf :=
    (SipMessage.maxForwards_congr ProxyCore.maxForwardsField_processRouteHeaders).trans hmf
  let dest := (service.resolveCoreDestination routes now
    (service.proxy.processRouteHeaders request)).2
  obtain ⟨prepared, hprepared⟩ := ProxyCore.exists_prepareRequestForForward service.proxy
    dest.transport branch hrouted hne
  refine ⟨prepared, dest, ?_⟩
  rw [forwardStatelessToCore, hloop]
  exact congrArg (· >>= _) hprepared

theorem exists_forwardStatefulToCore [OsipAccessor] (routes : TopologyRoutes) (now : Nat)
    (branch : Bytes) (hforwardable : service.Forwardable request) :
    ∃ sent dest, service.forwardStatefulToCore routes now request branch =
      .ok (.ok (sent, dest)) := by
  obtain ⟨hloop, mf, hmf, hne⟩ := hforwardable
  have hrouted : (service.proxy.processRouteHeaders request).maxForwards = .ok mf :=
    (SipMessage.maxForwards_congr ProxyCore.maxForwardsField_processRouteHeaders).trans hmf
  let dest := (service.resolveCoreDestination routes now request).2
  obtain ⟨prepared, hprepared⟩ := ProxyCore.exists_prepareRequestForForward service.proxy
    dest.transport branch hrouted hne
  have hstateful : service.proxy.prepareStateful request dest {} branch = .ok (.ok prepared) := by
    rw [ProxyCore.prepareStateful, hloop, Bool.and_false]
    exact congrArg (· >>= _) hprepared
  refine ⟨prepared, dest, ?_⟩
  rw [forwardStatefulToCore]
  exact congrArg (· >>= _) hstateful

/-- Both paths lead where the table says for the token exactly if it says the same for the Route
after the own one, or if the request is not forwarded at all. -/
theorem sameDestination_iff [OsipAccessor] (hown : ReturnsOwnRoute service request token further) :
    service.SameDestination routes now request branch token.text ↔
      ¬ service.Forwardable request ∨
        service.destinationFor routes now (further.head?.bind topologyToken) =
          service.destinationFor routes now (some token.text) := by
  constructor
  · intro h
    by_cases hforwardable : service.Forwardable request
    · right
      obtain ⟨sent, dest, hsent⟩ := exists_forwardStatelessToCore routes now branch hforwardable
      rw [← (dest_of_forwardStatelessToCore hown hsent).2]
      exact h.stateless sent dest hsent
    · exact .inl hforwardable
  · intro h
    refine ⟨fun sent dest => dest_of_forwardStatefulToCore hown, fun sent dest hsent => ?_⟩
    obtain ⟨hforwardable, hdest⟩ := dest_of_forwardStatelessToCore hown hsent
    obtain hnot | hsame := h
    · exact (hnot hforwardable).elim
    · exact hdest.trans hsame

end PcscfService

/-! ## A dialog with the S-CSCF in its route set -/

namespace PcscfService

def edgeService : PcscfService where
  proxyPublicAddr := bytes "10.0.0.1"
  listenPort := 5060
  coreEntryAddr := bytes "10.0.0.2"
  coreEntryPort := 5062
  coreEntryTransport := bytes "udp"
  isHost := by decide +kernel

def savedToken : TopologyToken := ⟨bytes "thsaved", by decide, by decide +kernel⟩

/-- `Route: <sip:10.0.0.1:5060;lr;th=thsaved>, <sip:scscf.ims.local:6060;lr>`. -/
def savedAck : SipMessage :=
  { dialogRequest "ACK" (bytes "a") [⟨bytes "tag", some (bytes "b")⟩] with
    routes := [edgeService.topologyRecordRoute savedToken.text,
      bytes "<sip:scscf.ims.local:6060;lr>"] }

theorem returnsOwnRoute_savedAck :
    @ReturnsOwnRoute addressUris edgeService savedAck savedToken
      [bytes "<sip:scscf.ims.local:6060;lr>"] := by
  refine @ReturnsOwnRoute.mk addressUris _ _ _ _ ?_ rfl
  exact ⟨⟨some (bytes "sip"), none, some (bytes "10.0.0.1"), some (bytes "5060"), none⟩,
    by decide +kernel, by decide +kernel, by decide +kernel, rfl⟩

end PcscfService

end SimIms.PCscf
