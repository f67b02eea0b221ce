import SimIms.SCscf.RegistrarCalls
import SimIms.SCscf.SessionRouter

/-!
# Who looks bindings up

An initial INVITE goes to the first active contact of the binding that is stored under the normal
form of its request URI, a SUBSCRIBE is accepted where there is one.
-/

namespace SimIms.Sip

open Cxx

/-! ## Lists in header fields -/

/-- The loop of `split_header_values`. -/
structure HeaderSplit where
  parts : List Bytes := []
  current : Bytes := []
  inQuotes : Bool := false
  angleDepth : Nat := 0

namespace HeaderSplit

def flush (s : HeaderSplit) : List Bytes :=
  let part := trim s.current
  if part = [] then s.parts else s.parts ++ [part]

def push (s : HeaderSplit) (ch : UInt8) : HeaderSplit :=
  let pushed := { s with current := s.current ++ [ch] }
  if ch = '"'.toUInt8 then { pushed with inQuotes := !s.inQuotes }
  else if s.inQuotes then pushed
  else if ch = '<'.toUInt8 then { pushed with angleDepth := s.angleDepth + 1 }
  else if ch = '>'.toUInt8 ∧ 0 < s.angleDepth then { pushed with angleDepth := s.angleDepth - 1 }
  else if ch = ','.toUInt8 ∧ s.angleDepth = 0 then { s with parts := s.flush, current := [] }
  else pushed

end HeaderSplit

/-- The values of a field between commas that stand neither in quotes nor in angle brackets. -/
def splitHeaderValues (value : Bytes) : List Bytes := (value.foldl HeaderSplit.push {}).flush

namespace SipMessage

/-- `getHeaders("Record-Route")`. -/
def recordRouteHeaders (msg : SipMessage) : List Bytes :=
  msg.recordRoutes.flatMap splitHeaderValues

def addRecordRoute (msg : SipMessage) (recordRoute : Bytes) : SipMessage :=
  { msg with recordRoutes := msg.recordRoutes ++ [recordRoute] }

theorem statusCode_addRecordRoutes (recordRoutes : List Bytes) (msg : SipMessage) :
    (recordRoutes.foldl addRecordRoute msg).statusCode = msg.statusCode := by
  induction recordRoutes generalizing msg with
  | nil => rfl
  | cons recordRoute recordRoutes ih => exact ih (msg.addRecordRoute recordRoute)

end SipMessage
end SimIms.Sip

namespace SimIms.Registration

def RegistrationBinding.activeContacts (binding : RegistrationBinding) (now : Nat) :
    List ContactBinding := binding.contacts.filter (·.live now)

end SimIms.Registration

namespace SimIms.SCscf

open Cxx Lib Sip Registration

/-! ## Callees -/

def isUsableDestination (endpoint : Endpoint) : Bool :=
  endpoint.address ≠ [] ∧ endpoint.address ≠ bytes "0.0.0.0"

namespace SessionRouter

variable [OsipParser]

def lookupCallee (store : MemoryRegistrationStore) (now : Nat) (requestUri : Bytes)
    (follower : Option Bytes) : MemoryRegistrationStore × Result RegistrationBinding :=
  store.lookup now (normalizeImpuUri requestUri) follower

/-- The `Path` of the first active contact, or else its URI. -/
def resolveBindingDestination (binding : RegistrationBinding) (now : Nat) : Result Endpoint :=
  match binding.activeContacts now with
  | [] =>
      .error { code := .registrationExpired, message := bytes "No active contacts for callee" }
  | contact :: _ =>
      let ofPath := if contact.path = [] then none else
        (parseEndpointFromUri contact.path).filter isUsableDestination
      match ofPath.or ((parseEndpointFromUri contact.contactUri).filter isUsableDestination) with
      | some dest => .ok dest
      | none =>
          .error { code := .sipDialogNotFound
                   message := bytes "Failed to derive destination from Path or Contact" }

/-- The target of an initial INVITE in `handleInvite`, or the status that refuses it. -/
def calleeTarget (store : MemoryRegistrationStore) (now : Nat) (peerIcscf : Option Endpoint)
    (requestUri : Bytes) (follower : Option Bytes) : Except Int InviteTarget :=
  match (lookupCallee store now requestUri follower).2 with
  | .error _ =>
      match peerIcscf with
      | none => .error 404
      | some peer => .ok { calleeImpu := normalizeImpuUri requestUri, dest := peer }
  | .ok binding =>
      match resolveBindingDestination binding now with
      | .error _ => .error 480
      | .ok dest => .ok { calleeImpu := binding.impu, dest }

theorem lookupCallee_of_normal {store : MemoryRegistrationStore} {now : Nat}
    {impu uri : Bytes} {follower : Option Bytes}
    (huri : normalizeImpuUri uri = normalizeImpuUri impu) (hnormal : normalizeImpuUri impu = impu) :
    lookupCallee store now uri follower = store.lookup now impu follower := by
  rw [lookupCallee, huri, hnormal]

/-- Where the first active contact is a usable endpoint, there is a target. -/
theorem calleeTarget_of_contact {store : MemoryRegistrationStore} {now : Nat}
    {peerIcscf : Option Endpoint} {uri : Bytes} {binding : RegistrationBinding}
    {contact : ContactBinding} {endpoint : Endpoint} {follower : Option Bytes}
    (hfound : (lookupCallee store now uri follower).2 = .ok binding)
    (hfirst : (binding.activeContacts now).head? = some contact)
    (hparsed : parseEndpointFromUri contact.contactUri = some endpoint)
    (husable : isUsableDestination endpoint = true) :
    ∃ dest, calleeTarget store now peerIcscf uri follower =
      .ok { calleeImpu := binding.impu, dest } := by
  obtain ⟨rest, hcontacts⟩ := List.head?_eq_some_iff.mp hfirst
  have hcontact : (parseEndpointFromUri contact.contactUri).filter isUsableDestination =
      some endpoint := by
    rw [hparsed, Option.filter_some, if_pos husable]
  obtain ⟨dest, hdest⟩ : ∃ dest, resolveBindingDestination binding now = .ok dest := by
    rw [resolveBindingDestination, hcontacts]
    simp only [hcontact]
    cases (if contact.path = [] then none else
        (parseEndpointFromUri contact.path).filter isUsableDestination) with
    | none => exact ⟨endpoint, rfl⟩
    | some dest => exact ⟨dest, rfl⟩
  refine ⟨dest, ?_⟩
  unfold calleeTarget
  rw [hfound]
  simp only [hdest]

end SessionRouter

/-! ## Subscriptions -/

structure InitialRegNotifyContext where
  requestUri : Bytes
  fromHeader : Bytes
  toHeader : Bytes
  callId : Bytes
  cseq : UInt32
  event : Bytes
  subscriptionState : Bytes
  routeSet : List Bytes
  contact : Bytes
  body : Bytes
  contentType : Bytes
deriving DecidableEq, Repr

/-- `sendInitialNotify` of the notifier. -/
def notifications : Interface := ⟨InitialRegNotifyContext, fun _ => Result Unit⟩

structure ScscfService where
  listenAddr : Bytes
  listenPort : UInt16
  domain : Bytes
  exosipListenPort : UInt16
  regEventNotifier : Bool

namespace ScscfService

variable {G : Interface} [Includes environment G] [Includes registrationStore G]
variable [Includes responses G] [Includes notifications G]
variable (service : ScscfService)

/-- The document of the first notification. -/
def reginfo (regAor : Bytes) : Bytes :=
  bytes "<?xml version=\"1.0\"?>\r\n" ++
  bytes "<reginfo xmlns=\"urn:ietf:params:xml:ns:reginfo\" version=\"0\" state=\"full\">\r\n" ++
  bytes "  <registration aor=\"" ++ regAor ++ bytes "\" id=\"1\" state=\"active\">\r\n" ++
  bytes "    <contact id=\"1\" state=\"active\" event=\"registered\" />\r\n" ++
  bytes "  </registration>\r\n" ++
  bytes "</reginfo>\r\n"

def sendInitialNotify (subscribe : SipMessage) (toTag : Bytes) : Registrar.Handler G :=
  match subscribe.contact with
  | none => return ()
  | some contact => do
      let toText := subscribe.toHeader
      let untagged := findSub (bytes ";tag=") toText = none ∧ toTag ≠ []
      let cseq ← Program.ofExcept subscribe.cseq
      if service.regEventNotifier then
        let _ ← Program.perform (F := notifications)
          { requestUri := extractUriFromNameAddr contact
            fromHeader := if untagged then toText ++ bytes ";tag=" ++ toTag else toText
            toHeader := subscribe.fromHeader
            callId := subscribe.callId
            cseq := cseq + 1
            event := (subscribe.getHeader (bytes "Event")).getD (bytes "reg")
            subscriptionState := bytes "active;expires=" ++
              (subscribe.getHeader (bytes "Expires")).getD (bytes "3600")
            routeSet := subscribe.recordRouteHeaders.reverse
            contact := bytes "<sip:" ++ service.domain ++ bytes ":" ++
              decimal service.exosipListenPort.toNat ++ bytes ">"
            body := reginfo (extractUriFromNameAddr toText)
            contentType := bytes "application/reginfo+xml" }

variable [OsipParser]

def onSubscribe (request : SipMessage) (txn : Nat) : Registrar.Handler G := do
  if request.getHeader (bytes "Event") ≠ some (bytes "reg") then
    Registrar.respond request txn 489 "Bad Event"
  else
    match ← Registrar.lookup (normalizeImpuUri request.requestUri) with
    | .error _ => Registrar.respond request txn 404 "Not Found"
    | .ok _ =>
        let tag ← generateTag
        let resp := createResponse request 200 (bytes "OK") tag
        let resp := resp.addHeader (bytes "Expires")
          ((request.getHeader (bytes "Expires")).getD (bytes "3600"))
        let uri := bytes "sip:" ++ service.listenAddr ++ bytes ":" ++
          decimal service.listenPort.toNat
        let resp := resp.setContact ⟨some uri, [], bytes "<" ++ uri ++ bytes ">"⟩
        let resp := request.recordRouteHeaders.foldl SipMessage.addRecordRoute resp
        Registrar.sendResponse txn resp
        service.sendInitialNotify request resp.toTag

end ScscfService

inductive SubscribeOp where
  | store (op : StoreOp)
  | environment (op : EnvironmentOp)
  | respond (response : Nat × SipMessage)
  | notify (context : InitialRegNotifyContext)

abbrev SubscribeOp.Answer : SubscribeOp → Type
  | .store op => StoreAnswer op
  | .environment op => EnvironmentAnswer op
  | .respond _ => Unit
  | .notify _ => Result Unit

def subscribeOps : Interface := ⟨SubscribeOp, SubscribeOp.Answer⟩

instance : Includes registrationStore subscribeOps := ⟨.store, fun _ answer => answer⟩
instance : Includes environment subscribeOps := ⟨.environment, fun _ answer => answer⟩
instance : Includes responses subscribeOps := ⟨.respond, fun _ answer => answer⟩
instance : Includes notifications subscribeOps := ⟨.notify, fun _ answer => answer⟩

/-- What the surroundings answer, and the notifier. -/
structure SubscribeEnvironment where
  surroundings : Surroundings := {}
  notified : Result Unit := .ok ()

/-- The events are the responses, each with its transaction. -/
def RegistrarState.serveSubscribe (s : RegistrarState) : (op : SubscribeOp) →
    SubscribeEnvironment → Option (RegistrarState × op.Answer × List (Nat × SipMessage))
  | .store op, environment =>
      let result := serveStore s.store s.now environment.surroundings.follower op
      some ({ s with store := result.1 }, result.2, [])
  | .environment op, environment => some (s, environment.surroundings.answer s.now op, [])
  | .respond response, _ => some (s, (), [response])
  | .notify _, environment => some (s, environment.notified, [])

namespace ScscfService

variable {service : ScscfService} {s : RegistrarState} {request : SipMessage} {txn : Nat}
variable {environment : SubscribeEnvironment}

/-- The first notification sends no response. -/
theorem sendInitialNotify_alone (toTag : Bytes) : ∃ t result,
    (service.sendInitialNotify (G := subscribeOps) request toTag).alone
      RegistrarState.serveSubscribe environment s = some (t, result, []) := by
  rw [sendInitialNotify]
  cases request.contact with
  | none => exact ⟨s, .ok (), rfl⟩
  | some contact =>
      cases request.cseq with
      | error error => exact ⟨s, .error error, rfl⟩
      | ok cseq =>
          cases service.regEventNotifier with
          | false => exact ⟨s, .ok (), rfl⟩
          | true => exact ⟨s, .ok (), rfl⟩

/-- The status of the answer to a subscription, by what has been looked up. -/
def subscribeStatus : Result RegistrationBinding → Int
  | .ok _ => 200
  | .error _ => 404

/-- A subscription to the registration is accepted where there is a binding. -/
theorem onSubscribe_alone [OsipParser]
    (hevent : request.getHeader (bytes "Event") = some (bytes "reg")) :
    ∃ t result response, (service.onSubscribe (G := subscribeOps) request txn).alone
        RegistrarState.serveSubscribe environment s = some (t, result, [(txn, response)]) ∧
      response.statusCode =
        subscribeStatus (s.store.lookup s.now (normalizeImpuUri request.requestUri)
          environment.surroundings.follower).2 := by
  rw [onSubscribe, if_neg (not_not.mpr hevent)]
  let looked := s.store.lookup s.now (normalizeImpuUri request.requestUri)
    environment.surroundings.follower
  let u : RegistrarState := { s with store := looked.1 }
  have hlookup : (Registrar.lookup (G := subscribeOps)
      (normalizeImpuUri request.requestUri)).alone RegistrarState.serveSubscribe environment s =
        some (u, .ok looked.2, []) := rfl
  cases hlooked : (s.store.lookup s.now (normalizeImpuUri request.requestUri)
      environment.surroundings.follower).2 with
  | error error =>
      refine ⟨u, .ok (), createResponse request 404 (bytes "Not Found")
        environment.surroundings.tag, ?_, statusCode_createResponse _ _ _ _⟩
      rw [← List.nil_append [(txn, _)]]
      apply Program.alone_bind hlookup
      rw [show looked.2 = .error error from hlooked]
      rfl
  | ok binding =>
      let uri := bytes "sip:" ++ service.listenAddr ++ bytes ":" ++
        decimal service.listenPort.toNat
      let accepted := ((createResponse request 200 (bytes "OK")
        environment.surroundings.tag).addHeader (bytes "Expires")
          ((request.getHeader (bytes "Expires")).getD (bytes "3600"))).setContact
            ⟨some uri, [], bytes "<" ++ uri ++ bytes ">"⟩
      let resp := request.recordRouteHeaders.foldl SipMessage.addRecordRoute accepted
      obtain ⟨t, result, hnotify⟩ :
          ∃ t result, (service.sendInitialNotify (G := subscribeOps) request resp.toTag).alone
            RegistrarState.serveSubscribe environment u = some (t, result, []) :=
        sendInitialNotify_alone resp.toTag
      have hstatus : resp.statusCode = 200 := by
        rw [SipMessage.statusCode_addRecordRoutes]
        exact statusCode_createResponse _ _ _ _
      refine ⟨t, result, resp, ?_, hstatus⟩
      rw [← List.nil_append [(txn, resp)]]
      apply Program.alone_bind hlookup
      rw [show looked.2 = .ok binding from hlooked]
      change Option.map _ (Option.map _ ((service.sendInitialNotify (G := subscribeOps) request
        resp.toTag).alone RegistrarState.serveSubscribe environment u)) = _
      rw [hnotify]
      rfl

end ScscfService
end SimIms.SCscf
