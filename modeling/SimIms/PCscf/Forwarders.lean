import SimIms.Lib.Threads
import SimIms.PCscf.TopologyRoutes
import SimIms.PCscf.WrittenPorts
import SimIms.SCscf.CalleeLookup
import SimIms.Sip.Forwarding

/-!
# How the P-CSCF forwards requests

A request from the core goes to a UE, with a new topology token for the way back; every other one
goes to the core. The handlers run on any thread, and the table of the tokens is locked for each
look and each entry alone. What the handlers do for the media is left out.

What is entered for a token is where the core is reached, as the table says at this time. Hence the
table never says anything else than the configuration does.
-/

namespace SimIms.Sip

open Cxx

namespace ProxyCore

variable (proxy : ProxyCore)

/-- The URI by which the proxy puts itself on the way of later requests. -/
def ownUri : Bytes :=
  bytes "sip:" ++ proxy.localAddress ++ bytes ":" ++ decimal proxy.localPort.toNat ++ bytes ";lr"

/-- The proxy has an address that others can use. -/
def HasAddress : Prop := proxy.localAddress ≠ [] ∧ proxy.localAddress ≠ bytes "0.0.0.0"

instance : Decidable proxy.HasAddress := inferInstanceAs (Decidable (_ ∧ _))

def buildPathHeader : Bytes :=
  if proxy.HasAddress then bytes "<" ++ proxy.ownUri ++ bytes ">" else []

def addPathHeader (msg : SipMessage) : SipMessage :=
  if proxy.buildPathHeader = [] then msg else msg.addHeader (bytes "Path") proxy.buildPathHeader

def addRecordRoute (msg : SipMessage) : SipMessage :=
  if proxy.HasAddress then msg.addRecordRoute (bytes "<" ++ proxy.ownUri ++ bytes ">") else msg

end ProxyCore
end SimIms.Sip

namespace SimIms.PCscf

open Cxx Lib Sip

/-! ## The service and its addresses -/

def resolveProxyAdvertisedAddress (advertisedAddr listenAddr : Bytes) : Bytes :=
  if advertisedAddr ≠ [] then advertisedAddr
  else if listenAddr ≠ [] ∧ listenAddr ≠ bytes "0.0.0.0" then listenAddr
  else bytes "127.0.0.1"

/-- An address comes out that can be used, unless the one for any interface is configured. -/
theorem resolveProxyAdvertisedAddress_usable {advertisedAddr : Bytes}
    (h : advertisedAddr ≠ bytes "0.0.0.0") (listenAddr : Bytes) :
    resolveProxyAdvertisedAddress advertisedAddr listenAddr ≠ [] ∧
      resolveProxyAdvertisedAddress advertisedAddr listenAddr ≠ bytes "0.0.0.0" := by
  rw [resolveProxyAdvertisedAddress]
  split
  · exact ⟨‹_›, h⟩
  · split
    · exact ‹_›
    · decide

/-- The service with what it has been configured with. -/
structure PcscfNode extends PcscfService where
  advertisedAddr : Bytes
  listenAddr : Bytes
  corePeers : List Endpoint
  resolved : proxyPublicAddr = resolveProxyAdvertisedAddress advertisedAddr listenAddr

namespace PcscfNode

variable (node : PcscfNode)

/-- The source is the endpoint that is configured for the core. A service that listens everywhere
takes its own host for any address of the core that stands for everything, too. -/
def endpointMatches (source target : Endpoint) : Bool :=
  let transportOf (endpoint : Endpoint) : Bytes :=
    lowercase (if endpoint.transport = [] then bytes "udp" else endpoint.transport)
  let addr := lowercase source.address
  let targetAddr := lowercase target.address
  let listenAddr := lowercase node.listenAddr
  let anywhere (addr : Bytes) : Bool := addr == bytes "0.0.0.0" || addr == bytes "::"
  (addr == targetAddr || addr == lowercase node.proxyPublicAddr ||
      (!listenAddr.isEmpty && !anywhere listenAddr && addr == listenAddr) ||
      ((anywhere targetAddr || anywhere listenAddr) &&
        (addr == bytes "127.0.0.1" || addr == bytes "::1"))) &&
    source.port == target.port && transportOf source == transportOf target

/-- The request comes from the core, by its source. -/
def isCoreFacingRequest (source : Endpoint) : Bool :=
  if node.corePeers = [] then
    node.endpointMatches source ⟨node.coreEntryAddr, node.coreEntryPort, node.coreEntryTransport⟩
  else node.corePeers.any (node.endpointMatches source)

end PcscfNode

def addTopologyRecordRoute (service : PcscfService) (request : SipMessage) (token : Bytes) :
    SipMessage :=
  { request with recordRoutes := [service.topologyRecordRoute token] }

/-- `kTopologyRouteTtl`, 30 minutes. -/
def kTopologyRouteTtl : Nat := 1800000

def rememberTopologyRoute (routes : TopologyRoutes) (now : Nat) (token : Bytes)
    (endpoint : Endpoint) : TopologyRoutes :=
  (purgeExpiredTopologyRoutes routes now).insert token ⟨endpoint, now + kTopologyRouteTtl⟩

/-! ## Operations -/

inductive Direction where
  | core
  | ue
deriving DecidableEq, Repr

/-- `sendRequest` is that of the stack, which makes a client transaction, `send` that of the
transport. -/
inductive ForwardOp where
  | resolveCoreDestination (request : SipMessage)
  | createTopologyToken
  | rememberTopologyRoute (token : Bytes) (endpoint : Endpoint)
  | generateBranch
  | sendRequest (direction : Direction) (request : SipMessage) (dest : Endpoint)
  | send (direction : Direction) (request : SipMessage) (dest : Endpoint)
  | respond (request : SipMessage) (statusCode : Int)

abbrev ForwardAnswer : ForwardOp → Type
  | .resolveCoreDestination _ => Endpoint
  | .createTopologyToken => Bytes
  | .rememberTopologyRoute _ _ => Unit
  | .generateBranch => Bytes
  | .sendRequest _ _ _ => Bool
  | .send _ _ _ => Unit
  | .respond _ _ => Unit

def forwardOps : Interface := ⟨ForwardOp, ForwardAnswer⟩

/-! ## Handlers -/

namespace PcscfNode

abbrev Method := Program forwardOps Exception Unit

def perform (op : ForwardOp) : Program forwardOps Exception (ForwardAnswer op) :=
  Program.perform (F := forwardOps) op

variable [OsipParser] (node : PcscfNode)

/-- `ProxyCore::forwardStateful` on the stack of the service. -/
def forwardStateful [OsipAccessor] (direction : Direction) (request : SipMessage) (dest : Endpoint)
    (options : ForwardOptions) : Method := do
  let branch ← perform .generateBranch
  match ← Program.ofExcept (node.proxy.prepareStateful request dest options branch) with
  | .error statusCode => perform (.respond request statusCode)
  | .ok prepared =>
      if ← perform (.sendRequest direction prepared dest) then return ()
      else perform (.respond request 500)

def forwardRequest (direction : Direction) (request : SipMessage) (dest : Endpoint) : Method := do
  let branch ← perform .generateBranch
  match ← Program.ofExcept (node.proxy.prepareRequestForForward request dest.transport branch) with
  | .error _ => return ()
  | .ok prepared => perform (.send direction prepared dest)

/-- The Record-Route is not looked at before the request goes out, so it may be put in at once. -/
def forwardStatefulToCore [OsipAccessor] (request : SipMessage) (addRecordRoute : Bool) :
    Method := do
  let dest ← perform (.resolveCoreDestination request)
  node.forwardStateful .core
    (if addRecordRoute then node.proxy.addRecordRoute request else request) dest {}

/-- A new token, which says where the core is reached. -/
def drawTopologyToken (request : SipMessage) : Program forwardOps Exception Bytes := do
  let token ← perform .createTopologyToken
  let dest ← perform (.resolveCoreDestination request)
  perform (.rememberTopologyRoute token dest)
  return token

def forwardStatefulToUe [OsipAccessor] (request : SipMessage) (addRecordRoute : Bool) : Method :=
  match resolveUeDestination request with
  | none => perform (.respond request 500)
  | some ue => do
      let token ← drawTopologyToken request
      let routed : SipMessage := { request with routes := [] }
      node.forwardStateful .ue
        (if addRecordRoute then addTopologyRecordRoute node.toPcscfService routed token else routed)
        ue { processRouteHeaders := false, detectLoop := false }

def forwardStatelessToCore [OsipAccessor] (request : SipMessage) (addRecordRoute : Bool) : Method :=
  if node.proxy.isLoopDetected request then return ()
  else do
    let routed := node.proxy.processRouteHeaders request
    let routed := if addRecordRoute then node.proxy.addRecordRoute routed else routed
    let dest ← perform (.resolveCoreDestination routed)
    node.forwardRequest .core routed dest

def forwardStatelessToUe [OsipAccessor] (request : SipMessage) (addRecordRoute : Bool) : Method :=
  match resolveUeDestination request with
  | none => return ()
  | some ue => do
      let token ← drawTopologyToken request
      let sanitized := sanitizeForUeEgress request
      node.forwardRequest .ue
        (if addRecordRoute then addTopologyRecordRoute node.toPcscfService sanitized token
          else sanitized)
        ue

def onRegister [OsipAccessor] (request : SipMessage) : Method :=
  node.forwardStatefulToCore (node.proxy.addPathHeader request) false

/-- A handler that adds a Record-Route on the way to the core where it is told to, and on the way to
a UE always. -/
def onStateful [OsipAccessor] (request : SipMessage) (source : Endpoint) (addRecordRoute : Bool) :
    Method :=
  if node.isCoreFacingRequest source then node.forwardStatefulToUe request true
  else node.forwardStatefulToCore request addRecordRoute

def onInvite [OsipAccessor] (request : SipMessage) (source : Endpoint) : Method :=
  node.onStateful request source true

def onBye [OsipAccessor] (request : SipMessage) (source : Endpoint) : Method :=
  node.onStateful request source false

def onCancel [OsipAccessor] (request : SipMessage) (source : Endpoint) : Method :=
  node.onStateful request source false

def onPrack [OsipAccessor] (request : SipMessage) (source : Endpoint) : Method :=
  node.onStateful request source false

def onSubscribe [OsipAccessor] (request : SipMessage) (source : Endpoint) : Method :=
  node.onStateful request source true

def onAck [OsipAccessor] (request : SipMessage) (source : Endpoint) : Method :=
  if node.isCoreFacingRequest source then node.forwardStatelessToUe request true
  else node.forwardStatelessToCore request false

/-- The handler of the method, which `start` registers. The stack refuses the others. -/
def onRequest [OsipAccessor] (request : SipMessage) (source : Endpoint) : Method :=
  if request.method = bytes "REGISTER" then node.onRegister request
  else if request.method = bytes "INVITE" then node.onInvite request source
  else if request.method = bytes "BYE" then node.onBye request source
  else if request.method = bytes "ACK" then node.onAck request source
  else if request.method = bytes "CANCEL" then node.onCancel request source
  else if request.method = bytes "PRACK" then node.onPrack request source
  else if request.method = bytes "SUBSCRIBE" then node.onSubscribe request source
  else perform (.respond request 405)

end PcscfNode

/-! ## What the operations do -/

structure ForwardState where
  routes : TopologyRoutes
  now : Nat

/-- What is drawn, and whether the stack takes a request. -/
structure ForwardEnvironment where
  token : Bytes := []
  branch : Bytes := []
  accepted : Bool := true

inductive ForwardEvent where
  | sent (direction : Direction) (request : SipMessage) (dest : Endpoint)
  | responded (request : SipMessage) (statusCode : Int)
deriving DecidableEq, Repr

inductive ForwardBackground where
  | elapse (milliseconds : Nat)

namespace ForwardState

def init : ForwardState := ⟨.empty, 0⟩

def serve (service : PcscfService) (s : ForwardState) : (op : ForwardOp) → ForwardEnvironment →
    Option (ForwardState × ForwardAnswer op × List ForwardEvent)
  | .resolveCoreDestination request, _ =>
      let result := service.resolveCoreDestination s.routes s.now request
      some ({ s with routes := result.1 }, result.2, [])
  | .createTopologyToken, environment => some (s, environment.token, [])
  | .rememberTopologyRoute token endpoint, _ =>
      some ({ s with routes := PCscf.rememberTopologyRoute s.routes s.now token endpoint }, (), [])
  | .generateBranch, environment => some (s, environment.branch, [])
  | .sendRequest direction request dest, environment =>
      some (s, environment.accepted,
        if environment.accepted then [.sent direction request dest] else [])
  | .send direction request dest, _ => some (s, (), [.sent direction request dest])
  | .respond request statusCode, _ => some (s, (), [.responded request statusCode])

def background (s : ForwardState) : ForwardBackground → ForwardState
  | .elapse milliseconds => { s with now := s.now + milliseconds }

end ForwardState

variable [OsipParser]

/-- The requests that the service receives are on their way at the same time. -/
def forwardService [OsipAccessor] (node : PcscfNode) :
    Service ForwardState forwardOps Exception Unit Unit
    ForwardEnvironment (SipMessage × Endpoint) ForwardBackground ForwardEvent where
  serve := ForwardState.serve node.toPcscfService
  begin received := node.onRequest received.1 received.2
  background s event := some (s.background event)
  fresh _ := ()
  track _ _ _ := ()

abbrev ForwardThreads := Threads ForwardState forwardOps Exception Unit Unit

abbrev ForwardAction := ThreadAction ForwardEnvironment (SipMessage × Endpoint) ForwardBackground

/-! ## What a handler may do -/

/-- What is sent to the core goes to its entry, and so does what is entered for a token. -/
def ForwardOp.Allowed (service : PcscfService) : ForwardOp → Prop
  | .rememberTopologyRoute _ endpoint => endpoint = service.coreEntry
  | .sendRequest .core _ dest => dest = service.coreEntry
  | .send .core _ dest => dest = service.coreEntry
  | _ => True

/-- The table leads to the entry of the core. -/
def ForwardOp.Expected (service : PcscfService) : (op : ForwardOp) → ForwardAnswer op → Prop
  | .resolveCoreDestination _, dest => dest = service.coreEntry
  | _, _ => True

def entryContract (service : PcscfService) : Contract forwardOps Unit where
  Allows _ op := op.Allowed service
  Expects op answer := op.Expected service answer
  Throws _ := True
  track _ _ _ := ()

namespace PcscfNode

variable {node : PcscfNode} {request : SipMessage} {direction : Direction} {dest : Endpoint}

/-- Nothing is asked of how a handler ends. -/
abbrev Enters {α : Type} (node : PcscfNode) (program : Program forwardOps Exception α) : Prop :=
  program.Meets (entryContract node.toPcscfService) () fun _ _ => True

omit [OsipParser] in
/-- A handler that goes on where nothing is thrown. -/
theorem ofExcept_enters {α β : Type} {result : Except Exception α}
    {rest : α → Program forwardOps Exception β} (h : ∀ a, Enters node (rest a)) :
    Enters node (Program.ofExcept result >>= rest) := by
  cases result with
  | error e => exact trivial
  | ok a => exact h a

theorem forwardStateful_enters [OsipAccessor] {options : ForwardOptions}
    (hdest : direction = .core → dest = node.coreEntry) :
    Enters node (node.forwardStateful direction request dest options) := by
  refine ⟨trivial, fun branch _ => ?_⟩
  apply ofExcept_enters
  intro result
  cases result with
  | error statusCode => exact ⟨trivial, fun _ _ => trivial⟩
  | ok prepared =>
      constructor
      · cases direction with
        | core => exact hdest rfl
        | ue => trivial
      · intro accepted _
        cases accepted with
        | true => trivial
        | false => exact ⟨trivial, fun _ _ => trivial⟩

omit [OsipParser] in
theorem forwardRequest_enters (hdest : direction = .core → dest = node.coreEntry) :
    Enters node (node.forwardRequest direction request dest) := by
  refine ⟨trivial, fun branch _ => ?_⟩
  apply ofExcept_enters
  intro result
  cases result with
  | error error => trivial
  | ok prepared =>
      constructor
      · cases direction with
        | core => exact hdest rfl
        | ue => trivial
      · exact fun _ _ => trivial

omit [OsipParser] in
theorem drawTopologyToken_enters : Enters node (drawTopologyToken request) :=
  ⟨trivial, fun _ _ => ⟨trivial, fun _ hdest => ⟨hdest, fun _ _ => trivial⟩⟩⟩

theorem forwardStatefulToCore_enters [OsipAccessor] {addRecordRoute : Bool} :
    Enters node (node.forwardStatefulToCore request addRecordRoute) :=
  ⟨trivial, fun _ hdest => forwardStateful_enters fun _ => hdest⟩

theorem forwardStatefulToUe_enters [OsipAccessor] {addRecordRoute : Bool} :
    Enters node (node.forwardStatefulToUe request addRecordRoute) := by
  rw [forwardStatefulToUe]
  split
  · exact ⟨trivial, fun _ _ => trivial⟩
  · apply drawTopologyToken_enters.bind
    intro _ token _
    exact forwardStateful_enters fun h => by cases h

theorem forwardStatelessToCore_enters [OsipAccessor] {addRecordRoute : Bool} :
    Enters node (node.forwardStatelessToCore request addRecordRoute) := by
  rw [forwardStatelessToCore]
  split
  · trivial
  · exact ⟨trivial, fun _ hdest => forwardRequest_enters fun _ => hdest⟩

theorem forwardStatelessToUe_enters [OsipAccessor] {addRecordRoute : Bool} :
    Enters node (node.forwardStatelessToUe request addRecordRoute) := by
  rw [forwardStatelessToUe]
  split
  · trivial
  · apply drawTopologyToken_enters.bind
    intro _ token _
    exact forwardRequest_enters fun h => by cases h

theorem onStateful_enters [OsipAccessor] {source : Endpoint} {addRecordRoute : Bool} :
    Enters node (node.onStateful request source addRecordRoute) := by
  rw [onStateful]
  split
  · exact forwardStatefulToUe_enters
  · exact forwardStatefulToCore_enters

theorem onAck_enters [OsipAccessor] {source : Endpoint} :
    Enters node (node.onAck request source) := by
  rw [onAck]
  split
  · exact forwardStatelessToUe_enters
  · exact forwardStatelessToCore_enters

theorem onRequest_enters [OsipAccessor] {source : Endpoint} :
    Enters node (node.onRequest request source) := by
  rw [onRequest]
  split_ifs
  · exact forwardStatefulToCore_enters
  · exact onStateful_enters
  · exact onStateful_enters
  · exact onAck_enters
  · exact onStateful_enters
  · exact onStateful_enters
  · exact onStateful_enters
  · exact ⟨trivial, fun _ _ => trivial⟩

end PcscfNode

/-! ## What the table says -/

/-- Every token leads to the entry of the core. -/
def LeadsToEntry (service : PcscfService) (routes : TopologyRoutes) : Prop :=
  ∀ token entry, routes.find token = some entry → entry.endpoint = service.coreEntry

section

variable {service : PcscfService} {routes : TopologyRoutes} {now : Nat}

omit [OsipParser] in
theorem LeadsToEntry.purge (h : LeadsToEntry service routes) (now : Nat) :
    LeadsToEntry service (purgeExpiredTopologyRoutes routes now) :=
  fun token entry hfind => h token entry (Table.find_eraseIf_eq_some_iff.mp hfind).1

omit [OsipParser] in
theorem LeadsToEntry.remember (h : LeadsToEntry service routes) (now : Nat) (token : Bytes) :
    LeadsToEntry service (rememberTopologyRoute routes now token service.coreEntry) := by
  intro other entry hfind
  rw [rememberTopologyRoute, Table.find_insert] at hfind
  split at hfind
  · cases hfind
    rfl
  · exact h.purge now other entry hfind

omit [OsipParser] in
theorem LeadsToEntry.destinationFor_eq (h : LeadsToEntry service routes) (now : Nat)
    (token : Option Bytes) : service.destinationFor routes now token = service.coreEntry := by
  rw [PcscfService.destinationFor]
  cases token with
  | none => rfl
  | some token =>
      rw [Option.bind_some, remembered]
      cases hfind : routes.find token with
      | none => rfl
      | some entry =>
          rw [Option.filter_some]
          split
          · exact h token entry hfind
          · rfl

omit [OsipParser] in
theorem LeadsToEntry.resolve (h : LeadsToEntry service routes) (now : Nat) (request : SipMessage) :
    LeadsToEntry service (service.resolveCoreDestination routes now request).1 ∧
      (service.resolveCoreDestination routes now request).2 = service.coreEntry := by
  constructor
  · rw [PcscfService.resolveCoreDestination]
    split
    · exact h
    · dsimp only
      split
      · exact h.purge now
      · exact h.purge now
  · rw [PcscfService.resolveCoreDestination_eq]
    exact h.destinationFor_eq now _

end

structure EntersCore (service : PcscfService) (s : ForwardState) (log : List (Nat × ForwardEvent)) :
    Prop where
  routes : LeadsToEntry service s.routes
  sent : ∀ tid request dest, (tid, .sent .core request dest) ∈ log → dest = service.coreEntry

def entryDiscipline (service : PcscfService) :
    Discipline ForwardState forwardOps Unit Unit ForwardEvent where
  contract := entryContract service
  assumes _ _ := True
  shared := EntersCore service
  linked _ _ _ _ := True
  result _ _ := True

omit [OsipParser] in
/-- An event that is none, or that says where a request goes that is allowed to. -/
theorem EntersCore.serve {service : PcscfService} {s t : ForwardState} {tid : Nat}
    {log : List (Nat × ForwardEvent)} {op : ForwardOp} {environment : ForwardEnvironment}
    {answer : ForwardAnswer op} {out : List ForwardEvent} (h : EntersCore service s log)
    (hallowed : op.Allowed service)
    (hserve : s.serve service op environment = some (t, answer, out)) :
    EntersCore service t (log ++ out.map (tid, ·)) ∧ op.Expected service answer := by
  have hquiet : ∀ routes, LeadsToEntry service routes →
      EntersCore service { s with routes } (log ++ ([] : List ForwardEvent).map (tid, ·)) := by
    intro routes hroutes
    rw [List.map_nil, List.append_nil]
    exact ⟨hroutes, h.sent⟩
  have hone : ∀ event, (∀ request dest, event = .sent .core request dest →
      dest = service.coreEntry) → EntersCore service s (log ++ [event].map (tid, ·)) := by
    intro event hevent
    refine ⟨h.routes, fun other request dest hmem => ?_⟩
    obtain hmem | hmem := List.mem_append.mp hmem
    · exact h.sent other request dest hmem
    · cases List.mem_singleton.mp hmem
      exact hevent request dest rfl
  cases op with
  | resolveCoreDestination request =>
      cases hserve
      obtain ⟨hroutes, hdest⟩ := h.routes.resolve s.now request
      exact ⟨hquiet _ hroutes, hdest⟩
  | createTopologyToken | generateBranch =>
      cases hserve
      exact ⟨hquiet _ h.routes, trivial⟩
  | rememberTopologyRoute token endpoint =>
      cases hserve
      cases hallowed
      exact ⟨hquiet _ (h.routes.remember s.now token), trivial⟩
  | sendRequest direction request dest =>
      cases hserve
      refine ⟨?_, trivial⟩
      split
      · apply hone
        intro request' dest' heq
        cases heq
        exact hallowed
      · exact hquiet _ h.routes
  | send direction request dest =>
      cases hserve
      refine ⟨hone _ fun request' dest' heq => ?_, trivial⟩
      cases heq
      exact hallowed
  | respond request statusCode =>
      cases hserve
      exact ⟨hone _ fun request' dest' heq => (by cases heq), trivial⟩

theorem entryDiscipline_sound [OsipAccessor] (node : PcscfNode) :
    (entryDiscipline node.toPcscfService).Sound (forwardService node) where
  track _ _ _ := rfl
  begins _ := PcscfNode.onRequest_enters
  fresh _ _ _ _ _ _ := trivial
  serves s log tid _ op environment t answer out hshared _ hallows hserve _ := by
    obtain ⟨hnext, hanswer⟩ := hshared.serve hallows hserve
    exact ⟨hnext, hanswer, trivial, fun _ _ _ _ => trivial⟩
  background s log event t hshared hstep := by
    cases hstep
    cases event with
    | elapse milliseconds => exact ⟨⟨hshared.routes, hshared.sent⟩, fun _ _ _ => trivial⟩

/-- In every run the table leads to the entry of the core. -/
theorem entersCore_of_exec [OsipAccessor] {node : PcscfNode} {actions : List ForwardAction}
    {s : ForwardThreads} {log : List (Nat × ForwardEvent)}
    (hrun : (threadsMachine (forwardService node)).exec (.init .init) actions = some (s, log)) :
    EntersCore node.toPcscfService s.shared log := by
  have hinit : EntersCore node.toPcscfService .init [] :=
    ⟨fun _ _ hfind => (by cases hfind), fun _ _ _ hmem => (List.not_mem_nil hmem).elim⟩
  have hinv : s.Inv (entryDiscipline node.toPcscfService) log :=
    (entryDiscipline_sound node).exec_of_forall (fun _ _ => trivial) hinit hrun
  exact hinv.shared

/-- Whatever Routes and tokens the requests carry: what is sent to the core goes to the entry that
is configured, and both paths lead there. -/
theorem requests_enter_core [OsipAccessor] (node : PcscfNode) {actions : List ForwardAction}
    {s : ForwardThreads} {log : List (Nat × ForwardEvent)}
    (hrun : (threadsMachine (forwardService node)).exec (.init .init) actions = some (s, log)) :
    (∀ tid request dest, (tid, .sent .core request dest) ∈ log → dest = node.coreEntry) ∧
      (∀ token entry, s.shared.routes.find token = some entry → entry.endpoint = node.coreEntry) ∧
      ∀ request branch token,
        node.SameDestination s.shared.routes s.shared.now request branch token := by
  obtain ⟨hleads, hsent⟩ := entersCore_of_exec hrun
  refine ⟨hsent, hleads, fun request branch token => ⟨?_, ?_⟩⟩
  · intro sent dest hsent
    obtain ⟨result, -, hsent⟩ := exists_of_bind_eq_ok hsent
    cases result with
    | error status => cases hsent
    | ok prepared =>
        cases hsent
        rw [PcscfService.resolveCoreDestination_eq, hleads.destinationFor_eq,
          hleads.destinationFor_eq]
  · intro sent dest hsent
    rw [PcscfService.forwardStatelessToCore] at hsent
    split at hsent
    · cases hsent
    · obtain ⟨result, -, hsent⟩ := exists_of_bind_eq_ok hsent
      cases result with
      | error error => cases hsent
      | ok prepared =>
          cases hsent
          rw [PcscfService.resolveCoreDestination_eq, hleads.destinationFor_eq,
            hleads.destinationFor_eq]

/-- In every run, a request that comes back with the own Route and further ones is led to one
destination by both paths, the one that the table says for its token, and goes there on both if the
proxy does not keep it back. -/
theorem both_paths_lead_to_token [OsipAccessor] (node : PcscfNode) {actions : List ForwardAction}
    {s : ForwardThreads} {log : List (Nat × ForwardEvent)}
    (hrun : (threadsMachine (forwardService node)).exec (.init .init) actions = some (s, log))
    {request : SipMessage} {token : TopologyToken} {further : List Bytes}
    (hown : PcscfService.ReturnsOwnRoute node.toPcscfService request token further)
    (branch : Bytes) :
    node.SameDestination s.shared.routes s.shared.now request branch token.text ∧
      (node.Forwardable request → ∃ sent sent',
        node.toPcscfService.forwardStatefulToCore s.shared.routes s.shared.now request branch =
            .ok (.ok (sent,
              node.destinationFor s.shared.routes s.shared.now (some token.text))) ∧
          node.toPcscfService.forwardStatelessToCore s.shared.routes s.shared.now request branch =
            .ok (some (sent',
              node.destinationFor s.shared.routes s.shared.now (some token.text)))) := by
  have hleads := (entersCore_of_exec hrun).routes
  have hsame : node.SameDestination s.shared.routes s.shared.now request branch token.text := by
    refine (PcscfService.sameDestination_iff hown).mpr (.inr ?_)
    rw [hleads.destinationFor_eq, hleads.destinationFor_eq]
  refine ⟨hsame, fun hforwardable => ?_⟩
  obtain ⟨sent, dest, hstateful⟩ := PcscfService.exists_forwardStatefulToCore s.shared.routes
    s.shared.now branch hforwardable
  obtain ⟨sent', dest', hstateless⟩ := PcscfService.exists_forwardStatelessToCore s.shared.routes
    s.shared.now branch hforwardable
  cases hsame.stateful sent dest hstateful
  cases hsame.stateless sent' dest' hstateless
  exact ⟨sent, sent', hstateful, hstateless⟩

omit [OsipParser]

def edgeNode : PcscfNode :=
  { PcscfService.edgeService with
    advertisedAddr := bytes "10.0.0.1", listenAddr := bytes "0.0.0.0", corePeers := []
    resolved := by decide }

/-- An INVITE from the core goes to a UE, whose BYE comes with the Route that it was given. -/
def callFromCore : List ForwardAction :=
  let invite : SipMessage :=
    { dialogRequest "INVITE" (bytes "a") [] with
      start := .request (bytes "INVITE") (bytes "sip:ue@10.0.0.7") }
  let bye : SipMessage :=
    { dialogRequest "BYE" (bytes "b") [⟨bytes "tag", some (bytes "a")⟩] with
      routes := [PcscfService.edgeService.topologyRecordRoute (bytes "thsaved")] }
  let environment : ForwardEnvironment := { token := bytes "thsaved", branch := bytes "z9hG4bK1" }
  [.start (invite, ⟨bytes "10.0.0.2", 5062, bytes "udp"⟩)] ++
    List.replicate 5 (.run 0 environment) ++
    [.start (bye, ⟨bytes "10.0.0.7", 5060, bytes "udp"⟩)] ++ List.replicate 3 (.run 1 environment)

/-- The request goes to this endpoint of the core. -/
def ForwardEvent.entersAt (dest : Endpoint) : ForwardEvent → Bool
  | .sent .core _ dest' => dest' == dest
  | _ => false

theorem requests_enter_core_call : ∃ s log,
    (threadsMachine (@forwardService addressUris _ edgeNode)).exec (.init .init) callFromCore =
        some (s, log) ∧
      (∃ event ∈ log, event.1 = 1 ∧ event.2.entersAt edgeNode.coreEntry = true) ∧
      (∀ tid request dest, (tid, .sent .core request dest) ∈ log → dest = edgeNode.coreEntry) ∧
      (∀ token entry, s.shared.routes.find token = some entry →
        entry.endpoint = edgeNode.coreEntry) ∧
      ∀ request branch token, @PcscfService.SameDestination addressUris edgeNode.toPcscfService
        s.shared.routes s.shared.now request branch _ token := by
  have hsummary : ((threadsMachine (@forwardService addressUris _ edgeNode)).exec (.init .init)
      callFromCore).map (fun result => decide (∃ event ∈ result.2,
        event.1 = 1 ∧ event.2.entersAt edgeNode.coreEntry = true)) = some true := by
    decide +kernel
  obtain ⟨⟨s, log⟩, hrun, hsent⟩ := Option.map_eq_some_iff.mp hsummary
  exact ⟨s, log, hrun, of_decide_eq_true hsent,
    @requests_enter_core addressUris _ edgeNode _ _ _ hrun⟩

/-- The ACK of the UE has the Route of the S-CSCF after the own one. -/
theorem both_paths_lead_to_token_ack : let _ : OsipParser := addressUris
    ∃ s log, (threadsMachine (forwardService edgeNode)).exec (.init .init) callFromCore =
        some (s, log) ∧
      s.shared.routes.find PcscfService.savedToken.text ≠ none ∧
      ∃ sent sent' dest,
        edgeNode.toPcscfService.forwardStatefulToCore s.shared.routes s.shared.now
            PcscfService.savedAck (bytes "z9hG4bK1") = .ok (.ok (sent, dest)) ∧
          edgeNode.toPcscfService.forwardStatelessToCore s.shared.routes s.shared.now
            PcscfService.savedAck (bytes "z9hG4bK1") = .ok (some (sent', dest)) := by
  intro parser
  have hsummary : ((threadsMachine (forwardService edgeNode)).exec (.init .init)
      callFromCore).map (fun result => decide
        (result.1.shared.routes.find PcscfService.savedToken.text ≠ none)) = some true := by
    decide +kernel
  obtain ⟨⟨s, log⟩, hrun, hentered⟩ := Option.map_eq_some_iff.mp hsummary
  have hforwardable : edgeNode.Forwardable PcscfService.savedAck :=
    ⟨by decide +kernel, -1, by decide +kernel, by decide⟩
  obtain ⟨sent, sent', hstateful, hstateless⟩ := (both_paths_lead_to_token edgeNode hrun
    PcscfService.returnsOwnRoute_savedAck (bytes "z9hG4bK1")).2 hforwardable
  exact ⟨s, log, hrun, of_decide_eq_true hentered, sent, sent', _, hstateful, hstateless⟩

end SimIms.PCscf
