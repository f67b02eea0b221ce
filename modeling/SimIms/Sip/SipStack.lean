import SimIms.Sip.ClientLayer
import SimIms.Sip.Forwarding
import SimIms.Sip.ProxyCore
import SimIms.Sip.ServerLayer

/-!
# A service on its SIP stack

`SipStack` puts the two sides of the transaction layer on one transport and calls the handlers of a
service. What `ServerLayer` and `ClientLayer` leave to their callers, the request handler and the
response callbacks, are programs of the service here, which may use the stack and data of the
service.
-/

namespace SimIms.Sip

open Cxx Lib

/-! ## Operations -/

/-- `retransmit` and `rearm` are the two locked stretches of the handler of Timer A. What
`forwardRequest` does lies between no locks, from the new branch to the transport. -/
inductive StackOp (κ : Type) (E : Interface) where
  | server (op : ServerOp)
  | client (op : ClientOp κ)
  | retransmit (txn : Nat)
  | rearm (txn retransmitCount : Nat)
  | generateBranch
  | generateTag
  | forwardRequest (proxy : ProxyCore) (msg : SipMessage) (dest : Endpoint)
  | service (op : E.Op)

/-- What a stateless forward answers is what `prepareRequestForForward` says, or the transport. -/
abbrev StackAnswer (κ : Type) (E : Interface) : StackOp κ E → Type
  | .server op => ServerAnswer op
  | .client op => ClientAnswer κ op
  | .retransmit _ => Option Nat
  | .rearm _ _ => Unit
  | .generateBranch => Bytes
  | .generateTag => Bytes
  | .forwardRequest _ _ _ => Except Exception (Result Unit)
  | .service op => E.Answer op

def stackOps (κ : Type) (E : Interface) : Interface := ⟨StackOp κ E, StackAnswer κ E⟩

section

variable {κ : Type} {E : Interface}

instance : Includes serverOps (stackOps κ E) := ⟨.server, fun _ answer => answer⟩
instance : Includes (clientOps κ) (stackOps κ E) := ⟨.client, fun _ answer => answer⟩

end

/-! ## Programs -/

namespace SipStack

variable {κ : Type} {E : Interface}

abbrev Method (κ : Type) (E : Interface) (α : Type) := Program (stackOps κ E) Exception α

def perform (op : StackOp κ E) : Method κ E (StackAnswer κ E op) :=
  Program.perform (F := stackOps κ E) op

/-- Whether the transport has accepted the response. -/
def sendResponse (txn : Nat) (response : SipMessage) : Method κ E Bool := do
  if ← perform (.server (.send txn response)) then
    let (start, callback) ← perform (.server (.record txn response))
    if start then perform (.server (.startTimers txn response.statusCode))
    (ServerLayer.terminate callback).lift
    return true
  else return false

/-- Answer a request with a new response. -/
def respond (txn : Nat) (request : SipMessage) (statusCode : Int) (reason : Bytes) :
    Method κ E Unit := do
  let tag ← perform .generateTag
  let _ ← sendResponse txn (createResponse request statusCode reason tag)
  return ()

def sendRequest (request : SipMessage) (dest : Endpoint) (onResponse : Option κ) :
    Method κ E (Result Bytes) := (ClientLayer.sendRequest request dest onResponse).lift

/-- The relay of a response: whether it has gone out. -/
def relay (upstream : Nat) (response : SipMessage) : Method κ E Bool :=
  sendResponse upstream (forwardResponseUpstream response)

def forwardRequest (proxy : ProxyCore) (msg : SipMessage) (dest : Endpoint) :
    Method κ E Unit := do
  let forwarded ← perform (.forwardRequest proxy msg dest)
  let _ ← Program.ofExcept forwarded
  return ()

def forwardStateful [OsipAccessor] [OsipParser] (proxy : ProxyCore) (request : SipMessage)
    (dest : Endpoint)
    (upstream : Nat) (options : ForwardOptions) (onResponse : κ) : Method κ E Unit := do
  let branch ← perform .generateBranch
  match ← Program.ofExcept (proxy.prepareStateful request dest options branch) with
  | .error status =>
      respond upstream request status
        (if status = 482 then bytes "Loop Detected"
          else if status = 483 then bytes "Too Many Hops" else bytes "Internal Server Error")
  | .ok prepared =>
      match ← sendRequest prepared dest (some onResponse) with
      | .ok _ => return ()
      | .error _ => respond upstream request 500 (bytes "Internal Server Error")

/-- The handler of Timer A. -/
def runTimerA (txn : Nat) : Method κ E Unit := do
  match ← perform (.retransmit txn) with
  | none => return ()
  | some retransmitCount =>
      let _ ← perform (.client (.send txn))
      perform (.rearm txn retransmitCount)

end SipStack

/-- The handlers of a service. A request is handled with its transaction. -/
structure StackHandlers (κ : Type) (E : Interface) where
  onRequest : Nat → SipMessage → Endpoint → SipStack.Method κ E Unit
  onResponse : κ → SipMessage → SipStack.Method κ E Unit

namespace SipStack

variable {κ : Type} {E : Interface} (handlers : StackHandlers κ E)

/-- The request handler that the stack installs is called where the transaction is dispatched. -/
def handleServerOp (msg : SipMessage) (source : Endpoint) :
    (op : ServerOp) → Method κ E (ServerAnswer op)
  | .callHandler txn => do
      perform (.server (.callHandler txn))
      handlers.onRequest txn msg source
  | op => perform (.server op)

/-- So is the callback of a request where it gets a response. -/
def handleClientOp : (op : ClientOp κ) → Method κ E (ClientAnswer κ op)
  | .onResponse txn cb response => do
      perform (.client (.onResponse txn cb response))
      handlers.onResponse cb response
  | op => perform (.client op)

def processMessage (msg : SipMessage) (source : Endpoint) : Method κ E Unit :=
  if msg.isResponse then (ClientLayer.processResponse msg).translate (handleClientOp handlers)
  else (ServerLayer.processRequest msg source).translate (handleServerOp handlers msg source)

end SipStack

/-! ## What the operations do -/

structure SipStack (κ σ : Type) where
  server : ServerLayer
  client : ClientLayer κ
  service : σ

/-- What the environment decides: whether the transport accepts a message, and texts that are
drawn. -/
structure StackEnvironment (η : Type) where
  refusal : Option ErrorInfo := none
  branch : Bytes := []
  tag : Bytes := []
  service : η

/-- What is seen of a run: `drawn` is a branch, and the last kind is the service's own. -/
inductive StackEvent (ω : Type) where
  | server (event : ServerEvent)
  | sent (request : SipMessage) (dest : Endpoint)
  | responded (request : SipMessage) (dest : Endpoint) (code : Int)
  | drawn (branch : Bytes)
  | service (event : ω)
deriving DecidableEq, Repr

/-- The data of a service: what its operations do is given with the clock. -/
abbrev ServiceData (σ : Type) (E : Interface) (η ω : Type) :=
  σ → (now : Nat) → (op : E.Op) → η → σ × E.Answer op × List ω

namespace SipStack

variable {κ σ η ω : Type} {E : Interface}

/-- A request goes out, or its transaction gets a response. -/
def clientEvents (client : ClientLayer κ) :
    ClientOp κ → Option ErrorInfo → List (StackEvent ω)
  | .send id, none =>
      ((client.layer.clients.find id).map fun txn => StackEvent.sent txn.request txn.dest).toList
  | .processResponse id code, _ =>
      ((client.layer.clients.find id).map fun txn =>
        StackEvent.responded txn.request txn.dest code).toList
  | _, _ => []

/-- A stateless forward: what is answered, and the request that goes out. -/
def forwarded (proxy : ProxyCore) (msg : SipMessage) (dest : Endpoint)
    (environment : StackEnvironment η) :
    Except Exception (Result Unit) × List (StackEvent ω) :=
  match proxy.prepareRequestForForward msg dest.transport environment.branch with
  | .error e => (.error e, [])
  | .ok (.error error) => (.ok (.error error), [])
  | .ok (.ok prepared) =>
      match environment.refusal with
      | none => (.ok (.ok ()), [.sent prepared dest])
      | some error => (.ok (.error error), [])

def serve [OsipAccessor] (data : ServiceData σ E η ω) (s : SipStack κ σ) :
    (op : StackOp κ E) → StackEnvironment η →
      Option (SipStack κ σ × StackAnswer κ E op × List (StackEvent ω))
  | .server op, environment =>
      (s.server.serve op environment.refusal.isNone).map fun (server, answer, out) =>
        ({ s with server }, answer, out.map .server)
  | .client op, environment =>
      (s.client.serve op environment.refusal).map fun (client, answer, _) =>
        ({ s with client }, answer, clientEvents s.client op environment.refusal)
  | .retransmit id, _ =>
      match (s.client.layer.clients.find id).bind fun txn => txn.timerA.dequeue with
      | none => none
      | some timer =>
          (s.client.layer.clients.find id).map fun txn =>
            ({ s with client := s.client.modify id fun txn =>
                (txn.setTimer timer .a).retransmitCounted.getD (txn.setTimer timer .a) },
              (txn.setTimer timer .a).retransmitCounted.map (·.retransmitCount), [])
  | .rearm id retransmitCount, _ =>
      some ({ s with
        client := s.client.modify id (·.retransmitArmed s.client.now retransmitCount) }, (), [])
  | .generateBranch, environment => some (s, environment.branch, [.drawn environment.branch])
  | .generateTag, environment => some (s, environment.tag, [])
  | .forwardRequest proxy msg dest, environment =>
      let result : _ × List (StackEvent ω) := forwarded proxy msg dest environment
      some (s, result.1, result.2)
  | .service op, environment =>
      let result := data s.service s.client.now op environment.service
      some ({ s with service := result.1 }, result.2.1, result.2.2.map .service)

end SipStack

/-! ## Runs -/

inductive StackCall where
  | processMessage (msg : SipMessage) (source : Endpoint)
  | runServerTimer (name : ServerTransaction.TimerName) (txn : Nat)
  | runTimerA (txn : Nat)
  | runTimerB (txn : Nat)

inductive StackBackground where
  | elapse (duration : Nat)
  | expireServerTimer (name : ServerTransaction.TimerName) (txn : Nat)
  | expireClientTimer (name : ClientTransaction.TimerName) (txn : Nat)
  | shutdown

namespace SipStack

variable {κ σ η : Type} {E : Interface}

/-- A stack that has been started. -/
def init (service : σ) : SipStack κ σ :=
  { server := { ServerLayer.init with requestHandler := true }, client := .init, service }

def begin (handlers : StackHandlers κ E) : StackCall → Method κ E Unit
  | .processMessage msg source => processMessage handlers msg source
  | .runServerTimer name txn => (ServerLayer.runTimer name txn).lift
  | .runTimerA txn => runTimerA txn
  | .runTimerB txn => (ClientLayer.runTimerB (κ := κ) txn).lift

def background (s : SipStack κ σ) : StackBackground → Option (SipStack κ σ)
  | .elapse duration =>
      match s.server.background (.elapse duration), s.client.background (.elapse duration) with
      | some server, some client => some { s with server, client }
      | _, _ => none
  | .expireServerTimer name txn =>
      (s.server.background (.expireTimer name txn)).map fun server => { s with server }
  | .expireClientTimer name txn =>
      (s.client.background (.expireTimer name txn)).map fun client => { s with client }
  | .shutdown =>
      match s.server.background .shutdown, s.client.background .shutdown with
      | some server, some client => some { s with server, client }
      | _, _ => none

end SipStack

/-- The service on its stack, with any number of calls under way, and what is to be remembered of
each. -/
def stackService [OsipAccessor] {κ σ η ω γ : Type} {E : Interface} (handlers : StackHandlers κ E)
    (data : ServiceData σ E η ω) (fresh : StackCall → γ)
    (track : γ → (op : StackOp κ E) → StackAnswer κ E op → γ) :
    Service (SipStack κ σ) (stackOps κ E) Exception γ Unit (StackEnvironment η) StackCall
      StackBackground (StackEvent ω) where
  serve := SipStack.serve data
  begin := SipStack.begin handlers
  background := SipStack.background
  fresh
  track

abbrev StackThreads (κ σ γ : Type) (E : Interface) :=
  Threads (SipStack κ σ) (stackOps κ E) Exception γ Unit

abbrev StackAction (η : Type) := ThreadAction (StackEnvironment η) StackCall StackBackground

abbrev StackLog (ω : Type) := List (Nat × StackEvent ω)

/-! ## The requests of the client transactions -/

namespace ClientTransaction

variable {ρ τ : Type} (txn : ClientTransaction ρ τ)

theorem fixed_retransmitCounted : (txn.retransmitCounted.getD txn).fixed = txn.fixed := by
  rw [retransmitCounted]
  split
  · rfl
  · rfl

theorem fixed_retransmitArmed (now retransmitCount : Nat) :
    (txn.retransmitArmed now retransmitCount).fixed = txn.fixed := by
  rw [retransmitArmed]
  split
  · rfl
  · rfl

end ClientTransaction

/-- What is true of every request for which there has been a transaction. -/
def ClientLayer.Requests {κ : Type} (p : SipMessage → Prop) (s : ClientLayer κ) : Prop :=
  ∀ id request, s.requestOf id = some request → p request

namespace ClientLayer

variable {κ : Type} {p : SipMessage → Prop} {s t : ClientLayer κ}

theorem requests_init : (init : ClientLayer κ).Requests p := fun _ _ h => by cases h

theorem Requests.shrinks (h : s.Requests p) (hshrinks : Shrinks s t) : t.Requests p :=
  fun id request hrequest => h id request ((hshrinks.requests id).symm.trans hrequest)

theorem Requests.register (h : s.Requests p) {request : SipMessage} (hp : p request)
    (dest : Endpoint) (onResponse : Option κ) :
    (s.register request dest onResponse).Requests p := by
  intro id made hmade
  rw [requestOf, ClientLayer.register, Table.find_insert] at hmade
  split at hmade
  · cases hmade
    exact hp
  · exact h id made hmade

end ClientLayer

namespace SipStack

variable {κ σ η ω : Type} {E : Interface} {data : ServiceData σ E η ω}
variable {p : SipMessage → Prop} {s t : SipStack κ σ} {op : StackOp κ E}
variable {environment : StackEnvironment η} {answer : StackAnswer κ E op}
variable {out : List (StackEvent ω)}

/-- A transaction is made for such requests only. -/
def Registers (p : SipMessage → Prop) : StackOp κ E → Prop
  | .client (.register request _ _) => p request
  | _ => True

/-- The requests of the client transactions are those that were registered. -/
theorem requests_serve [OsipAccessor] (h : s.client.Requests p) (hop : Registers p op)
    (hserve : s.serve data op environment = some (t, answer, out)) :
    t.client.Requests p := by
  cases op with
  | server op =>
      obtain ⟨_, -, heq⟩ := Option.map_eq_some_iff.mp hserve
      cases heq
      exact h
  | client op =>
      obtain ⟨⟨client, _, _⟩, hclient, heq⟩ := Option.map_eq_some_iff.mp hserve
      cases heq
      obtain hshrinks | ⟨request, dest, onResponse, rfl, rfl⟩ := ClientLayer.serve_cases hclient
      · exact h.shrinks hshrinks
      · exact h.register hop dest onResponse
  | retransmit id =>
      rw [serve] at hserve
      split at hserve
      · cases hserve
      · obtain ⟨txn, -, heq⟩ := Option.map_eq_some_iff.mp hserve
        cases heq
        refine h.shrinks (ClientLayer.shrinks_modify fun txn => ?_)
        rw [ClientTransaction.fixed_retransmitCounted, ClientTransaction.fixed_setTimer]
  | rearm id retransmitCount =>
      cases hserve
      exact h.shrinks (ClientLayer.shrinks_modify fun txn => txn.fixed_retransmitArmed _ _)
  | generateBranch =>
      cases hserve
      exact h
  | generateTag =>
      cases hserve
      exact h
  | forwardRequest proxy msg dest =>
      cases hserve
      exact h
  | service op =>
      cases hserve
      exact h

theorem requests_background {event : StackBackground} (h : s.client.Requests p)
    (hbackground : s.background event = some t) : t.client.Requests p := by
  cases event with
  | elapse duration =>
      cases hbackground
      exact h
  | expireServerTimer name txn =>
      obtain ⟨_, -, rfl⟩ := Option.map_eq_some_iff.mp hbackground
      exact h
  | expireClientTimer name txn =>
      obtain ⟨client, hclient, rfl⟩ := Option.map_eq_some_iff.mp hbackground
      exact h.shrinks (ClientLayer.shrinks_background hclient)
  | shutdown =>
      cases hbackground
      exact h.shrinks (@ClientLayer.shrinks_background κ s.client _ .shutdown rfl)

/-! ### What is sent -/

section

variable {request : SipMessage} {dest : Endpoint}

theorem not_sent_server {events : List ServerEvent} :
    .sent request dest ∉ events.map (StackEvent.server (ω := ω)) := by
  intro hmem
  obtain ⟨_, -, heq⟩ := List.mem_map.mp hmem
  cases heq

theorem sent_client {client : ClientLayer κ} {op : ClientOp κ} {refusal : Option ErrorInfo}
    (hmem : StackEvent.sent (ω := ω) request dest ∈ clientEvents client op refusal) :
    ∃ id, client.requestOf id = some request := by
  rw [clientEvents.eq_def] at hmem
  split at hmem
  · obtain ⟨txn, hfind, heq⟩ := Option.map_eq_some_iff.mp (Option.mem_toList.mp hmem)
    cases heq
    exact ⟨_, Option.map_eq_some_iff.mpr ⟨txn, hfind, rfl⟩⟩
  · obtain ⟨_, -, heq⟩ := Option.map_eq_some_iff.mp (Option.mem_toList.mp hmem)
    cases heq
  · cases hmem

theorem sent_forwarded {proxy : ProxyCore} {msg : SipMessage} {dest' : Endpoint}
    (hmem : StackEvent.sent (ω := ω) request dest ∈ (forwarded proxy msg dest' environment).2) :
    dest' = dest ∧
      proxy.prepareRequestForForward msg dest.transport environment.branch = .ok (.ok request) ∧
      environment.refusal = none := by
  rw [forwarded] at hmem
  split at hmem
  · cases hmem
  · cases hmem
  · rename_i prepared hprepared
    split at hmem
    · rename_i haccepted
      cases List.mem_singleton.mp hmem
      exact ⟨rfl, hprepared, haccepted⟩
    · cases hmem

end

/-- What goes out is the request of a transaction, or a stateless forward. -/
theorem sent_of_serve [OsipAccessor] {request : SipMessage} {dest : Endpoint}
    (hserve : s.serve data op environment = some (t, answer, out))
    (hmem : .sent request dest ∈ out) :
    (∃ id, s.client.requestOf id = some request) ∨
      ∃ proxy msg, op = .forwardRequest proxy msg dest ∧
        proxy.prepareRequestForForward msg dest.transport environment.branch = .ok (.ok request) ∧
        environment.refusal = none := by
  cases op with
  | server op =>
      obtain ⟨_, -, heq⟩ := Option.map_eq_some_iff.mp hserve
      cases heq
      exact (not_sent_server hmem).elim
  | client op =>
      obtain ⟨_, -, heq⟩ := Option.map_eq_some_iff.mp hserve
      cases heq
      exact .inl (sent_client hmem)
  | retransmit id =>
      rw [serve] at hserve
      split at hserve
      · cases hserve
      · obtain ⟨txn, -, heq⟩ := Option.map_eq_some_iff.mp hserve
        cases heq
        cases hmem
  | rearm id retransmitCount =>
      cases hserve
      cases hmem
  | generateBranch =>
      cases hserve
      cases List.mem_singleton.mp hmem
  | generateTag =>
      cases hserve
      cases hmem
  | forwardRequest proxy msg dest =>
      cases hserve
      obtain ⟨rfl, hprepared, haccepted⟩ := sent_forwarded hmem
      exact .inr ⟨proxy, msg, rfl, hprepared, haccepted⟩
  | service op =>
      cases hserve
      obtain ⟨_, -, heq⟩ := List.mem_map.mp hmem
      cases heq

end SipStack

/-! ## Programs that register such requests only -/

namespace SipStack

variable {κ σ η ω γ : Type} {E : Interface} {p : SipMessage → Prop}

def registersOnly (p : SipMessage → Prop) : Contract (stackOps κ E) Unit where
  Allows _ := Registers p
  Expects _ _ := True
  Throws _ := True
  track _ _ _ := ()

/-- Nothing is asked of the result. -/
abbrev Keeps (p : SipMessage → Prop) {α : Type} (method : Method κ E α) : Prop :=
  method.Meets (registersOnly p) () fun _ _ => True

theorem keeps_perform (op : StackOp κ E) (h : Registers p op) : Keeps p (perform op) :=
  ⟨h, fun _ _ => trivial⟩

theorem keeps_pure {α : Type} (a : α) : Keeps p (pure a : Method κ E α) := trivial

theorem Keeps.bind {α β : Type} {method : Method κ E α} {next : α → Method κ E β}
    (h : Keeps p method) (hnext : ∀ a, Keeps p (next a)) : Keeps p (method >>= next) :=
  Program.Meets.bind h fun _ a _ => hnext a

theorem keeps_ofExcept {α : Type} (result : Except Exception α) :
    Keeps p (Program.ofExcept result : Method κ E α) :=
  Program.meets_ofExcept trivial fun _ _ => trivial

theorem keeps_server {α : Type} (method : Program serverOps Exception α) :
    Keeps p (method.lift : Method κ E α) :=
  Program.meets_translate (I := fun _ => True) method trivial
    (fun _ _ _ => ⟨trivial, fun _ _ => trivial⟩) (fun _ _ => trivial) fun _ _ _ => trivial

theorem keeps_perform_server (op : ServerOp) :
    Keeps p (perform (.server op) : Method κ E (ServerAnswer op)) := keeps_perform _ trivial

theorem keeps_sendResponse (txn : Nat) (response : SipMessage) :
    Keeps p (sendResponse txn response : Method κ E Bool) := by
  refine (keeps_perform_server _).bind fun accepted => ?_
  split
  · refine (keeps_perform_server _).bind fun recorded => ?_
    have hended : Keeps p (do
        (ServerLayer.terminate recorded.2).lift
        return true : Method κ E Bool) :=
      (keeps_server _).bind fun _ => keeps_pure true
    dsimp only
    split
    · exact (keeps_perform_server _).bind fun _ => hended
    · exact hended
  · exact keeps_pure _

theorem keeps_respond (txn : Nat) (request : SipMessage) (statusCode : Int) (reason : Bytes) :
    Keeps p (respond txn request statusCode reason : Method κ E Unit) :=
  (keeps_perform .generateTag trivial).bind fun _ =>
    (keeps_sendResponse _ _).bind fun _ => keeps_pure _

theorem keeps_sendRequest {request : SipMessage} (h : p request) (dest : Endpoint)
    (onResponse : Option κ) :
    Keeps p (sendRequest request dest onResponse : Method κ E (Result Bytes)) := by
  refine ⟨trivial, fun down _ => ?_⟩
  cases down with
  | true => exact trivial
  | false =>
      refine ⟨h, fun registered _ => ?_⟩
      cases registered with
      | error error => exact trivial
      | ok txn =>
          refine ⟨trivial, fun refusal _ => ?_⟩
          cases refusal with
          | none => exact ⟨trivial, fun _ _ => trivial⟩
          | some error => exact ⟨trivial, fun _ _ => ⟨trivial, fun _ _ => trivial⟩⟩

theorem keeps_forwardRequest (proxy : ProxyCore) (msg : SipMessage) (dest : Endpoint) :
    Keeps p (forwardRequest proxy msg dest : Method κ E Unit) :=
  (keeps_perform (.forwardRequest proxy msg dest) trivial).bind fun _ =>
    (keeps_ofExcept _).bind fun _ => keeps_pure _

variable {handlers : StackHandlers κ E}

/-- That the handlers of a service register such requests only. -/
structure HandlersKeep (p : SipMessage → Prop) (handlers : StackHandlers κ E) : Prop where
  onRequest : ∀ txn request source, Keeps p (handlers.onRequest txn request source)
  onResponse : ∀ captured response, Keeps p (handlers.onResponse captured response)

theorem keeps_handleServerOp (h : HandlersKeep p handlers) (msg : SipMessage) (source : Endpoint)
    (op : ServerOp) : Keeps p (handleServerOp handlers msg source op) := by
  rw [handleServerOp.eq_def]
  split
  · exact (keeps_perform_server _).bind fun _ => h.onRequest _ msg source
  · exact keeps_perform_server _

theorem keeps_finish (key : Bytes) (response : SipMessage) :
    Keeps p ((ClientLayer.finish key response).translate (handleClientOp handlers)) := by
  rw [ClientLayer.finish]
  split
  · exact ⟨trivial, fun _ _ => trivial⟩
  · exact trivial

theorem keeps_callOnResponse (h : HandlersKeep p handlers) (txn : Nat)
    (callback : ResponseCallback κ) (response : SipMessage) :
    Keeps p ((ClientLayer.callOnResponse txn callback response).translate
      (handleClientOp handlers)) := by
  refine ⟨trivial, fun down _ => ?_⟩
  cases down with
  | true => exact trivial
  | false =>
      obtain ⟨key, cb⟩ := callback
      cases cb with
      | none => exact keeps_finish key response
      | some cb =>
          have hcalled : Keeps p (handleClientOp handlers (.onResponse txn cb response)) :=
            ⟨trivial, fun _ _ => h.onResponse cb response⟩
          exact hcalled.bind fun _ => keeps_finish key response

theorem keeps_processResponse (h : HandlersKeep p handlers) (response : SipMessage) :
    Keeps p ((ClientLayer.processResponse response).translate (handleClientOp handlers)) := by
  refine ⟨trivial, fun down _ => ?_⟩
  cases down with
  | true => exact trivial
  | false =>
      refine ⟨trivial, fun found _ => ?_⟩
      cases found with
      | none => exact trivial
      | some txn =>
          refine ⟨trivial, fun callback _ => ?_⟩
          cases callback with
          | none => exact trivial
          | some callback => exact keeps_callOnResponse h txn callback response

theorem keeps_runTimerB (txn : Nat) :
    Keeps p ((ClientLayer.runTimerB (κ := κ) txn).lift : Method κ E Unit) := by
  refine ⟨trivial, fun key _ => ?_⟩
  cases key with
  | none => exact trivial
  | some key =>
      refine ⟨trivial, fun down _ => ?_⟩
      cases down with
      | true => exact trivial
      | false => exact ⟨trivial, fun _ _ => trivial⟩

theorem keeps_runTimerA (txn : Nat) : Keeps p (runTimerA txn : Method κ E Unit) := by
  refine ⟨trivial, fun retransmitCount _ => ?_⟩
  cases retransmitCount with
  | none => exact trivial
  | some retransmitCount => exact ⟨trivial, fun _ _ => ⟨trivial, fun _ _ => trivial⟩⟩

theorem keeps_begin (h : HandlersKeep p handlers) (call : StackCall) :
    Keeps p (begin handlers call) := by
  cases call with
  | processMessage msg source =>
      rw [begin, processMessage]
      split
      · exact keeps_processResponse h msg
      · exact Program.meets_translate (I := fun _ => True) _ trivial
          (fun _ op _ => keeps_handleServerOp h msg source op) (fun _ _ => trivial)
          fun _ _ _ => trivial
  | runServerTimer name txn => exact keeps_server _
  | runTimerA txn => exact keeps_runTimerA txn
  | runTimerB txn => exact keeps_runTimerB txn

/-- Every request of a client transaction is one that a handler may register. -/
def requestDiscipline (σ ω : Type) (p : SipMessage → Prop) :
    Discipline (SipStack κ σ) (stackOps κ E) Unit Unit (StackEvent ω) where
  contract := registersOnly p
  assumes _ _ := True
  shared s _ := s.client.Requests p
  linked _ _ _ _ := True
  result _ _ := True

theorem requestDiscipline_sound [OsipAccessor] (h : HandlersKeep p handlers)
    (data : ServiceData σ E η ω) :
    (requestDiscipline σ ω p).Sound
      (stackService handlers data (fun _ => ()) fun _ _ _ => ()) where
  track _ _ _ := rfl
  begins := keeps_begin h
  fresh _ _ _ _ _ _ := trivial
  serves _ _ _ _ _ _ _ _ _ hshared _ hallows hserve _ :=
    ⟨requests_serve hshared hallows hserve, trivial, trivial, fun _ _ _ _ => trivial⟩
  background _ _ _ _ hshared hbackground :=
    ⟨requests_background hshared hbackground, fun _ _ _ => trivial⟩

end SipStack

end SimIms.Sip
