import SimIms.Sip.ClientLayer
import SimIms.Sip.ServerLayer

/-!
# Shutting the transaction layer down, interleaved

`shutdown` stores the flag, swaps the two tables out under the layer's mutex and then shuts the
transactions down that were in them, one after the other. Between any two of these operations the
other methods of the layer and the handlers of the timers go on. Each of them asks for the flag
before it calls anybody, and those that enter a transaction into a table ask once more under the
mutex.
-/

namespace SimIms.Sip

open Cxx Lib

/-! ## Operations -/

/-- The operations of both sides, those of the termination callback, and those of `shutdown`. -/
inductive LayerOp (κ : Type) where
  | client (op : ClientOp κ)
  | server (op : ServerOp)
  | shuttingDown
  | eraseServer (callback : TerminationCallback)
  | storeShuttingDown
  | swap
  | shutdownClient (txn : Nat)
  | shutdownServer (txn : Nat)

/-- The swap answers with the transactions that were in the two tables. -/
abbrev LayerAnswer (κ : Type) : LayerOp κ → Type
  | .client op => ClientAnswer κ op
  | .server op => ServerAnswer op
  | .shuttingDown => Bool
  | .eraseServer _ => Unit
  | .storeShuttingDown => Unit
  | .swap => List Nat × List Nat
  | .shutdownClient _ => Unit
  | .shutdownServer _ => Unit

def layerOps (κ : Type) : Interface := ⟨LayerOp κ, LayerAnswer κ⟩

/-! ## Programs -/

/-- Both sides of the layer; each of them has a copy of the one flag. -/
structure SharedLayer (κ : Type) where
  client : ClientLayer κ
  server : ServerLayer

inductive LayerCall (κ : Type) where
  | sendRequest (request : SipMessage) (dest : Endpoint) (onResponse : Option κ)
  | processResponse (response : SipMessage)
  | runTimerB (txn : Nat)
  | server (call : ServerCall)
  | shutdown

namespace SharedLayer

variable {κ : Type}

abbrev Method (κ α : Type) := Program (layerOps κ) Exception α

def perform (op : LayerOp κ) : Method κ (LayerAnswer κ op) :=
  Program.perform (F := layerOps κ) op

def ofClient (op : ClientOp κ) : Method κ (ClientAnswer κ op) := perform (.client op)

/-- The termination callback of a server transaction asks for the flag before it takes the mutex. -/
def ofServer : (op : ServerOp) → Method κ (ServerAnswer op)
  | .terminated callback => do
      if ← perform .shuttingDown then return ()
      else perform (.eraseServer callback)
  | .receive msg => perform (.server (.receive msg))
  | .findServer key => perform (.server (.findServer key))
  | .acknowledge txn => perform (.server (.acknowledge txn))
  | .lastResponse txn => perform (.server (.lastResponse txn))
  | .insert key msg source => perform (.server (.insert key msg source))
  | .requestHandler => perform (.server .requestHandler)
  | .callHandler txn => perform (.server (.callHandler txn))
  | .send txn response => perform (.server (.send txn response))
  | .record txn response => perform (.server (.record txn response))
  | .startTimers txn code => perform (.server (.startTimers txn code))
  | .timeout name txn => perform (.server (.timeout name txn))

def shutdownClients : List Nat → Method κ Unit
  | [] => return ()
  | txn :: rest => do
      perform (.shutdownClient txn)
      shutdownClients rest

def shutdownServers : List Nat → Method κ Unit
  | [] => return ()
  | txn :: rest => do
      perform (.shutdownServer txn)
      shutdownServers rest

def shutdown : Method κ Unit := do
  perform .storeShuttingDown
  let taken ← perform .swap
  shutdownClients taken.1
  shutdownServers taken.2

/-- What `sendRequest` returns is kept. -/
def begin : LayerCall κ → Method κ (Option (Result Bytes))
  | .sendRequest request dest onResponse => do
      let result ← (ClientLayer.sendRequest request dest onResponse).translate ofClient
      return some result
  | .processResponse response => do
      (ClientLayer.processResponse response).translate ofClient
      return none
  | .runTimerB txn => do
      (ClientLayer.runTimerB txn).translate ofClient
      return none
  | .server call => do
      (ServerLayer.begin call).translate ofServer
      return none
  | .shutdown => do
      shutdown
      return none

end SharedLayer

/-! ## What the operations do -/

/-- The thread has read the flag or the request handler; it has entered a transaction; it calls a
caller's callback or the request handler, or erases the entry of a transaction that has ended; it
swaps the tables out, or shuts a transaction down. -/
inductive LayerNotice where
  | checked
  | registered (txn : Nat) (key : Bytes)
  | created (txn : Nat)
  | entered
  | swapped (clients servers : List Nat)
  | clientShutDown (txn : Nat)
  | serverShutDown (txn : Nat)

namespace LayerNotice

def Inserts : LayerNotice → Prop
  | .registered _ _ | .created _ => True
  | .checked | .entered | .swapped _ _ | .clientShutDown _ | .serverShutDown _ => False

/-- The notices of `shutdown`. -/
def OfShutdown : LayerNotice → Prop
  | .swapped _ _ | .clientShutDown _ | .serverShutDown _ => True
  | .checked | .registered _ _ | .created _ | .entered => False

variable {κ : Type}

def ofClient : (op : ClientOp κ) → ClientAnswer κ op → List LayerNotice
  | .shuttingDown, _ => [.checked]
  | .register request _ _, result =>
      match result with
      | .ok txn => [.checked, .registered txn (clientKey request)]
      | .error _ => [.checked]
  | .onResponse _ _ _, _ => [.entered]
  | .erase _, _ => [.entered]
  | .send _, _ => []
  | .startSent _, _ => []
  | .startFailed _, _ => []
  | .findClient _, _ => []
  | .processResponse _ _, _ => []
  | .timeout _, _ => []

def ofServer : (op : ServerOp) → ServerAnswer op → List LayerNotice
  | .receive _, _ => [.checked]
  | .insert _ _ _, insertion =>
      match insertion with
      | .shuttingDown => [.checked]
      | .existing _ => [.checked]
      | .inserted txn => [.checked, .created txn]
  | .requestHandler, _ => [.checked]
  | .callHandler _, _ => [.entered]
  | .findServer _, _ => []
  | .acknowledge _, _ => []
  | .lastResponse _, _ => []
  | .send _ _, _ => []
  | .record _ _, _ => []
  | .startTimers _ _, _ => []
  | .timeout _ _, _ => []
  | .terminated _, _ => []

def ofLayer : (op : LayerOp κ) → LayerAnswer κ op → List LayerNotice
  | .client op, answer => ofClient op answer
  | .server op, answer => ofServer op answer
  | .shuttingDown, _ => [.checked]
  | .eraseServer _, _ => [.entered]
  | .storeShuttingDown, _ => []
  | .swap, taken => [.swapped taken.1 taken.2]
  | .shutdownClient txn, _ => [.clientShutDown txn]
  | .shutdownServer txn, _ => [.serverShutDown txn]

end LayerNotice

namespace SharedLayer

variable {κ : Type}

/-- The request handler has been installed, or not, before the layer is used. -/
def init (requestHandler : Bool) : SharedLayer κ :=
  ⟨.init, { ServerLayer.init with requestHandler }⟩

def setShuttingDown (s : SharedLayer κ) : SharedLayer κ :=
  { client := { s.client with layer := { s.client.layer with shuttingDown := true } }
    server := { s.server with shuttingDown := true } }

/-- The tables are moved out, and the request handler is cleared. -/
def swapOut (s : SharedLayer κ) : SharedLayer κ :=
  { client := { s.client with layer := { s.client.layer with clientTxns := .empty } }
    server := { s.server with serverTxns := .empty, requestHandler := false } }

/-- The locked stretch of the termination callback. -/
def eraseServer (s : SharedLayer κ) (callback : TerminationCallback) : SharedLayer κ :=
  if s.server.serverTxns.find callback.key = some callback.txn then
    { s with server := { s.server with serverTxns := s.server.serverTxns.erase callback.key } }
  else s

/-- What an operation does, and its answer; whether the transport accepts what is sent, is the
environment's choice. -/
def change [OsipAccessor] (s : SharedLayer κ) : (op : LayerOp κ) → (refusal : Option ErrorInfo) →
    Option (SharedLayer κ × LayerAnswer κ op)
  | .client op, refusal =>
      (s.client.serve op refusal).map fun result => ({ s with client := result.1 }, result.2.1)
  | .server op, refusal =>
      (s.server.serve op refusal.isNone).map fun result =>
        ({ s with server := result.1 }, result.2.1)
  | .shuttingDown, _ => some (s, s.server.shuttingDown)
  | .eraseServer callback, _ => some (s.eraseServer callback, ())
  | .storeShuttingDown, _ => some (s.setShuttingDown, ())
  | .swap, _ => some (s.swapOut, s.client.layer.clientTxns.values, s.server.serverTxns.values)
  | .shutdownClient txn, _ => some ({ s with client := s.client.modify txn (·.shutdown) }, ())
  | .shutdownServer txn, _ =>
      some ({ s with server := { s.server with
        servers := s.server.servers.modify txn (·.shutdown) } }, ())

def serve [OsipAccessor] (s : SharedLayer κ) (op : LayerOp κ) (refusal : Option ErrorInfo) :
    Option (SharedLayer κ × LayerAnswer κ op × List LayerNotice) :=
  (s.change op refusal).map fun result => (result.1, result.2, LayerNotice.ofLayer op result.2)

end SharedLayer

/-! ## Runs -/

/-- What happens besides: the handler of Timer A touches neither table and calls nobody. -/
inductive LayerBackground where
  | elapse (duration : Nat)
  | expireClient (name : ClientTransaction.TimerName) (txn : Nat)
  | expireServer (name : ServerTransaction.TimerName) (txn : Nat)
  | runTimerA (txn : Nat)

def SharedLayer.background {κ : Type} (s : SharedLayer κ) :
    LayerBackground → Option (SharedLayer κ)
  | .elapse duration =>
      some ⟨{ s.client with now := s.client.now + duration },
        { s.server with now := s.server.now + duration }⟩
  | .expireClient name txn =>
      (s.client.background (.expireTimer name txn)).map fun client => { s with client }
  | .expireServer name txn =>
      (s.server.background (.expireTimer name txn)).map fun server => { s with server }
  | .runTimerA txn => (s.client.background (.runTimerA txn)).map fun client => { s with client }

/-- What a thread has done and learnt: whether its last check has let it pass, whether it has
stored the flag, the key of its request, what it has swapped out, and what it has shut down. -/
structure LayerHistory where
  passed : Bool := false
  stored : Bool := false
  registered : Option Bytes := none
  swapped : Option (List Nat × List Nat) := none
  clientsDown : List Nat := []
  serversDown : List Nat := []

namespace LayerHistory

variable {κ : Type}

def trackClient (g : LayerHistory) : (op : ClientOp κ) → ClientAnswer κ op → LayerHistory
  | .shuttingDown, down => { g with passed := !down }
  | .register request _ _, result =>
      match result with
      | .ok _ => { g with passed := true, registered := some (clientKey request) }
      | .error _ => { g with passed := false }
  | .onResponse _ _ _, _ => g
  | .erase _, _ => g
  | .send _, _ => g
  | .startSent _, _ => g
  | .startFailed _, _ => g
  | .findClient _, _ => g
  | .processResponse _ _, _ => g
  | .timeout _, _ => g

def trackServer (g : LayerHistory) : (op : ServerOp) → ServerAnswer op → LayerHistory
  | .receive _, down => { g with passed := !down }
  | .insert _ _ _, insertion =>
      match insertion with
      | .shuttingDown => { g with passed := false }
      | .existing _ => { g with passed := true }
      | .inserted _ => { g with passed := true }
  | .requestHandler, present => { g with passed := present }
  | .callHandler _, _ => g
  | .findServer _, _ => g
  | .acknowledge _, _ => g
  | .lastResponse _, _ => g
  | .send _ _, _ => g
  | .record _ _, _ => g
  | .startTimers _ _, _ => g
  | .timeout _ _, _ => g
  | .terminated _, _ => g

def track (g : LayerHistory) : (op : LayerOp κ) → LayerAnswer κ op → LayerHistory
  | .client op, answer => g.trackClient op answer
  | .server op, answer => g.trackServer op answer
  | .shuttingDown, down => { g with passed := !down }
  | .eraseServer _, _ => g
  | .storeShuttingDown, _ => { g with stored := true }
  | .swap, taken => { g with swapped := some taken }
  | .shutdownClient txn, _ => { g with clientsDown := txn :: g.clientsDown }
  | .shutdownServer txn, _ => { g with serversDown := txn :: g.serversDown }

/-- Who calls somebody or erases an entry has passed its last check; the flag is stored before the
tables are swapped. -/
def Allows (g : LayerHistory) : LayerOp κ → Prop
  | .client (.onResponse _ _ _) | .client (.erase _) | .server (.callHandler _)
  | .eraseServer _ => g.passed = true
  | .server (.terminated _) => False
  | .swap => g.stored = true ∧ g.swapped = none
  | _ => True

/-- What holds of a call that has ended. -/
structure Ends (g : LayerHistory) (result : Option (Result Bytes)) : Prop where
  registered : ∀ key, result = some (.ok key) → g.registered = some key
  clients : ∀ taken, g.swapped = some taken → ∀ txn ∈ taken.1, txn ∈ g.clientsDown
  servers : ∀ taken, g.swapped = some taken → ∀ txn ∈ taken.2, txn ∈ g.serversDown

end LayerHistory

def layerService [OsipAccessor] (κ : Type) :
    Service (SharedLayer κ) (layerOps κ) Exception LayerHistory (Option (Result Bytes))
      (Option ErrorInfo) (LayerCall κ) LayerBackground LayerNotice where
  serve := SharedLayer.serve
  begin := SharedLayer.begin
  background := SharedLayer.background
  fresh _ := {}
  track := LayerHistory.track

def layerContract (κ : Type) : Contract (layerOps κ) LayerHistory where
  Allows := LayerHistory.Allows
  Expects _ _ := True
  Throws _ := False
  track := LayerHistory.track

/-! ## The methods keep to the contract -/

namespace LayerHistory

variable {κ : Type} {g : LayerHistory} {result : Option (Result Bytes)}

/-- Nothing is claimed of a thread that has swapped nothing and returns no key. -/
theorem Ends.of_none (hswapped : g.swapped = none)
    (hresult : ∀ key, result ≠ some (.ok key)) : g.Ends result :=
  ⟨fun key heq => (hresult key heq).elim, (fun _ heq => by cases hswapped.symm.trans heq),
    fun _ heq => by cases hswapped.symm.trans heq⟩

end LayerHistory

namespace SharedLayer

variable {κ : Type} {g : LayerHistory}

theorem sendRequest_meets {request : SipMessage} {dest : Endpoint} {onResponse : Option κ}
    (hswapped : g.swapped = none) :
    (begin (.sendRequest request dest onResponse)).Meets (layerContract κ) g
      LayerHistory.Ends := by
  refine ⟨trivial, fun down _ => ?_⟩
  cases down with
  | true => exact .of_none hswapped fun _ heq => by cases heq
  | false =>
      refine ⟨trivial, fun registered _ => ?_⟩
      cases registered with
      | error error => exact .of_none hswapped fun _ heq => by cases heq
      | ok txn =>
          refine ⟨trivial, fun refusal _ => ?_⟩
          cases refusal with
          | none =>
              refine ⟨trivial, fun _ _ => ⟨fun key heq => ?_, ?_, ?_⟩⟩
              · cases heq
                rfl
              · exact fun _ heq => by cases hswapped.symm.trans heq
              · exact fun _ heq => by cases hswapped.symm.trans heq
          | some error =>
              refine ⟨trivial, fun _ _ => ⟨rfl, fun _ _ => ?_⟩⟩
              exact .of_none hswapped fun _ heq => by cases heq

theorem finish_meets {key : Bytes} {response : SipMessage} (hpassed : g.passed = true)
    (hswapped : g.swapped = none) :
    Program.Meets (layerContract κ) g
      ((ClientLayer.finish key response).translate ofClient >>= fun _ => return none)
      LayerHistory.Ends := by
  rw [ClientLayer.finish]
  split
  · exact ⟨hpassed, fun _ _ => .of_none hswapped fun _ heq => by cases heq⟩
  · exact .of_none hswapped fun _ heq => by cases heq

theorem processResponse_meets {response : SipMessage} (hswapped : g.swapped = none) :
    (begin (.processResponse response)).Meets (layerContract κ) g LayerHistory.Ends := by
  have hends : ∀ {g : LayerHistory}, g.swapped = none → g.Ends none :=
    fun hswapped => .of_none hswapped fun _ heq => by cases heq
  refine ⟨trivial, fun down _ => ?_⟩
  cases down with
  | true => exact hends hswapped
  | false =>
      refine ⟨trivial, fun found _ => ?_⟩
      cases found with
      | none => exact hends hswapped
      | some txn =>
          refine ⟨trivial, fun callback _ => ?_⟩
          cases callback with
          | none => exact hends hswapped
          | some callback =>
              obtain ⟨key, cb⟩ := callback
              refine ⟨trivial, fun down _ => ?_⟩
              cases down with
              | true => exact hends hswapped
              | false =>
                  cases cb with
                  | none => exact finish_meets rfl hswapped
                  | some cb => exact ⟨rfl, fun _ _ => finish_meets rfl hswapped⟩

theorem runTimerB_meets {txn : Nat} (hswapped : g.swapped = none) :
    (begin (.runTimerB txn : LayerCall κ)).Meets (layerContract κ) g LayerHistory.Ends := by
  have hends : ∀ {g : LayerHistory}, g.swapped = none → g.Ends none :=
    fun hswapped => .of_none hswapped fun _ heq => by cases heq
  refine ⟨trivial, fun callback _ => ?_⟩
  cases callback with
  | none => exact hends hswapped
  | some key =>
      refine ⟨trivial, fun down _ => ?_⟩
      cases down with
      | true => exact hends hswapped
      | false => exact ⟨rfl, fun _ _ => hends hswapped⟩

/-- Methods of the server side return nothing, and swap nothing. -/
def MeetsServer (κ : Type) (g : LayerHistory) (p : ServerLayer.Method) : Prop :=
  Program.Meets (layerContract κ) g (p.translate ofServer) fun g _ => g.swapped = none

theorem terminate_meets (callback : Option TerminationCallback) (hswapped : g.swapped = none) :
    MeetsServer κ g (ServerLayer.terminate callback) := by
  cases callback with
  | none => exact hswapped
  | some callback =>
      refine ⟨trivial, fun down _ => ?_⟩
      cases down with
      | true => exact hswapped
      | false => exact ⟨rfl, fun _ _ => hswapped⟩

theorem retransmitLastResponse_meets {txn : Nat} (hswapped : g.swapped = none) :
    MeetsServer κ g (ServerLayer.retransmitLastResponse txn) := by
  refine ⟨trivial, fun response _ => ?_⟩
  cases response with
  | none => exact hswapped
  | some response => exact ⟨trivial, fun _ _ => hswapped⟩

theorem dispatch_meets {msg : SipMessage} {source : Endpoint} (hswapped : g.swapped = none) :
    MeetsServer κ g (ServerLayer.dispatch msg source) := by
  refine ⟨trivial, fun existing _ => ?_⟩
  cases existing with
  | some existing => exact retransmitLastResponse_meets hswapped
  | none =>
      refine ⟨trivial, fun insertion _ => ?_⟩
      cases insertion with
      | shuttingDown => exact hswapped
      | existing existing => exact retransmitLastResponse_meets hswapped
      | inserted txn =>
          refine ⟨trivial, fun present _ => ?_⟩
          cases present with
          | false => exact hswapped
          | true => exact ⟨rfl, fun _ _ => hswapped⟩

theorem server_meets (call : ServerCall) (hswapped : g.swapped = none) :
    MeetsServer κ g (ServerLayer.begin call) := by
  cases call with
  | processRequest msg source =>
      refine ⟨trivial, fun down _ => ?_⟩
      cases down with
      | true => exact hswapped
      | false =>
          change MeetsServer κ { g with passed := true }
            (if msg.method = bytes "ACK" then _ else ServerLayer.dispatch msg source)
          split
          · refine ⟨trivial, fun invite _ => ?_⟩
            cases invite with
            | none => exact dispatch_meets hswapped
            | some invite =>
                exact ⟨trivial, fun callback _ => terminate_meets callback hswapped⟩
          · exact dispatch_meets hswapped
  | sendResponse txn response =>
      refine ⟨trivial, fun accepted _ => ?_⟩
      cases accepted with
      | false => exact hswapped
      | true =>
          refine ⟨trivial, fun recorded _ => ?_⟩
          obtain ⟨start, callback⟩ := recorded
          cases start with
          | true => exact ⟨trivial, fun _ _ => terminate_meets callback hswapped⟩
          | false => exact terminate_meets callback hswapped
  | runTimer name txn => exact ⟨trivial, fun callback _ => terminate_meets callback hswapped⟩

theorem shutdownServers_meets (txns : List Nat) :
    (shutdownServers txns : Method κ Unit).Meets (layerContract κ) g fun g' _ =>
      g'.swapped = g.swapped ∧ g'.clientsDown = g.clientsDown ∧
        (∀ txn ∈ g.serversDown, txn ∈ g'.serversDown) ∧ ∀ txn ∈ txns, txn ∈ g'.serversDown := by
  induction txns generalizing g with
  | nil => exact ⟨rfl, rfl, fun _ h => h, fun _ h => by cases h⟩
  | cons txn txns ih =>
      refine ⟨trivial, fun _ _ => ?_⟩
      refine Program.Meets.mono (@ih { g with serversDown := txn :: g.serversDown })
        fun g' _ h => ⟨h.1, h.2.1, fun other hmem => ?_, fun other hmem => ?_⟩
      · exact h.2.2.1 other (List.mem_cons_of_mem _ hmem)
      · obtain rfl | hmem := List.mem_cons.mp hmem
        · exact h.2.2.1 other List.mem_cons_self
        · exact h.2.2.2 other hmem

theorem shutdownClients_meets (txns : List Nat) :
    (shutdownClients txns : Method κ Unit).Meets (layerContract κ) g fun g' _ =>
      g'.swapped = g.swapped ∧ (∀ txn ∈ g.clientsDown, txn ∈ g'.clientsDown) ∧
        ∀ txn ∈ txns, txn ∈ g'.clientsDown := by
  induction txns generalizing g with
  | nil => exact ⟨rfl, fun _ h => h, fun _ h => by cases h⟩
  | cons txn txns ih =>
      refine ⟨trivial, fun _ _ => ?_⟩
      refine Program.Meets.mono (@ih { g with clientsDown := txn :: g.clientsDown })
        fun g' _ h => ⟨h.1, fun other hmem => ?_, fun other hmem => ?_⟩
      · exact h.2.1 other (List.mem_cons_of_mem _ hmem)
      · obtain rfl | hmem := List.mem_cons.mp hmem
        · exact h.2.1 other List.mem_cons_self
        · exact h.2.2 other hmem

theorem shutdown_meets (hswapped : g.swapped = none) :
    (begin (.shutdown : LayerCall κ)).Meets (layerContract κ) g LayerHistory.Ends := by
  refine ⟨trivial, fun _ _ => ⟨⟨rfl, hswapped⟩, fun taken _ => ?_⟩⟩
  change Program.Meets (layerContract κ) { g with stored := true, swapped := some taken }
    ((shutdownClients taken.1 >>= fun _ => shutdownServers taken.2) >>= fun _ => return none) _
  refine Program.Meets.bind (Q := fun g' _ => g'.swapped = some taken ∧
    (∀ txn ∈ taken.1, txn ∈ g'.clientsDown) ∧ ∀ txn ∈ taken.2, txn ∈ g'.serversDown) ?_ ?_
  · refine Program.Meets.bind (shutdownClients_meets taken.1) fun g' _ hclients => ?_
    refine Program.Meets.mono (shutdownServers_meets taken.2) fun g'' _ hservers => ?_
    refine ⟨hservers.1.trans hclients.1, fun txn hmem => ?_, hservers.2.2.2⟩
    rw [hservers.2.1]
    exact hclients.2.2 txn hmem
  · intro g' _ h
    refine ⟨(fun key heq => by cases heq), fun other heq => ?_, fun other heq => ?_⟩
    · cases h.1.symm.trans heq
      exact h.2.1
    · cases h.1.symm.trans heq
      exact h.2.2

theorem begin_meets (call : LayerCall κ) :
    (begin call).Meets (layerContract κ) {} LayerHistory.Ends := by
  cases call with
  | sendRequest request dest onResponse => exact sendRequest_meets rfl
  | processResponse response => exact processResponse_meets rfl
  | runTimerB txn => exact runTimerB_meets rfl
  | server call =>
      exact Program.Meets.bind (server_meets call rfl) fun g _ hswapped =>
        .of_none hswapped fun _ heq => by cases heq
  | shutdown => exact shutdown_meets rfl

end SharedLayer
/-! ## What the notices say -/

abbrev LayerLog := List (Nat × LayerNotice)

/-- The tables have been swapped out. -/
def Swapped (log : LayerLog) : Prop :=
  ∃ id clients servers, (id, .swapped clients servers) ∈ log

/-- The thread has read the flag or the request handler after that. -/
def ChecksAfterSwap (log : LayerLog) (id : Nat) : Prop :=
  ∃ before after, log = before ++ after ∧ Swapped before ∧ (id, .checked) ∈ after

section

variable {log out : LayerLog} {id : Nat}

theorem swapped_append : Swapped (log ++ out) ↔ Swapped log ∨ Swapped out := by
  constructor
  · rintro ⟨id, clients, servers, hmem⟩
    obtain hmem | hmem := List.mem_append.mp hmem
    · exact .inl ⟨id, clients, servers, hmem⟩
    · exact .inr ⟨id, clients, servers, hmem⟩
  · rintro (⟨id, clients, servers, hmem⟩ | ⟨id, clients, servers, hmem⟩)
    · exact ⟨id, clients, servers, List.mem_append_left _ hmem⟩
    · exact ⟨id, clients, servers, List.mem_append_right _ hmem⟩

theorem ChecksAfterSwap.swapped (h : ChecksAfterSwap log id) : Swapped log := by
  obtain ⟨before, after, rfl, hswapped, -⟩ := h
  exact swapped_append.mpr (.inl hswapped)

/-- A check that is not among the new notices has been there before. -/
theorem checksAfterSwap_of_append (h : ChecksAfterSwap (log ++ out) id)
    (hnot : (id, .checked) ∉ out) : ChecksAfterSwap log id := by
  obtain ⟨before, after, heq, hswapped, hchecked⟩ := h
  obtain ⟨middle, rfl, rfl⟩ | ⟨middle, rfl, rfl⟩ := List.append_eq_append_iff.mp heq
  · exact (hnot (List.mem_append_right _ hchecked)).elim
  · obtain hchecked | hchecked := List.mem_append.mp hchecked
    · exact ⟨before, middle, rfl, hswapped, hchecked⟩
    · exact (hnot hchecked).elim

end

/-! ## What the operations keep -/

namespace ClientLayer

variable {κ : Type} {s t : ClientLayer κ} {op : ClientOp κ} {refusal : Option ErrorInfo}
variable {answer : ClientAnswer κ op} {events : List ClientEvent}

theorem shuttingDown_serve [OsipAccessor] (h : s.serve op refusal = some (t, answer, events)) :
    t.layer.shuttingDown = s.layer.shuttingDown := by
  cases op with
  | register request dest onResponse =>
      rw [serve] at h
      split at h
      · cases h
        rfl
      · rename_i layer id hsent
        cases h
        rw [TransactionLayer.sendRequest] at hsent
        split_ifs at hsent
        cases hsent
        rfl
  | processResponse id code =>
      obtain ⟨txn, -, heq⟩ := Option.map_eq_some_iff.mp h
      cases heq
      rfl
  | timeout id =>
      rw [serve] at h
      split at h
      · cases h
      · obtain ⟨txn, -, heq⟩ := Option.map_eq_some_iff.mp h
        cases heq
        rfl
  | shuttingDown | send | startSent | startFailed | erase | findClient | onResponse =>
      cases h
      rfl

/-- Nothing is entered into the table of a layer that is shutting down. -/
theorem clientTxns_serve [OsipAccessor] (h : s.serve op refusal = some (t, answer, events))
    (hdown : s.layer.shuttingDown = true) (hempty : ∀ key, s.layer.clientTxns.find key = none)
    (key : Bytes) : t.layer.clientTxns.find key = none := by
  have hshrinks : Shrinks s t := by
    obtain hshrinks | ⟨request, dest, onResponse, rfl, -⟩ := serve_cases h
    · exact hshrinks
    · rw [serve, TransactionLayer.sendRequest, if_pos hdown] at h
      cases h
      exact .refl s
  cases hfind : t.layer.clientTxns.find key with
  | none => rfl
  | some id => cases (hempty key).symm.trans (hshrinks.entries key id hfind)

end ClientLayer

namespace ServerLayer

variable {s t : ServerLayer} {op : ServerOp} {accepted : Bool} {answer : ServerAnswer op}
variable {events : List ServerEvent}

/-- What an operation leaves alone, and that nothing is entered while the layer shuts down. -/
structure Quiet (s t : ServerLayer) : Prop where
  shuttingDown : t.shuttingDown = s.shuttingDown
  requestHandler : t.requestHandler = s.requestHandler
  serverTxns : s.shuttingDown = true → t.serverTxns = s.serverTxns

theorem Quiet.refl (s : ServerLayer) : Quiet s s := ⟨rfl, rfl, fun _ => rfl⟩

theorem quiet_change {α : Type} {id : Nat} {f : Server → Server × α}
    {result : ServerLayer × α × Server} (h : s.change id f = some result) : Quiet s result.1 := by
  obtain ⟨txn, -, rfl⟩ := Option.map_eq_some_iff.mp h
  exact ⟨rfl, rfl, fun _ => rfl⟩

theorem quiet_serve (h : s.serve op accepted = some (t, answer, events)) : Quiet s t := by
  cases op with
  | insert key msg source =>
      rw [serve] at h
      split at h
      · cases h
        exact .refl s
      · rename_i hup
        split at h
        · cases h
          exact .refl s
        · cases h
          exact ⟨rfl, rfl, fun hdown => (hup hdown).elim⟩
  | terminated callback =>
      cases h
      rw [terminated]
      split
      · exact .refl s
      · rename_i hup
        split
        · exact ⟨rfl, rfl, fun hdown => (hup hdown).elim⟩
        · exact .refl s
  | acknowledge id =>
      obtain ⟨result, hchange, heq⟩ := Option.map_eq_some_iff.mp h
      cases heq
      exact quiet_change hchange
  | record id response =>
      obtain ⟨result, hchange, heq⟩ := Option.map_eq_some_iff.mp h
      cases heq
      exact quiet_change hchange
  | startTimers id code =>
      obtain ⟨result, hchange, heq⟩ := Option.map_eq_some_iff.mp h
      cases heq
      exact quiet_change hchange
  | timeout name id =>
      rw [serve] at h
      split at h
      · cases h
      · obtain ⟨result, hchange, heq⟩ := Option.map_eq_some_iff.mp h
        cases heq
        exact quiet_change hchange
  | lastResponse id | callHandler id | send id =>
      obtain ⟨txn, -, heq⟩ := Option.map_eq_some_iff.mp h
      cases heq
      exact .refl s
  | receive | findServer | requestHandler =>
      cases h
      exact .refl s

end ServerLayer

namespace SharedLayer

variable {κ : Type} {s t : SharedLayer κ} {op : LayerOp κ} {refusal : Option ErrorInfo}
variable {answer : LayerAnswer κ op} {out : List LayerNotice}

/-- Both sides see the same flag. -/
def Flagged (s : SharedLayer κ) : Prop :=
  s.client.layer.shuttingDown = s.server.shuttingDown

/-- What holds once the tables have been swapped out. -/
structure Closed (s : SharedLayer κ) : Prop where
  shuttingDown : s.server.shuttingDown = true
  clientTxns : ∀ key, s.client.layer.clientTxns.find key = none
  serverTxns : ∀ key, s.server.serverTxns.find key = none
  requestHandler : s.server.requestHandler = false

theorem serve_eq_some [OsipAccessor] (h : s.serve op refusal = some (t, answer, out)) :
    s.change op refusal = some (t, answer) ∧ out = LayerNotice.ofLayer op answer := by
  obtain ⟨result, hchange, heq⟩ := Option.map_eq_some_iff.mp h
  cases heq
  exact ⟨hchange, rfl⟩

theorem client_change [OsipAccessor] {op : ClientOp κ} {answer : ClientAnswer κ op}
    (h : s.change (.client op) refusal = some (t, answer)) :
    ∃ client events, s.client.serve op refusal = some (client, answer, events) ∧
      t = { s with client } := by
  obtain ⟨⟨client, answer', events⟩, hserve, heq⟩ := Option.map_eq_some_iff.mp h
  cases heq
  exact ⟨client, events, hserve, rfl⟩

theorem server_change [OsipAccessor] {op : ServerOp} {answer : ServerAnswer op}
    (h : s.change (.server op) refusal = some (t, answer)) :
    ∃ server events, s.server.serve op refusal.isNone = some (server, answer, events) ∧
      t = { s with server } := by
  obtain ⟨⟨server, answer', events⟩, hserve, heq⟩ := Option.map_eq_some_iff.mp h
  cases heq
  exact ⟨server, events, hserve, rfl⟩

theorem eraseServer_cases (s : SharedLayer κ) (callback : TerminationCallback) :
    s.eraseServer callback = s ∨ s.eraseServer callback =
      { s with server := { s.server with
        serverTxns := s.server.serverTxns.erase callback.key } } := by
  rw [eraseServer]
  split
  · exact .inr rfl
  · exact .inl rfl

theorem Flagged.change [OsipAccessor] (h : s.Flagged)
    (hchange : s.change op refusal = some (t, answer)) :
    t.Flagged ∧ (s.server.shuttingDown = true → t.server.shuttingDown = true) := by
  cases op with
  | client op =>
      obtain ⟨client, events, hserve, rfl⟩ := client_change hchange
      exact ⟨(ClientLayer.shuttingDown_serve hserve).trans h, id⟩
  | server op =>
      obtain ⟨server, events, hserve, rfl⟩ := server_change hchange
      have hsame := (ServerLayer.quiet_serve hserve).shuttingDown
      exact ⟨Eq.trans h hsame.symm, hsame.trans⟩
  | eraseServer callback =>
      cases hchange
      obtain heq | heq := eraseServer_cases s callback
      · rw [heq]
        exact ⟨h, id⟩
      · rw [heq]
        exact ⟨h, id⟩
  | storeShuttingDown =>
      cases hchange
      exact ⟨rfl, fun _ => rfl⟩
  | shuttingDown | swap | shutdownClient | shutdownServer =>
      cases hchange
      exact ⟨h, id⟩

/-- Tables that have been swapped out stay empty. -/
theorem Closed.change [OsipAccessor] (h : s.Closed) (hflagged : s.Flagged)
    (hchange : s.change op refusal = some (t, answer)) : t.Closed := by
  have hdown := h.shuttingDown
  cases op with
  | client op =>
      obtain ⟨client, events, hserve, rfl⟩ := client_change hchange
      exact ⟨hdown, ClientLayer.clientTxns_serve hserve (Eq.trans hflagged hdown) h.clientTxns,
        h.serverTxns, h.requestHandler⟩
  | server op =>
      obtain ⟨server, events, hserve, rfl⟩ := server_change hchange
      have hquiet := ServerLayer.quiet_serve hserve
      refine ⟨hquiet.shuttingDown.trans hdown, h.clientTxns, fun key => ?_,
        hquiet.requestHandler.trans h.requestHandler⟩
      have hsame := hquiet.serverTxns hdown
      simp only [hsame]
      exact h.serverTxns key
  | eraseServer callback =>
      cases hchange
      obtain heq | heq := eraseServer_cases s callback
      · rw [heq]
        exact h
      · rw [heq]
        refine ⟨hdown, h.clientTxns, fun key => ?_, h.requestHandler⟩
        cases hfind : (s.server.serverTxns.erase callback.key).find key with
        | none => rfl
        | some txn => cases (h.serverTxns key).symm.trans (Table.find_of_find_erase hfind).2
  | storeShuttingDown =>
      cases hchange
      exact ⟨rfl, h.clientTxns, h.serverTxns, h.requestHandler⟩
  | swap =>
      cases hchange
      exact ⟨hdown, fun _ => rfl, fun _ => rfl, rfl⟩
  | shuttingDown | shutdownClient | shutdownServer =>
      cases hchange
      exact ⟨hdown, h.clientTxns, h.serverTxns, h.requestHandler⟩

theorem closed_swapOut (h : s.server.shuttingDown = true) : s.swapOut.Closed :=
  ⟨h, fun _ => rfl, fun _ => rfl, rfl⟩

/-- No check lets a thread pass once the tables have been swapped out. -/
theorem not_closed_of_passed [OsipAccessor] {g : LayerHistory} (hflagged : s.Flagged)
    (hchange : s.change op refusal = some (t, answer))
    (hchecked : .checked ∈ LayerNotice.ofLayer op answer)
    (hpassed : (g.track op answer).passed = true) : ¬ s.Closed := by
  intro hclosed
  have hdown := hclosed.shuttingDown
  cases op with
  | client op =>
      obtain ⟨client, events, hserve, rfl⟩ := client_change hchange
      have hclient : s.client.layer.shuttingDown = true := Eq.trans hflagged hdown
      cases op with
      | shuttingDown =>
          cases hserve
          rw [LayerHistory.track, LayerHistory.trackClient, hclient] at hpassed
          cases hpassed
      | register request dest onResponse =>
          rw [ClientLayer.serve, TransactionLayer.sendRequest, if_pos hclient] at hserve
          cases hserve
          cases hpassed
      | onResponse | erase => cases List.mem_singleton.mp hchecked
      | send | startSent | startFailed | findClient | processResponse | timeout => cases hchecked
  | server op =>
      obtain ⟨server, events, hserve, rfl⟩ := server_change hchange
      cases op with
      | receive msg =>
          cases hserve
          rw [LayerHistory.track, LayerHistory.trackServer, hdown] at hpassed
          cases hpassed
      | insert key msg source =>
          rw [ServerLayer.serve, if_pos hdown] at hserve
          cases hserve
          cases hpassed
      | requestHandler =>
          cases hserve
          rw [LayerHistory.track, LayerHistory.trackServer, hclosed.requestHandler] at hpassed
          cases hpassed
      | callHandler => cases List.mem_singleton.mp hchecked
      | findServer | acknowledge | lastResponse | send | record | startTimers | timeout
      | terminated => cases hchecked
  | shuttingDown =>
      cases hchange
      rw [LayerHistory.track, hdown] at hpassed
      cases hpassed
  | eraseServer | swap | shutdownClient | shutdownServer => cases List.mem_singleton.mp hchecked
  | storeShuttingDown => cases hchecked

/-- Nothing is entered once the tables have been swapped out. -/
theorem not_closed_of_inserts [OsipAccessor] (hflagged : s.Flagged)
    (hchange : s.change op refusal = some (t, answer)) {notice : LayerNotice}
    (hmem : notice ∈ LayerNotice.ofLayer op answer) (hinserts : notice.Inserts) : ¬ s.Closed := by
  intro hclosed
  have hdown := hclosed.shuttingDown
  have hchecked : ∀ {notices : List LayerNotice}, notice ∈ notices →
      notices = [.checked] ∨ notices = [.entered] ∨ notices = [] → False := by
    rintro notices hmem (rfl | rfl | rfl)
    · cases List.mem_singleton.mp hmem
      exact hinserts
    · cases List.mem_singleton.mp hmem
      exact hinserts
    · cases hmem
  cases op with
  | client op =>
      obtain ⟨client, events, hserve, rfl⟩ := client_change hchange
      have hclient : s.client.layer.shuttingDown = true := Eq.trans hflagged hdown
      cases op with
      | register request dest onResponse =>
          rw [ClientLayer.serve, TransactionLayer.sendRequest, if_pos hclient] at hserve
          cases hserve
          exact hchecked hmem (.inl rfl)
      | shuttingDown => exact hchecked hmem (.inl rfl)
      | onResponse | erase => exact hchecked hmem (.inr (.inl rfl))
      | send | startSent | startFailed | findClient | processResponse | timeout =>
          exact hchecked hmem (.inr (.inr rfl))
  | server op =>
      obtain ⟨server, events, hserve, rfl⟩ := server_change hchange
      cases op with
      | insert key msg source =>
          rw [ServerLayer.serve, if_pos hdown] at hserve
          cases hserve
          exact hchecked hmem (.inl rfl)
      | receive | requestHandler => exact hchecked hmem (.inl rfl)
      | callHandler => exact hchecked hmem (.inr (.inl rfl))
      | findServer | acknowledge | lastResponse | send | record | startTimers | timeout
      | terminated => exact hchecked hmem (.inr (.inr rfl))
  | shuttingDown => exact hchecked hmem (.inl rfl)
  | eraseServer => exact hchecked hmem (.inr (.inl rfl))
  | storeShuttingDown => exact hchecked hmem (.inr (.inr rfl))
  | swap | shutdownClient | shutdownServer =>
      cases List.mem_singleton.mp hmem
      exact hinserts

end SharedLayer
/-! ## What a thread learns from an operation -/

namespace LayerNotice

variable {κ : Type} {notice : LayerNotice}

theorem not_ofShutdown_client {op : ClientOp κ} {answer : ClientAnswer κ op}
    (hmem : notice ∈ ofClient op answer) : ¬ notice.OfShutdown := by
  cases op with
  | register request dest onResponse =>
      cases answer with
      | error error =>
          rw [List.mem_singleton.mp hmem]
          exact id
      | ok txn =>
          obtain rfl | hmem := List.mem_cons.mp hmem
          · exact id
          · rw [List.mem_singleton.mp hmem]
            exact id
  | shuttingDown | onResponse | erase =>
      rw [List.mem_singleton.mp hmem]
      exact id
  | send | startSent | startFailed | findClient | processResponse | timeout => cases hmem

theorem not_ofShutdown_server {op : ServerOp} {answer : ServerAnswer op}
    (hmem : notice ∈ ofServer op answer) : ¬ notice.OfShutdown := by
  cases op with
  | insert key msg source =>
      cases answer with
      | shuttingDown | existing =>
          rw [List.mem_singleton.mp hmem]
          exact id
      | inserted txn =>
          obtain rfl | hmem := List.mem_cons.mp hmem
          · exact id
          · rw [List.mem_singleton.mp hmem]
            exact id
  | receive | requestHandler | callHandler =>
      rw [List.mem_singleton.mp hmem]
      exact id
  | findServer | acknowledge | lastResponse | send | record | startTimers | timeout
  | terminated => cases hmem

end LayerNotice

namespace LayerHistory

variable {κ : Type} {g : LayerHistory} {op : LayerOp κ} {answer : LayerAnswer κ op}

/-- Who calls somebody is past its last check. -/
theorem passed_of_entered (hallows : g.Allows op)
    (hmem : .entered ∈ LayerNotice.ofLayer op answer) :
    g.passed = true ∧ LayerNotice.ofLayer op answer = [.entered] := by
  cases op with
  | client op =>
      cases op with
      | onResponse | erase => exact ⟨hallows, rfl⟩
      | shuttingDown => cases List.mem_singleton.mp hmem
      | register request dest onResponse =>
          cases answer with
          | error error => cases List.mem_singleton.mp hmem
          | ok txn =>
              obtain hmem | hmem := List.mem_cons.mp hmem
              · cases hmem
              · cases List.mem_singleton.mp hmem
      | send | startSent | startFailed | findClient | processResponse | timeout => cases hmem
  | server op =>
      cases op with
      | callHandler => exact ⟨hallows, rfl⟩
      | insert key msg source =>
          cases answer with
          | shuttingDown | existing => cases List.mem_singleton.mp hmem
          | inserted txn =>
              obtain hmem | hmem := List.mem_cons.mp hmem
              · cases hmem
              · cases List.mem_singleton.mp hmem
      | receive | requestHandler => cases List.mem_singleton.mp hmem
      | findServer | acknowledge | lastResponse | send | record | startTimers | timeout
      | terminated => cases hmem
  | eraseServer => exact ⟨hallows, rfl⟩
  | shuttingDown | swap | shutdownClient | shutdownServer => cases List.mem_singleton.mp hmem
  | storeShuttingDown => cases hmem

/-- The notices of `shutdown` have an operation each. -/
theorem op_of_mem {notice : LayerNotice} (hmem : notice ∈ LayerNotice.ofLayer op answer) :
    notice.OfShutdown →
      (∃ clients servers, notice = .swapped clients servers ∧ op = .swap ∧
        LayerNotice.ofLayer op answer = [.swapped clients servers] ∧
        (g.track op answer).swapped = some (clients, servers)) ∨
      (∃ txn, notice = .clientShutDown txn ∧ op = .shutdownClient txn) ∨
      ∃ txn, notice = .serverShutDown txn ∧ op = .shutdownServer txn := by
  intro hshutdown
  cases op with
  | client op => exact (LayerNotice.not_ofShutdown_client hmem hshutdown).elim
  | server op => exact (LayerNotice.not_ofShutdown_server hmem hshutdown).elim
  | swap =>
      cases List.mem_singleton.mp hmem
      exact .inl ⟨_, _, rfl, rfl, rfl, rfl⟩
  | shutdownClient txn =>
      cases List.mem_singleton.mp hmem
      exact .inr (.inl ⟨txn, rfl, rfl⟩)
  | shutdownServer txn =>
      cases List.mem_singleton.mp hmem
      exact .inr (.inr ⟨txn, rfl, rfl⟩)
  | shuttingDown | eraseServer =>
      cases List.mem_singleton.mp hmem
      exact hshutdown.elim
  | storeShuttingDown => cases hmem

/-- The notice of a swap is that of its only operation. -/
theorem swap_of_swapped {clients servers : List Nat}
    (hmem : .swapped clients servers ∈ LayerNotice.ofLayer op answer) :
    op = .swap ∧ LayerNotice.ofLayer op answer = [.swapped clients servers] ∧
      (g.track op answer).swapped = some (clients, servers) := by
  obtain ⟨_, _, heq, hop⟩ | ⟨_, heq, -⟩ | ⟨_, heq, -⟩ := op_of_mem (g := g) hmem trivial
  · cases heq
    exact hop
  · cases heq
  · cases heq

/-- What an operation adds to the history. -/
structure Grows (g : LayerHistory) (op : LayerOp κ) (answer : LayerAnswer κ op) : Prop where
  passed : .checked ∉ LayerNotice.ofLayer op answer → (g.track op answer).passed = g.passed
  stored : (g.track op answer).stored = true → g.stored = true ∨ op = .storeShuttingDown
  registered : ∀ key, (g.track op answer).registered = some key → g.registered = some key ∨
    ∃ txn, .registered txn key ∈ LayerNotice.ofLayer op answer
  swapped : op = .swap ∨ (g.track op answer).swapped = g.swapped
  clients : ∀ txn ∈ (g.track op answer).clientsDown, txn ∈ g.clientsDown ∨
    .clientShutDown txn ∈ LayerNotice.ofLayer op answer
  servers : ∀ txn ∈ (g.track op answer).serversDown, txn ∈ g.serversDown ∨
    .serverShutDown txn ∈ LayerNotice.ofLayer op answer

theorem Grows.of_eq (h : g.track op answer = g) : g.Grows op answer := by
  refine ⟨?_, ?_, ?_, ?_, ?_, ?_⟩
  · exact fun _ => by rw [h]
  · exact fun hstored => .inl (h ▸ hstored)
  · exact fun key hkey => .inl (h ▸ hkey)
  · exact .inr (by rw [h])
  · exact fun txn hmem => .inl (h ▸ hmem)
  · exact fun txn hmem => .inl (h ▸ hmem)

theorem Grows.of_checked {passed : Bool} (h : g.track op answer = { g with passed })
    (hchecked : .checked ∈ LayerNotice.ofLayer op answer) : g.Grows op answer := by
  refine ⟨fun hnot => (hnot hchecked).elim, ?_, ?_, ?_, ?_, ?_⟩
  · exact fun hstored => .inl (by rw [h] at hstored; exact hstored)
  · exact fun key hkey => .inl (by rw [h] at hkey; exact hkey)
  · exact .inr (by rw [h])
  · exact fun txn hmem => .inl (by rw [h] at hmem; exact hmem)
  · exact fun txn hmem => .inl (by rw [h] at hmem; exact hmem)

theorem grows (g : LayerHistory) (op : LayerOp κ) (answer : LayerAnswer κ op) :
    g.Grows op answer := by
  cases op with
  | client op =>
      cases op with
      | shuttingDown => exact .of_checked rfl List.mem_cons_self
      | register request dest onResponse =>
          cases answer with
          | error error => exact .of_checked rfl List.mem_cons_self
          | ok txn =>
              refine ⟨fun hnot => (hnot List.mem_cons_self).elim, .inl,
                fun key hkey => ?_, .inr rfl, fun _ => .inl, fun _ => .inl⟩
              cases hkey
              exact .inr ⟨txn, List.mem_cons_of_mem _ List.mem_cons_self⟩
      | onResponse | erase | send | startSent | startFailed | findClient | processResponse
      | timeout => exact .of_eq rfl
  | server op =>
      cases op with
      | receive | requestHandler => exact .of_checked rfl List.mem_cons_self
      | insert key msg source =>
          cases answer with
          | shuttingDown | existing | inserted => exact .of_checked rfl List.mem_cons_self
      | callHandler | findServer | acknowledge | lastResponse | send | record | startTimers
      | timeout | terminated => exact .of_eq rfl
  | shuttingDown => exact .of_checked rfl List.mem_cons_self
  | eraseServer => exact .of_eq rfl
  | storeShuttingDown =>
      exact ⟨fun _ => rfl, fun _ => .inr rfl, fun _ => .inl, .inr rfl, fun _ => .inl, fun _ => .inl⟩
  | swap => exact ⟨fun _ => rfl, .inl, fun _ => .inl, .inl rfl, fun _ => .inl, fun _ => .inl⟩
  | shutdownClient txn =>
      refine ⟨fun _ => rfl, .inl, fun _ => .inl, .inr rfl, fun other hmem => ?_, fun _ => .inl⟩
      obtain rfl | hmem := List.mem_cons.mp hmem
      · exact .inr List.mem_cons_self
      · exact .inl hmem
  | shutdownServer txn =>
      refine ⟨fun _ => rfl, .inl, fun _ => .inl, .inr rfl, fun _ => .inl, fun other hmem => ?_⟩
      obtain rfl | hmem := List.mem_cons.mp hmem
      · exact .inr List.mem_cons_self
      · exact .inl hmem

end LayerHistory

/-! ## Every interleaving keeps it -/

/-- An event of the longer log is in the old one, or one of the new ones. -/
theorem split_append {ω : Type} {log out before after : List ω} {event : ω}
    (h : log ++ out = before ++ event :: after) :
    (∃ rest, log = before ++ event :: rest) ∨
      ∃ first, before = log ++ first ∧ out = first ++ event :: after := by
  obtain ⟨middle, hbefore, hout⟩ | ⟨middle, hlog, hafter⟩ := List.append_eq_append_iff.mp h
  · exact .inr ⟨middle, hbefore, hout⟩
  · cases middle with
    | nil =>
        rw [List.append_nil] at hlog
        rw [List.nil_append] at hafter
        exact .inr ⟨[], by rw [List.append_nil, hlog], by rw [List.nil_append, ← hafter]⟩
    | cons first rest =>
        cases hafter
        exact .inl ⟨rest, hlog⟩

namespace SharedLayer

variable {κ : Type} {s t : SharedLayer κ} {log : LayerLog} {id : Nat} {g : LayerHistory}
variable {op : LayerOp κ} {refusal : Option ErrorInfo} {answer : LayerAnswer κ op}

/-- What holds of the layer after the events so far. -/
structure Kept (s : SharedLayer κ) (log : LayerLog) : Prop where
  flagged : s.Flagged
  closed : Swapped log → s.Closed
  entered : ∀ before id after, log = before ++ (id, .entered) :: after →
    ¬ ChecksAfterSwap before id
  inserted : ∀ before event after, log = before ++ event :: after → event.2.Inserts →
    ¬ Swapped before

/-- What the events say of a thread with this history. -/
structure Linked (s : SharedLayer κ) (log : LayerLog) (id : Nat) (g : LayerHistory) : Prop where
  passed : g.passed = true → ¬ ChecksAfterSwap log id
  stored : g.stored = true → s.server.shuttingDown = true
  registered : ∀ key, g.registered = some key → ∃ txn, (id, .registered txn key) ∈ log
  swapped : ∀ clients servers, (id, .swapped clients servers) ∈ log →
    g.swapped = some (clients, servers)
  clients : ∀ txn ∈ g.clientsDown, (id, .clientShutDown txn) ∈ log
  servers : ∀ txn ∈ g.serversDown, (id, .serverShutDown txn) ∈ log

theorem swapped_map {notices : List LayerNotice} (h : Swapped (notices.map (id, ·))) :
    ∃ clients servers, .swapped clients servers ∈ notices := by
  obtain ⟨_, clients, servers, hmem⟩ := h
  obtain ⟨notice, hnotice, heq⟩ := List.mem_map.mp hmem
  cases heq
  exact ⟨clients, servers, hnotice⟩

theorem Kept.serves [OsipAccessor] (h : s.Kept log) (hlinked : s.Linked log id g)
    (hallows : g.Allows op) (hchange : s.change op refusal = some (t, answer)) :
    t.Kept (log ++ (LayerNotice.ofLayer op answer).map (id, ·)) := by
  refine ⟨(h.flagged.change hchange).1, fun hswapped => ?_, fun before other after heq => ?_,
    fun before event after heq hinserts hswapped => ?_⟩
  · obtain hswapped | hswapped := swapped_append.mp hswapped
    · exact (h.closed hswapped).change h.flagged hchange
    · obtain ⟨clients, servers, hmem⟩ := swapped_map hswapped
      obtain ⟨rfl, -, -⟩ := LayerHistory.swap_of_swapped (g := g) hmem
      cases hchange
      exact closed_swapOut (hlinked.stored hallows.1)
  · obtain ⟨rest, heq⟩ | ⟨first, rfl, hout⟩ := split_append heq
    · exact h.entered before other rest heq
    · have hmem : (other, LayerNotice.entered) ∈
          (LayerNotice.ofLayer op answer).map (id, ·) := by
        rw [hout]
        exact List.mem_append_right _ List.mem_cons_self
      obtain ⟨notice, hnotice, hsame⟩ := List.mem_map.mp hmem
      cases hsame
      obtain ⟨hpassed, hsingle⟩ := LayerHistory.passed_of_entered hallows hnotice
      rw [hsingle, List.map_singleton] at hout
      cases first with
      | nil =>
          rw [List.append_nil]
          exact hlinked.passed hpassed
      | cons first rest =>
          have hlength := congrArg List.length hout
          simp at hlength
  · obtain ⟨rest, heq⟩ | ⟨first, rfl, hout⟩ := split_append heq
    · exact h.inserted before event rest heq hinserts hswapped
    · have hmem : event ∈ (LayerNotice.ofLayer op answer).map (id, ·) := by
        rw [hout]
        exact List.mem_append_right _ List.mem_cons_self
      obtain ⟨notice, hnotice, rfl⟩ := List.mem_map.mp hmem
      obtain hswapped | ⟨other, clients, servers, hfirst⟩ := swapped_append.mp hswapped
      · exact not_closed_of_inserts h.flagged hchange hnotice hinserts (h.closed hswapped)
      · have hmem' : (other, LayerNotice.swapped clients servers) ∈
            (LayerNotice.ofLayer op answer).map (id, ·) := by
          rw [hout]
          exact List.mem_append_left _ hfirst
        obtain ⟨swap, hswap, hsame⟩ := List.mem_map.mp hmem'
        cases hsame
        obtain ⟨-, hsingle, -⟩ := LayerHistory.swap_of_swapped (g := g) hswap
        rw [hsingle] at hnotice
        cases List.mem_singleton.mp hnotice
        exact hinserts

theorem Linked.serves [OsipAccessor] (h : s.Linked log id g) (hkept : s.Kept log)
    (hallows : g.Allows op) (hchange : s.change op refusal = some (t, answer)) :
    t.Linked (log ++ (LayerNotice.ofLayer op answer).map (id, ·)) id (g.track op answer) := by
  have hgrows := g.grows op answer
  have hmap : ∀ {notice : LayerNotice}, notice ∈ LayerNotice.ofLayer op answer →
      (id, notice) ∈ log ++ (LayerNotice.ofLayer op answer).map (id, ·) :=
    fun hmem => List.mem_append_right _ (List.mem_map.mpr ⟨_, hmem, rfl⟩)
  have hback : ∀ {notice : LayerNotice},
      (id, notice) ∈ (LayerNotice.ofLayer op answer).map (id, ·) →
      notice ∈ LayerNotice.ofLayer op answer := by
    intro notice hmem
    obtain ⟨other, hother, heq⟩ := List.mem_map.mp hmem
    cases heq
    exact hother
  refine ⟨fun hpassed hchecks => ?_, fun hstored => ?_, fun key hkey => ?_,
    fun clients servers hmem => ?_, fun txn hmem => ?_, fun txn hmem => ?_⟩
  · by_cases hchecked : .checked ∈ LayerNotice.ofLayer op answer
    · have hopen := not_closed_of_passed hkept.flagged hchange hchecked hpassed
      obtain hswapped | hswapped := swapped_append.mp hchecks.swapped
      · exact hopen (hkept.closed hswapped)
      · obtain ⟨clients, servers, hmem⟩ := swapped_map hswapped
        obtain ⟨-, hsingle, -⟩ := LayerHistory.swap_of_swapped (g := g) hmem
        rw [hsingle] at hchecked
        cases List.mem_singleton.mp hchecked
    · rw [hgrows.passed hchecked] at hpassed
      exact h.passed hpassed (checksAfterSwap_of_append hchecks fun hmem => hchecked (hback hmem))
  · obtain hstored | rfl := hgrows.stored hstored
    · exact (hkept.flagged.change hchange).2 (h.stored hstored)
    · cases hchange
      rfl
  · obtain hkey | ⟨txn, hmem⟩ := hgrows.registered key hkey
    · obtain ⟨txn, hmem⟩ := h.registered key hkey
      exact ⟨txn, List.mem_append_left _ hmem⟩
    · exact ⟨txn, hmap hmem⟩
  · obtain hmem | hmem := List.mem_append.mp hmem
    · have hold := h.swapped clients servers hmem
      obtain rfl | hsame := hgrows.swapped
      · cases hold.symm.trans hallows.2
      · rw [hsame]
        exact hold
    · exact (LayerHistory.swap_of_swapped (hback hmem)).2.2
  · obtain hmem | hmem := hgrows.clients txn hmem
    · exact List.mem_append_left _ (h.clients txn hmem)
    · exact hmap hmem
  · obtain hmem | hmem := hgrows.servers txn hmem
    · exact List.mem_append_left _ (h.servers txn hmem)
    · exact hmap hmem

/-- Other threads see nothing of it but the flag. -/
theorem Linked.elsewhere {other : Nat} (h : s.Linked log other g) (hne : other ≠ id)
    (hdown : s.server.shuttingDown = true → t.server.shuttingDown = true)
    (notices : List LayerNotice) : t.Linked (log ++ notices.map (id, ·)) other g := by
  have hnot : ∀ notice, (other, notice) ∉ notices.map (id, ·) := by
    intro notice hmem
    obtain ⟨_, _, heq⟩ := List.mem_map.mp hmem
    cases heq
    exact hne rfl
  refine ⟨fun hpassed hchecks => h.passed hpassed (checksAfterSwap_of_append hchecks (hnot _)),
    fun hstored => hdown (h.stored hstored), fun key hkey => ?_, fun clients servers hmem => ?_,
    fun txn hmem => List.mem_append_left _ (h.clients txn hmem),
    fun txn hmem => List.mem_append_left _ (h.servers txn hmem)⟩
  · obtain ⟨txn, hmem⟩ := h.registered key hkey
    exact ⟨txn, List.mem_append_left _ hmem⟩
  · obtain hmem | hmem := List.mem_append.mp hmem
    · exact h.swapped clients servers hmem
    · exact (hnot _ hmem).elim

/-- What happens besides touches neither the tables nor the flags. -/
theorem background_keeps {event : LayerBackground} (h : s.background event = some t) :
    t.client.layer.shuttingDown = s.client.layer.shuttingDown ∧
      t.client.layer.clientTxns = s.client.layer.clientTxns ∧
      t.server.shuttingDown = s.server.shuttingDown ∧
      t.server.serverTxns = s.server.serverTxns ∧
      t.server.requestHandler = s.server.requestHandler := by
  cases event with
  | elapse duration =>
      cases h
      exact ⟨rfl, rfl, rfl, rfl, rfl⟩
  | expireClient name txn =>
      obtain ⟨client, hclient, rfl⟩ := Option.map_eq_some_iff.mp h
      rw [ClientLayer.background] at hclient
      split at hclient
      · cases hclient
      · cases hclient
        exact ⟨rfl, rfl, rfl, rfl, rfl⟩
  | expireServer name txn =>
      obtain ⟨server, hserver, rfl⟩ := Option.map_eq_some_iff.mp h
      rw [ServerLayer.background] at hserver
      split at hserver
      · cases hserver
      · cases hserver
        exact ⟨rfl, rfl, rfl, rfl, rfl⟩
  | runTimerA txn =>
      obtain ⟨client, hclient, rfl⟩ := Option.map_eq_some_iff.mp h
      rw [ClientLayer.background] at hclient
      split at hclient
      · cases hclient
      · cases hclient
        exact ⟨rfl, rfl, rfl, rfl, rfl⟩

theorem kept_init (requestHandler : Bool) : (init requestHandler : SharedLayer κ).Kept [] := by
  refine ⟨rfl, ?_, ?_, ?_⟩
  · rintro ⟨id, clients, servers, hmem⟩
    cases hmem
  · intro before id after heq
    exact absurd heq (by simp)
  · intro before event after heq
    exact absurd heq (by simp)

end SharedLayer

def layerDiscipline (κ : Type) :
    Discipline (SharedLayer κ) (layerOps κ) LayerHistory (Option (Result Bytes)) LayerNotice where
  contract := layerContract κ
  assumes _ _ := True
  shared := SharedLayer.Kept
  linked := SharedLayer.Linked
  result := LayerHistory.Ends

theorem layerDiscipline_sound [OsipAccessor] (κ : Type) :
    (layerDiscipline κ).Sound (layerService κ) where
  track _ _ _ := rfl
  begins := SharedLayer.begin_meets
  fresh s log id request hkept hnumbered := by
    refine ⟨(fun hpassed => by cases hpassed), (fun hstored => by cases hstored),
      (fun _ hkey => by cases hkey), fun clients servers hmem => ?_, (fun _ hmem => by cases hmem),
      fun _ hmem => by cases hmem⟩
    exact (Nat.lt_irrefl _ (hnumbered _ hmem)).elim
  serves s log id g op refusal t answer out hkept hlinked hallows hserve _ := by
    obtain ⟨hchange, rfl⟩ := SharedLayer.serve_eq_some hserve
    exact ⟨hkept.serves hlinked hallows hchange, trivial, hlinked.serves hkept hallows hchange,
      fun _ _ hne hother => hother.elsewhere hne (hkept.flagged.change hchange).2 _⟩
  background s log event t hkept hbackground := by
    obtain ⟨hclientFlag, hclients, hserverFlag, hservers, hhandler⟩ :=
      SharedLayer.background_keeps hbackground
    refine ⟨⟨?_, fun hswapped => ?_, hkept.entered, hkept.inserted⟩, fun id g hlinked => ?_⟩
    · exact hclientFlag.trans (Eq.trans hkept.flagged hserverFlag.symm)
    · have hclosed := hkept.closed hswapped
      refine ⟨hserverFlag.trans hclosed.shuttingDown, fun key => ?_, fun key => ?_,
        hhandler.trans hclosed.requestHandler⟩
      · rw [hclients]
        exact hclosed.clientTxns key
      · rw [hservers]
        exact hclosed.serverTxns key
    · exact ⟨hlinked.passed, fun hstored => hserverFlag.trans (hlinked.stored hstored),
        hlinked.registered, hlinked.swapped, hlinked.clients, hlinked.servers⟩

/-! ## What the notices of a shutdown are of -/

abbrev LayerThreads (κ : Type) :=
  Threads (SharedLayer κ) (layerOps κ) Exception LayerHistory (Option (Result Bytes))

section

variable {κ : Type} {s t : LayerThreads κ} {id txn : Nat} {refusal : Option ErrorInfo}
variable {out : LayerLog} {clients servers : List Nat}

/-- The swap takes all the transactions that are in the tables. -/
theorem swapped_values [OsipAccessor]
    (hstep : s.runThread (layerService κ) id refusal = some (t, out))
    (hmem : (id, .swapped clients servers) ∈ out) :
    clients = s.shared.client.layer.clientTxns.values ∧
      servers = s.shared.server.serverTxns.values := by
  obtain ⟨history, op, next, shared, answer, events, -, hserve, rfl, rfl⟩ :=
    Threads.runThread_eq_some hstep
  obtain ⟨hchange, rfl⟩ := SharedLayer.serve_eq_some hserve
  obtain ⟨notice, hnotice, heq⟩ := List.mem_map.mp hmem
  cases heq
  obtain ⟨rfl, -, -⟩ := LayerHistory.swap_of_swapped (g := history) hnotice
  cases hchange
  cases List.mem_singleton.mp hnotice
  exact ⟨rfl, rfl⟩

/-- What it is to shut a transaction down. -/
theorem shutDown_effect [OsipAccessor]
    (hstep : s.runThread (layerService κ) id refusal = some (t, out)) :
    ((id, .clientShutDown txn) ∈ out → t.shared.client.layer.clients.find txn =
      (s.shared.client.layer.clients.find txn).map (·.shutdown)) ∧
    ((id, .serverShutDown txn) ∈ out →
      t.shared.server.servers.find txn = (s.shared.server.servers.find txn).map (·.shutdown)) := by
  obtain ⟨history, op, next, shared, answer, events, -, hserve, rfl, rfl⟩ :=
    Threads.runThread_eq_some hstep
  obtain ⟨hchange, rfl⟩ := SharedLayer.serve_eq_some hserve
  constructor
  · intro hmem
    obtain ⟨notice, hnotice, heq⟩ := List.mem_map.mp hmem
    cases heq
    obtain ⟨_, _, heq, -⟩ | ⟨_, heq, rfl⟩ | ⟨_, heq, -⟩ :=
      LayerHistory.op_of_mem (g := history) hnotice trivial
    · cases heq
    · cases heq
      cases hchange
      exact Table.find_modify_self _ _ _
    · cases heq
  · intro hmem
    obtain ⟨notice, hnotice, heq⟩ := List.mem_map.mp hmem
    cases heq
    obtain ⟨_, _, heq, -⟩ | ⟨_, heq, -⟩ | ⟨_, heq, rfl⟩ :=
      LayerHistory.op_of_mem (g := history) hnotice trivial
    · cases heq
    · cases heq
    · cases heq
      cases hchange
      exact Table.find_modify_self _ _ _

/-- The operations of `shutdown` are always served. -/
theorem shutdown_never_waits [OsipAccessor] {history : LayerHistory} {op : LayerOp κ}
    {next : LayerAnswer κ op → Program (layerOps κ) Exception (Option (Result Bytes))}
    (hoperation : s.operation id = some (history, ⟨op, next⟩))
    (hop : op = .storeShuttingDown ∨ op = .swap ∨ (∃ txn, op = .shutdownClient txn) ∨
      ∃ txn, op = .shutdownServer txn) :
    (s.runThread (layerService κ) id refusal).isSome = true := by
  have hfind := Threads.operation_eq_some hoperation
  obtain rfl | rfl | ⟨txn, rfl⟩ | ⟨txn, rfl⟩ := hop
  · exact Option.isSome_of_eq_some (Threads.runThread_of_serve hfind rfl)
  · exact Option.isSome_of_eq_some (Threads.runThread_of_serve hfind rfl)
  · exact Option.isSome_of_eq_some (Threads.runThread_of_serve hfind rfl)
  · exact Option.isSome_of_eq_some (Threads.runThread_of_serve hfind rfl)

end

/-- In every interleaving, once a call of `shutdown` has swapped the tables out they stay empty;
what was in them is shut down when that call returns; nobody who asks for the flag, or reads the
request handler, after the swap calls a callback or the request handler or handles a timeout; and a
call of `sendRequest` that succeeds has entered its transaction before the swap. -/
theorem shutdown_safe [OsipAccessor] {κ : Type} (requestHandler : Bool)
    (actions : List (ThreadAction (Option ErrorInfo) (LayerCall κ) LayerBackground))
    (s : LayerThreads κ) (log : LayerLog)
    (hrun : (threadsMachine (layerService κ)).exec (.init (.init requestHandler)) actions =
      some (s, log)) :
    (Swapped log → ∀ key, s.shared.client.layer.clientTxns.find key = none ∧
      s.shared.server.serverTxns.find key = none) ∧
    (∀ id refusal t out clients servers,
      s.runThread (layerService κ) id refusal = some (t, out) →
      (id, .swapped clients servers) ∈ out →
      clients = s.shared.client.layer.clientTxns.values ∧
        servers = s.shared.server.serverTxns.values) ∧
    (∀ id refusal t out txn, s.runThread (layerService κ) id refusal = some (t, out) →
      ((id, .clientShutDown txn) ∈ out → t.shared.client.layer.clients.find txn =
        (s.shared.client.layer.clients.find txn).map (·.shutdown)) ∧
      ((id, .serverShutDown txn) ∈ out → t.shared.server.servers.find txn =
        (s.shared.server.servers.find txn).map (·.shutdown))) ∧
    (∀ id history result clients servers, s.outcome id = some (history, result) →
      (id, .swapped clients servers) ∈ log →
      (∀ txn ∈ clients, (id, .clientShutDown txn) ∈ log) ∧
        ∀ txn ∈ servers, (id, .serverShutDown txn) ∈ log) ∧
    (∀ before id after, log = before ++ (id, .entered) :: after → ¬ ChecksAfterSwap before id) ∧
    ∀ id history key, s.outcome id = some (history, some (.ok key)) →
      ∃ before txn after, log = before ++ (id, .registered txn key) :: after ∧
        ¬ Swapped before := by
  have hinv : s.Inv (layerDiscipline κ) log :=
    (layerDiscipline_sound κ).exec_of_forall (fun _ _ => trivial)
      (SharedLayer.kept_init requestHandler) hrun
  have hkept : s.shared.Kept log := hinv.shared
  refine ⟨fun hswapped key => ?_, fun id refusal t out clients servers => swapped_values,
    fun id refusal t out txn => shutDown_effect,
    fun id history result clients servers houtcome hmem => ?_, hkept.entered,
    fun id history key houtcome => ?_⟩
  · exact ⟨(hkept.closed hswapped).clientTxns key, (hkept.closed hswapped).serverTxns key⟩
  · have hlinked : s.shared.Linked log id history := hinv.linked_outcome houtcome
    have hends : history.Ends result := hinv.result houtcome
    have hswapped := hlinked.swapped clients servers hmem
    exact ⟨fun txn htxn => hlinked.clients txn (hends.clients _ hswapped txn htxn),
      fun txn htxn => hlinked.servers txn (hends.servers _ hswapped txn htxn)⟩
  · have hlinked : s.shared.Linked log id history := hinv.linked_outcome houtcome
    have hends : history.Ends (some (.ok key)) := hinv.result houtcome
    obtain ⟨txn, hmem⟩ := hlinked.registered key (hends.registered key rfl)
    obtain ⟨before, after, heq⟩ := List.append_of_mem hmem
    exact ⟨before, txn, after, heq, hkept.inserted before _ after heq trivial⟩

/-! ## A request that is sent while the layer shuts down -/

def lateInvite : SipMessage :=
  (dialogRequest "INVITE" (bytes "a") []).addVia
    ⟨bytes "UDP", bytes "scscf", none, [⟨bytes "branch", some (bytes "z9hG4bK1")⟩]⟩

/-- The request is entered; then the layer is shut down, and its transaction too; then the request
is sent, and the call succeeds. -/
def lateRun : List (ThreadAction (Option ErrorInfo) (LayerCall Unit) LayerBackground) :=
  [.start (.sendRequest lateInvite ⟨bytes "10.0.0.3", 5060, bytes "udp"⟩ none), .run 0 none,
    .run 0 none, .start .shutdown, .run 1 none, .run 1 none, .run 1 none, .run 0 none, .run 0 none]

def lateLog : LayerLog :=
  [(0, .checked), (0, .checked), (0, .registered 0 (clientKey lateInvite)), (1, .swapped [0] []),
    (1, .clientShutDown 0)]

theorem shutdown_safe_late :
    ∃ s history result, (threadsMachine (layerService Unit)).exec (.init (.init true)) lateRun =
        some (s, lateLog) ∧
      s.outcome 0 = some (history, some (.ok (clientKey lateInvite))) ∧
      s.outcome 1 = some result ∧ (1, .clientShutDown 0) ∈ lateLog ∧
      ∃ before txn after,
        lateLog = before ++ (0, .registered txn (clientKey lateInvite)) :: after ∧
          ¬ Swapped before := by
  obtain ⟨-, -, -, hdown, -, hentered⟩ := shutdown_safe true lateRun _ lateLog rfl
  exact ⟨_, _, _, rfl, rfl, rfl, (hdown 1 _ _ [0] [] rfl (by simp [lateLog])).1 0
    List.mem_cons_self, hentered 0 _ _ rfl⟩

end SimIms.Sip
