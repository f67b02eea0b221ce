import SimIms.Lib.Threads
import SimIms.Sip.TransactionLayer

/-!
# The server side of the transaction layer

`processMessage` with a request, the responses of the handlers and the timers of the server
transactions share the table `server_txns`. Each stretch of code under one mutex, each use of the
transport and each call of the request handler is one operation, and others may run in between.
Creating a transaction and entering it into the table are one operation: one that does not get in
is dropped.
-/

namespace SimIms.Sip

open Cxx Lib

/-- The top branch and the method, by which copies of a request are recognised. -/
structure RequestId where
  branch : Bytes
  method : Bytes
deriving DecidableEq, Repr

def SipMessage.requestId (msg : SipMessage) : RequestId := ⟨msg.viaBranch, msg.method⟩

/-- `getTransactionKey` of a request. -/
def serverKey (request : SipMessage) : Bytes := transactionKey request.viaBranch request.method

/-- The callback that `processMessage` installs on a server transaction. -/
structure TerminationCallback where
  key : Bytes
  txn : Nat
deriving DecidableEq, Repr

abbrev Server := ServerTransaction TerminationCallback

/-! ## Operations -/

inductive ServerOp where
  | receive (msg : SipMessage)
  | findServer (key : Bytes)
  | acknowledge (txn : Nat)
  | lastResponse (txn : Nat)
  | insert (key : Bytes) (msg : SipMessage) (source : Endpoint)
  | requestHandler
  | callHandler (txn : Nat)
  | send (txn : Nat) (response : SipMessage)
  | record (txn : Nat) (response : SipMessage)
  | startTimers (txn : Nat) (finalResponseCode : Int)
  | timeout (name : ServerTransaction.TimerName) (txn : Nat)
  | terminated (callback : TerminationCallback)

/-- What became of a new transaction. -/
inductive Insertion where
  | shuttingDown
  | existing (txn : Nat)
  | inserted (txn : Nat)

/-- Whether the layer is shutting down, is what `receive` asks; whether the transport has accepted
the response, is what `send` does. -/
abbrev ServerAnswer : ServerOp → Type
  | .receive _ => Bool
  | .findServer _ => Option Nat
  | .acknowledge _ => Option TerminationCallback
  | .lastResponse _ => Option SipMessage
  | .insert _ _ _ => Insertion
  | .requestHandler => Bool
  | .callHandler _ => Unit
  | .send _ _ => Bool
  | .record _ _ => Bool × Option TerminationCallback
  | .startTimers _ _ => Unit
  | .timeout _ _ => Option TerminationCallback
  | .terminated _ => Unit

def serverOps : Interface := ⟨ServerOp, ServerAnswer⟩

/-! ## Programs -/

namespace ServerLayer

/-- Nothing is returned: what the methods do are their operations. -/
abbrev Method := Program serverOps Exception Unit

def perform (op : ServerOp) : Program serverOps Exception (ServerAnswer op) :=
  Program.perform (F := serverOps) op

/-- Call the termination callback, where there is one. -/
def terminate : Option TerminationCallback → Method
  | none => return ()
  | some callback => perform (.terminated callback)

def acknowledgeAck (txn : Nat) : Method := do
  terminate (← perform (.acknowledge txn))

/-- What the transport says is only logged. -/
def retransmitLastResponse (txn : Nat) : Method := do
  match ← perform (.lastResponse txn) with
  | none => return ()
  | some response =>
      let _ ← perform (.send txn response)
      return ()

/-- A request for which there is no transaction gets one, and goes to the handler. -/
def dispatch (msg : SipMessage) (source : Endpoint) : Method := do
  match ← perform (.findServer (serverKey msg)) with
  | some existing => retransmitLastResponse existing
  | none =>
      match ← perform (.insert (serverKey msg) msg source) with
      | .shuttingDown => return ()
      | .existing existing => retransmitLastResponse existing
      | .inserted txn =>
          if ← perform .requestHandler then perform (.callHandler txn)
          else return ()

/-- `processMessage` with a request. -/
def processRequest (msg : SipMessage) (source : Endpoint) : Method := do
  if ← perform (.receive msg) then return ()
  else if msg.method = bytes "ACK" then
    match ← perform (.findServer (transactionKey msg.viaBranch (bytes "INVITE"))) with
    | some invite => acknowledgeAck invite
    | none => dispatch msg source
  else dispatch msg source

def sendResponse (txn : Nat) (response : SipMessage) : Method := do
  if ← perform (.send txn response) then
    let (start, callback) ← perform (.record txn response)
    if start then perform (.startTimers txn response.statusCode)
    terminate callback
  else return ()

/-- The handler of a timer. -/
def runTimer (name : ServerTransaction.TimerName) (txn : Nat) : Method := do
  terminate (← perform (.timeout name txn))

end ServerLayer

/-! ## What the operations do -/

structure ServerLayer where
  shuttingDown : Bool
  requestHandler : Bool
  serverTxns : Table Bytes Nat
  servers : Table Nat Server
  nextServer : Nat
  now : Nat

inductive ServerEvent where
  | received (request : RequestId) (time : Nat)
  | created (txn : Nat) (request : RequestId) (time : Nat)
  | dispatched (txn : Nat) (request : RequestId)
  | sent (request : RequestId) (code : Int) (time : Nat)
  | acknowledged (request : RequestId)
deriving DecidableEq, Repr

namespace ServerLayer

def init : ServerLayer :=
  { shuttingDown := false, requestHandler := false, serverTxns := .empty, servers := .empty
    nextServer := 0, now := 0 }

/-- The callback takes the entry of its own transaction away. -/
def terminated (s : ServerLayer) (callback : TerminationCallback) : ServerLayer :=
  if s.shuttingDown then s
  else if s.serverTxns.find callback.key = some callback.txn then
    { s with serverTxns := s.serverTxns.erase callback.key }
  else s

/-- Change a transaction, and hand out its termination callback. -/
def change {α : Type} (s : ServerLayer) (id : Nat) (f : Server → Server × α) :
    Option (ServerLayer × α × Server) :=
  (s.servers.find id).map fun txn =>
    ({ s with servers := s.servers.insert id (f txn).1 }, (f txn).2, txn)

def serve (s : ServerLayer) : (op : ServerOp) → (accepted : Bool) →
    Option (ServerLayer × ServerAnswer op × List ServerEvent)
  | .receive msg, _ => some (s, s.shuttingDown, [.received msg.requestId s.now])
  | .findServer key, _ => some (s, s.serverTxns.find key, [])
  | .acknowledge id, _ =>
      (s.change id ServerTransaction.acknowledge).map fun (s, callback, txn) =>
        (s, callback, if callback.isSome then [.acknowledged txn.request.requestId] else [])
  | .lastResponse id, _ => (s.servers.find id).map fun txn => (s, txn.lastResponse, [])
  | .insert key msg source, _ =>
      if s.shuttingDown then some (s, .shuttingDown, [])
      else
        match s.serverTxns.find key with
        | some existing => some (s, .existing existing, [])
        | none =>
            some ({ s with
              serverTxns := s.serverTxns.insert key s.nextServer
              servers := s.servers.insert s.nextServer (.create msg source ⟨key, s.nextServer⟩)
              nextServer := s.nextServer + 1 },
              .inserted s.nextServer, [.created s.nextServer msg.requestId s.now])
  | .requestHandler, _ => some (s, s.requestHandler, [])
  | .callHandler id, _ =>
      (s.servers.find id).map fun txn => (s, (), [.dispatched id txn.request.requestId])
  | .send id response, accepted =>
      (s.servers.find id).map fun txn =>
        (s, accepted,
          if accepted then [.sent txn.request.requestId response.statusCode s.now] else [])
  | .record id response, _ =>
      (s.change id (·.record response)).map fun (s, answer, _) => (s, answer, [])
  | .startTimers id code, _ =>
      (s.change id fun txn => (txn.startTimers s.now code, ())).map fun (s, answer, _) =>
        (s, answer, [])
  | .timeout name id, _ =>
      match (s.servers.find id).bind fun txn => (txn.timer name).dequeue with
      | none => none
      | some timer =>
          (s.change id fun txn => (txn.setTimer timer name).timeout).map fun (s, callback, _) =>
            (s, callback, [])
  | .terminated callback, _ => some (s.terminated callback, (), [])

end ServerLayer

/-! ## Runs -/

inductive ServerCall where
  | processRequest (msg : SipMessage) (source : Endpoint)
  | sendResponse (txn : Nat) (response : SipMessage)
  | runTimer (name : ServerTransaction.TimerName) (txn : Nat)

/-- What happens besides. -/
inductive ServerBackground where
  | elapse (duration : Nat)
  | expireTimer (name : ServerTransaction.TimerName) (txn : Nat)
  | setRequestHandler
  | shutdown

namespace ServerLayer

def begin : ServerCall → Method
  | .processRequest msg source => processRequest msg source
  | .sendResponse txn response => sendResponse txn response
  | .runTimer name txn => runTimer name txn

/-- The table is swapped out, and the transactions that were in it are shut down. -/
def shutdown (s : ServerLayer) : ServerLayer :=
  { s with
    shuttingDown := true, requestHandler := false, serverTxns := .empty
    servers := s.servers.mapValues fun id txn =>
      if s.serverTxns.find (serverKey txn.request) = some id then txn.shutdown else txn }

def background (s : ServerLayer) : ServerBackground → Option ServerLayer
  | .elapse duration => some { s with now := s.now + duration }
  | .expireTimer name id =>
      match (s.servers.find id).bind fun txn => (txn.timer name).expire s.now with
      | none => none
      | some timer => some { s with servers := s.servers.modify id (·.setTimer timer name) }
  | .setRequestHandler => some { s with requestHandler := true }
  | .shutdown => some s.shutdown

end ServerLayer
end SimIms.Sip
