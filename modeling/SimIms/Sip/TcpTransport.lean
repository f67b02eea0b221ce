import SimIms.Common.Types
import SimIms.Lib.Threads

/-!
# The TCP transport

Senders share one connection for each destination. Each stretch under `connections_mutex` or a
`socket_mutex` is one operation, as is each access to an atomic flag; connecting happens between
them, so a destination is marked in `connecting` for that long, and the other senders wait. Handlers
of the acceptor and of the reads run in threads of their own. What is received is put together and
parsed elsewhere.
-/

namespace SimIms.Sip

open Cxx Lib

/-- `make_address` and `to_string`: the address of a text, written as the library writes it, or the
message of the error. -/
class MakeAddress where
  canonical : Bytes → Except Bytes Bytes

/-! ## State -/

/-- `open` stands for the socket as well. Whether the connection was accepted after the table had
been cleared by `stop` is kept for statements. -/
structure TcpConnection where
  remote : Endpoint
  isOpen : Bool := true
  reading : Bool := false
  late : Bool := false
deriving DecidableEq, Repr

/-- Connections are named by their numbers. `accepting` counts the calls of `async_accept` whose
handler has not run yet; `drained` is kept for statements. -/
structure TcpState where
  table : Table Bytes Nat
  connecting : Table Bytes Unit
  connections : Table Nat TcpConnection
  nextConnection : Nat
  running : Bool
  stopped : Bool
  acceptorOpen : Bool
  accepting : Nat
  drained : Bool

def endpointKey (endpoint : Endpoint) : Bytes :=
  endpoint.address ++ bytes ":" ++ decimal endpoint.port.toNat

/-! ## Operations -/

/-- What a sender finds for its key. -/
inductive Claimed where
  | stopped
  | found (connection : Nat)
  | claimed
deriving DecidableEq, Repr

/-- What has become of a new connection. -/
inductive Registered where
  | stopped
  | other (connection : Nat)
  | own (connection : Nat)
deriving DecidableEq, Repr

inductive Written where
  | sent
  | closed
  | failed (ec : ErrorInfo)
deriving DecidableEq, Repr

inductive TcpOp where
  | isStopped
  | claim (key : Bytes)
  | connect (remote : Endpoint)
  | release (key : Bytes)
  | register (key : Bytes) (remote : Endpoint)
  | doRead (connection : Nat)
  | write (connection : Nat) (payload : Bytes)
  | unregister (connection : Nat)
  | close (connection : Nat)
  | openAcceptor
  | doAccept
  | accepted
  | insert (remote : Endpoint)
  | received (connection : Nat)
  | beginStop
  | stopRunning
  | closeAcceptor
  | drain

/-- `accepted` and `received` are the arguments of the handlers: nothing stands for an error. -/
abbrev TcpAnswer : TcpOp → Type
  | .isStopped => Bool
  | .claim _ => Claimed
  | .connect _ => Option ErrorInfo
  | .release _ => Unit
  | .register _ _ => Registered
  | .doRead _ => Unit
  | .write _ _ => Written
  | .unregister _ => Unit
  | .close _ => Unit
  | .openAcceptor => Option ErrorInfo
  | .doAccept => Unit
  | .accepted => Option Endpoint
  | .insert _ => Nat
  | .received _ => Bool
  | .beginStop => Bool
  | .stopRunning => Unit
  | .closeAcceptor => Unit
  | .drain => List Nat

def tcpOps : Interface := ⟨TcpOp, TcpAnswer⟩

/-- What the network does in an operation: whether it fails, how much it has transferred before, and
who connects. -/
structure TcpEnvironment where
  failure : Option ErrorInfo := none
  transferred : Nat := 0
  accepted : Option Endpoint := none

/-- A write that fails is cut, after the beginning of its message. A connection is displaced by an
accepted one in its place, and dropped where a sender fails on it although it is open. -/
inductive TcpEvent where
  | wrote (remote : Endpoint) (payload : Bytes)
  | cut (remote : Endpoint) (transferred : Bytes)
  | displaced (connection : Nat)
  | dropped (connection : Nat)
deriving DecidableEq, Repr

namespace TcpState

variable (s : TcpState)

def init : TcpState :=
  { table := .empty, connecting := .empty, connections := .empty, nextConnection := 0
    running := false, stopped := false, acceptorOpen := false, accepting := 0, drained := false }

def isOpen (connection : Nat) : Bool :=
  ((s.connections.find connection).map TcpConnection.isOpen).getD false

def add (key : Bytes) (connection : TcpConnection) : TcpState :=
  { s with
    table := s.table.insert key s.nextConnection
    connections := s.connections.insert s.nextConnection connection
    nextConnection := s.nextConnection + 1 }

def modify (connection : Nat) (f : TcpConnection → TcpConnection) : TcpState :=
  { s with connections := s.connections.modify connection f }

/-- The entry of a connection is looked for under the endpoint of the connection itself. -/
def unregister (connection : Nat) : TcpState :=
  match s.connections.find connection with
  | none => s
  | some found =>
      if s.table.find (endpointKey found.remote) = some connection then
        { s with table := s.table.erase (endpointKey found.remote) }
      else s

/-- The wait of a sender: it goes on when its key is not marked, or the transport has stopped. -/
def claim (key : Bytes) : Option (TcpState × Claimed) :=
  if s.stopped then some (s, .stopped)
  else if s.connecting.contains key then none
  else
    match s.table.find key with
    | some connection => some (s, .found connection)
    | none => some ({ s with connecting := s.connecting.insert key () }, .claimed)

/-- A connection that finds the transport stopped or another one in its place is closed again. -/
def register (key : Bytes) (remote : Endpoint) : TcpState × Registered :=
  let s := { s with connecting := s.connecting.erase key }
  if s.stopped then (s, .stopped)
  else
    match s.table.find key with
    | some connection => (s, .other connection)
    | none => (s.add key { remote }, .own s.nextConnection)

def serve (s : TcpState) :
    (op : TcpOp) → TcpEnvironment → Option (TcpState × TcpAnswer op × List TcpEvent)
  | .isStopped, _ => some (s, s.stopped, [])
  | .claim key, _ => (s.claim key).map fun result => (result.1, result.2, [])
  | .connect _, environment => some (s, environment.failure, [])
  | .release key, _ => some ({ s with connecting := s.connecting.erase key }, (), [])
  | .register key remote, _ =>
      let result := s.register key remote
      some (result.1, result.2, [])
  | .doRead connection, _ =>
      if s.running && !s.stopped && s.isOpen connection then
        some (s.modify connection ({ · with reading := true }), (), [])
      else some (s, (), [])
  | .write connection payload, environment =>
      match s.connections.find connection with
      | none => none
      | some found =>
          if !found.isOpen then some (s, .closed, [])
          else if s.stopped then some (s, .closed, [.dropped connection])
          else
            match environment.failure with
            | some ec =>
                some (s, .failed ec,
                  [.cut found.remote (payload.take environment.transferred), .dropped connection])
            | none => some (s, .sent, [.wrote found.remote payload])
  | .unregister connection, _ => some (s.unregister connection, (), [])
  | .close connection, _ =>
      some (s.modify connection ({ · with isOpen := false }), (), [])
  | .openAcceptor, environment =>
      match environment.failure with
      | some error => some (s, some error, [])
      | none =>
          some ({ s with acceptorOpen := true, stopped := false, running := true }, none, [])
  | .doAccept, _ =>
      if s.running && s.acceptorOpen then some ({ s with accepting := s.accepting + 1 }, (), [])
      else some (s, (), [])
  | .accepted, environment =>
      if s.accepting = 0 then none
      else some ({ s with accepting := s.accepting - 1 }, environment.accepted, [])
  | .insert remote, _ =>
      some (s.add (endpointKey remote) { remote, late := s.drained }, s.nextConnection,
        match s.table.find (endpointKey remote) with
        | none => []
        | some connection => [.displaced connection])
  | .received connection, environment =>
      match s.connections.find connection with
      | none => none
      | some found =>
          if found.reading then
            some (s.modify connection ({ · with reading := false }), environment.failure.isNone, [])
          else none
  | .beginStop, _ => some ({ s with stopped := true }, !s.stopped, [])
  | .stopRunning, _ => some ({ s with running := false }, (), [])
  | .closeAcceptor, _ => some ({ s with acceptorOpen := false }, (), [])
  | .drain, _ =>
      some ({ s with connecting := .empty, table := .empty, drained := true }, s.table.values, [])

end TcpState

/-! ## Programs -/

namespace TcpTransport

abbrev Method (α : Type) := Program tcpOps Exception α

def perform (op : TcpOp) : Method (TcpAnswer op) := Program.perform (F := tcpOps) op

def transportError (message : String) : ErrorInfo :=
  { code := .sipTransportError, message := bytes message }

section

variable [MakeAddress]

/-- `getOrCreateConnection` from the mark of its key on. -/
def connect (dest : Endpoint) : Method (Result Nat) :=
  let key := endpointKey dest
  match MakeAddress.canonical dest.address with
  | .error message => do
      perform (.release key)
      return .error { transportError "Invalid TCP destination address" with detail := message }
  | .ok address => do
      let remote : Endpoint := { address, port := dest.port, transport := bytes "tcp" }
      match ← perform (.connect remote) with
      | some ec =>
          perform (.release key)
          return .error { transportError "TCP connect failed" with detail := ec.message }
      | none =>
          match ← perform (.register key remote) with
          | .stopped => return .error (transportError "TCP transport is stopped")
          | .other connection => return .ok connection
          | .own connection =>
              perform (.doRead connection)
              return .ok connection

def getOrCreateConnection (dest : Endpoint) : Method (Result Nat) := do
  if ← perform .isStopped then return .error (transportError "TCP transport is stopped")
  else
    match ← perform (.claim (endpointKey dest)) with
    | .stopped => return .error (transportError "TCP transport is stopped")
    | .found connection => return .ok connection
    | .claimed => connect dest

/-- `send` from the serialized message on. -/
def sendData (payload : Bytes) (dest : Endpoint) : Method (Result Unit) :=
  (getOrCreateConnection dest).andThen fun connection => do
    match ← perform (.write connection payload) with
    | .sent => return .ok ()
    | .closed =>
        perform (.unregister connection)
        return .error (transportError "TCP connection is closed")
    | .failed ec =>
        perform (.unregister connection)
        return .error { transportError "TCP send failed" with detail := ec.message }

def send (data : Result Bytes) (dest : Endpoint) : Method (Result Unit) :=
  match data with
  | .error error =>
      .pure (.error { transportError "Failed to serialize message" with detail := error.message })
  | .ok payload => sendData payload dest

end

def start : Method (Result Unit) := do
  match ← perform .openAcceptor with
  | some error => return .error error
  | none =>
      perform .doAccept
      return .ok ()

def closeAll : List Nat → Method Unit
  | [] => .pure ()
  | connection :: active => do
      perform (.close connection)
      closeAll active

def stop : Method Unit := do
  if ← perform .beginStop then
    perform .stopRunning
    perform .closeAcceptor
    let active ← perform .drain
    closeAll active

/-- The handler of `async_accept`. -/
def onAccept : Method Unit := do
  if let some remote ← perform .accepted then
    let connection ← perform (.insert remote)
    perform (.doRead connection)
  perform .doAccept

/-- The handler of `async_read_some`. -/
def onRead (connection : Nat) : Method Unit := do
  if ← perform (.received connection) then
    perform (.doRead connection)
  else
    perform (.unregister connection)
    perform (.close connection)

end TcpTransport

/-! ## Threads -/

inductive TcpTask where
  | send (data : Result Bytes) (dest : Endpoint)
  | start
  | stop
  | onAccept
  | onRead (connection : Nat)

inductive TcpResult where
  | sent (result : Result Unit)
  | started (result : Result Unit)
  | done

/-- A task on its way: the key that it has marked, the connection that it has been given and what
has come of its message there, whether it stops the transport, the connections that it has taken
over to close them, and those that it has removed from the table. -/
structure TcpThread where
  task : TcpTask
  marked : Option Bytes := none
  given : Option Nat := none
  sent : Bool := false
  failed : Bool := false
  stopping : Bool := false
  closing : List Nat := []
  cleared : List Nat := []

def TcpThread.track (thread : TcpThread) : (op : TcpOp) → TcpAnswer op → TcpThread
  | .claim key, answer =>
      match answer with
      | .stopped => thread
      | .found connection => { thread with given := some connection }
      | .claimed => { thread with marked := some key }
  | .release _, _ => { thread with marked := none }
  | .register _ _, answer =>
      match answer with
      | .stopped => { thread with marked := none }
      | .other connection | .own connection =>
          { thread with marked := none, given := some connection }
  | .write _ _, answer =>
      if answer = .sent then { thread with sent := true } else { thread with failed := true }
  | .received connection, answer =>
      if answer then thread else { thread with closing := [connection] }
  | .unregister connection, _ => { thread with cleared := [connection] }
  | .drain, active => { thread with closing := active, cleared := active }
  | .close connection, _ => { thread with closing := thread.closing.filter (· ≠ connection) }
  | .isStopped, _ | .connect _, _ | .doRead _, _ => thread
  | .openAcceptor, _ | .doAccept, _ | .accepted, _ | .insert _, _ => thread
  | .beginStop, first => { thread with stopping := first }
  | .stopRunning, _ | .closeAcceptor, _ => thread

namespace TcpTransport

variable [MakeAddress]

def begin : TcpTask → Method TcpResult
  | .send data dest => do return .sent (← send data dest)
  | .start => do return .started (← start)
  | .stop => do
      stop
      return .done
  | .onAccept => do
      onAccept
      return .done
  | .onRead connection => do
      onRead connection
      return .done

def service : Service TcpState tcpOps Exception TcpThread TcpResult TcpEnvironment TcpTask Empty
    TcpEvent where
  serve := TcpState.serve
  begin := begin
  background _ event := event.elim
  fresh task := { task }
  track := TcpThread.track

end TcpTransport

abbrev TcpThreads := Threads TcpState tcpOps Exception TcpThread TcpResult

end SimIms.Sip
