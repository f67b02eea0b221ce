import SimIms.Common.Types
import SimIms.Lib.Threads
import SimIms.Rtp.Bencode

/-!
# The rtpengine client

Any number of calls send commands and wait, each on a request of its own. One receiver loop reads
the responses, and takes the request of a response out of `pending_requests_` before it completes
it. The destructor fails whatever is pending. Each stretch under a mutex is one step; in between,
anything else can happen.

The events are a history that nothing reads.
-/

namespace SimIms.Rtp

open Cxx Lib

/-- A value that is a dictionary. -/
structure BencodeDict where
  entries : List (Bytes × Tree)
  ordered : (Tree.dict entries).Ordered

def BencodeDict.value (dict : BencodeDict) : BencodeValue := ⟨.dict dict.entries, dict.ordered⟩

structure UdpEndpoint where
  address : Bytes
  port : UInt16
deriving DecidableEq, Repr

structure Datagram where
  sender : UdpEndpoint
  data : Bytes
deriving DecidableEq, Repr

def mediaError (message : String) (detail : Bytes := []) : ErrorInfo :=
  { code := .mediaRtpengineError, message := bytes message, detail }

def shutdownError : ErrorInfo := mediaError "Rtpengine client is shutting down"

/-- The cookie and the dictionary of a response, unless the decoder needs more fuel. Why it cannot
be decoded is only logged. -/
def parseResponsePayload (response : Bytes) (fuel : Nat) : Option (Result (Bytes × BencodeDict)) :=
  match find response ' '.toUInt8 0 with
  | none => some (.error (mediaError "Invalid rtpengine response format"))
  | some spacePos =>
      match bencodeDecode (response.drop (spacePos + 1)) fuel with
      | .running => none
      | .throws _ => some (.error (mediaError "Failed to decode rtpengine response"))
      | .returns ⟨.dict entries, ordered⟩ =>
          some (.ok (response.take spacePos, ⟨entries, ordered⟩))
      | .returns _ => some (.error (mediaError "Expected dict in rtpengine response"))

/-! ## State -/

structure PendingRequest where
  completed : Bool := false
  result : Result BencodeDict :=
    .error { code := .internalError, message := bytes "rtpengine request not completed" }

/-- What `receive_from` fails with. -/
inductive ReceiveError where
  | operationAborted
  | badDescriptor
  | other (message : Bytes)
deriving DecidableEq, Repr

/-- Where the receiver loop is. A thread that has exited can still be joined. -/
inductive Receiver where
  | absent
  | looping
  | receiving
  | received (datagram : Datagram)
  | completing (request : Nat) (dict : BencodeDict)
  | receiveFailed (error : ReceiveError)
  | failing (error : ErrorInfo)
  | failingAll (error : ErrorInfo) (requests : List Nat)
  | exited

inductive Destructor where
  | idle
  | closing
  | failing
  | failingAll (requests : List Nat)
  | joining
  | joined

inductive ClientEvent where
  | registered (cookie : Bytes) (request : Nat)
  | received (datagram : Datagram)
  | handled
  | receiveFailed
  | completed (request : Nat)
deriving DecidableEq, Repr

/-- A `shared_ptr` to a request is its number. The counter of the cookies has no bound here: what is
proved is about clients that draw less than 2 ^ 64 of them. -/
structure Client where
  shuttingDown : Bool := false
  cookieCounter : Nat := 0
  pendingRequests : Table Bytes Nat := .empty
  requests : List PendingRequest := []
  receiver : Receiver := .absent
  destructor : Destructor := .idle
  history : List ClientEvent := []

namespace Client

def init : Client := {}

def complete (s : Client) (request : Nat) (result : Result BencodeDict) : Client :=
  { s with
    requests := s.requests.set request { completed := true, result }
    history := s.history ++ [.completed request] }

/-! ## The receiver loop -/

variable (rtpengineEp : UdpEndpoint)

/-- The first stretch of `completePendingRequest`. -/
def takePending (s : Client) (cookie : Bytes) (dict : BencodeDict) : Client :=
  match s.pendingRequests.find cookie with
  | none => { s with receiver := .looping, history := s.history ++ [.handled] }
  | some request =>
      { s with
        pendingRequests := s.pendingRequests.erase cookie
        receiver := .completing request dict
        history := s.history ++ [.handled] }

/-- What a datagram leads to, unless the decoder needs more fuel. -/
def handle (s : Client) (datagram : Datagram) (fuel : Nat) : Option Client :=
  if datagram.sender ≠ rtpengineEp then
    some { s with receiver := .looping, history := s.history ++ [.handled] }
  else
    match parseResponsePayload datagram.data fuel with
    | none => none
    | some (.error _) => some { s with receiver := .looping, history := s.history ++ [.handled] }
    | some (.ok (cookie, dict)) => some (s.takePending cookie dict)

def receiveErrorMessage : ReceiveError → Bytes
  | .operationAborted => bytes "Operation canceled"
  | .badDescriptor => bytes "Bad file descriptor"
  | .other message => message

/-- What is not determined by the state: what `receive_from` returns, how much fuel the decoder
has, and which request of a hash table comes next. -/
inductive ReceiverLabel where
  | datagram (datagram : Datagram)
  | error (error : ReceiveError)
  | proceed (fuel choice : Nat)

/-- One step of `receiverLoop`. -/
def receiverStep (s : Client) : ReceiverLabel → Option Client
  | .datagram datagram =>
      match s.receiver with
      | .receiving =>
          some { s with
            receiver := .received datagram, history := s.history ++ [.received datagram] }
      | _ => none
  | .error error =>
      match s.receiver with
      | .receiving =>
          some { s with
            receiver := .receiveFailed error, history := s.history ++ [.receiveFailed] }
      | _ => none
  | .proceed fuel choice =>
      match s.receiver with
      | .absent => none
      | .looping => some { s with receiver := if s.shuttingDown then .exited else .receiving }
      | .receiving => none
      | .received datagram => s.handle rtpengineEp datagram fuel
      | .completing request dict => some { s.complete request (.ok dict) with receiver := .looping }
      | .receiveFailed error =>
          -- The loop is left after any error; an expected one fails nothing.
          some { s with
            receiver :=
              if s.shuttingDown ∨ error = .operationAborted ∨ error = .badDescriptor then .exited
              else .failing (mediaError "Failed to receive from rtpengine"
                (receiveErrorMessage error)) }
      | .failing error =>
          some { s with
            pendingRequests := .empty, receiver := .failingAll error s.pendingRequests.values }
      | .failingAll error requests =>
          match requests[choice % requests.length]? with
          | none => some { s with receiver := .exited }
          | some request =>
              some { s.complete request (.error error) with
                receiver := .failingAll error (requests.eraseIdx (choice % requests.length)) }
      | .exited => none

/-! ## The destructor -/

/-- One step of the destructor. Cancelling and closing the socket change nothing here: whether
`receive_from` returns and with what is left open. -/
def destructorStep (s : Client) (choice : Nat) : Option Client :=
  match s.destructor with
  | .idle => some { s with shuttingDown := true, destructor := .closing }
  | .closing => some { s with destructor := .failing }
  | .failing =>
      some { s with pendingRequests := .empty, destructor := .failingAll s.pendingRequests.values }
  | .failingAll requests =>
      match requests[choice % requests.length]? with
      | none => some { s with destructor := .joining }
      | some request =>
          some { s.complete request (.error shutdownError) with
            destructor := .failingAll (requests.eraseIdx (choice % requests.length)) }
  | .joining =>
      match s.receiver with
      | .absent => some { s with destructor := .joined }
      | .exited => some { s with destructor := .joined }
      | _ => none
  | .joined => none

end Client

/-! ## Calls -/

inductive ClientOp where
  | loadShuttingDown
  | ensureReceiverRunning
  | generateCookie
  | emplace (cookie : Bytes)
  | sendTo (payload : Bytes)
  | erase (cookie : Bytes)
  | waitFor (request : Nat)

/-- The message of an error where sending fails; the result, if there is one in time. -/
abbrev ClientAnswer : ClientOp → Type
  | .loadShuttingDown => Bool
  | .ensureReceiverRunning => Result Unit
  | .generateCookie => Bytes
  | .emplace _ => Nat
  | .sendTo _ => Option Bytes
  | .erase _ => Unit
  | .waitFor _ => Option (Result BencodeDict)

def clientOps : Interface := ⟨ClientOp, ClientAnswer⟩

structure ClientEnvironment where
  threadError : Option Bytes := none
  sendError : Option Bytes := none
  timedOut : Bool := false

/-- Under `receiver_start_mutex_`. -/
def Client.ensureReceiverRunning (s : Client) (threadError : Option Bytes) :
    Client × Result Unit :=
  match s.receiver with
  | .absent =>
      if s.shuttingDown then (s, .error shutdownError)
      else
        match threadError with
        | some detail =>
            (s, .error (mediaError "Failed to start rtpengine receiver thread" detail))
        | none => ({ s with receiver := .looping }, .ok ())
  | _ => (s, .ok ())

/-- Whoever has been started is not started again. -/
theorem Client.ensureReceiverRunning_cases (s : Client) (threadError : Option Bytes) :
    (s.receiver ≠ .absent ∧ s.ensureReceiverRunning threadError = (s, .ok ())) ∨
    (s.receiver = .absent ∧
      ((∃ error, s.ensureReceiverRunning threadError = (s, .error error)) ∨
        s.ensureReceiverRunning threadError = ({ s with receiver := .looping }, .ok ()))) := by
  unfold ensureReceiverRunning
  split
  · rename_i habsent
    refine .inr ⟨habsent, ?_⟩
    split
    · exact .inl ⟨_, rfl⟩
    · split
      · exact .inl ⟨_, rfl⟩
      · exact .inr rfl
  · rename_i hstarted
    exact .inl ⟨hstarted, rfl⟩

/-- The event of a call is that it draws a number for its cookie. -/
def Client.serve (s : Client) :
    (op : ClientOp) → ClientEnvironment → Option (Client × ClientAnswer op × List Nat)
  | .loadShuttingDown, _ => some (s, s.shuttingDown, [])
  | .ensureReceiverRunning, environment =>
      let result := s.ensureReceiverRunning environment.threadError
      some (result.1, result.2, [])
  | .generateCookie, _ =>
      let number := s.cookieCounter + 1
      some ({ s with cookieCounter := number }, decimal number, [number])
  | .emplace cookie, _ =>
      let request := s.requests.length
      some ({ s with
        pendingRequests :=
          if s.pendingRequests.contains cookie then s.pendingRequests
          else s.pendingRequests.insert cookie request
        requests := s.requests ++ [{}]
        history := s.history ++ [.registered cookie request] }, request, [])
  | .sendTo _, environment => some (s, environment.sendError, [])
  | .erase cookie, _ =>
      some ({ s with pendingRequests := s.pendingRequests.erase cookie }, (), [])
  | .waitFor request, environment =>
      match s.requests[request]? with
      | none => none
      | some pending =>
          if pending.completed then some (s, some pending.result, [])
          else if environment.timedOut then some (s, none, [])
          else none

section

variable {G : Interface} [Includes clientOps G]

def performClient (op : ClientOp) : Program G Exception (ClientAnswer op) :=
  Program.perform (F := clientOps) op

end

def sendCommand (cmd : BencodeDict) : Program clientOps Exception (Result BencodeDict) := do
  if ← performClient .loadShuttingDown then return .error shutdownError
  else
    match ← performClient .ensureReceiverRunning with
    | .error error => return .error error
    | .ok () =>
        let cookie ← performClient .generateCookie
        let pending ← performClient (.emplace cookie)
        let payload := cookie ++ bytes " " ++ bencodeEncode cmd.value
        match ← performClient (.sendTo payload) with
        | some message =>
            performClient (.erase cookie)
            return .error (mediaError "Failed to send to rtpengine" message)
        | none =>
            match ← performClient (.waitFor pending) with
            | none =>
                performClient (.erase cookie)
                return .error (mediaError "Timed out waiting for rtpengine response")
            | some result => return result

/-! ## The client -/

/-- How far a call has come with its number and its request. -/
inductive CallProgress where
  | fresh
  | numbered (number : Nat)
  | registered (number request : Nat)
  | withdrawn (number : Nat)
  | answered (number request : Nat) (result : Result BencodeDict)

def CallProgress.track (progress : CallProgress) : (op : ClientOp) → ClientAnswer op → CallProgress
  | .generateCookie, cookie => .numbered (digitsValue cookie)
  | .emplace _, request =>
      match progress with
      | .numbered number => .registered number request
      | _ => progress
  | .erase _, _ =>
      match progress with
      | .registered number _ => .withdrawn number
      | _ => progress
  | .waitFor _, answer =>
      match answer, progress with
      | some result, .registered number request => .answered number request result
      | _, _ => progress
  | .loadShuttingDown, _ => progress
  | .ensureReceiverRunning, _ => progress
  | .sendTo _, _ => progress

inductive ClientBackground where
  | receiver (label : Client.ReceiverLabel)
  | destructor (choice : Nat)

def Client.background (rtpengineEp : UdpEndpoint) (s : Client) : ClientBackground → Option Client
  | .receiver label => s.receiverStep rtpengineEp label
  | .destructor choice => s.destructorStep choice

/-- Calls of `sendCommand`; the receiver loop and the destructor are in the background. -/
def clientService (rtpengineEp : UdpEndpoint) : Service Client clientOps Exception CallProgress
    (Result BencodeDict) ClientEnvironment BencodeDict ClientBackground Nat where
  serve := Client.serve
  begin := sendCommand
  background := Client.background rtpengineEp
  fresh _ := .fresh
  track := CallProgress.track

abbrev ClientThreads :=
  Threads Client clientOps Exception CallProgress (Result BencodeDict)

end SimIms.Rtp
