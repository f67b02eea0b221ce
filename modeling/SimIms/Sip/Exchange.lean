import SimIms.Sip.ResponseDelivery
import SimIms.Sip.ServerRuns

/-!
# Exchanges over an unreliable network

Two transaction layers, and a network between them that loses, doubles, delays and reorders what it
carries: what has been sent may be received at any time, and any number of times. A retransmission
sends what has been sent before. The handler of the server answers a request that it has been called
with, by the Vias and the CSeq of this request. Others may send requests to the same server.
-/

namespace SimIms.Sip

open Cxx Lib

/-- A response to this request, as `createResponse` makes it. -/
def Answers (request response : SipMessage) : Prop :=
  response.vias = request.vias ∧ response.cseqField = request.cseqField

instance (request response : SipMessage) : Decidable (Answers request response) :=
  inferInstanceAs (Decidable (_ ∧ _))

theorem answers_createResponse (request : SipMessage) (statusCode : Int)
    (reason generatedTag : Bytes) :
    Answers request (createResponse request statusCode reason generatedTag) := by
  simp only [createResponse]
  split
  · exact ⟨rfl, rfl⟩
  · exact ⟨rfl, rfl⟩

/-! ## Operations -/

inductive ExchangeOp (κ : Type) where
  | client (op : ClientOp κ)
  | server (op : ServerOp)
  | takeRequest
  | takeResponse
  | answer

/-- What is taken from the network, and which request the handler answers how, is the environment's
choice. -/
abbrev ExchangeAnswer (κ : Type) : ExchangeOp κ → Type
  | .client op => ClientAnswer κ op
  | .server op => ServerAnswer op
  | .takeRequest => SipMessage
  | .takeResponse => SipMessage
  | .answer => Nat × SipMessage

def exchangeOps (κ : Type) : Interface := ⟨ExchangeOp κ, ExchangeAnswer κ⟩

instance (κ : Type) : Includes (clientOps κ) (exchangeOps κ) := ⟨.client, fun _ answer => answer⟩
instance (κ : Type) : Includes serverOps (exchangeOps κ) := ⟨.server, fun _ answer => answer⟩

/-- The two layers, what has been sent in either direction, and the transactions of the server for
which the handler has been called. -/
structure Exchange (κ : Type) where
  client : ClientLayer κ
  server : ServerLayer
  requests : List SipMessage
  responses : List SipMessage
  asked : List Nat

structure ExchangeEnvironment where
  refusal : Option ErrorInfo := none
  accepted : Bool := true
  message : Option SipMessage := none
  txn : Nat := 0

inductive ExchangeEvent where
  | client (event : ClientEvent)
  | server (event : ServerEvent)
deriving DecidableEq

/-- What an operation of the server puts on the network. -/
def ServerOp.sent : ServerOp → (accepted : Bool) → List SipMessage
  | .send _ response, true => [response]
  | _, _ => []

def ServerOp.asks : ServerOp → List Nat
  | .callHandler txn => [txn]
  | _ => []

namespace Exchange

variable {κ : Type}

def init : Exchange κ :=
  { client := .init, server := .init, requests := [], responses := [], asked := [] }

/-- What an operation of the client puts on the network. -/
def sent (s : Exchange κ) : ClientOp κ → (refusal : Option ErrorInfo) → List SipMessage
  | .send txn, none => (s.client.requestOf txn).toList
  | _, _ => []

def serve [OsipAccessor] (s : Exchange κ) : (op : ExchangeOp κ) → ExchangeEnvironment →
    Option (Exchange κ × ExchangeAnswer κ op × List ExchangeEvent)
  | .client op, environment =>
      (s.client.serve op environment.refusal).map fun result =>
        ({ s with
          client := result.1, requests := s.requests ++ s.sent op environment.refusal },
          result.2.1, result.2.2.map .client)
  | .server op, environment =>
      (s.server.serve op environment.accepted).map fun result =>
        ({ s with
          server := result.1, responses := s.responses ++ op.sent environment.accepted
          asked := s.asked ++ op.asks }, result.2.1, result.2.2.map .server)
  | .takeRequest, environment =>
      match environment.message with
      | none => none
      | some request => if request ∈ s.requests then some (s, request, []) else none
  | .takeResponse, environment =>
      match environment.message with
      | none => none
      | some response => if response ∈ s.responses then some (s, response, []) else none
  | .answer, environment =>
      match environment.message, s.server.requestOf environment.txn with
      | some response, some request =>
          if environment.txn ∈ s.asked ∧ Answers request response then
            some (s, (environment.txn, response), [])
          else none
      | _, _ => none

end Exchange

/-! ## Calls -/

inductive ExchangeCall (κ : Type) where
  | sendRequest (request : SipMessage) (dest : Endpoint) (onResponse : Option κ)
  | receiveResponse
  | runTimerB (txn : Nat)
  | receiveRequest (source : Endpoint)
  | respond
  | runTimer (name : ServerTransaction.TimerName) (txn : Nat)

inductive ExchangeBackground where
  | client (event : ClientBackground)
  | server (event : ServerBackground)
  | transmit (request : SipMessage)

/-- What a call has taken from the network, the transaction that it has found for it, and what it
may answer to which transaction. -/
structure ExchangeThread where
  request : Option SipMessage := none
  response : Option SipMessage := none
  found : Option Nat := none
  answer : Option (Nat × SipMessage) := none

namespace Exchange

variable {κ : Type}

abbrev Method (κ α : Type) := Program (exchangeOps κ) Exception α

def perform (op : ExchangeOp κ) : Method κ (ExchangeAnswer κ op) :=
  Program.perform (F := exchangeOps κ) op

def begin : ExchangeCall κ → Method κ Unit
  | .sendRequest request dest onResponse =>
      (ClientLayer.begin (.sendRequest request dest onResponse)).lift
  | .receiveResponse => do
      let response ← perform .takeResponse
      (ClientLayer.processResponse (κ := κ) response).lift
  | .runTimerB txn => (ClientLayer.runTimerB (κ := κ) txn).lift
  | .receiveRequest source => do
      let request ← perform .takeRequest
      (ServerLayer.processRequest request source).lift
  | .respond => do
      let answered ← perform .answer
      (ServerLayer.sendResponse answered.1 answered.2).lift
  | .runTimer name txn => (ServerLayer.runTimer name txn).lift

def background (s : Exchange κ) : ExchangeBackground → Option (Exchange κ)
  | .client event => (s.client.background event).map fun client => { s with client }
  | .server event => (s.server.background event).map fun server => { s with server }
  | .transmit request => some { s with requests := s.requests ++ [request] }

end Exchange

def ExchangeThread.track {κ : Type} (thread : ExchangeThread) :
    (op : ExchangeOp κ) → ExchangeAnswer κ op → ExchangeThread
  | .client (.findClient _), found => { thread with found }
  | .server (.lastResponse txn), response => { thread with answer := response.map (txn, ·) }
  | .takeRequest, request => { thread with request := some request }
  | .takeResponse, response => { thread with response := some response, found := none }
  | .answer, answer => { thread with answer := some answer }
  | _, _ => thread

def exchangeService [OsipAccessor] (κ : Type) :
    Service (Exchange κ) (exchangeOps κ) Exception ExchangeThread Unit
    ExchangeEnvironment (ExchangeCall κ) ExchangeBackground ExchangeEvent where
  serve := Exchange.serve
  begin := Exchange.begin
  background := Exchange.background
  fresh _ := {}
  track := ExchangeThread.track

abbrev ExchangeThreads (κ : Type) :=
  Threads (Exchange κ) (exchangeOps κ) Exception ExchangeThread Unit

abbrev ExchangeLog := List (Nat × ExchangeEvent)

end SimIms.Sip
