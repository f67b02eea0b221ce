import SimIms.Lib.Threads
import SimIms.Sip.TransactionLayer

/-!
# The client side of the transaction layer, interleaved

The steps of `TransactionLayer` are cut here where the code gives up a mutex: finding the
transaction of a response, processing the response, calling the callback and erasing the entry are
operations of their own, and other calls may run in between.
-/

namespace SimIms.Sip

open Cxx Lib

/-! ## Operations -/

inductive ClientOp (κ : Type) where
  | shuttingDown
  | register (request : SipMessage) (dest : Endpoint) (onResponse : Option κ)
  | send (txn : Nat)
  | startSent (txn : Nat)
  | startFailed (txn : Nat)
  | erase (key : Bytes)
  | findClient (response : SipMessage)
  | processResponse (txn : Nat) (code : Int)
  | onResponse (txn : Nat) (cb : κ) (response : SipMessage)
  | timeout (txn : Nat)

/-- The error of the transport, if any, is what `send` answers. -/
abbrev ClientAnswer (κ : Type) : ClientOp κ → Type
  | .shuttingDown => Bool
  | .register _ _ _ => Result Nat
  | .send _ => Option ErrorInfo
  | .startSent _ => Unit
  | .startFailed _ => Unit
  | .erase _ => Unit
  | .findClient _ => Option Nat
  | .processResponse _ _ => Option (ResponseCallback κ)
  | .onResponse _ _ _ => Unit
  | .timeout _ => Option Bytes

def clientOps (κ : Type) : Interface := ⟨ClientOp κ, ClientAnswer κ⟩

/-! ## Programs -/

namespace ClientLayer

variable {κ : Type}

abbrev Method (κ α : Type) := Program (clientOps κ) Exception α

def perform (op : ClientOp κ) : Method κ (ClientAnswer κ op) :=
  Program.perform (F := clientOps κ) op

/-- The key of the transaction is returned, or an error. -/
def sendRequest (request : SipMessage) (dest : Endpoint) (onResponse : Option κ) :
    Method κ (Result Bytes) := do
  if ← perform .shuttingDown then
    return .error
      { code := .sipTransactionFailed, message := bytes "Transaction layer is shutting down" }
  else
    match ← perform (.register request dest onResponse) with
    | .error error => return .error error
    | .ok txn =>
        match ← perform (.send txn) with
        | none =>
            perform (.startSent txn)
            return .ok (clientKey request)
        | some error =>
            perform (.startFailed txn)
            perform (.erase (clientKey request))
            return .error error

/-- The end of the callback that `sendRequest` installs. -/
def finish (key : Bytes) (response : SipMessage) : Method κ Unit :=
  if 200 ≤ response.statusCode then perform (.erase key) else return ()

/-- The callback that `sendRequest` installs: it calls the caller's, if there is one. -/
def callOnResponse (txn : Nat) (callback : ResponseCallback κ) (response : SipMessage) :
    Method κ Unit := do
  if ← perform .shuttingDown then return ()
  else
    match callback.cb with
    | none => finish callback.key response
    | some cb =>
        perform (.onResponse txn cb response)
        finish callback.key response

/-- `processMessage` with a response. -/
def processResponse (response : SipMessage) : Method κ Unit := do
  if ← perform .shuttingDown then return ()
  else
    match ← perform (.findClient response) with
    | none => return ()
    | some txn =>
        match ← perform (.processResponse txn response.statusCode) with
        | none => return ()
        | some callback => callOnResponse txn callback response

/-- The handler of Timer B. -/
def runTimerB (txn : Nat) : Method κ Unit := do
  match ← perform (.timeout txn) with
  | none => return ()
  | some key =>
      if ← perform .shuttingDown then return ()
      else perform (.erase key)

end ClientLayer

/-! ## What the operations do -/

/-- The transactions, and the clock by which their timers run. -/
structure ClientLayer (κ : Type) where
  layer : TransactionLayer κ
  now : Nat

/-- The caller's callback of a transaction gets a response. -/
inductive ClientEvent where
  | called (txn : Nat) (response : SipMessage)
deriving DecidableEq, Repr

namespace ClientLayer

variable {κ : Type}

def init : ClientLayer κ := ⟨.init, 0⟩

/-- Change a transaction in place. -/
def modify (s : ClientLayer κ) (id : Nat) (f : Client κ → Client κ) : ClientLayer κ :=
  { s with layer := { s.layer with clients := s.layer.clients.modify id f } }

def erase (s : ClientLayer κ) (key : Bytes) : ClientLayer κ :=
  { s with layer := { s.layer with clientTxns := s.layer.clientTxns.erase key } }

/-- The error of the transport is the environment's choice. -/
def serve [OsipAccessor] (s : ClientLayer κ) : (op : ClientOp κ) → (refusal : Option ErrorInfo) →
    Option (ClientLayer κ × ClientAnswer κ op × List ClientEvent)
  | .shuttingDown, _ => some (s, s.layer.shuttingDown, [])
  | .register request dest onResponse, _ =>
      match s.layer.sendRequest request dest onResponse with
      | .error error => some (s, .error error, [])
      | .ok (layer, id) => some ({ s with layer }, .ok id, [])
  | .send _, refusal => some (s, refusal, [])
  | .startSent id, _ => some (s.modify id (·.startSent s.now), (), [])
  | .startFailed id, _ => some (s.modify id (·.startFailed), (), [])
  | .erase key, _ => some (s.erase key, (), [])
  | .findClient response, _ => some (s, s.layer.findClientTransaction response, [])
  | .processResponse id code, _ =>
      (s.layer.clients.find id).map fun txn =>
        (s.modify id (·.processResponse code), txn.onResponse, [])
  | .onResponse id _ response, _ => some (s, (), [.called id response])
  | .timeout id, _ =>
      match (s.layer.clients.find id).bind fun txn => txn.timerB.dequeue with
      | none => none
      | some timer =>
          (s.layer.clients.find id).map fun txn =>
            (s.modify id fun txn => (txn.setTimer timer .b).timeout.1,
              (txn.setTimer timer .b).timeout.2, [])

end ClientLayer

/-! ## Runs -/

inductive ClientCall (κ : Type) where
  | sendRequest (request : SipMessage) (dest : Endpoint) (onResponse : Option κ)
  | processResponse (response : SipMessage)
  | runTimerB (txn : Nat)

/-- What happens besides. The handler of Timer A is not interrupted here: it touches no entry and
calls nobody. -/
inductive ClientBackground where
  | elapse (duration : Nat)
  | expireTimer (name : ClientTransaction.TimerName) (txn : Nat)
  | runTimerA (txn : Nat)
  | shutdown

namespace ClientLayer

variable {κ : Type}

def begin : ClientCall κ → Method κ Unit
  | .sendRequest request dest onResponse => do
      let _ ← sendRequest request dest onResponse
      return ()
  | .processResponse response => processResponse response
  | .runTimerB txn => runTimerB txn

def background (s : ClientLayer κ) : ClientBackground → Option (ClientLayer κ)
  | .elapse duration => some { s with now := s.now + duration }
  | .expireTimer name id =>
      match (s.layer.clients.find id).bind fun txn => (txn.timer name).expire s.now with
      | none => none
      | some timer => some (s.modify id (·.setTimer timer name))
  | .runTimerA id =>
      match (s.layer.clients.find id).bind fun txn => txn.timerA.dequeue with
      | none => none
      | some timer => some (s.modify id fun txn => (txn.setTimer timer .a).retransmit s.now)
  | .shutdown => some { s with layer := s.layer.shutdown }

end ClientLayer
/-! ## What holds of the layer -/

namespace ClientLayer

variable {κ : Type} {s t : ClientLayer κ} {id : Nat} {key : Bytes}

def requestOf (s : ClientLayer κ) (id : Nat) : Option SipMessage :=
  (s.layer.clients.find id).map ClientTransaction.request

/-- Entries and callbacks know the key of their transaction. -/
structure Keyed (s : ClientLayer κ) : Prop where
  entry : ∀ key id, s.layer.clientTxns.find key = some id →
    ∃ request, s.requestOf id = some request ∧ key = clientKey request
  numbered : ∀ id request, s.requestOf id = some request → id < s.layer.nextClient
  callback : ∀ id txn callback, s.layer.clients.find id = some txn →
    txn.onResponse = some callback → callback.key = clientKey txn.request

/-- No transaction comes, and entries only go. -/
structure Shrinks (s t : ClientLayer κ) : Prop where
  entries : ∀ key id, t.layer.clientTxns.find key = some id →
    s.layer.clientTxns.find key = some id
  requests : ∀ id, t.requestOf id = s.requestOf id
  nextClient : t.layer.nextClient = s.layer.nextClient
  callbacks : ∀ id txn callback, t.layer.clients.find id = some txn →
    txn.onResponse = some callback → ∃ txn', s.layer.clients.find id = some txn' ∧
      txn'.onResponse = some callback

theorem Shrinks.refl (s : ClientLayer κ) : Shrinks s s :=
  ⟨fun _ _ h => h, fun _ => rfl, rfl, fun _ txn _ hfind h => ⟨txn, hfind, h⟩⟩

theorem shrinks_of_frame (frame : TransactionLayer.Frame s.layer t.layer) : Shrinks s t := by
  refine ⟨frame.entries, fun id => ?_, frame.nextClient, fun id txn callback hfind hcallback => ?_⟩
  · have hfixed := congrArg (Option.map (·.1)) (frame.fixed id)
    rw [Option.map_map, Option.map_map] at hfixed
    exact hfixed
  · have hfixed := frame.fixed id
    rw [hfind, Option.map_some, eq_comm] at hfixed
    obtain ⟨txn', hfind', hsame⟩ := Option.map_eq_some_iff.mp hfixed
    exact ⟨txn', hfind', (congrArg (·.2.1) hsame).trans hcallback⟩

theorem shrinks_modify {f : Client κ → Client κ} (hf : ∀ txn, (f txn).fixed = txn.fixed) :
    Shrinks s (s.modify id f) := shrinks_of_frame (TransactionLayer.frame_modify hf)

theorem shrinks_erase : Shrinks s (s.erase key) := shrinks_of_frame TransactionLayer.frame_erase

theorem Keyed.shrinks (h : Keyed s) (hshrinks : Shrinks s t) : Keyed t := by
  refine ⟨fun key id hfind => ?_, fun id request hrequest => ?_,
    fun id txn callback hfind hcallback => ?_⟩
  · rw [hshrinks.requests]
    exact h.entry key id (hshrinks.entries key id hfind)
  · rw [hshrinks.nextClient]
    exact h.numbered id request ((hshrinks.requests id).symm.trans hrequest)
  · obtain ⟨txn', hfind', hcallback'⟩ := hshrinks.callbacks id txn callback hfind hcallback
    have hrequest := hshrinks.requests id
    rw [requestOf, requestOf, hfind, hfind', Option.map_some, Option.map_some,
      Option.some.injEq] at hrequest
    rw [hrequest]
    exact h.callback id txn' callback hfind' hcallback'

/-- The state after a request has been registered. -/
def register (s : ClientLayer κ) (request : SipMessage) (dest : Endpoint) (onResponse : Option κ) :
    ClientLayer κ :=
  { s with layer := { s.layer with
    clientTxns := s.layer.clientTxns.insert (clientKey request) s.layer.nextClient
    clients := s.layer.clients.insert s.layer.nextClient
      (.create request dest ⟨clientKey request, onResponse⟩ (clientKey request))
    nextClient := s.layer.nextClient + 1 } }

variable {request : SipMessage} {dest : Endpoint} {onResponse : Option κ}

/-- The transactions there were are still there. -/
theorem requestOf_register (hnumbered : ∀ id request, s.requestOf id = some request →
    id < s.layer.nextClient) {made : SipMessage} (h : s.requestOf id = some made) :
    (s.register request dest onResponse).requestOf id = some made := by
  rw [requestOf, register, Table.find_insert_of_ne _ _ (Nat.ne_of_lt (hnumbered id made h))]
  exact h

theorem requestOf_register_self :
    (s.register request dest onResponse).requestOf s.layer.nextClient = some request := by
  rw [requestOf, register, Table.find_insert_self]
  rfl

theorem Keyed.register (h : Keyed s) : Keyed (s.register request dest onResponse) := by
  refine ⟨fun key id hfind => ?_, fun id made hrequest => ?_,
    fun id txn callback hfind hcallback => ?_⟩
  · rw [ClientLayer.register, Table.find_insert] at hfind
    split at hfind
    · rename_i heq
      cases hfind
      exact ⟨request, requestOf_register_self, heq⟩
    · obtain ⟨made, hmade, hkey⟩ := h.entry key id hfind
      exact ⟨made, requestOf_register h.numbered hmade, hkey⟩
  · rw [requestOf, ClientLayer.register, Table.find_insert] at hrequest
    split at hrequest
    · rename_i heq
      rw [heq]
      exact Nat.lt_succ_self _
    · exact Nat.lt_succ_of_lt (h.numbered id made hrequest)
  · rw [ClientLayer.register, Table.find_insert] at hfind
    split at hfind
    · cases hfind
      cases hcallback
      rfl
    · exact h.callback id txn callback hfind hcallback

/-- What an operation does to the tables. -/
theorem serve_cases [OsipAccessor] {op : ClientOp κ} {refusal : Option ErrorInfo}
    {answer : ClientAnswer κ op}
    {events : List ClientEvent} (hserve : s.serve op refusal = some (t, answer, events)) :
    Shrinks s t ∨ ∃ request dest onResponse, op = .register request dest onResponse ∧
      t = s.register request dest onResponse := by
  cases op with
  | register request dest onResponse =>
      rw [serve] at hserve
      split at hserve
      · cases hserve
        exact .inl (.refl s)
      · rename_i layer id hsent
        cases hserve
        refine .inr ⟨request, dest, onResponse, rfl, ?_⟩
        rw [TransactionLayer.sendRequest] at hsent
        split_ifs at hsent
        cases hsent
        rfl
  | shuttingDown =>
      cases hserve
      exact .inl (.refl s)
  | send id =>
      cases hserve
      exact .inl (.refl s)
  | startSent id =>
      cases hserve
      exact .inl (shrinks_modify fun txn => txn.fixed_startSent _)
  | startFailed id =>
      cases hserve
      exact .inl (shrinks_modify fun txn => txn.fixed_startFailed)
  | erase key =>
      cases hserve
      exact .inl shrinks_erase
  | findClient response =>
      cases hserve
      exact .inl (.refl s)
  | processResponse id code =>
      obtain ⟨txn, -, heq⟩ := Option.map_eq_some_iff.mp hserve
      cases heq
      exact .inl (shrinks_modify fun txn => txn.fixed_processResponse code)
  | onResponse id cb response =>
      cases hserve
      exact .inl (.refl s)
  | timeout id =>
      rw [serve] at hserve
      split at hserve
      · cases hserve
      · obtain ⟨txn, -, heq⟩ := Option.map_eq_some_iff.mp hserve
        cases heq
        refine .inl (shrinks_modify fun txn => ?_)
        rw [ClientTransaction.fixed_timeout, ClientTransaction.fixed_setTimer]

/-- Nothing comes, or everything goes at the shutdown. -/
theorem shrinks_background {event : ClientBackground} (hbackground : s.background event = some t) :
    s.Shrinks t := by
  cases event with
  | elapse duration =>
      cases hbackground
      exact shrinks_of_frame (.refl _)
  | expireTimer name id =>
      rw [background] at hbackground
      split at hbackground
      · cases hbackground
      · cases hbackground
        exact shrinks_modify fun txn => txn.fixed_setTimer _ name
  | runTimerA id =>
      rw [background] at hbackground
      split at hbackground
      · cases hbackground
      · cases hbackground
        refine shrinks_modify fun txn => ?_
        rw [ClientTransaction.fixed_retransmit, ClientTransaction.fixed_setTimer]
  | shutdown =>
      cases hbackground
      refine ⟨fun _ _ h => (Option.some_ne_none _ h.symm).elim, fun id => ?_, rfl,
        fun id txn callback hfind hcallback => ?_⟩
      · rw [requestOf, requestOf, TransactionLayer.shutdown, Table.find_mapValues, Option.map_map]
        congr 1
        funext txn
        rw [Function.comp_apply]
        split
        · rfl
        · rfl
      · obtain ⟨before, hfound, rfl⟩ :=
          Option.map_eq_some_iff.mp ((Table.find_mapValues _ _ _).symm.trans hfind)
        split at hcallback
        · cases hcallback
        · exact ⟨before, hfound, hcallback⟩

end ClientLayer
end SimIms.Sip
