import SimIms.Lib.Machine
import SimIms.Lib.Table
import SimIms.Sip.Transaction

/-!
# The client side of the transaction layer

`client_txns` maps the key `branch:method` to a shared transaction, which is an index into
the transactions created so far. `sendRequest` registers a transaction and then starts it,
without the layer's mutex in between: other threads may deliver a response before the
transport has returned and the timers are armed. Delivering a response, a timer's handler
and `shutdown` are one step each. Time passes by steps of its own, and a handler that has
been queued runs at any later time.

A response callback is a token of an arbitrary type. Calling it is an event of the step,
as is an error that `sendRequest` returns to the caller who passed the token.
-/

namespace SimIms.Sip

open Cxx Lib

/-- The callback that `sendRequest` installs on a transaction: it knows the key, and the
caller's callback when there is one. -/
structure ResponseCallback (κ : Type) where
  key : Bytes
  cb : Option κ
deriving DecidableEq, Repr

/-- The timeout callback knows the key alone. -/
abbrev Client (κ : Type) := ClientTransaction (ResponseCallback κ) Bytes

structure TransactionLayer (κ : Type) where
  shuttingDown : Bool
  clientTxns : Table Bytes Nat
  clients : Table Nat (Client κ)
  nextClient : Nat

inductive LayerEvent (κ : Type) where
  | called (cb : κ) (response : SipMessage)
  | rejected (cb : Option κ) (error : ErrorInfo)
deriving DecidableEq, Repr

def transactionKey (branch method : Bytes) : Bytes := branch ++ bytes ":" ++ method

/-- The key of a client transaction for this request. -/
def clientKey (request : SipMessage) : Bytes :=
  transactionKey request.viaBranch request.cseqMethod

def responseTransactionKeys [OsipAccessor] (response : SipMessage) : List Bytes :=
  if response.cseqMethod = [] then []
  else response.takenVias.filterMap fun via =>
    (SipMessage.branchOf via).map fun branch => transactionKey branch response.cseqMethod

namespace TransactionLayer

variable {κ : Type}

def init : TransactionLayer κ :=
  { shuttingDown := false, clientTxns := .empty, clients := .empty, nextClient := 0 }

/-- `sendRequest` up to the registration: the new transaction's index, or the error that is
returned. -/
def sendRequest (layer : TransactionLayer κ) (request : SipMessage) (dest : Endpoint)
    (onResponse : Option κ) : Result (TransactionLayer κ × Nat) :=
  let key := clientKey request
  if layer.shuttingDown then
    .error { code := .sipTransactionFailed, message := bytes "Transaction layer is shutting down" }
  else if request.viaBranch = [] then
    .error { code := .sipTransactionFailed, message := bytes "Request has no Via branch" }
  else if layer.clientTxns.contains key then
    .error { code := .sipTransactionFailed
             message := bytes "Duplicate client transaction key " ++ key }
  else
    let txn := ClientTransaction.create request dest ⟨key, onResponse⟩ key
    .ok ({ layer with
      clientTxns := layer.clientTxns.insert key layer.nextClient
      clients := layer.clients.insert layer.nextClient txn
      nextClient := layer.nextClient + 1 }, layer.nextClient)

/-- `sendRequest` after the transport has refused the request. -/
def startFailed (layer : TransactionLayer κ) (id : Nat) (key : Bytes) : TransactionLayer κ :=
  { layer with
    clients := layer.clients.modify id .startFailed
    clientTxns := layer.clientTxns.erase key }

def startSent (layer : TransactionLayer κ) (now id : Nat) : TransactionLayer κ :=
  { layer with clients := layer.clients.modify id (·.startSent now) }

def findClientTransaction [OsipAccessor] (layer : TransactionLayer κ) (response : SipMessage) :
    Option Nat :=
  (responseTransactionKeys response).findSome? layer.clientTxns.find

/-- The callback installed by `sendRequest`: the caller's callback, and after a final
response the entry goes. -/
def callOnResponse (layer : TransactionLayer κ) (callback : ResponseCallback κ)
    (response : SipMessage) : TransactionLayer κ × List (LayerEvent κ) :=
  if layer.shuttingDown then (layer, [])
  else
    (if 200 ≤ response.statusCode then
        { layer with clientTxns := layer.clientTxns.erase callback.key }
      else layer,
     match callback.cb with
      | none => []
      | some cb => [.called cb response])

/-- `processMessage` with a response. -/
def processResponse [OsipAccessor] (layer : TransactionLayer κ) (response : SipMessage) :
    TransactionLayer κ × List (LayerEvent κ) :=
  if layer.shuttingDown then (layer, [])
  else
    match layer.findClientTransaction response with
    | none => (layer, [])
    | some id =>
        match layer.clients.find id with
        | none => (layer, [])
        | some txn =>
            let layer := { layer with
              clients := layer.clients.modify id (·.processResponse response.statusCode) }
            match txn.onResponse with
            | none => (layer, [])
            | some callback => layer.callOnResponse callback response

/-- The handler of a transaction's Timer B, with the timeout callback of `sendRequest`. -/
def timeout (layer : TransactionLayer κ) (id : Nat) : TransactionLayer κ :=
  match layer.clients.find id with
  | none => layer
  | some txn =>
      let layer' := { layer with clients := layer.clients.modify id (·.timeout.1) }
      match txn.timeout.2 with
      | none => layer'
      | some key =>
          if layer.shuttingDown then layer'
          else { layer' with clientTxns := layer'.clientTxns.erase key }

def retransmit (layer : TransactionLayer κ) (now id : Nat) : TransactionLayer κ :=
  { layer with clients := layer.clients.modify id (·.retransmit now) }

/-- Both tables are swapped out, and the transactions that were registered are shut down.
A transaction is registered under its own key only. -/
def shutdown (layer : TransactionLayer κ) : TransactionLayer κ :=
  { layer with
    shuttingDown := true
    clientTxns := .empty
    clients := layer.clients.mapValues fun id txn =>
      if layer.clientTxns.find (clientKey txn.request) = some id then txn.shutdown else txn }

end TransactionLayer

/-! ## Runs -/

/-- What a call of `sendRequest` still needs after it has registered its transaction. -/
structure Starting (κ : Type) where
  key : Bytes
  onResponse : Option κ

/-- The layer, the clock, and for each transaction that waits for the transport the call
of `sendRequest` that has registered it. -/
structure LayerState (κ : Type) where
  layer : TransactionLayer κ
  now : Nat
  starting : Table Nat (Starting κ)

inductive LayerAction (κ : Type) where
  | elapse (duration : Nat)
  | sendRequest (request : SipMessage) (dest : Endpoint) (onResponse : Option κ)
  | startSent (id : Nat)
  | startFailed (id : Nat) (error : ErrorInfo)
  | processResponse (response : SipMessage)
  | expireTimer (name : ClientTransaction.TimerName) (id : Nat)
  | runTimerA (id : Nat)
  | runTimerB (id : Nat)
  | shutdown

namespace LayerState

variable {κ : Type}

def init : LayerState κ := { layer := .init, now := 0, starting := .empty }

/-- Change one timer of a transaction, where `change` is enabled. -/
def withTimer (s : LayerState κ) (id : Nat) (name : ClientTransaction.TimerName)
    (change : Timer → Option Timer) : Option (LayerState κ) :=
  match (s.layer.clients.find id).bind fun txn => change (txn.timer name) with
  | none => none
  | some timer =>
      some { s with layer := { s.layer with
        clients := s.layer.clients.modify id (·.setTimer timer name) } }

def sendRequest (s : LayerState κ) (request : SipMessage) (dest : Endpoint)
    (onResponse : Option κ) : LayerState κ × List (LayerEvent κ) :=
  match s.layer.sendRequest request dest onResponse with
  | .error error => (s, [.rejected onResponse error])
  | .ok (layer, id) =>
      ({ s with layer, starting := s.starting.insert id ⟨clientKey request, onResponse⟩ }, [])

def startSent (s : LayerState κ) (id : Nat) : Option (LayerState κ) :=
  match s.starting.find id with
  | none => none
  | some _ =>
      some { s with layer := s.layer.startSent s.now id, starting := s.starting.erase id }

def startFailed (s : LayerState κ) (id : Nat) (error : ErrorInfo) :
    Option (LayerState κ × List (LayerEvent κ)) :=
  match s.starting.find id with
  | none => none
  | some call =>
      some ({ s with layer := s.layer.startFailed id call.key, starting := s.starting.erase id },
        [.rejected call.onResponse error])

def processResponse [OsipAccessor] (s : LayerState κ) (response : SipMessage) :
    Option (LayerState κ × List (LayerEvent κ)) :=
  if response.isResponse then
    some ({ s with layer := (s.layer.processResponse response).1 },
      (s.layer.processResponse response).2)
  else none

def step [OsipAccessor] (s : LayerState κ) :
    LayerAction κ → Option (LayerState κ × List (LayerEvent κ))
  | .elapse duration => some ({ s with now := s.now + duration }, [])
  | .sendRequest request dest onResponse => some (s.sendRequest request dest onResponse)
  | .startSent id => (s.startSent id).map fun t => (t, [])
  | .startFailed id error => s.startFailed id error
  | .processResponse response => s.processResponse response
  | .expireTimer name id => (s.withTimer id name (·.expire s.now)).map fun t => (t, [])
  | .runTimerA id => (s.withTimer id .a Timer.dequeue).map fun t =>
      ({ t with layer := t.layer.retransmit t.now id }, [])
  | .runTimerB id => (s.withTimer id .b Timer.dequeue).map fun t =>
      ({ t with layer := t.layer.timeout id }, [])
  | .shutdown => some ({ s with layer := s.layer.shutdown }, [])

end LayerState

/-- The transaction layer with its environment. -/
def layerMachine [OsipAccessor] (κ : Type) :
    Machine (LayerState κ) (LayerAction κ) (LayerEvent κ) :=
  ⟨LayerState.step⟩

/-! ## What the operations leave alone -/

namespace TransactionLayer

variable {κ : Type} {layer layer' layer'' : TransactionLayer κ} {id : Nat} {key : Bytes}
variable {txn : Client κ}

/-- The same transactions with the same fixed parts, and no new entries. -/
structure Frame (layer layer' : TransactionLayer κ) : Prop where
  nextClient : layer'.nextClient = layer.nextClient
  shuttingDown : layer'.shuttingDown = layer.shuttingDown
  entries : ∀ key id, layer'.clientTxns.find key = some id → layer.clientTxns.find key = some id
  fixed : ∀ id, (layer'.clients.find id).map ClientTransaction.fixed =
    (layer.clients.find id).map ClientTransaction.fixed

theorem Frame.refl (layer : TransactionLayer κ) : Frame layer layer :=
  ⟨rfl, rfl, fun _ _ h => h, fun _ => rfl⟩

theorem Frame.trans (h₁ : Frame layer layer') (h₂ : Frame layer' layer'') :
    Frame layer layer'' :=
  ⟨h₂.nextClient.trans h₁.nextClient, h₂.shuttingDown.trans h₁.shuttingDown,
    fun key id h => h₁.entries key id (h₂.entries key id h),
    fun id => (h₂.fixed id).trans (h₁.fixed id)⟩

/-- Changing a transaction in place, its fixed parts apart. -/
theorem frame_modify {f : Client κ → Client κ} (hf : ∀ txn, (f txn).fixed = txn.fixed) :
    Frame layer { layer with clients := layer.clients.modify id f } := by
  refine ⟨rfl, rfl, fun _ _ h => h, fun other => ?_⟩
  rw [Table.find_modify]
  split
  · rw [Option.map_map]
    congr 1
    funext txn
    exact hf txn
  · rfl

theorem frame_erase : Frame layer { layer with clientTxns := layer.clientTxns.erase key } :=
  ⟨rfl, rfl, fun _ _ h => (Table.find_of_find_erase h).2, fun _ => rfl⟩

theorem frame_startSent (layer : TransactionLayer κ) (now id : Nat) :
    Frame layer (layer.startSent now id) :=
  frame_modify fun txn => txn.fixed_startSent now

theorem frame_startFailed (layer : TransactionLayer κ) (id : Nat) (key : Bytes) :
    Frame layer (layer.startFailed id key) :=
  (frame_modify fun txn => txn.fixed_startFailed).trans frame_erase

theorem frame_retransmit (layer : TransactionLayer κ) (now id : Nat) :
    Frame layer (layer.retransmit now id) :=
  frame_modify fun txn => txn.fixed_retransmit now

theorem frame_callOnResponse (layer : TransactionLayer κ) (callback : ResponseCallback κ)
    (response : SipMessage) : Frame layer (layer.callOnResponse callback response).1 := by
  rw [callOnResponse]
  split
  · exact .refl layer
  · simp only
    split
    · exact frame_erase
    · exact .refl layer

theorem frame_processResponse [OsipAccessor] (layer : TransactionLayer κ) (response : SipMessage) :
    Frame layer (layer.processResponse response).1 := by
  rw [processResponse]
  split
  · exact .refl layer
  · split
    · exact .refl layer
    · rename_i id _
      split
      · exact .refl layer
      · have changed : Frame layer { layer with
            clients := layer.clients.modify id (·.processResponse response.statusCode) } :=
          frame_modify fun txn => txn.fixed_processResponse response.statusCode
        simp only
        split
        · exact changed
        · exact changed.trans (frame_callOnResponse _ _ _)

theorem frame_timeout (layer : TransactionLayer κ) (id : Nat) :
    Frame layer (layer.timeout id) := by
  rw [timeout]
  split
  · exact .refl layer
  · have changed : Frame layer { layer with clients := layer.clients.modify id (·.timeout.1) } :=
      frame_modify fun txn => txn.fixed_timeout
    simp only
    split
    · exact changed
    · split
      · exact changed
      · exact changed.trans frame_erase

/-! What delivering a response and a timeout do to the tables. -/

/-- A timeout takes the entry away that the transaction's callback names. -/
theorem clientTxns_timeout_of_live (hc : layer.clients.find id = some txn) (hlive : txn.Live)
    (honTimeout : txn.onTimeout = some key) (hdown : layer.shuttingDown = false) :
    (layer.timeout id).clientTxns = layer.clientTxns.erase key := by
  obtain ⟨_, hcallback⟩ := ClientTransaction.timeout_of_live hlive
  simp only [timeout, hc, hcallback, honTimeout, hdown]
  rfl

/-- Where no callback is called, or it finds the layer shut down, no entry goes. -/
theorem clientTxns_timeout_of_not_called (hc : layer.clients.find id = some txn)
    (h : txn.timeout.2 = none ∨ layer.shuttingDown = true) :
    (layer.timeout id).clientTxns = layer.clientTxns := by
  simp only [timeout, hc]
  split
  · rfl
  · rename_i key hcallback
    obtain hnone | hdown := h
    · cases hnone.symm.trans hcallback
    · rw [if_pos hdown]

/-- It touches no other entry. -/
theorem find_clientTxns_timeout
    (hother : ∀ txn, layer.clients.find id = some txn → txn.Live → txn.onTimeout ≠ some key) :
    (layer.timeout id).clientTxns.find key = layer.clientTxns.find key := by
  rw [timeout]
  split
  · rfl
  · rename_i txn hc
    by_cases hlive : txn.Live
    · have hne := hother txn hc hlive
      obtain ⟨_, hcallback⟩ := ClientTransaction.timeout_of_live hlive
      rw [hcallback]
      simp only
      split
      · rfl
      · rename_i key' honTimeout
        split
        · rfl
        · apply Table.find_erase_of_ne
          rintro rfl
          exact hne honTimeout
    · rw [ClientTransaction.timeout_of_not_live hlive]

theorem find_clients_timeout (layer : TransactionLayer κ) (id other : Nat) :
    (layer.timeout id).clients.find other =
      (layer.clients.modify id (·.timeout.1)).find other := by
  rw [timeout]
  split
  · rename_i hc
    rw [Table.find_modify]
    split
    · rename_i heq
      rw [heq, hc]
      rfl
    · rfl
  · simp only
    split
    · rfl
    · split
      · rfl
      · rfl

/-- Processing a response, as what is done to the transaction that is found and to the
entry of its callback. -/
theorem processResponse_of_found [OsipAccessor] {response : SipMessage}
    {callback : ResponseCallback κ} (hdown : layer.shuttingDown = false)
    (hfind : layer.findClientTransaction response = some id)
    (hc : layer.clients.find id = some txn) (hcallback : txn.onResponse = some callback) :
    layer.processResponse response =
      ({ layer with
          clients := layer.clients.modify id (·.processResponse response.statusCode)
          clientTxns := if 200 ≤ response.statusCode then layer.clientTxns.erase callback.key
            else layer.clientTxns },
        callback.cb.toList.map (.called · response)) := by
  obtain ⟨key, cb⟩ := callback
  simp only [processResponse, callOnResponse, hdown, hfind, hc, hcallback, Bool.false_eq_true,
    if_false]
  split
  · cases cb
    · rfl
    · rfl
  · cases cb
    · rfl
    · rfl

theorem processResponse_of_not_found [OsipAccessor] {response : SipMessage}
    (hfind : layer.findClientTransaction response = none) :
    layer.processResponse response = (layer, []) := by
  rw [processResponse, hfind]
  exact ite_self _

end TransactionLayer

/-- A timer of a known transaction is changed, and nothing else. -/
theorem LayerState.withTimer_eq_some {κ : Type} {s t : LayerState κ} {id : Nat}
    {name : ClientTransaction.TimerName} {change : Timer → Option Timer}
    (h : s.withTimer id name change = some t) :
    ∃ txn timer, s.layer.clients.find id = some txn ∧ change (txn.timer name) = some timer ∧
      t = { s with layer := { s.layer with
        clients := s.layer.clients.modify id (·.setTimer timer name) } } := by
  rw [withTimer] at h
  split at h
  · cases h
  · rename_i timer hbind
    obtain ⟨txn, hc, htimer⟩ := Option.bind_eq_some_iff.mp hbind
    exact ⟨txn, timer, hc, htimer, (Option.some.inj h).symm⟩

theorem LayerState.frame_withTimer {κ : Type} {s t : LayerState κ} {id : Nat}
    {name : ClientTransaction.TimerName} {change : Timer → Option Timer}
    (h : s.withTimer id name change = some t) :
    t.starting = s.starting ∧ TransactionLayer.Frame s.layer t.layer := by
  obtain ⟨_, timer, _, _, rfl⟩ := withTimer_eq_some h
  exact ⟨rfl, TransactionLayer.frame_modify fun txn => txn.fixed_setTimer timer name⟩

/-! ## The layer stays consistent -/

namespace LayerState

variable {κ : Type} {s t : LayerState κ} {a : LayerAction κ} {out : List (LayerEvent κ)}
variable {key : Bytes} {id : Nat} {txn : Client κ}

/-- What holds of the layer in every state: indices are fresh, an entry leads to a
transaction with that key, so does a call that waits for the transport, and there are no
entries after a shutdown. -/
structure Consistent (s : LayerState κ) : Prop where
  fresh : ∀ id txn, s.layer.clients.find id = some txn → id < s.layer.nextClient
  entry : ∀ key id, s.layer.clientTxns.find key = some id →
    ∃ txn cb, s.layer.clients.find id = some txn ∧
      txn.fixed = (txn.request, some ⟨key, cb⟩, some key) ∧ clientKey txn.request = key
  waiting : ∀ id call, s.starting.find id = some call →
    ∃ txn, s.layer.clients.find id = some txn ∧ clientKey txn.request = call.key
  closed : s.layer.shuttingDown = true → ∀ key, s.layer.clientTxns.find key = none

theorem consistent_init : (init : LayerState κ).Consistent := by
  refine ⟨?_, ?_, ?_, fun _ _ => rfl⟩
  · intro id txn h
    cases h
  · intro key id h
    cases h
  · intro id call h
    cases h

theorem Consistent.of_frame (h : Consistent s) (frame : TransactionLayer.Frame s.layer t.layer)
    (hstart : ∀ id call, t.starting.find id = some call → s.starting.find id = some call) :
    Consistent t := by
  have forth : ∀ {id txn}, s.layer.clients.find id = some txn →
      ∃ txn', t.layer.clients.find id = some txn' ∧ txn'.fixed = txn.fixed := by
    intro id txn hc
    have := frame.fixed id
    rw [hc] at this
    exact Option.map_eq_some_iff.mp this
  refine ⟨?_, ?_, ?_, ?_⟩
  · intro id txn hc
    have hback := (frame.fixed id).symm
    rw [hc] at hback
    obtain ⟨txn', hc', _⟩ := Option.map_eq_some_iff.mp hback
    rw [frame.nextClient]
    exact h.fresh id txn' hc'
  · intro key id hentry
    obtain ⟨txn, cb, hc, hparts, hkey⟩ := h.entry key id (frame.entries key id hentry)
    obtain ⟨txn', hc', hsame⟩ := forth hc
    rw [← hsame] at hparts
    have hrequest : txn'.request = txn.request := congrArg (·.1) hsame
    exact ⟨txn', cb, hc', by rw [hparts, hrequest], by rw [hrequest, hkey]⟩
  · intro id call hcall
    obtain ⟨txn, hc, hkey⟩ := h.waiting id call (hstart id call hcall)
    obtain ⟨txn', hc', hsame⟩ := forth hc
    have hrequest : txn'.request = txn.request := congrArg (·.1) hsame
    exact ⟨txn', hc', by rw [hrequest, hkey]⟩
  · intro hshut key
    cases hentry : t.layer.clientTxns.find key with
    | none => rfl
    | some id =>
        have hnone := h.closed (frame.shuttingDown ▸ hshut) key
        cases hnone.symm.trans (frame.entries key id hentry)

/-- A registered transaction, by the key of its entry. -/
theorem Consistent.registered (h : Consistent s)
    (hentry : s.layer.clientTxns.find key = some id) :
    ∃ txn cb, s.layer.clients.find id = some txn ∧ txn.onResponse = some ⟨key, cb⟩ ∧
      txn.onTimeout = some key ∧ clientKey txn.request = key ∧ s.layer.shuttingDown = false := by
  obtain ⟨txn, cb, hc, hparts, hkey⟩ := h.entry key id hentry
  have honResponse : txn.onResponse = some ⟨key, cb⟩ := congrArg (·.2.1) hparts
  have honTimeout : txn.onTimeout = some key := congrArg (·.2.2) hparts
  refine ⟨txn, cb, hc, honResponse, honTimeout, hkey, ?_⟩
  cases hdown : s.layer.shuttingDown with
  | false => rfl
  | true => cases (h.closed hdown key).symm.trans hentry

/-- Why `sendRequest` returns an error. -/
def Refuses (layer : TransactionLayer κ) (request : SipMessage) : Prop :=
  layer.shuttingDown = true ∨ request.viaBranch = [] ∨
    layer.clientTxns.contains (clientKey request) = true

/-- The state after the request has been registered. -/
def register (s : LayerState κ) (request : SipMessage) (dest : Endpoint)
    (onResponse : Option κ) : LayerState κ :=
  { s with
    layer := { s.layer with
      clientTxns := s.layer.clientTxns.insert (clientKey request) s.layer.nextClient
      clients := s.layer.clients.insert s.layer.nextClient
        (.create request dest ⟨clientKey request, onResponse⟩ (clientKey request))
      nextClient := s.layer.nextClient + 1 }
    starting := s.starting.insert s.layer.nextClient ⟨clientKey request, onResponse⟩ }

theorem find_clientTxns_register (s : LayerState κ) (request : SipMessage) (dest : Endpoint)
    (onResponse : Option κ) (key : Bytes) :
    (s.register request dest onResponse).layer.clientTxns.find key =
      if key = clientKey request then some s.layer.nextClient
      else s.layer.clientTxns.find key := Table.find_insert ..

theorem find_clients_register (s : LayerState κ) (request : SipMessage) (dest : Endpoint)
    (onResponse : Option κ) (id : Nat) :
    (s.register request dest onResponse).layer.clients.find id =
      if id = s.layer.nextClient then
        some (.create request dest ⟨clientKey request, onResponse⟩ (clientKey request))
      else s.layer.clients.find id := Table.find_insert ..

theorem find_starting_register (s : LayerState κ) (request : SipMessage) (dest : Endpoint)
    (onResponse : Option κ) (id : Nat) :
    (s.register request dest onResponse).starting.find id =
      if id = s.layer.nextClient then some ⟨clientKey request, onResponse⟩
      else s.starting.find id := Table.find_insert ..

/-- `sendRequest` either registers a new transaction under a free key, or changes nothing
and returns the error to its caller. -/
theorem sendRequest_cases {request : SipMessage} {dest : Endpoint} {onResponse : Option κ}
    (hstep : s.sendRequest request dest onResponse = (t, out)) :
    (∃ error, Refuses s.layer request ∧ t = s ∧ out = [.rejected onResponse error]) ∨
      (¬ Refuses s.layer request ∧ out = [] ∧
        t = s.register request dest onResponse) := by
  simp only [sendRequest, TransactionLayer.sendRequest] at hstep
  split at hstep
  · rename_i error hresult
    cases hstep
    refine .inl ⟨error, ?_, rfl, rfl⟩
    split_ifs at hresult with hdown hbranch hcontains
    · exact .inl hdown
    · exact .inr (.inl hbranch)
    · exact .inr (.inr hcontains)
  · rename_i layer' id' hresult
    split_ifs at hresult with hdown hbranch hcontains
    cases hresult
    cases hstep
    refine .inr ⟨?_, rfl, rfl⟩
    rintro (h | h | h)
    · exact hdown h
    · exact hbranch h
    · exact hcontains h

theorem not_refuses {request : SipMessage} (h : ¬ Refuses s.layer request) :
    s.layer.shuttingDown = false ∧ s.layer.clientTxns.find (clientKey request) = none := by
  obtain ⟨hdown, _, hcontains⟩ := by simpa [Refuses, not_or] using h
  exact ⟨hdown, Table.contains_eq_false_iff.mp hcontains⟩

theorem Consistent.register (h : Consistent s) (hdown : s.layer.shuttingDown = false)
    (request : SipMessage) (dest : Endpoint) (onResponse : Option κ) :
    Consistent (s.register request dest onResponse) := by
  have hne : ∀ {id txn}, s.layer.clients.find id = some txn → id ≠ s.layer.nextClient :=
    fun hc => (h.fresh _ _ hc).ne
  refine ⟨?_, ?_, ?_, fun hshut => absurd (hdown.symm.trans hshut) (by simp)⟩
  · intro id txn hc
    rw [find_clients_register] at hc
    split at hc
    · rename_i heq
      rw [heq]
      exact Nat.lt_succ_self _
    · exact (h.fresh id txn hc).trans (Nat.lt_succ_self _)
  · intro key id hentry
    rw [find_clientTxns_register] at hentry
    rw [find_clients_register]
    split at hentry
    · rename_i heq
      cases hentry
      rw [heq, if_pos rfl]
      exact ⟨_, onResponse, rfl, rfl, rfl⟩
    · obtain ⟨txn, cb, hc, hparts, hkey⟩ := h.entry key id hentry
      exact ⟨txn, cb, by rw [if_neg (hne hc), hc], hparts, hkey⟩
  · intro id call hcall
    rw [find_starting_register] at hcall
    rw [find_clients_register]
    split at hcall
    · rename_i heq
      cases hcall
      rw [if_pos heq]
      exact ⟨_, rfl, rfl⟩
    · obtain ⟨txn, hc, hkey⟩ := h.waiting id call hcall
      exact ⟨txn, by rw [if_neg (hne hc), hc], hkey⟩

theorem Consistent.shutdown (h : Consistent s) :
    Consistent { s with layer := s.layer.shutdown } := by
  have request_eq : ∀ {id txn}, s.layer.shutdown.clients.find id = some txn →
      ∃ txn', s.layer.clients.find id = some txn' := by
    intro id txn hc
    rw [TransactionLayer.shutdown, Table.find_mapValues] at hc
    obtain ⟨txn', hc', _⟩ := Option.map_eq_some_iff.mp hc
    exact ⟨txn', hc'⟩
  refine ⟨?_, nofun, ?_, fun _ _ => rfl⟩
  · intro id txn hc
    obtain ⟨txn', hc'⟩ := request_eq hc
    exact h.fresh id txn' hc'
  · intro id call hcall
    obtain ⟨txn, hc, hkey⟩ := h.waiting id call hcall
    refine ⟨if s.layer.clientTxns.find (clientKey txn.request) = some id then txn.shutdown
      else txn, ?_, ?_⟩
    · rw [TransactionLayer.shutdown, Table.find_mapValues, hc, Option.map_some]
    · split
      · exact hkey
      · exact hkey

/-! ## What a step can do -/

/-- The step ends a transaction without a final response: its timeout is processed, or
`sendRequest` returns the transport's error. -/
def EndsEarly (s : LayerState κ) : LayerAction κ → Prop
  | .runTimerB id => ∃ txn key, s.layer.clients.find id = some txn ∧ txn.Live ∧
      txn.onTimeout = some key ∧ s.layer.shuttingDown = false
  | .startFailed _ _ => True
  | _ => False

/-- The entries, events and pending calls after a step. In every case but the registration
and the shutdown the transactions themselves are framed. -/
inductive Change (s : LayerState κ) :
    LayerAction κ → LayerState κ → List (LayerEvent κ) → Prop where
  | kept {a : LayerAction κ} {t : LayerState κ} (hquiet : ¬ EndsEarly s a)
      (frame : TransactionLayer.Frame s.layer t.layer)
      (hentries : t.layer.clientTxns = s.layer.clientTxns)
      (hstart : ∀ id call, t.starting.find id = some call → s.starting.find id = some call) :
      Change s a t []
  | refused {request : SipMessage} {dest : Endpoint} {onResponse : Option κ}
      (error : ErrorInfo) (hrefuses : Refuses s.layer request) :
      Change s (.sendRequest request dest onResponse) s [.rejected onResponse error]
  | registered {request : SipMessage} {dest : Endpoint} {onResponse : Option κ}
      {t : LayerState κ} (haccepts : ¬ Refuses s.layer request)
      (heq : t = s.register request dest onResponse) :
      Change s (.sendRequest request dest onResponse) t []
  | delivered {response : SipMessage} {t : LayerState κ} {key : Bytes} {id : Nat}
      {txn : Client κ} {cb : Option κ} (hentry : s.layer.clientTxns.find key = some id)
      (hc : s.layer.clients.find id = some txn) (hcallback : txn.onResponse = some ⟨key, cb⟩)
      (frame : TransactionLayer.Frame s.layer t.layer)
      (hentries : t.layer.clientTxns =
        if 200 ≤ response.statusCode then s.layer.clientTxns.erase key else s.layer.clientTxns)
      (hstart : t.starting = s.starting) :
      Change s (.processResponse response) t (cb.toList.map (.called · response))
  | timedOut {id : Nat} {t : LayerState κ} {txn : Client κ} {key : Bytes}
      (hc : s.layer.clients.find id = some txn) (hlive : txn.Live)
      (honTimeout : txn.onTimeout = some key) (hdown : s.layer.shuttingDown = false)
      (frame : TransactionLayer.Frame s.layer t.layer)
      (hentries : t.layer.clientTxns = s.layer.clientTxns.erase key)
      (hstart : t.starting = s.starting) : Change s (.runTimerB id) t []
  | failed {id : Nat} {error : ErrorInfo} {t : LayerState κ} {call : Starting κ}
      (hcall : s.starting.find id = some call)
      (frame : TransactionLayer.Frame s.layer t.layer)
      (hentries : t.layer.clientTxns = s.layer.clientTxns.erase call.key)
      (hstart : t.starting = s.starting.erase id) :
      Change s (.startFailed id error) t [.rejected call.onResponse error]
  | shutdown : Change s .shutdown { s with layer := s.layer.shutdown } []

theorem processResponse_change [OsipAccessor] (hs : Consistent s) (response : SipMessage) :
    Change s (.processResponse response)
      { s with layer := (s.layer.processResponse response).1 }
      (s.layer.processResponse response).2 := by
  have frame := TransactionLayer.frame_processResponse s.layer response
  cases hfind : s.layer.findClientTransaction response with
  | none =>
      rw [TransactionLayer.processResponse_of_not_found hfind] at frame ⊢
      exact .kept (fun h => h) frame rfl fun _ _ hcall => hcall
  | some id =>
      obtain ⟨key, _, hentry⟩ := List.exists_of_findSome?_eq_some hfind
      obtain ⟨txn, cb, hc, hcallback, _, _, hdown⟩ := hs.registered hentry
      have hprocess := TransactionLayer.processResponse_of_found hdown hfind hc hcallback
      rw [hprocess] at frame ⊢
      exact .delivered hentry hc hcallback frame rfl rfl

theorem runTimerB_change (hstep : s.withTimer id .b Timer.dequeue = some t) :
    Change s (.runTimerB id) { t with layer := t.layer.timeout id } [] := by
  obtain ⟨hstart, frame⟩ := frame_withTimer hstep
  have frame' := frame.trans (TransactionLayer.frame_timeout t.layer id)
  obtain ⟨txn, timer, hc, _, rfl⟩ := withTimer_eq_some hstep
  have hdequeued : (s.layer.clients.modify id (·.setTimer timer .b)).find id =
      some (txn.setTimer timer .b) := by
    rw [Table.find_modify_self, hc, Option.map_some]
  by_cases hcalled : (txn.setTimer timer .b).timeout.2 = none ∨ s.layer.shuttingDown = true
  · refine .kept ?_ frame' (TransactionLayer.clientTxns_timeout_of_not_called hdequeued hcalled)
      fun _ _ hcall => hstart ▸ hcall
    rintro ⟨txn', key, hc', hlive, honTimeout, hup⟩
    cases hc.symm.trans hc'
    have hlive' : (txn.setTimer timer .b).Live := hlive
    obtain ⟨_, hcallback⟩ := ClientTransaction.timeout_of_live hlive'
    obtain hnone | hdown := hcalled
    · cases hnone.symm.trans (hcallback.trans honTimeout)
    · cases hdown.symm.trans hup
  · obtain ⟨hcallback, hup⟩ := not_or.mp hcalled
    have hdown : s.layer.shuttingDown = false := Bool.eq_false_iff.mpr hup
    have hlive : (txn.setTimer timer .b).Live := by
      by_contra hnot
      exact hcallback (congrArg Prod.snd (ClientTransaction.timeout_of_not_live hnot))
    obtain ⟨_, honTimeout⟩ := ClientTransaction.timeout_of_live hlive
    obtain ⟨key, hkey⟩ := Option.ne_none_iff_exists'.mp (honTimeout ▸ hcallback)
    have hlive' : txn.Live := hlive
    exact .timedOut hc hlive' hkey hdown frame'
      (TransactionLayer.clientTxns_timeout_of_live hdequeued hlive hkey hdown) hstart

theorem step_change [OsipAccessor] (hs : Consistent s) (hstep : s.step a = some (t, out)) :
    Change s a t out := by
  cases a with
  | elapse duration =>
      cases hstep
      exact .kept (fun h => h) (.refl _) rfl fun _ _ hcall => hcall
  | sendRequest request dest onResponse =>
      obtain ⟨error, hrefuses, rfl, rfl⟩ | ⟨haccepts, rfl, heq⟩ :=
        sendRequest_cases (Option.some.inj hstep)
      · exact .refused error hrefuses
      · exact .registered haccepts heq
  | startSent id =>
      obtain ⟨t', hstart, heq⟩ := Option.map_eq_some_iff.mp hstep
      cases heq
      rw [startSent] at hstart
      split at hstart
      · cases hstart
      · cases hstart
        exact .kept (fun h => h) (TransactionLayer.frame_startSent _ _ _) rfl
          fun _ _ hcall => (Table.find_of_find_erase hcall).2
  | startFailed id error =>
      rw [LayerState.step, startFailed] at hstep
      split at hstep
      · cases hstep
      · rename_i call hcall
        cases hstep
        exact .failed hcall (TransactionLayer.frame_startFailed _ _ _) rfl rfl
  | processResponse response =>
      obtain ⟨_, hstep⟩ := Option.ite_none_right_eq_some.mp hstep
      cases hstep
      exact processResponse_change hs response
  | expireTimer name id =>
      obtain ⟨t', htimer, heq⟩ := Option.map_eq_some_iff.mp hstep
      cases heq
      obtain ⟨hstart, frame⟩ := frame_withTimer htimer
      obtain ⟨_, _, _, _, rfl⟩ := withTimer_eq_some htimer
      exact .kept (fun h => h) frame rfl fun _ _ hcall => hcall
  | runTimerA id =>
      obtain ⟨t', htimer, heq⟩ := Option.map_eq_some_iff.mp hstep
      cases heq
      obtain ⟨hstart, frame⟩ := frame_withTimer htimer
      obtain ⟨_, _, _, _, rfl⟩ := withTimer_eq_some htimer
      exact .kept (fun h => h) (frame.trans (TransactionLayer.frame_retransmit _ _ _)) rfl
        fun _ _ hcall => hcall
  | runTimerB id =>
      obtain ⟨t', htimer, heq⟩ := Option.map_eq_some_iff.mp hstep
      cases heq
      exact runTimerB_change htimer
  | shutdown =>
      cases hstep
      exact .shutdown

theorem Consistent.step [OsipAccessor] (h : Consistent s) (hstep : s.step a = some (t, out)) :
    Consistent t := by
  cases step_change h hstep with
  | kept hquiet frame hentries hstart => exact h.of_frame frame hstart
  | refused error hrefuses => exact h
  | registered haccepts heq =>
      rw [heq]
      exact h.register (not_refuses haccepts).1 _ _ _
  | delivered hentry hc hcallback frame hentries hstart =>
      exact h.of_frame frame fun _ _ hcall => hstart ▸ hcall
  | timedOut hc hlive honTimeout hdown frame hentries hstart =>
      exact h.of_frame frame fun _ _ hcall => hstart ▸ hcall
  | failed hcall frame hentries hstart =>
      exact h.of_frame frame fun _ _ hcall' => (Table.find_of_find_erase (hstart ▸ hcall')).2
  | shutdown => exact h.shutdown

end LayerState

end SimIms.Sip
