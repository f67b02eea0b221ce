import SimIms.Sip.Exchange

/-!
# Responses that reach their requests

What a caller is given is what the handler on the other side has answered, whatever the network does
in between. It need not be the answer to the caller's own request: a response is matched by the
branch of any of its Vias. It is, if no other request with that branch has been sent to the server.
-/

namespace SimIms.Sip

open Cxx Lib

/-! ## What a call may do -/

namespace ExchangeThread

variable {κ α : Type} {thread : ExchangeThread}

def Allows (thread : ExchangeThread) : ExchangeOp κ → Prop
  | .client (.findClient response) => thread.response = some response
  | .client (.onResponse txn _ response) =>
      thread.response = some response ∧ thread.found = some txn
  | .server (.insert _ msg _) => thread.request = some msg
  | .server (.send txn response) => thread.answer = some (txn, response)
  | .server (.record txn response) => thread.answer = some (txn, response)
  | _ => True

def contract (κ : Type) : Contract (exchangeOps κ) ExchangeThread where
  Allows := Allows
  Expects _ _ := True
  Throws _ := False
  track := track

/-- What the contract says of the programs of the client. -/
def clientPart (κ : Type) : Contract (clientOps κ) ExchangeThread where
  Allows thread op := thread.Allows (.client op)
  Expects _ _ := True
  Throws _ := False
  track thread op answer := thread.track (.client op) answer

/-- What the contract says of the programs of the server. -/
def serverPart (κ : Type) : Contract serverOps ExchangeThread where
  Allows thread op := thread.Allows (κ := κ) (.server op)
  Expects _ _ := True
  Throws _ := False
  track thread op answer := thread.track (κ := κ) (.server op) answer

theorem lift_meets_of_client {p : Program (clientOps κ) Exception α}
    {Q : ExchangeThread → α → Prop} (h : p.Meets (clientPart κ) thread Q) :
    (p.lift : Exchange.Method κ α).Meets (contract κ) thread Q := by
  apply h.translate
  · intro thread op hallows
    exact ⟨hallows, fun _ _ => ⟨trivial, rfl⟩⟩
  · exact fun _ h => h

theorem lift_meets_of_server {p : Program serverOps Exception α}
    {Q : ExchangeThread → α → Prop} (h : p.Meets (serverPart κ) thread Q) :
    (p.lift : Exchange.Method κ α).Meets (contract κ) thread Q := by
  apply h.translate
  · intro thread op hallows
    exact ⟨hallows, fun _ _ => ⟨trivial, rfl⟩⟩
  · exact fun _ h => h

end ExchangeThread

namespace Exchange

open ExchangeThread

variable {κ : Type} {thread : ExchangeThread} {txn : Nat} {request response : SipMessage}
variable {source dest : Endpoint} {onResponse : Option κ}

theorem sendRequest_meets :
    (ClientLayer.begin (.sendRequest request dest onResponse)).Meets (clientPart κ) thread
      fun _ _ => True := by
  apply Program.Meets.bind (Q := fun _ _ => True)
  · refine ⟨trivial, fun down _ => ?_⟩
    cases down with
    | true => trivial
    | false =>
        refine ⟨trivial, fun registered _ => ?_⟩
        cases registered with
        | error error => trivial
        | ok txn =>
            refine ⟨trivial, fun refusal _ => ?_⟩
            cases refusal with
            | none => exact ⟨trivial, fun _ _ => trivial⟩
            | some error => exact ⟨trivial, fun _ _ => ⟨trivial, fun _ _ => trivial⟩⟩
  · exact fun _ _ _ => trivial

theorem runTimerB_meets :
    (ClientLayer.runTimerB (κ := κ) txn).Meets (clientPart κ) thread fun _ _ => True := by
  refine ⟨trivial, fun key _ => ?_⟩
  cases key with
  | none => trivial
  | some key =>
      refine ⟨trivial, fun down _ => ?_⟩
      cases down with
      | true => trivial
      | false => exact ⟨trivial, fun _ _ => trivial⟩

theorem finish_meets {key : Bytes} :
    (ClientLayer.finish (κ := κ) key response).Meets (clientPart κ) thread fun _ _ => True := by
  rw [ClientLayer.finish]
  split
  · exact ⟨trivial, fun _ _ => trivial⟩
  · trivial

/-- The caller is given the response that the thread has taken. -/
theorem processResponse_meets (hresponse : thread.response = some response) :
    (ClientLayer.processResponse (κ := κ) response).Meets (clientPart κ) thread
      fun _ _ => True := by
  refine ⟨trivial, fun down _ => ?_⟩
  cases down with
  | true => trivial
  | false =>
      refine ⟨hresponse, fun found _ => ?_⟩
      cases found with
      | none => trivial
      | some txn =>
          refine ⟨trivial, fun callback _ => ?_⟩
          obtain _ | ⟨key, cb⟩ := callback
          · trivial
          · refine ⟨trivial, fun down _ => ?_⟩
            cases down with
            | true => trivial
            | false =>
                cases cb with
                | none => exact finish_meets
                | some cb => exact ⟨⟨hresponse, rfl⟩, fun _ _ => finish_meets⟩

theorem terminate_meets {callback : Option TerminationCallback} :
    (ServerLayer.terminate callback).Meets (serverPart κ) thread fun _ _ => True := by
  cases callback with
  | none => trivial
  | some callback => exact ⟨trivial, fun _ _ => trivial⟩

/-- What is sent again is what the transaction has sent last. -/
theorem retransmitLastResponse_meets :
    (ServerLayer.retransmitLastResponse txn).Meets (serverPart κ) thread fun _ _ => True := by
  refine ⟨trivial, fun response _ => ?_⟩
  cases response with
  | none => trivial
  | some response => exact ⟨rfl, fun _ _ => trivial⟩

theorem dispatch_meets (hrequest : thread.request = some request) :
    (ServerLayer.dispatch request source).Meets (serverPart κ) thread fun _ _ => True := by
  refine ⟨trivial, fun existing _ => ?_⟩
  cases existing with
  | some existing => exact retransmitLastResponse_meets
  | none =>
      refine ⟨hrequest, fun inserted _ => ?_⟩
      cases inserted with
      | shuttingDown => trivial
      | existing existing => exact retransmitLastResponse_meets
      | inserted txn =>
          refine ⟨trivial, fun handler _ => ?_⟩
          cases handler with
          | false => trivial
          | true => exact ⟨trivial, fun _ _ => trivial⟩

theorem processRequest_meets (hrequest : thread.request = some request) :
    (ServerLayer.processRequest request source).Meets (serverPart κ) thread fun _ _ => True := by
  refine ⟨trivial, fun down _ => ?_⟩
  cases down with
  | true => trivial
  | false =>
      show Program.Meets (serverPart κ) thread
        (if request.method = bytes "ACK" then _ else ServerLayer.dispatch request source) _
      split
      · refine ⟨trivial, fun invite _ => ?_⟩
        cases invite with
        | none => exact dispatch_meets hrequest
        | some invite => exact ⟨trivial, fun _ _ => terminate_meets⟩
      · exact dispatch_meets hrequest

theorem sendResponse_meets (hanswer : thread.answer = some (txn, response)) :
    (ServerLayer.sendResponse txn response).Meets (serverPart κ) thread fun _ _ => True := by
  refine ⟨hanswer, fun accepted _ => ?_⟩
  cases accepted with
  | false => trivial
  | true =>
      refine ⟨hanswer, fun answer _ => ?_⟩
      obtain ⟨start, callback⟩ := answer
      cases start with
      | true => exact ⟨trivial, fun _ _ => terminate_meets⟩
      | false => exact terminate_meets

theorem begin_meets (call : ExchangeCall κ) :
    (begin call).Meets (contract κ) {} fun _ _ => True := by
  cases call with
  | sendRequest request dest onResponse => exact lift_meets_of_client sendRequest_meets
  | receiveResponse =>
      exact ⟨trivial, fun _ _ => lift_meets_of_client (processResponse_meets rfl)⟩
  | runTimerB txn => exact lift_meets_of_client runTimerB_meets
  | receiveRequest source =>
      exact ⟨trivial, fun _ _ => lift_meets_of_server (processRequest_meets rfl)⟩
  | respond => exact ⟨trivial, fun _ _ => lift_meets_of_server (sendResponse_meets rfl)⟩
  | runTimer name txn =>
      exact lift_meets_of_server ⟨trivial, fun _ _ => terminate_meets⟩

end Exchange

/-! ## What the server keeps -/

namespace ServerTransaction

variable {τ : Type} {txn : ServerTransaction τ} {response : SipMessage}

/-- The request, and the last response to it. -/
def said (txn : ServerTransaction τ) : SipMessage × Option SipMessage :=
  (txn.request, txn.lastResponse)

theorem said_markTerminatedLocked : txn.markTerminatedLocked.1.said = txn.said := by
  rw [markTerminatedLocked]
  split
  · rfl
  · rfl

theorem said_startTimers (now : Nat) (code : Int) : (txn.startTimers now code).said = txn.said := by
  rw [startTimers]
  split
  · rfl
  · rfl

theorem said_record : (txn.record response).1.said = (txn.request, some response) := by
  simp only [record]
  split
  · rfl
  · split
    · split
      · apply said_markTerminatedLocked
      · rfl
    · rfl

theorem said_acknowledge : txn.acknowledge.1.said = txn.said := by
  rw [acknowledge]
  split
  · apply said_markTerminatedLocked
  · rfl

theorem said_setTimer (timer : Timer) (name : TimerName) :
    (txn.setTimer timer name).said = txn.said := by
  cases name
  · rfl
  · rfl

theorem said_timeout : txn.timeout.1.said = txn.said := said_markTerminatedLocked

end ServerTransaction

namespace ServerLayer

variable {s t : ServerLayer} {op : ServerOp} {accepted : Bool} {answer : ServerAnswer op}
variable {events : List ServerEvent} {id : Nat} {txn : Server} {msg response : SipMessage}

/-- What an operation does to the transactions: nothing, or it records a response, or it creates
one. -/
inductive Says (s t : ServerLayer) : ServerOp → Prop where
  | same {op : ServerOp} (next : t.nextServer = s.nextServer)
      (said : ∀ id, (t.servers.find id).map ServerTransaction.said =
        (s.servers.find id).map ServerTransaction.said) : Says s t op
  | recorded {id : Nat} {response : SipMessage} {txn txn' : Server}
      (find : s.servers.find id = some txn) (next : t.nextServer = s.nextServer)
      (servers : t.servers = s.servers.insert id txn')
      (said : txn'.said = (txn.request, some response)) : Says s t (.record id response)
  | created {key : Bytes} {msg : SipMessage} {source : Endpoint} {txn : Server}
      (next : t.nextServer = s.nextServer + 1)
      (servers : t.servers = s.servers.insert s.nextServer txn)
      (said : txn.said = (msg, none)) : Says s t (.insert key msg source)

theorem says_insert {txn' : Server}
    (hfind : s.servers.find id = some txn) (hsaid : txn'.said = txn.said) :
    Says s { s with servers := s.servers.insert id txn' } op := by
  refine .same rfl fun other => ?_
  rw [Table.find_insert]
  split
  · rename_i heq
    rw [heq, hfind, Option.map_some, Option.map_some, hsaid]
  · rfl

theorem serve_says (hserve : s.serve op accepted = some (t, answer, events)) : Says s t op := by
  cases op with
  | receive msg | findServer key | requestHandler =>
      cases hserve
      exact .same rfl fun _ => rfl
  | lastResponse id | callHandler id | send id response =>
      obtain ⟨txn, -, heq⟩ := Option.map_eq_some_iff.mp hserve
      cases heq
      exact .same rfl fun _ => rfl
  | acknowledge id =>
      obtain ⟨⟨u, callback, txn⟩, hchange, heq⟩ := Option.map_eq_some_iff.mp hserve
      obtain ⟨txn, hfind, hu⟩ := Option.map_eq_some_iff.mp hchange
      cases hu
      cases heq
      exact says_insert hfind ServerTransaction.said_acknowledge
  | insert key msg source =>
      rw [serve] at hserve
      split at hserve
      · cases hserve
        exact .same rfl fun _ => rfl
      · split at hserve
        · cases hserve
          exact .same rfl fun _ => rfl
        · cases hserve
          exact .created rfl rfl rfl
  | record id response =>
      obtain ⟨⟨u, result, txn⟩, hchange, heq⟩ := Option.map_eq_some_iff.mp hserve
      obtain ⟨txn, hfind, hu⟩ := Option.map_eq_some_iff.mp hchange
      cases hu
      cases heq
      exact .recorded hfind rfl rfl ServerTransaction.said_record
  | startTimers id code =>
      obtain ⟨⟨u, result, txn⟩, hchange, heq⟩ := Option.map_eq_some_iff.mp hserve
      obtain ⟨txn, hfind, hu⟩ := Option.map_eq_some_iff.mp hchange
      cases hu
      cases heq
      exact says_insert hfind (ServerTransaction.said_startTimers _ _)
  | timeout name id =>
      rw [serve] at hserve
      split at hserve
      · cases hserve
      · obtain ⟨⟨u, result, txn⟩, hchange, heq⟩ := Option.map_eq_some_iff.mp hserve
        obtain ⟨txn, hfind, hu⟩ := Option.map_eq_some_iff.mp hchange
        cases hu
        cases heq
        apply says_insert hfind
        rw [ServerTransaction.said_timeout, ServerTransaction.said_setTimer]
  | terminated callback =>
      cases hserve
      rw [terminated]
      split
      · exact .same rfl fun _ => rfl
      · split
        · exact .same rfl fun _ => rfl
        · exact .same rfl fun _ => rfl

theorem background_says {event : ServerBackground} (hbackground : s.background event = some t) :
    t.nextServer = s.nextServer ∧ ∀ id, (t.servers.find id).map ServerTransaction.said =
      (s.servers.find id).map ServerTransaction.said := by
  cases event with
  | elapse duration | setRequestHandler =>
      cases hbackground
      exact ⟨rfl, fun _ => rfl⟩
  | expireTimer name id =>
      rw [background] at hbackground
      split at hbackground
      · cases hbackground
      · cases hbackground
        refine ⟨rfl, fun other => ?_⟩
        rw [Table.find_modify]
        split
        · rw [Option.map_map]
          congr 1
          funext txn
          apply ServerTransaction.said_setTimer
        · rfl
  | shutdown =>
      cases hbackground
      refine ⟨rfl, fun id => ?_⟩
      rw [shutdown, Table.find_mapValues, Option.map_map]
      congr 1
      funext txn
      rw [Function.comp_apply]
      split
      · rfl
      · rfl

end ServerLayer

/-! ## What the exchange keeps -/

namespace Exchange

variable {κ : Type}

/-- The handler has been called with the request of the transaction, and this answers it. -/
def AnsweredFor (s : Exchange κ) (id : Nat) (response : SipMessage) : Prop :=
  id ∈ s.asked ∧ ∃ msg, s.server.requestOf id = some msg ∧ Answers msg response

/-- A Via of the response has the branch of the request of this transaction. -/
def Matches [OsipAccessor] (s : Exchange κ) (id : Nat) (response : SipMessage) : Prop :=
  ∃ made, s.client.requestOf id = some made ∧ clientKey made ∈ responseTransactionKeys response

structure Kept [OsipAccessor] (s : Exchange κ) (log : ExchangeLog) : Prop where
  keyed : s.client.Keyed
  served : ∀ id msg last, (s.server.servers.find id).map ServerTransaction.said = some (msg, last) →
    id < s.server.nextServer ∧ msg ∈ s.requests ∧ ∀ response, last = some response →
      s.AnsweredFor id response
  sent : ∀ response ∈ s.responses, ∃ id, s.AnsweredFor id response
  called : ∀ tid id response, (tid, .client (.called id response)) ∈ log →
    response ∈ s.responses ∧ s.Matches id response

/-- Nothing is forgotten. -/
structure Grows (s t : Exchange κ) : Prop where
  requests : s.requests ⊆ t.requests
  responses : s.responses ⊆ t.responses
  asked : s.asked ⊆ t.asked
  client : ∀ id request, s.client.requestOf id = some request →
    t.client.requestOf id = some request
  server : ∀ id request, s.server.requestOf id = some request →
    t.server.requestOf id = some request

end Exchange

/-- What a thread relies on. -/
structure ExchangeThread.Relies [OsipAccessor] {κ : Type} (s : Exchange κ)
    (thread : ExchangeThread) : Prop where
  request : ∀ request, thread.request = some request → request ∈ s.requests
  response : ∀ response, thread.response = some response → response ∈ s.responses
  found : ∀ id response, thread.found = some id → thread.response = some response →
    s.Matches id response
  answer : ∀ id response, thread.answer = some (id, response) → s.AnsweredFor id response

namespace Exchange

variable {κ : Type} {s t : Exchange κ} {log out : ExchangeLog} {tid id : Nat}
variable {thread : ExchangeThread} {response : SipMessage} {events : List ExchangeEvent}

theorem Grows.refl (s : Exchange κ) : Grows s s :=
  ⟨fun _ h => h, fun _ h => h, fun _ h => h, fun _ _ h => h, fun _ _ h => h⟩

theorem AnsweredFor.mono (h : s.AnsweredFor id response) (hgrows : Grows s t) :
    t.AnsweredFor id response := by
  obtain ⟨hasked, msg, hrequest, hanswers⟩ := h
  exact ⟨hgrows.asked hasked, msg, hgrows.server id msg hrequest, hanswers⟩

theorem Matches.mono [OsipAccessor] (h : s.Matches id response) (hgrows : Grows s t) :
    t.Matches id response := by
  obtain ⟨made, hrequest, hkey⟩ := h
  exact ⟨made, hgrows.client id made hrequest, hkey⟩

theorem relies_mono [OsipAccessor] (h : thread.Relies s) (hgrows : Grows s t) : thread.Relies t :=
  ⟨fun request heq => hgrows.requests (h.request request heq),
    fun response heq => hgrows.responses (h.response response heq),
    fun id response hfound heq => (h.found id response hfound heq).mono hgrows,
    fun id response heq => (h.answer id response heq).mono hgrows⟩

/-- A state that has grown keeps what the server says and what the callbacks were given. -/
theorem Kept.grow [OsipAccessor] (h : s.Kept log) (hgrows : Grows s t) (hkeyed : t.client.Keyed)
    (hserved : ∀ id msg last,
      (t.server.servers.find id).map ServerTransaction.said = some (msg, last) →
        id < t.server.nextServer ∧ msg ∈ t.requests ∧ ∀ response, last = some response →
          t.AnsweredFor id response)
    (hsent : ∀ response ∈ t.responses, response ∈ s.responses ∨ ∃ id, t.AnsweredFor id response)
    (hcalled : ∀ tid id response, (tid, .client (.called id response)) ∈ out →
      response ∈ s.responses ∧ s.Matches id response) : t.Kept (log ++ out) := by
  refine ⟨hkeyed, hserved, fun response hmem => ?_, fun other id response hmem => ?_⟩
  · obtain hold | hnew := hsent response hmem
    · obtain ⟨id, hanswered⟩ := h.sent response hold
      exact ⟨id, hanswered.mono hgrows⟩
    · exact hnew
  · have hbefore : response ∈ s.responses ∧ s.Matches id response := by
      obtain hmem | hmem := List.mem_append.mp hmem
      · exact h.called other id response hmem
      · exact hcalled other id response hmem
    exact ⟨hgrows.responses hbefore.1, hbefore.2.mono hgrows⟩

theorem Kept.served_mono [OsipAccessor] (h : s.Kept log) (hgrows : Grows s t)
    (hnext : t.server.nextServer = s.server.nextServer)
    (hsaid : ∀ id, (t.server.servers.find id).map ServerTransaction.said =
      (s.server.servers.find id).map ServerTransaction.said) :
    ∀ id msg last, (t.server.servers.find id).map ServerTransaction.said = some (msg, last) →
      id < t.server.nextServer ∧ msg ∈ t.requests ∧ ∀ response, last = some response →
        t.AnsweredFor id response := by
  intro id msg last hfind
  rw [hsaid] at hfind
  obtain ⟨hlt, hreceived, hrecorded⟩ := h.served id msg last hfind
  refine ⟨?_, hgrows.requests hreceived, fun response heq => (hrecorded response heq).mono hgrows⟩
  omega

theorem requestOf_eq_some {server : ServerLayer} {msg : SipMessage} :
    server.requestOf id = some msg ↔
      ∃ last, (server.servers.find id).map ServerTransaction.said = some (msg, last) := by
  rw [ServerLayer.requestOf]
  cases server.servers.find id with
  | none => simp
  | some txn => simp [ServerTransaction.said]

/-! Each operation does its share. -/

/-- What serving an operation comes to. -/
structure Serves [OsipAccessor] (s t : Exchange κ) (log : ExchangeLog) (tid : Nat)
    (thread : ExchangeThread) (events : List ExchangeEvent) : Prop where
  kept : t.Kept (log ++ events.map (tid, ·))
  grows : Grows s t
  relies : thread.Relies t

/-- A read. -/
theorem Kept.reads [OsipAccessor] (h : s.Kept log) (hrelies : thread.Relies s) :
    Serves s s log tid thread [] := by
  refine ⟨?_, .refl s, hrelies⟩
  rw [List.map_nil, List.append_nil]
  exact h

theorem client_serves [OsipAccessor] {op : ClientOp κ} {environment : ExchangeEnvironment}
    {answer : ClientAnswer κ op} (hkept : s.Kept log) (hrelies : thread.Relies s)
    (hallows : thread.Allows (.client op))
    (hserve : s.serve (.client op) environment = some (t, answer, events)) :
    Serves s t log tid (thread.track (.client op) answer) events := by
  obtain ⟨⟨client, result, out⟩, hclient, heq⟩ := Option.map_eq_some_iff.mp hserve
  cases heq
  have hlayer : ClientKept s.client [] := ⟨hkept.keyed, fun _ _ _ h => (List.not_mem_nil h).elim⟩
  obtain ⟨hkeyed, hlater⟩ := hlayer.later hclient
  have hgrows : Grows s { s with
      client, requests := s.requests ++ s.sent op environment.refusal } :=
    ⟨List.subset_append_left _ _, fun _ h => h, fun _ h => h, hlater, fun _ _ h => h⟩
  refine ⟨hkept.grow hgrows hkeyed (hkept.served_mono hgrows rfl fun _ => rfl)
    (fun _ h => .inl h) ?_, hgrows, ?_⟩
  · intro tid' id response hmem
    obtain ⟨_, hmem, heq⟩ := List.mem_map.mp hmem
    obtain ⟨event, hout, rfl⟩ := List.mem_map.mp hmem
    cases heq
    obtain ⟨id', cb, response', rfl, rfl⟩ := called_of_serve hclient hout
    cases List.mem_singleton.mp hout
    obtain ⟨hresponse, hfound⟩ := hallows
    exact ⟨hrelies.response _ hresponse, hrelies.found _ _ hfound hresponse⟩
  · have hsame := relies_mono hrelies hgrows
    cases op with
    | findClient response =>
        refine ⟨hsame.request, hsame.response, ?_, hsame.answer⟩
        intro id response' hfound hresponse
        cases hclient
        cases hallows.symm.trans hresponse
        obtain ⟨key, hkey, hentry⟩ := List.exists_of_findSome?_eq_some hfound
        obtain ⟨made, hmade, rfl⟩ := hkept.keyed.entry key id hentry
        exact ⟨made, hmade, hkey⟩
    | _ => exact hsame

/-- Growth by an operation of the server. -/
theorem grows_server [OsipAccessor] {op : ServerOp} {server : ServerLayer} {more : List SipMessage}
    {called : List Nat} (hkept : s.Kept log) (htold : s.server.Says server op) :
    Grows s { s with server, responses := s.responses ++ more, asked := s.asked ++ called } := by
  refine ⟨fun _ h => h, List.subset_append_left _ _, List.subset_append_left _ _,
    fun _ _ h => h, fun id msg hrequest => ?_⟩
  obtain ⟨last, hsaid⟩ := requestOf_eq_some.mp hrequest
  apply requestOf_eq_some.mpr
  cases htold with
  | same next said => exact ⟨last, (said id).trans hsaid⟩
  | @recorded id' response txn txn' hfind next servers said =>
      rw [servers, Table.find_insert]
      split
      · rename_i heq
        rw [heq, hfind, Option.map_some, Option.some.injEq] at hsaid
        obtain ⟨hmsg, -⟩ := Prod.mk.inj hsaid
        exact ⟨some response, by rw [Option.map_some, said, hmsg]⟩
      · exact ⟨last, hsaid⟩
  | created next servers said =>
      have hlt := (hkept.served id msg last hsaid).1
      rw [servers, Table.find_insert_of_ne _ _ (by omega)]
      exact ⟨last, hsaid⟩

theorem server_serves [OsipAccessor] {op : ServerOp} {environment : ExchangeEnvironment}
    {answer : ServerAnswer op} (hkept : s.Kept log) (hrelies : thread.Relies s)
    (hallows : thread.Allows (κ := κ) (.server op))
    (hserve : s.serve (.server op) environment = some (t, answer, events)) :
    Serves s t log tid (thread.track (κ := κ) (.server op) answer) events := by
  obtain ⟨⟨server, result, out⟩, hserver, heq⟩ := Option.map_eq_some_iff.mp hserve
  cases heq
  have htold := ServerLayer.serve_says hserver
  have hgrows : Grows s { s with
      server, responses := s.responses ++ op.sent environment.accepted
      asked := s.asked ++ op.asks } := grows_server hkept htold
  refine ⟨hkept.grow hgrows hkept.keyed ?_ ?_ ?_, hgrows, ?_⟩
  · cases htold with
    | same next said => exact hkept.served_mono hgrows next said
    | @recorded id response txn txn' hfind next servers said =>
        intro other msg last hother
        have hbefore := hkept.served id txn.request txn.lastResponse (by rw [hfind]; rfl)
        rw [servers, Table.find_insert] at hother
        split at hother
        · rename_i heq
          rw [Option.map_some, said] at hother
          cases hother
          cases heq
          refine ⟨?_, hbefore.2.1, fun response' heq => ?_⟩
          · show id < server.nextServer
            have hlt := hbefore.1
            omega
          · cases heq
            exact (hrelies.answer id response hallows).mono hgrows
        · obtain ⟨hlt, hreceived, hrecorded⟩ := hkept.served other msg last hother
          refine ⟨?_, hreceived, fun response heq => (hrecorded response heq).mono hgrows⟩
          show other < server.nextServer
          omega
    | created next servers said =>
        intro other msg last hother
        rw [servers, Table.find_insert] at hother
        split at hother
        · rename_i heq
          rw [Option.map_some, said] at hother
          cases hother
          refine ⟨?_, hrelies.request _ hallows, fun response heq => by cases heq⟩
          show other < server.nextServer
          omega
        · obtain ⟨hlt, hreceived, hrecorded⟩ := hkept.served other msg last hother
          refine ⟨?_, hreceived, fun response heq => (hrecorded response heq).mono hgrows⟩
          show other < server.nextServer
          omega
  · intro response hmem
    obtain hold | hnew := List.mem_append.mp hmem
    · exact .inl hold
    · cases op with
      | send id response' =>
          obtain ⟨refusal, accepted, message, txn⟩ := environment
          cases accepted with
          | false => cases hnew
          | true =>
              cases List.mem_singleton.mp hnew
              exact .inr ⟨id, (hrelies.answer id _ hallows).mono hgrows⟩
      | _ => cases hnew
  · intro tid' id response hmem
    obtain ⟨_, hmem, heq⟩ := List.mem_map.mp hmem
    obtain ⟨event, hout, rfl⟩ := List.mem_map.mp hmem
    cases heq
  · have hsame := relies_mono hrelies hgrows
    cases op with
    | lastResponse id =>
        refine ⟨hsame.request, hsame.response, hsame.found, ?_⟩
        intro id' response heq
        obtain ⟨txn, hfind, heq'⟩ := Option.map_eq_some_iff.mp hserver
        cases heq'
        obtain ⟨response', hlast, heq⟩ := Option.map_eq_some_iff.mp heq
        cases heq
        have hbefore := hkept.served id txn.request txn.lastResponse (by rw [hfind]; rfl)
        exact (hbefore.2.2 response hlast).mono hgrows
    | _ => exact hsame

theorem serve_serves [OsipAccessor] {op : ExchangeOp κ} {environment : ExchangeEnvironment}
    {answer : ExchangeAnswer κ op} (hkept : s.Kept log) (hrelies : thread.Relies s)
    (hallows : thread.Allows op) (hserve : s.serve op environment = some (t, answer, events)) :
    Serves s t log tid (thread.track op answer) events := by
  cases op with
  | client op => exact client_serves hkept hrelies hallows hserve
  | server op => exact server_serves hkept hrelies hallows hserve
  | takeRequest =>
      rw [serve] at hserve
      split at hserve
      · cases hserve
      · rename_i request _
        split_ifs at hserve with hmem
        cases hserve
        apply hkept.reads
        refine ⟨fun request' heq => ?_, hrelies.response, hrelies.found, hrelies.answer⟩
        cases heq
        exact hmem
  | takeResponse =>
      rw [serve] at hserve
      split at hserve
      · cases hserve
      · rename_i response _
        split_ifs at hserve with hmem
        cases hserve
        apply hkept.reads
        exact ⟨hrelies.request, fun response' heq => (by cases heq; exact hmem),
          fun _ _ hfound => (by cases hfound), hrelies.answer⟩
  | answer =>
      rw [serve] at hserve
      split at hserve
      · rename_i response request _ hrequest
        split_ifs at hserve with hanswers
        cases hserve
        apply hkept.reads
        refine ⟨hrelies.request, hrelies.response, hrelies.found, fun id response' heq => ?_⟩
        cases heq
        exact ⟨hanswers.1, request, hrequest, hanswers.2⟩
      · cases hserve

theorem background_grows [OsipAccessor] {event : ExchangeBackground} (hkept : s.Kept log)
    (hbackground : s.background event = some t) : t.Kept log ∧ Grows s t := by
  have hquiet : ∀ tid id response, (tid, ExchangeEvent.client (.called id response)) ∈
      ([] : ExchangeLog) → response ∈ s.responses ∧ s.Matches id response :=
    fun _ _ _ hmem => (List.not_mem_nil hmem).elim
  cases event with
  | client event =>
      obtain ⟨client, hclient, heq⟩ := Option.map_eq_some_iff.mp hbackground
      cases heq
      have hshrinks := ClientLayer.shrinks_background hclient
      have hgrows : Grows s { s with client } :=
        ⟨fun _ h => h, fun _ h => h, fun _ h => h,
          fun id request hrequest => (hshrinks.requests id).trans hrequest, fun _ _ h => h⟩
      rw [← List.append_nil log]
      exact ⟨hkept.grow hgrows (hkept.keyed.shrinks hshrinks)
        (hkept.served_mono hgrows rfl fun _ => rfl) (fun _ h => .inl h) hquiet, hgrows⟩
  | server event =>
      obtain ⟨server, hserver, heq⟩ := Option.map_eq_some_iff.mp hbackground
      cases heq
      obtain ⟨hnext, hsaid⟩ := ServerLayer.background_says hserver
      have hgrows : Grows s { s with server } := by
        refine ⟨fun _ h => h, fun _ h => h, fun _ h => h, fun _ _ h => h, fun id msg hrequest => ?_⟩
        obtain ⟨last, hbefore⟩ := requestOf_eq_some.mp hrequest
        exact requestOf_eq_some.mpr ⟨last, (hsaid id).trans hbefore⟩
      rw [← List.append_nil log]
      exact ⟨hkept.grow hgrows hkept.keyed (hkept.served_mono hgrows hnext hsaid)
        (fun _ h => .inl h) hquiet, hgrows⟩
  | transmit request =>
      cases hbackground
      have hgrows : Grows s { s with requests := s.requests ++ [request] } :=
        ⟨List.subset_append_left _ _, fun _ h => h, fun _ h => h, fun _ _ h => h, fun _ _ h => h⟩
      rw [← List.append_nil log]
      exact ⟨hkept.grow hgrows hkept.keyed (hkept.served_mono hgrows rfl fun _ => rfl)
        (fun _ h => .inl h) hquiet, hgrows⟩

end Exchange

/-! ## Runs -/

def exchangeDiscipline [OsipAccessor] (κ : Type) :
    Discipline (Exchange κ) (exchangeOps κ) ExchangeThread Unit ExchangeEvent where
  contract := ExchangeThread.contract κ
  assumes _ _ := True
  shared := Exchange.Kept
  linked s _ _ thread := thread.Relies s
  result _ _ := True

theorem exchangeDiscipline_sound [OsipAccessor] (κ : Type) :
    (exchangeDiscipline κ).Sound (exchangeService κ) where
  track _ _ _ := rfl
  begins call := Exchange.begin_meets call
  fresh _ _ _ _ _ _ := ⟨fun _ h => (by cases h), fun _ h => (by cases h),
    fun _ _ h => (by cases h), fun _ _ h => (by cases h)⟩
  serves s log tid thread op environment t answer events hkept hrelies hallows hserve _ := by
    obtain ⟨hkept', hgrows, hrelies'⟩ := Exchange.serve_serves hkept hrelies hallows hserve
    exact ⟨hkept', trivial, hrelies', fun _ _ _ h => Exchange.relies_mono h hgrows⟩
  background s log event t hkept hbackground := by
    obtain ⟨hkept', hgrows⟩ := Exchange.background_grows hkept hbackground
    exact ⟨hkept', fun _ _ h => Exchange.relies_mono h hgrows⟩

theorem Exchange.Kept.init [OsipAccessor] {κ : Type} : Exchange.Kept (.init : Exchange κ) [] := by
  refine ⟨⟨?_, ?_, ?_⟩, ?_, fun _ hmem => (List.not_mem_nil hmem).elim,
    fun _ _ _ hmem => (List.not_mem_nil hmem).elim⟩
  · intro key id hfind
    cases hfind
  · intro id request hrequest
    cases hrequest
  · intro id txn callback hfind
    cases hfind
  · intro id msg last hfind
    cases hfind

/-- The keys of a response are those of its request. -/
theorem responseTransactionKeys_eq_of_answers [OsipAccessor] {request response : SipMessage}
    (h : Answers request response) :
    responseTransactionKeys response = responseTransactionKeys request := by
  obtain ⟨hvias, hcseq⟩ := h
  have hmethod : response.cseqMethod = request.cseqMethod := by
    rw [SipMessage.cseqMethod, SipMessage.cseqMethod, hcseq]
  rw [responseTransactionKeys, responseTransactionKeys, hmethod, SipMessage.takenVias,
    SipMessage.takenVias, hvias]

section

variable {κ : Type}
variable {actions : List (ThreadAction ExchangeEnvironment (ExchangeCall κ) ExchangeBackground)}
variable {s : ExchangeThreads κ} {log : ExchangeLog} {tid id : Nat} {response : SipMessage}

/-- Whatever the network loses, doubles, delays and reorders: what a callback is given answers a
request with the branch of its own among the Vias, with which the handler has been called. -/
theorem given_response_answers_request [OsipAccessor]
    (hrun : (threadsMachine (exchangeService κ)).exec (.init .init) actions = some (s, log))
    (hcalled : (tid, .client (.called id response)) ∈ log) :
    ∃ made txn msg, s.shared.client.requestOf id = some made ∧ txn ∈ s.shared.asked ∧
      s.shared.server.requestOf txn = some msg ∧ msg ∈ s.shared.requests ∧ Answers msg response ∧
      clientKey made ∈ responseTransactionKeys msg ∧
      ((∀ other ∈ s.shared.requests, clientKey made ∈ responseTransactionKeys other →
        other = made) → Answers made response) := by
  have hinv : s.Inv (exchangeDiscipline κ) log :=
    (exchangeDiscipline_sound κ).exec_of_forall (fun _ _ => trivial) .init hrun
  obtain ⟨hsent, made, hmade, hkey⟩ := hinv.shared.called tid id response hcalled
  obtain ⟨txn, hasked, msg, hmsg, hanswers⟩ := hinv.shared.sent response hsent
  obtain ⟨last, hsaid⟩ := Exchange.requestOf_eq_some.mp hmsg
  have hreceived := (hinv.shared.served txn msg last hsaid).2.1
  rw [responseTransactionKeys_eq_of_answers hanswers] at hkey
  refine ⟨made, txn, msg, hmade, hasked, hmsg, hreceived, hanswers, hkey, fun hunique => ?_⟩
  rw [← hunique msg hreceived hkey]
  exact hanswers

end

/-- An INVITE is received twice; it is answered once, and the answer is received. -/
def doubledInvite : List (ThreadAction ExchangeEnvironment (ExchangeCall Unit)
    ExchangeBackground) :=
  let request : ExchangeEnvironment := { message := some hopInvite }
  let response : ExchangeEnvironment :=
    { message := some (createResponse hopInvite 200 (bytes "OK") (bytes "b")) }
  [.background (.server .setRequestHandler),
    .start (.sendRequest hopInvite ⟨bytes "10.0.0.2", 5060, bytes "udp"⟩ (some ()))] ++
    List.replicate 4 (.run 0 {}) ++
    [.start (.receiveRequest ⟨bytes "10.0.0.1", 5060, bytes "udp"⟩)] ++
    List.replicate 6 (.run 1 request) ++
    [.start (.receiveRequest ⟨bytes "10.0.0.1", 5060, bytes "udp"⟩)] ++
    List.replicate 4 (.run 2 request) ++
    [.start .respond] ++ List.replicate 4 (.run 3 response) ++
    [.start .receiveResponse] ++ List.replicate 6 (.run 4 response)

theorem given_response_answers_request_doubled : ∃ s log,
    (threadsMachine (exchangeService Unit)).exec (.init .init) doubledInvite = some (s, log) ∧
      ∃ made txn msg, s.shared.client.requestOf 0 = some made ∧ txn ∈ s.shared.asked ∧
        s.shared.server.requestOf txn = some msg ∧ msg ∈ s.shared.requests ∧
        Answers msg (createResponse hopInvite 200 (bytes "OK") (bytes "b")) ∧
        clientKey made ∈ responseTransactionKeys msg ∧
        ((∀ other ∈ s.shared.requests, clientKey made ∈ responseTransactionKeys other →
          other = made) → Answers made (createResponse hopInvite 200 (bytes "OK")
            (bytes "b"))) := by
  have hsummary : ((threadsMachine (exchangeService Unit)).exec (.init .init) doubledInvite).map
      (fun result => decide ((4, ExchangeEvent.client
        (.called 0 (createResponse hopInvite 200 (bytes "OK") (bytes "b")))) ∈ result.2)) =
      some true := by
    decide +kernel
  obtain ⟨⟨s, log⟩, hrun, hcalled⟩ := Option.map_eq_some_iff.mp hsummary
  exact ⟨s, log, hrun, given_response_answers_request hrun (of_decide_eq_true hcalled)⟩

end SimIms.Sip
