import SimIms.Sip.ServerLayer

/-!
# What every run of the server side keeps

A transaction that has been entered into the table stays there until the layer is shut down, or its
request is `Over`: the entry goes with the 2xx to an INVITE and with the ACK to its failure response
at once, and with every other final response after the timer.
-/

namespace SimIms.Sip

open Cxx Lib

/-! ## Threads -/

/-- How far a call has come, as far as it can create, dispatch, time or end a transaction. -/
inductive ServerProgress where
  | fresh
  | received
  | created (txn : Nat)
  | dispatched
  | sent
  | terminating (callback : TerminationCallback)
deriving DecidableEq

structure ServerThread where
  call : ServerCall
  progress : ServerProgress := .fresh

def ServerThread.track (thread : ServerThread) : (op : ServerOp) → ServerAnswer op → ServerThread
  | .receive _, _ => { thread with progress := .received }
  | .insert _ _ _, .inserted txn => { thread with progress := .created txn }
  | .callHandler _, _ => { thread with progress := .dispatched }
  | .send _ _, true =>
      match thread.call with
      | .sendResponse _ _ => { thread with progress := .sent }
      | _ => thread
  | .record _ _, (_, some callback) => { thread with progress := .terminating callback }
  | .acknowledge _, some callback => { thread with progress := .terminating callback }
  | .timeout _ _, some callback => { thread with progress := .terminating callback }
  | _, _ => thread

/-- The transaction layer, with any number of calls under way. -/
def serverService : Service ServerLayer serverOps Exception ServerThread Unit Bool ServerCall
    ServerBackground ServerEvent where
  serve := ServerLayer.serve
  begin := ServerLayer.begin
  background := ServerLayer.background
  fresh call := { call }
  track := ServerThread.track

abbrev ServerThreads := Threads ServerLayer serverOps Exception ServerThread Unit

abbrev ServerAction := ThreadAction Bool ServerCall ServerBackground

abbrev ServerLog := List (Nat × ServerEvent)

abbrev serverMachine : Machine ServerThreads ServerAction (Nat × ServerEvent) :=
  threadsMachine serverService

/-! ## What a call may do -/

def ServerThread.Allows (thread : ServerThread) : ServerOp → Prop
  | .receive msg => thread.progress = .fresh ∧ ∃ source, thread.call = .processRequest msg source
  | .insert key msg source => thread.call = .processRequest msg source ∧
      thread.progress = .received ∧ key = serverKey msg
  | .callHandler txn => thread.progress = .created txn
  | .record txn response => thread.call = .sendResponse txn response ∧ thread.progress = .sent
  | .startTimers txn code => ∃ response, thread.call = .sendResponse txn response ∧
      thread.progress = .sent ∧ code = response.statusCode ∧ 200 ≤ code
  | .terminated callback => thread.progress = .terminating callback
  | .send txn response => thread.progress = .fresh ∧ thread.call = .sendResponse txn response ∨
      thread.progress = .received ∧ ∃ msg source, thread.call = .processRequest msg source
  | .acknowledge _ => thread.progress = .received
  | .timeout _ _ => thread.progress = .fresh
  | _ => True

/-- The timers are only started for a final response. -/
def ServerOp.Expects : (op : ServerOp) → ServerAnswer op → Prop
  | .record _ response, answer => answer.1 = true → answer.2 = none ∧ 200 ≤ response.statusCode
  | _, _ => True

def serverContract : Contract serverOps ServerThread where
  Allows := ServerThread.Allows
  Expects := ServerOp.Expects
  Throws _ := False
  track := ServerThread.track

namespace ServerLayer

variable {thread : ServerThread} {txn : Nat} {msg : SipMessage} {source : Endpoint}

theorem terminate_meets {callback : Option TerminationCallback}
    (h : ∀ c, callback = some c → thread.progress = .terminating c) :
    (terminate callback).Meets serverContract thread fun _ _ => True := by
  cases callback with
  | none => exact trivial
  | some callback => exact ⟨h callback rfl, fun _ _ => trivial⟩

theorem acknowledgeAck_meets (h : thread.progress = .received) :
    (acknowledgeAck txn).Meets serverContract thread fun _ _ => True := by
  refine ⟨h, fun callback _ => terminate_meets fun c heq => ?_⟩
  cases heq
  rfl

theorem retransmitLastResponse_meets (hprogress : thread.progress = .received)
    (hcall : thread.call = .processRequest msg source) :
    (retransmitLastResponse txn).Meets serverContract thread fun _ _ => True := by
  refine ⟨trivial, fun response _ => ?_⟩
  cases response with
  | none => exact trivial
  | some response => exact ⟨.inr ⟨hprogress, msg, source, hcall⟩, fun _ _ => trivial⟩

theorem dispatch_meets (hprogress : thread.progress = .received)
    (hcall : thread.call = .processRequest msg source) :
    (dispatch msg source).Meets serverContract thread fun _ _ => True := by
  refine ⟨trivial, fun existing _ => ?_⟩
  cases existing with
  | some existing => exact retransmitLastResponse_meets hprogress hcall
  | none =>
      refine ⟨⟨hcall, hprogress, rfl⟩, fun inserted _ => ?_⟩
      cases inserted with
      | shuttingDown => exact trivial
      | existing existing => exact retransmitLastResponse_meets hprogress hcall
      | inserted txn =>
          refine ⟨trivial, fun handler _ => ?_⟩
          cases handler with
          | false => exact trivial
          | true => exact ⟨rfl, fun _ _ => trivial⟩

theorem processRequest_meets (hprogress : thread.progress = .fresh)
    (hcall : thread.call = .processRequest msg source) :
    (processRequest msg source).Meets serverContract thread fun _ _ => True := by
  refine ⟨⟨hprogress, source, hcall⟩, fun down _ => ?_⟩
  cases down with
  | true => exact trivial
  | false =>
      change Program.Meets serverContract { thread with progress := .received }
        (if msg.method = bytes "ACK" then _ else dispatch msg source) _
      split
      · refine ⟨trivial, fun invite _ => ?_⟩
        cases invite with
        | none => exact dispatch_meets rfl hcall
        | some invite => exact acknowledgeAck_meets rfl
      · exact dispatch_meets rfl hcall

theorem sendResponse_meets {response : SipMessage} (hprogress : thread.progress = .fresh)
    (hcall : thread.call = .sendResponse txn response) :
    (sendResponse txn response).Meets serverContract thread fun _ _ => True := by
  obtain ⟨call, progress⟩ := thread
  cases hcall
  refine ⟨.inl ⟨hprogress, rfl⟩, fun accepted _ => ?_⟩
  cases accepted with
  | false => exact trivial
  | true =>
      refine ⟨⟨rfl, rfl⟩, fun answer hanswer => ?_⟩
      obtain ⟨start, callback⟩ := answer
      cases start with
      | true =>
          obtain ⟨hnone, hfinal⟩ := hanswer rfl
          cases hnone
          exact ⟨⟨response, rfl, rfl, rfl, hfinal⟩, fun _ _ => trivial⟩
      | false =>
          refine terminate_meets fun c heq => ?_
          cases heq
          rfl

theorem runTimer_meets {name : ServerTransaction.TimerName} (hprogress : thread.progress = .fresh) :
    (runTimer name txn).Meets serverContract thread fun _ _ => True := by
  refine ⟨hprogress, fun callback _ => terminate_meets fun c heq => ?_⟩
  cases heq
  rfl

theorem begin_meets (call : ServerCall) :
    (begin call).Meets serverContract { call } fun _ _ => True := by
  cases call with
  | processRequest msg source => exact processRequest_meets rfl rfl
  | sendResponse txn response => exact sendResponse_meets rfl rfl
  | runTimer name txn => exact runTimer_meets rfl

end ServerLayer

/-! ## What the log says -/

/-- How long a transaction waits after a final response. -/
def transactionWindow : Nat := 64 * kTimerT1

def RequestId.key (request : RequestId) : Bytes := transactionKey request.branch request.method

/-- When the thread has received its request. -/
def receivedAt (log : ServerLog) (id : Nat) : Option Nat :=
  (eventsOf log id).findSome? fun
    | .received _ time => some time
    | _ => none

/-- When final responses to the request were sent. -/
def finalTimes (log : ServerLog) (request : RequestId) : List Nat :=
  log.filterMap fun event =>
    match event.2 with
    | .sent request' code time => if request' = request ∧ 200 ≤ code then some time else none
    | _ => none

/-- An INVITE has been answered with a 2xx, or its failure response has been acknowledged. -/
def endedEarly (log : ServerLog) (request : RequestId) : Bool :=
  request.method == bytes "INVITE" && log.any fun event =>
    match event.2 with
    | .sent request' code _ => request' == request && (200 ≤ code && code < 300)
    | .acknowledged request' => request' == request
    | _ => false

/-- The transaction of the request may be gone. -/
def Over (log : ServerLog) (request : RequestId) (now : Nat) : Prop :=
  endedEarly log request = true ∨ ∃ time ∈ finalTimes log request, time + transactionWindow ≤ now

section

variable {log out : ServerLog} {request : RequestId} {now now' time id : Nat} {code : Int}

theorem mem_finalTimes (h : (id, .sent request code time) ∈ log) (hfinal : 200 ≤ code) :
    time ∈ finalTimes log request :=
  List.mem_filterMap.mpr ⟨_, h, if_pos ⟨rfl, hfinal⟩⟩

theorem mem_finalTimes_append (h : time ∈ finalTimes log request) :
    time ∈ finalTimes (log ++ out) request := by
  rw [finalTimes, List.filterMap_append]
  exact List.mem_append_left _ h

theorem endedEarly_append (h : endedEarly log request = true) :
    endedEarly (log ++ out) request = true := by
  rw [endedEarly, Bool.and_eq_true] at h ⊢
  rw [List.any_append, h.2]
  exact ⟨h.1, rfl⟩

theorem endedEarly_of_sent (h : (id, .sent request code time) ∈ log)
    (hinvite : request.method = bytes "INVITE") (hlow : 200 ≤ code) (hhigh : code < 300) :
    endedEarly log request = true := by
  rw [endedEarly, Bool.and_eq_true, List.any_eq_true]
  exact ⟨beq_iff_eq.mpr hinvite, _, h, by simp [hlow, hhigh]⟩

theorem endedEarly_of_acknowledged (h : (id, .acknowledged request) ∈ log)
    (hinvite : request.method = bytes "INVITE") : endedEarly log request = true := by
  rw [endedEarly, Bool.and_eq_true, List.any_eq_true]
  exact ⟨beq_iff_eq.mpr hinvite, _, h, by simp⟩

theorem Over.mono (h : Over log request now) (hnow : now ≤ now') :
    Over (log ++ out) request now' := by
  obtain hended | ⟨time, hmem, hover⟩ := h
  · exact .inl (endedEarly_append hended)
  · exact .inr ⟨time, mem_finalTimes_append hmem, Nat.le_trans hover hnow⟩

theorem isSome_receivedAt_append (h : (receivedAt log id).isSome) (tid : Nat)
    (events : List ServerEvent) :
    receivedAt (log ++ events.map (tid, ·)) id = receivedAt log id := by
  obtain ⟨time, htime⟩ := Option.isSome_iff_exists.mp h
  by_cases heq : id = tid
  · subst heq
    rw [receivedAt, eventsOf_append_self, List.findSome?_append, ← receivedAt, htime]
    rfl
  · rw [receivedAt, eventsOf_append_of_ne heq, ← receivedAt]

end

/-! ## What holds of the layer -/

namespace ServerLayer

def requestOf (s : ServerLayer) (id : Nat) : Option SipMessage :=
  (s.servers.find id).map ServerTransaction.request

end ServerLayer

/-- A timer of the transaction waits the time of a final response, at least. -/
def Timed (log : ServerLog) (now : Nat) (txn : Server) : Prop :=
  ∀ name,
    (∀ deadline, (txn.timer name).deadline = some deadline →
      ∃ time ∈ finalTimes log txn.request.requestId, time + transactionWindow ≤ deadline) ∧
    (0 < (txn.timer name).queued →
      ∃ time ∈ finalTimes log txn.request.requestId, time + transactionWindow ≤ now)

/-- A transaction that a thread has created for this request. -/
structure Created (s : ServerLayer) (log : ServerLog) (tid id : Nat) (request : RequestId) :
    Prop where
  made : ∃ msg, s.requestOf id = some msg ∧ msg.requestId = request
  received : (receivedAt log tid).isSome
  stays : s.serverTxns.find request.key = some id ∨ s.shuttingDown = true ∨ Over log request s.now

structure Kept (s : ServerLayer) (log : ServerLog) : Prop where
  entry : ∀ key id, s.serverTxns.find key = some id →
    ∃ msg, s.requestOf id = some msg ∧ key = serverKey msg
  numbered : ∀ id msg, s.requestOf id = some msg → id < s.nextServer
  timed : ∀ id txn, s.servers.find id = some txn → Timed log s.now txn
  callback : ∀ id txn callback, s.servers.find id = some txn → txn.onTerminated = some callback →
    callback = ⟨serverKey txn.request, id⟩
  created : ∀ tid id request time, (tid, .created id request time) ∈ log →
    Created s log tid id request
  creator : ∀ tid tid' id request request' time time', (tid, .created id request time) ∈ log →
    (tid', .created id request' time') ∈ log → tid = tid'
  dispatched : ∀ tid id request, (tid, .dispatched id request) ∈ log →
    ∃ time, (tid, .created id request time) ∈ log

def ServerEvent.isDispatched : ServerEvent → Bool
  | .dispatched _ _ => true
  | _ => false

/-- What a thread relies on, besides. -/
def ServerThread.Relies (s : ServerLayer) (log : ServerLog) (tid : Nat) (thread : ServerThread) :
    Prop :=
  match thread.progress with
  | .fresh => True
  | .received => (receivedAt log tid).isSome
  | .created id => ∃ request time, (tid, .created id request time) ∈ log
  | .dispatched => True
  | .sent => ∀ id response, thread.call = .sendResponse id response → ∃ msg time,
      s.requestOf id = some msg ∧
        (tid, .sent msg.requestId response.statusCode time) ∈ log ∧ time ≤ s.now
  | .terminating callback => ∃ msg, s.requestOf callback.txn = some msg ∧
      callback.key = serverKey msg ∧ Over log msg.requestId s.now

structure ServerThread.Linked (s : ServerLayer) (log : ServerLog) (tid : Nat)
    (thread : ServerThread) : Prop where
  dispatches : (eventsOf log tid).countP ServerEvent.isDispatched =
    if thread.progress = .dispatched then 1 else 0
  relies : thread.Relies s log tid

/-- Requests stay what they are, and time passes. -/
structure Later (s t : ServerLayer) : Prop where
  requestOf : ∀ id msg, s.requestOf id = some msg → t.requestOf id = some msg
  now : s.now ≤ t.now

theorem Later.refl (s : ServerLayer) : Later s s := ⟨fun _ _ h => h, Nat.le_refl _⟩

section

variable {s t : ServerLayer} {log : ServerLog} {tid other id : Nat} {thread : ServerThread}
variable {events : List ServerEvent}

theorem ServerThread.Relies.mono (h : thread.Relies s log other) (hlater : Later s t) :
    thread.Relies t (log ++ events.map (tid, ·)) other := by
  obtain ⟨call, progress⟩ := thread
  cases progress with
  | fresh => exact trivial
  | dispatched => exact trivial
  | received =>
      have hreceived : (receivedAt log other).isSome := h
      change (receivedAt (log ++ events.map (tid, ·)) other).isSome
      rw [isSome_receivedAt_append hreceived]
      exact hreceived
  | created id =>
      obtain ⟨request, time, hmem⟩ := h
      exact ⟨request, time, List.mem_append_left _ hmem⟩
  | sent =>
      intro id response hcall
      obtain ⟨msg, time, hrequest, hmem, htime⟩ := h id response hcall
      exact ⟨msg, time, hlater.requestOf id msg hrequest, List.mem_append_left _ hmem,
        Nat.le_trans htime hlater.now⟩
  | terminating callback =>
      obtain ⟨msg, hrequest, hkey, hover⟩ := h
      exact ⟨msg, hlater.requestOf _ msg hrequest, hkey, hover.mono hlater.now⟩

theorem ServerThread.Linked.elsewhere (h : thread.Linked s log other) (hne : other ≠ tid)
    (hlater : Later s t) : thread.Linked t (log ++ events.map (tid, ·)) other := by
  refine ⟨?_, h.relies.mono hlater⟩
  rw [eventsOf_append_of_ne hne]
  exact h.dispatches

/-- The thread itself goes on from the same point, unless it dispatches. -/
theorem ServerThread.Linked.same (h : thread.Linked s log tid) (hlater : Later s t)
    (hquiet : ∀ event ∈ events, event.isDispatched = false) :
    thread.Linked t (log ++ events.map (tid, ·)) tid := by
  refine ⟨?_, h.relies.mono hlater⟩
  have hnone : events.countP ServerEvent.isDispatched = 0 :=
    List.countP_eq_zero.mpr fun event hmem => by rw [hquiet event hmem]; exact Bool.false_ne_true
  rw [eventsOf_append_self, List.countP_append, hnone, Nat.add_zero]
  exact h.dispatches

/-- The thread comes to another point, from one at which it has not dispatched. -/
theorem ServerThread.Linked.moves {next : ServerThread} (h : thread.Linked s log tid)
    (hfrom : thread.progress ≠ .dispatched) (hto : next.progress ≠ .dispatched)
    (hquiet : ∀ event ∈ events, event.isDispatched = false)
    (hrelies : next.Relies t (log ++ events.map (tid, ·)) tid) :
    next.Linked t (log ++ events.map (tid, ·)) tid := by
  refine ⟨?_, hrelies⟩
  have hnone : events.countP ServerEvent.isDispatched = 0 :=
    List.countP_eq_zero.mpr fun event hmem => by rw [hquiet event hmem]; exact Bool.false_ne_true
  rw [eventsOf_append_self, List.countP_append, hnone, Nat.add_zero, h.dispatches, if_neg hfrom,
    if_neg hto]

end

/-! ## What the operations keep -/

section

variable {s t : ServerLayer} {log : ServerLog} {tid id : Nat} {events : List ServerEvent}

/-- Neither a new transaction nor a call of the handler. -/
def ServerEvent.isQuiet : ServerEvent → Bool
  | .created _ _ _ => false
  | .dispatched _ _ => false
  | _ => true

theorem mem_of_quiet {event : ServerEvent} {tid' : Nat} (hevent : event.isQuiet = false)
    (hquiet : ∀ event ∈ events, event.isQuiet = true)
    (h : (tid', event) ∈ log ++ events.map (tid, ·)) : (tid', event) ∈ log := by
  obtain hmem | hmem := List.mem_append.mp h
  · exact hmem
  · obtain ⟨event', hmem, heq⟩ := List.mem_map.mp hmem
    cases heq
    rw [hquiet event hmem] at hevent
    cases hevent

theorem Timed.mono {txn : Server} {now now' : Nat} (h : Timed log now txn) (hnow : now ≤ now')
    (out : ServerLog) : Timed (log ++ out) now' txn := by
  refine fun name => ⟨fun deadline hdeadline => ?_, fun hqueued => ?_⟩
  · obtain ⟨time, hmem, hle⟩ := (h name).1 deadline hdeadline
    exact ⟨time, mem_finalTimes_append hmem, hle⟩
  · obtain ⟨time, hmem, hle⟩ := (h name).2 hqueued
    exact ⟨time, mem_finalTimes_append hmem, Nat.le_trans hle hnow⟩

theorem Created.later {request : RequestId} {tid' : Nat} (h : Created s log tid' id request)
    (hlater : Later s t) (hdown : s.shuttingDown = true → t.shuttingDown = true)
    (hstays : s.serverTxns.find request.key = some id → t.serverTxns.find request.key = some id ∨
      t.shuttingDown = true ∨ Over (log ++ events.map (tid, ·)) request t.now) :
    Created t (log ++ events.map (tid, ·)) tid' id request := by
  obtain ⟨msg, hrequest, hid⟩ := h.made
  refine ⟨⟨msg, hlater.requestOf id msg hrequest, hid⟩, ?_, ?_⟩
  · rw [isSome_receivedAt_append h.received]
    exact h.received
  · obtain hfind | hshut | hover := h.stays
    · exact hstays hfind
    · exact .inr (.inl (hdown hshut))
    · exact .inr (.inr (hover.mono hlater.now))

/-- Nothing is created and nothing leaves the table: only transactions change, and not what they
are for. -/
theorem Kept.changed (h : Kept s log) (htxns : t.serverTxns = s.serverTxns)
    (hdown : t.shuttingDown = s.shuttingDown) (hnext : t.nextServer = s.nextServer)
    (hnow : s.now ≤ t.now) (hrequests : ∀ id, t.requestOf id = s.requestOf id)
    (hservers : ∀ id txn, t.servers.find id = some txn →
      Timed (log ++ events.map (tid, ·)) t.now txn ∧ ∀ callback,
        txn.onTerminated = some callback → callback = ⟨serverKey txn.request, id⟩)
    (hquiet : ∀ event ∈ events, event.isQuiet = true) : Kept t (log ++ events.map (tid, ·)) := by
  have hlater : Later s t := ⟨fun id msg hrequest => (hrequests id).trans hrequest, hnow⟩
  refine ⟨?_, ?_, fun id txn hfind => (hservers id txn hfind).1,
    fun id txn callback hfind => (hservers id txn hfind).2 callback, ?_, ?_, ?_⟩
  · intro key id hfind
    rw [htxns] at hfind
    rw [hrequests]
    exact h.entry key id hfind
  · intro id msg hrequest
    rw [hnext]
    exact h.numbered id msg ((hrequests id).symm.trans hrequest)
  · intro tid' id request time hmem
    refine (h.created tid' id request time (mem_of_quiet rfl hquiet hmem)).later hlater
      (fun hshut => hdown.trans hshut) fun hfind => .inl ?_
    rw [htxns]
    exact hfind
  · intro tid' tid'' id request request' time time' hmem hmem'
    exact h.creator tid' tid'' id request request' time time' (mem_of_quiet rfl hquiet hmem)
      (mem_of_quiet rfl hquiet hmem')
  · intro tid' id request hmem
    obtain ⟨time, hcreated⟩ := h.dispatched tid' id request (mem_of_quiet rfl hquiet hmem)
    exact ⟨time, List.mem_append_left _ hcreated⟩

/-- One transaction changes. -/
theorem Kept.change (h : Kept s log) {α : Type} {f : Server → Server × α} {txn : Server}
    (hfind : s.servers.find id = some txn) (hfixed : (f txn).1.fixed = txn.fixed)
    (htimed : Timed (log ++ events.map (tid, ·)) s.now (f txn).1)
    (hquiet : ∀ event ∈ events, event.isQuiet = true) :
    Kept { s with servers := s.servers.insert id (f txn).1 } (log ++ events.map (tid, ·)) := by
  obtain ⟨hrequest, hcallback⟩ := Prod.mk.inj hfixed
  refine h.changed rfl rfl rfl (Nat.le_refl _) ?_ ?_ hquiet
  · intro other
    rw [ServerLayer.requestOf, ServerLayer.requestOf, Table.find_insert]
    split
    · rename_i heq
      rw [heq, hfind, Option.map_some, Option.map_some, hrequest]
    · rfl
  · intro other txn' hfind'
    rw [Table.find_insert] at hfind'
    split at hfind'
    · rename_i heq
      cases hfind'
      subst heq
      refine ⟨htimed, fun callback heq => ?_⟩
      rw [hrequest]
      exact h.callback other txn callback hfind (hcallback.symm.trans heq)
    · exact ⟨(h.timed other txn' hfind').mono (Nat.le_refl _) _,
        fun callback => h.callback other txn' callback hfind'⟩

theorem later_change {α : Type} {f : Server → Server × α} {txn : Server}
    (hfind : s.servers.find id = some txn) (hfixed : (f txn).1.fixed = txn.fixed) :
    Later s { s with servers := s.servers.insert id (f txn).1 } := by
  have hrequest : (f txn).1.request = txn.request := (Prod.mk.inj hfixed).1
  refine ⟨fun other msg h => ?_, Nat.le_refl _⟩
  rw [ServerLayer.requestOf, Table.find_insert]
  split
  · rename_i heq
    rw [ServerLayer.requestOf, heq, hfind] at h
    cases h
    rw [Option.map_some, hrequest]
  · exact h

theorem Timed.covers {txn txn' : Server} {now : Nat} (h : Timed log now txn)
    (hrequest : txn'.request = txn.request)
    (hcovers : ∀ name, (txn.timer name).Covers (txn'.timer name)) : Timed log now txn' := by
  refine fun name => ⟨fun deadline hdeadline => ?_, fun hqueued => ?_⟩
  · rw [hrequest]
    exact (h name).1 deadline ((hcovers name).deadline deadline hdeadline)
  · rw [hrequest]
    exact (h name).2 (Nat.lt_of_lt_of_le hqueued (hcovers name).queued)

end

/-- What serving an operation comes to. -/
structure Serves (s t : ServerLayer) (log : ServerLog) (tid : Nat) (thread : ServerThread)
    (op : ServerOp) (answer : ServerAnswer op) (events : List ServerEvent) : Prop where
  kept : Kept t (log ++ events.map (tid, ·))
  expects : op.Expects answer
  linked : (thread.track op answer).Linked t (log ++ events.map (tid, ·)) tid
  later : Later s t

section

variable {s t : ServerLayer} {log : ServerLog} {tid id : Nat} {thread : ServerThread}
variable {events : List ServerEvent} {accepted : Bool}

/-- Nothing happens to the layer. -/
theorem Kept.unchanged (h : Kept s log) (hquiet : ∀ event ∈ events, event.isQuiet = true) :
    Kept s (log ++ events.map (tid, ·)) :=
  h.changed rfl rfl rfl (Nat.le_refl _) (fun _ => rfl)
    (fun id txn hfind => ⟨(h.timed id txn hfind).mono (Nat.le_refl _) _,
      fun callback => h.callback id txn callback hfind⟩) hquiet

/-- An operation that reads. -/
theorem Serves.reads {op : ServerOp} {answer : ServerAnswer op} (hkept : Kept s log)
    (hlinked : thread.Linked s log tid) (hexpects : op.Expects answer)
    (htrack : thread.track op answer = thread) : Serves s s log tid thread op answer [] := by
  refine ⟨hkept.unchanged (fun _ h => (List.not_mem_nil h).elim), hexpects, ?_, .refl s⟩
  rw [htrack]
  exact hlinked.same (.refl s) (fun _ h => (List.not_mem_nil h).elim)

theorem requestOf_of_find {txn : Server} (hfind : s.servers.find id = some txn) :
    s.requestOf id = some txn.request := by
  rw [ServerLayer.requestOf, hfind, Option.map_some]

theorem receive_serves {msg : SipMessage} {answer : Bool} (hkept : Kept s log)
    (hlinked : thread.Linked s log tid) (hallows : thread.Allows (.receive msg)) :
    Serves s s log tid thread (.receive msg) answer [.received msg.requestId s.now] := by
  refine ⟨hkept.unchanged (by simp [ServerEvent.isQuiet]), trivial, ?_, .refl s⟩
  refine hlinked.moves (fun h => by cases hallows.1.symm.trans h) (fun h => by cases h)
    (by simp [ServerEvent.isDispatched]) ?_
  change (receivedAt _ tid).isSome
  rw [receivedAt, eventsOf_append_self, List.findSome?_append, Option.isSome_or]
  exact Bool.or_true _

/-- The transaction of a callback may go. -/
theorem relies_terminating {callback : TerminationCallback} {txn : Server} {call : ServerCall}
    (hkept : Kept s log) (hfind : s.servers.find id = some txn)
    (hcallback : txn.onTerminated = some callback) (hlater : Later s t)
    (hover : Over (log ++ events.map (tid, ·)) txn.request.requestId t.now) :
    ServerThread.Relies t (log ++ events.map (tid, ·)) tid ⟨call, .terminating callback⟩ := by
  cases hkept.callback id txn callback hfind hcallback
  exact ⟨txn.request, hlater.requestOf id _ (requestOf_of_find hfind), rfl, hover⟩

theorem acknowledge_serves {answer : Option TerminationCallback} (hkept : Kept s log)
    (hlinked : thread.Linked s log tid) (hallows : thread.Allows (.acknowledge id))
    (hserve : s.serve (.acknowledge id) accepted = some (t, answer, events)) :
    Serves s t log tid thread (.acknowledge id) answer events := by
  obtain ⟨⟨_, _, txn⟩, hchange, heq⟩ := Option.map_eq_some_iff.mp hserve
  obtain ⟨txn', hfind, hchanged⟩ := Option.map_eq_some_iff.mp hchange
  cases hchanged
  cases heq
  have hfixed : txn.acknowledge.1.fixed = txn.fixed := ServerTransaction.fixed_acknowledge
  have hlater := later_change (f := ServerTransaction.acknowledge) hfind hfixed
  have htimed : Timed log s.now txn.acknowledge.1 :=
    (hkept.timed id txn hfind).covers (Prod.mk.inj hfixed).1
      fun _ => ServerTransaction.covers_acknowledge _
  cases hcallback : txn.acknowledge.2 with
  | none =>
      refine ⟨hkept.change hfind hfixed (htimed.mono (Nat.le_refl _) _) ?_, trivial, ?_, hlater⟩
      · simp
      · exact hlinked.same hlater (by simp)
  | some callback =>
      obtain ⟨hinvite, honTerminated⟩ := ServerTransaction.acknowledge_eq_some hcallback
      refine ⟨hkept.change hfind hfixed (htimed.mono (Nat.le_refl _) _) ?_, trivial, ?_, hlater⟩
      · simp [ServerEvent.isQuiet]
      · refine hlinked.moves (fun h => by cases hallows.symm.trans h) (fun h => by cases h)
          (by simp [ServerEvent.isDispatched]) ?_
        refine relies_terminating hkept hfind honTerminated hlater (.inl ?_)
        have hmem : (tid, ServerEvent.acknowledged txn.request.requestId) ∈
            log ++ [(tid, .acknowledged txn.request.requestId)] :=
          List.mem_append_right _ (List.mem_singleton.mpr rfl)
        exact endedEarly_of_acknowledged hmem hinvite

/-- A transaction is created for the thread. -/
theorem Kept.insert {msg : SipMessage} {source : Endpoint} (h : Kept s log)
    (hreceived : (receivedAt log tid).isSome) (hnone : s.serverTxns.find (serverKey msg) = none) :
    Kept { s with
        serverTxns := s.serverTxns.insert (serverKey msg) s.nextServer
        servers := s.servers.insert s.nextServer (.create msg source ⟨serverKey msg, s.nextServer⟩)
        nextServer := s.nextServer + 1 }
      (log ++ [ServerEvent.created s.nextServer msg.requestId s.now].map (tid, ·)) ∧
    Later s { s with
        serverTxns := s.serverTxns.insert (serverKey msg) s.nextServer
        servers := s.servers.insert s.nextServer (.create msg source ⟨serverKey msg, s.nextServer⟩)
        nextServer := s.nextServer + 1 } := by
  have hrequests : ∀ (txns : Table Bytes Nat) (next : Nat) (id : Nat) (made : SipMessage),
      s.requestOf id = some made → ServerLayer.requestOf { s with
        serverTxns := txns
        servers := s.servers.insert s.nextServer (.create msg source ⟨serverKey msg, s.nextServer⟩)
        nextServer := next } id = some made := by
    intro txns next id made hrequest
    rw [ServerLayer.requestOf, Table.find_insert_of_ne _ _
      (Nat.ne_of_lt (h.numbered id made hrequest))]
    exact hrequest
  refine ⟨⟨?_, ?_, ?_, ?_, ?_, ?_, ?_⟩, ⟨hrequests _ _, Nat.le_refl _⟩⟩
  · intro key id hfind
    rw [Table.find_insert] at hfind
    split at hfind
    · rename_i heq
      cases hfind
      refine ⟨msg, ?_, heq⟩
      rw [ServerLayer.requestOf, Table.find_insert_self]
      rfl
    · obtain ⟨made, hrequest, hkey⟩ := h.entry key id hfind
      exact ⟨made, hrequests _ _ id made hrequest, hkey⟩
  · intro id made hrequest
    rw [ServerLayer.requestOf, Table.find_insert] at hrequest
    split at hrequest
    · rename_i heq
      rw [heq]
      exact Nat.lt_succ_self _
    · exact Nat.lt_succ_of_lt (h.numbered id made hrequest)
  · intro id txn hfind
    rw [Table.find_insert] at hfind
    split at hfind
    · cases hfind
      intro name
      cases name
      · exact ⟨fun _ h => (Option.some_ne_none _ h.symm).elim,
          fun hqueued => (Nat.lt_irrefl _ hqueued).elim⟩
      · exact ⟨fun _ h => (Option.some_ne_none _ h.symm).elim,
          fun hqueued => (Nat.lt_irrefl _ hqueued).elim⟩
    · exact (h.timed id txn hfind).mono (Nat.le_refl _) _
  · intro id txn callback hfind hcallback
    rw [Table.find_insert] at hfind
    split at hfind
    · rename_i heq
      cases hfind
      cases hcallback
      rw [heq]
      rfl
    · exact h.callback id txn callback hfind hcallback
  · intro tid' id request time hmem
    obtain hmem | hmem := List.mem_append.mp hmem
    · refine (h.created tid' id request time hmem).later ⟨hrequests _ _, Nat.le_refl _⟩
        (fun hshut => hshut) fun hfind => .inl ?_
      rw [Table.find_insert_of_ne]
      · exact hfind
      · intro hkey
        rw [hkey, hnone] at hfind
        cases hfind
    · cases List.mem_singleton.mp hmem
      refine ⟨⟨msg, ?_, rfl⟩, ?_, .inl (Table.find_insert_self _ _ _)⟩
      · rw [ServerLayer.requestOf, Table.find_insert_self]
        rfl
      · rw [isSome_receivedAt_append hreceived]
        exact hreceived
  · intro tid' tid'' id request request' time time' hmem hmem'
    have hold : ∀ {tid' request time},
        (tid', ServerEvent.created s.nextServer request time) ∉ log := by
      intro tid' request time hmem
      obtain ⟨made, hrequest, -⟩ := (h.created tid' _ request time hmem).made
      exact Nat.lt_irrefl _ (h.numbered _ made hrequest)
    obtain hmem | hmem := List.mem_append.mp hmem
    · obtain hmem' | hmem' := List.mem_append.mp hmem'
      · exact h.creator tid' tid'' id request request' time time' hmem hmem'
      · cases List.mem_singleton.mp hmem'
        exact (hold hmem).elim
    · cases List.mem_singleton.mp hmem
      obtain hmem' | hmem' := List.mem_append.mp hmem'
      · exact (hold hmem').elim
      · cases List.mem_singleton.mp hmem'
        rfl
  · intro tid' id request hmem
    obtain hmem | hmem := List.mem_append.mp hmem
    · obtain ⟨time, hcreated⟩ := h.dispatched tid' id request hmem
      exact ⟨time, List.mem_append_left _ hcreated⟩
    · cases List.mem_singleton.mp hmem

theorem insert_serves {msg : SipMessage} {source : Endpoint} {key : Bytes} {answer : Insertion}
    (hkept : Kept s log) (hlinked : thread.Linked s log tid)
    (hallows : thread.Allows (.insert key msg source))
    (hserve : s.serve (.insert key msg source) accepted = some (t, answer, events)) :
    Serves s t log tid thread (.insert key msg source) answer events := by
  obtain ⟨-, hprogress, rfl⟩ := hallows
  rw [ServerLayer.serve] at hserve
  split at hserve
  · cases hserve
    exact .reads hkept hlinked trivial rfl
  · split at hserve
    · cases hserve
      exact .reads hkept hlinked trivial rfl
    · rename_i hnone
      cases hserve
      have hreceived : (receivedAt log tid).isSome := by
        have hrelies := hlinked.relies
        rwa [ServerThread.Relies, hprogress] at hrelies
      obtain ⟨hkept', hlater⟩ := hkept.insert hreceived hnone
      refine ⟨hkept', trivial, ?_, hlater⟩
      refine hlinked.moves (fun h => by cases hprogress.symm.trans h) (fun h => by cases h)
        (by simp [ServerEvent.isDispatched]) ?_
      exact ⟨msg.requestId, s.now, List.mem_append_right _ (List.mem_singleton.mpr rfl)⟩

theorem callHandler_serves {answer : Unit} (hkept : Kept s log) (hlinked : thread.Linked s log tid)
    (hallows : thread.Allows (.callHandler id))
    (hserve : s.serve (.callHandler id) accepted = some (t, answer, events)) :
    Serves s t log tid thread (.callHandler id) answer events := by
  obtain ⟨txn, hfind, heq⟩ := Option.map_eq_some_iff.mp hserve
  cases heq
  have hprogress : thread.progress = .created id := hallows
  obtain ⟨time, hcreated⟩ :
      ∃ time, (tid, ServerEvent.created id txn.request.requestId time) ∈ log := by
    have hrelies := hlinked.relies
    rw [ServerThread.Relies, hprogress] at hrelies
    obtain ⟨request, time, hmem⟩ := hrelies
    obtain ⟨msg, hrequest, rfl⟩ := (hkept.created tid id request time hmem).made
    cases (requestOf_of_find hfind).symm.trans hrequest
    exact ⟨time, hmem⟩
  refine ⟨⟨hkept.entry, hkept.numbered, fun other txn hfind =>
    (hkept.timed other txn hfind).mono (Nat.le_refl _) _, hkept.callback, ?_, ?_, ?_⟩, trivial, ?_,
    .refl s⟩
  · intro tid' other request time hmem
    obtain hmem | hmem := List.mem_append.mp hmem
    · exact (hkept.created tid' other request time hmem).later (.refl s) (fun h => h) .inl
    · cases List.mem_singleton.mp hmem
  · intro tid' tid'' other request request' time time' hmem hmem'
    obtain hmem | hmem := List.mem_append.mp hmem
    · obtain hmem' | hmem' := List.mem_append.mp hmem'
      · exact hkept.creator tid' tid'' other request request' time time' hmem hmem'
      · cases List.mem_singleton.mp hmem'
    · cases List.mem_singleton.mp hmem
  · intro tid' other request hmem
    obtain hmem | hmem := List.mem_append.mp hmem
    · obtain ⟨time, hmade⟩ := hkept.dispatched tid' other request hmem
      exact ⟨time, List.mem_append_left _ hmade⟩
    · cases List.mem_singleton.mp hmem
      exact ⟨time, List.mem_append_left _ hcreated⟩
  · refine ⟨?_, trivial⟩
    rw [eventsOf_append_self, List.countP_append, hlinked.dispatches,
      if_neg (fun h => by cases hprogress.symm.trans h)]
    rfl

theorem send_serves {response : SipMessage} {answer : Bool} (hkept : Kept s log)
    (hlinked : thread.Linked s log tid) (hallows : thread.Allows (.send id response))
    (hserve : s.serve (.send id response) accepted = some (t, answer, events)) :
    Serves s t log tid thread (.send id response) answer events := by
  obtain ⟨txn, hfind, heq⟩ := Option.map_eq_some_iff.mp hserve
  cases heq
  cases accepted with
  | false => exact .reads hkept hlinked trivial rfl
  | true =>
      refine ⟨hkept.unchanged (by simp [ServerEvent.isQuiet]), trivial, ?_, .refl s⟩
      obtain ⟨call, progress⟩ := thread
      obtain ⟨rfl, rfl⟩ | ⟨rfl, msg, source, rfl⟩ := hallows
      · refine hlinked.moves (fun h => by cases h) (fun h => by cases h)
          (by simp [ServerEvent.isDispatched]) ?_
        intro other response' hcall
        cases hcall
        exact ⟨txn.request, s.now, requestOf_of_find hfind,
          List.mem_append_right _ (List.mem_singleton.mpr rfl), Nat.le_refl _⟩
      · exact hlinked.same (.refl s) (by simp [ServerEvent.isDispatched])

/-- A response that the thread has sent. -/
theorem sent_of_linked {response : SipMessage} {txn : Server} (hlinked : thread.Linked s log tid)
    (hcall : thread.call = .sendResponse id response) (hprogress : thread.progress = .sent)
    (hfind : s.servers.find id = some txn) :
    ∃ time, (tid, ServerEvent.sent txn.request.requestId response.statusCode time) ∈ log ∧
      time ≤ s.now := by
  have hrelies := hlinked.relies
  rw [ServerThread.Relies, hprogress] at hrelies
  obtain ⟨msg, time, hrequest, hmem, htime⟩ := hrelies id response hcall
  cases (requestOf_of_find hfind).symm.trans hrequest
  exact ⟨time, hmem, htime⟩

theorem record_serves {response : SipMessage} {answer : Bool × Option TerminationCallback}
    (hkept : Kept s log) (hlinked : thread.Linked s log tid)
    (hallows : thread.Allows (.record id response))
    (hserve : s.serve (.record id response) accepted = some (t, answer, events)) :
    Serves s t log tid thread (.record id response) answer events := by
  obtain ⟨⟨_, _, txn⟩, hchange, heq⟩ := Option.map_eq_some_iff.mp hserve
  obtain ⟨txn', hfind, hchanged⟩ := Option.map_eq_some_iff.mp hchange
  cases hchanged
  cases heq
  obtain ⟨hcall, hprogress⟩ := hallows
  obtain ⟨time, hsent, -⟩ := sent_of_linked hlinked hcall hprogress hfind
  have hfixed : (txn.record response).1.fixed = txn.fixed := ServerTransaction.fixed_record
  have hlater := later_change (f := (·.record response)) hfind hfixed
  have htimed : Timed log s.now (txn.record response).1 :=
    (hkept.timed id txn hfind).covers (Prod.mk.inj hfixed).1
      fun _ => ServerTransaction.covers_record _
  refine ⟨hkept.change (f := (·.record response)) hfind hfixed (htimed.mono (Nat.le_refl _) _)
    (fun _ h => (List.not_mem_nil h).elim), ServerTransaction.record_starts, ?_, hlater⟩
  rcases hanswer : (txn.record response).2 with ⟨start, callback⟩
  cases callback with
  | none => exact hlinked.same hlater (fun _ h => (List.not_mem_nil h).elim)
  | some callback =>
      obtain ⟨hinvite, hlow, hhigh, honTerminated⟩ :=
        ServerTransaction.record_eq_some (congrArg Prod.snd hanswer)
      refine hlinked.moves (fun h => by cases hprogress.symm.trans h) (fun h => by cases h)
        (fun _ h => (List.not_mem_nil h).elim) ?_
      refine relies_terminating hkept hfind honTerminated hlater (.inl ?_)
      exact endedEarly_append (endedEarly_of_sent hsent hinvite hlow hhigh)

theorem startTimers_serves {code : Int} {answer : Unit} (hkept : Kept s log)
    (hlinked : thread.Linked s log tid) (hallows : thread.Allows (.startTimers id code))
    (hserve : s.serve (.startTimers id code) accepted = some (t, answer, events)) :
    Serves s t log tid thread (.startTimers id code) answer events := by
  obtain ⟨⟨_, _, txn⟩, hchange, heq⟩ := Option.map_eq_some_iff.mp hserve
  obtain ⟨txn', hfind, hchanged⟩ := Option.map_eq_some_iff.mp hchange
  cases hchanged
  cases heq
  obtain ⟨response, hcall, hprogress, rfl, hfinal⟩ := hallows
  obtain ⟨time, hsent, htime⟩ := sent_of_linked hlinked hcall hprogress hfind
  have hfixed : (txn.startTimers s.now response.statusCode).fixed = txn.fixed :=
    ServerTransaction.fixed_startTimers _ _
  have hlater := later_change (f := fun txn => (txn.startTimers s.now response.statusCode, ()))
    hfind hfixed
  have htimed : Timed log s.now (txn.startTimers s.now response.statusCode) := by
    intro name
    rw [(Prod.mk.inj hfixed).1]
    obtain hcovers | harmed :=
      @ServerTransaction.startTimers_cases _ txn s.now response.statusCode name
    · refine ⟨fun deadline hdeadline => ?_, fun hqueued => ?_⟩
      · exact (hkept.timed id txn hfind name).1 deadline (hcovers.deadline deadline hdeadline)
      · exact (hkept.timed id txn hfind name).2 (Nat.lt_of_lt_of_le hqueued hcovers.queued)
    · rw [harmed]
      refine ⟨fun deadline hdeadline => ?_, (hkept.timed id txn hfind name).2⟩
      cases hdeadline
      exact ⟨time, mem_finalTimes hsent hfinal, Nat.add_le_add_right htime _⟩
  refine ⟨hkept.change (f := fun txn => (txn.startTimers s.now response.statusCode, ())) hfind
    hfixed
    (htimed.mono (Nat.le_refl _) _) (fun _ h => (List.not_mem_nil h).elim), trivial, ?_, hlater⟩
  exact hlinked.same hlater (fun _ h => (List.not_mem_nil h).elim)

theorem timeout_serves {name : ServerTransaction.TimerName} {answer : Option TerminationCallback}
    (hkept : Kept s log) (hlinked : thread.Linked s log tid)
    (hallows : thread.Allows (.timeout name id))
    (hserve : s.serve (.timeout name id) accepted = some (t, answer, events)) :
    Serves s t log tid thread (.timeout name id) answer events := by
  rw [ServerLayer.serve] at hserve
  split at hserve
  · cases hserve
  · rename_i timer hdequeue
    obtain ⟨⟨_, _, txn⟩, hchange, heq⟩ := Option.map_eq_some_iff.mp hserve
    obtain ⟨txn', hfind, hchanged⟩ := Option.map_eq_some_iff.mp hchange
    cases hchanged
    cases heq
    rw [hfind] at hdequeue
    obtain ⟨hqueued, hcovers⟩ := Timer.dequeue_eq_some hdequeue
    have hfixed : (txn.setTimer timer name).timeout.1.fixed = txn.fixed := by
      rw [ServerTransaction.fixed_timeout, ServerTransaction.fixed_setTimer]
    have hlater := later_change (f := fun txn => (txn.setTimer timer name).timeout) hfind hfixed
    have htimed : Timed log s.now (txn.setTimer timer name).timeout.1 := by
      refine (hkept.timed id txn hfind).covers (Prod.mk.inj hfixed).1 fun other => ?_
      rw [ServerTransaction.timer_timeout, ServerTransaction.timer_setTimer]
      split
      · rename_i hsame
        rw [hsame]
        exact hcovers
      · exact Timer.covers_refl _
    refine ⟨hkept.change (f := fun txn => (txn.setTimer timer name).timeout) hfind hfixed
      (htimed.mono (Nat.le_refl _) _) (fun _ h => (List.not_mem_nil h).elim), trivial, ?_, hlater⟩
    cases hcallback : (txn.setTimer timer name).timeout.2 with
    | none =>
        exact hlinked.same hlater (fun _ h => (List.not_mem_nil h).elim)
    | some callback =>
        have honTerminated : txn.onTerminated = some callback := by
          rw [← ServerTransaction.timeout_eq_some hcallback]
          exact (congrArg Prod.snd (ServerTransaction.fixed_setTimer timer name)).symm
        refine hlinked.moves (fun h => by cases hallows.symm.trans h) (fun h => by cases h)
          (fun _ h => (List.not_mem_nil h).elim) ?_
        refine relies_terminating hkept hfind honTerminated hlater (.inr ?_)
        -- the handler runs because the deadline has passed
        obtain ⟨time, hmem, hpassed⟩ := (hkept.timed id txn hfind name).2 hqueued
        exact ⟨time, mem_finalTimes_append hmem, hpassed⟩

theorem terminated_serves {callback : TerminationCallback} {answer : Unit} (hkept : Kept s log)
    (hlinked : thread.Linked s log tid) (hallows : thread.Allows (.terminated callback)) :
    Serves s (s.terminated callback) log tid thread (.terminated callback) answer [] := by
  rw [ServerLayer.terminated]
  split
  · exact .reads hkept hlinked trivial rfl
  · split
    · rename_i hentry
      have hprogress : thread.progress = .terminating callback := hallows
      obtain ⟨msg, hrequest, hkey, hover⟩ : ∃ msg, s.requestOf callback.txn = some msg ∧
          callback.key = serverKey msg ∧ Over log msg.requestId s.now := by
        have hrelies := hlinked.relies
        rwa [ServerThread.Relies, hprogress] at hrelies
      have hlater : Later s { s with serverTxns := s.serverTxns.erase callback.key } :=
        ⟨fun _ _ h => h, Nat.le_refl _⟩
      have hquiet : ∀ event ∈ ([] : List ServerEvent), event.isQuiet = true :=
        fun _ h => (List.not_mem_nil h).elim
      refine ⟨⟨?_, hkept.numbered, fun other txn hfind =>
        (hkept.timed other txn hfind).mono (Nat.le_refl _) _, hkept.callback, ?_, ?_, ?_⟩, trivial,
        hlinked.same hlater (fun _ h => (List.not_mem_nil h).elim), hlater⟩
      · intro key other hfind
        exact hkept.entry key other (Table.find_of_find_erase hfind).2
      · intro tid' other request time hmem
        have hcreated := hkept.created tid' other request time (mem_of_quiet rfl hquiet hmem)
        refine hcreated.later hlater (fun h => h) fun hfind => ?_
        by_cases hsame : request.key = callback.key
        · -- the entry that goes is the one of this transaction
          rw [hsame, hentry] at hfind
          obtain ⟨made, hmade, rfl⟩ := hcreated.made
          cases hfind
          cases hrequest.symm.trans hmade
          exact .inr (.inr (hover.mono (Nat.le_refl _)))
        · rw [Table.find_erase_of_ne _ hsame]
          exact .inl hfind
      · intro tid' tid'' other request request' time time' hmem hmem'
        exact hkept.creator tid' tid'' other request request' time time'
          (mem_of_quiet rfl hquiet hmem) (mem_of_quiet rfl hquiet hmem')
      · intro tid' other request hmem
        obtain ⟨time, hmade⟩ := hkept.dispatched tid' other request (mem_of_quiet rfl hquiet hmem)
        exact ⟨time, List.mem_append_left _ hmade⟩
    · exact .reads hkept hlinked trivial rfl

theorem serve_serves {op : ServerOp} {answer : ServerAnswer op} (hkept : Kept s log)
    (hlinked : thread.Linked s log tid) (hallows : thread.Allows op)
    (hserve : s.serve op accepted = some (t, answer, events)) :
    Serves s t log tid thread op answer events := by
  cases op with
  | receive msg =>
      cases hserve
      exact receive_serves hkept hlinked hallows
  | findServer key =>
      cases hserve
      exact .reads hkept hlinked trivial rfl
  | acknowledge id => exact acknowledge_serves hkept hlinked hallows hserve
  | lastResponse id =>
      obtain ⟨txn, -, heq⟩ := Option.map_eq_some_iff.mp hserve
      cases heq
      exact .reads hkept hlinked trivial rfl
  | insert key msg source => exact insert_serves hkept hlinked hallows hserve
  | requestHandler =>
      cases hserve
      exact .reads hkept hlinked trivial rfl
  | callHandler id => exact callHandler_serves hkept hlinked hallows hserve
  | send id response => exact send_serves hkept hlinked hallows hserve
  | record id response => exact record_serves hkept hlinked hallows hserve
  | startTimers id code => exact startTimers_serves hkept hlinked hallows hserve
  | timeout name id => exact timeout_serves hkept hlinked hallows hserve
  | terminated callback =>
      cases hserve
      exact terminated_serves hkept hlinked hallows

/-! ## What happens besides -/

/-- Time passes, transactions change, or the table is emptied at the shutdown. -/
theorem Kept.besides (h : Kept s log) (hnext : t.nextServer = s.nextServer) (hnow : s.now ≤ t.now)
    (hrequests : ∀ id, t.requestOf id = s.requestOf id)
    (htxns : t.serverTxns = s.serverTxns ∧ t.shuttingDown = s.shuttingDown ∨
      t.serverTxns = .empty ∧ t.shuttingDown = true)
    (hservers : ∀ id txn, t.servers.find id = some txn → Timed log t.now txn ∧
      ∀ callback, txn.onTerminated = some callback → callback = ⟨serverKey txn.request, id⟩) :
    Kept t log ∧ Later s t := by
  have hlater : Later s t := ⟨fun id msg hrequest => (hrequests id).trans hrequest, hnow⟩
  refine ⟨⟨?_, ?_, fun id txn hfind => (hservers id txn hfind).1,
    fun id txn callback hfind => (hservers id txn hfind).2 callback, ?_, h.creator, h.dispatched⟩,
    hlater⟩
  · intro key id hfind
    rw [hrequests]
    obtain ⟨hsame, -⟩ | ⟨hempty, -⟩ := htxns
    · rw [hsame] at hfind
      exact h.entry key id hfind
    · rw [hempty] at hfind
      cases hfind
  · intro id msg hrequest
    rw [hnext]
    exact h.numbered id msg ((hrequests id).symm.trans hrequest)
  · intro tid id request time hmem
    obtain ⟨⟨msg, hrequest, hid⟩, hreceived, hstays⟩ := h.created tid id request time hmem
    refine ⟨⟨msg, (hrequests id).trans hrequest, hid⟩, hreceived, ?_⟩
    obtain ⟨hsame, hdown⟩ | ⟨-, hdown⟩ := htxns
    · rw [hsame, hdown]
      refine hstays.imp_right (Or.imp_right fun hover => ?_)
      have hmono : Over (log ++ []) request t.now := hover.mono hnow
      rwa [List.append_nil] at hmono
    · exact .inr (.inl hdown)

theorem timed_expire {name : ServerTransaction.TimerName} {txn : Server} {timer : Timer}
    (h : Timed log s.now txn) (hexpire : (txn.timer name).expire s.now = some timer) :
    Timed log s.now (txn.setTimer timer name) := by
  obtain ⟨deadline, hdeadline, hpassed, hnone⟩ := Timer.expire_eq_some hexpire
  have hrequest : (txn.setTimer timer name).request = txn.request :=
    (Prod.mk.inj (ServerTransaction.fixed_setTimer timer name)).1
  intro other
  rw [hrequest, ServerTransaction.timer_setTimer]
  split
  · refine ⟨fun deadline' hdeadline' => ?_, fun _ => ?_⟩
    · rw [hnone] at hdeadline'
      cases hdeadline'
    · obtain ⟨time, hmem, hle⟩ := (h name).1 deadline hdeadline
      exact ⟨time, hmem, Nat.le_trans hle hpassed⟩
  · exact h other

theorem background_keeps {event : ServerBackground} (hkept : Kept s log)
    (hbackground : s.background event = some t) : Kept t log ∧ Later s t := by
  cases event with
  | elapse duration =>
      cases hbackground
      refine hkept.besides rfl (Nat.le_add_right _ _) (fun _ => rfl) (.inl ⟨rfl, rfl⟩) ?_
      intro id txn hfind
      refine ⟨?_, fun callback => hkept.callback id txn callback hfind⟩
      have htimed := (hkept.timed id txn hfind).mono (Nat.le_add_right s.now duration) []
      rwa [List.append_nil] at htimed
  | expireTimer name id =>
      rw [ServerLayer.background] at hbackground
      split at hbackground
      · cases hbackground
      · rename_i timer hexpire
        cases hbackground
        obtain ⟨txn, hfind, hexpire⟩ := Option.bind_eq_some_iff.mp hexpire
        have hfixed : (txn.setTimer timer name).fixed = txn.fixed :=
          ServerTransaction.fixed_setTimer timer name
        refine hkept.besides rfl (Nat.le_refl _) ?_ (.inl ⟨rfl, rfl⟩) ?_
        · intro other
          rw [ServerLayer.requestOf, ServerLayer.requestOf, Table.find_modify]
          split
          · rename_i heq
            rw [heq, hfind, Option.map_some, Option.map_some, Option.map_some,
              (Prod.mk.inj hfixed).1]
          · rfl
        · intro other txn' hfind'
          rw [Table.find_modify] at hfind'
          split at hfind'
          · rename_i heq
            rw [heq, hfind] at hfind'
            cases hfind'
            refine ⟨timed_expire (hkept.timed id txn hfind) hexpire, fun callback hcallback => ?_⟩
            rw [(Prod.mk.inj hfixed).1, heq]
            exact hkept.callback id txn callback hfind ((Prod.mk.inj hfixed).2.symm.trans hcallback)
          · exact ⟨hkept.timed other txn' hfind',
              fun callback => hkept.callback other txn' callback hfind'⟩
  | setRequestHandler =>
      cases hbackground
      exact hkept.besides rfl (Nat.le_refl _) (fun _ => rfl) (.inl ⟨rfl, rfl⟩) fun id txn hfind =>
        ⟨hkept.timed id txn hfind, fun callback => hkept.callback id txn callback hfind⟩
  | shutdown =>
      cases hbackground
      refine hkept.besides rfl (Nat.le_refl _) ?_ (.inr ⟨rfl, rfl⟩) ?_
      · intro id
        rw [ServerLayer.requestOf, ServerLayer.requestOf, ServerLayer.shutdown,
          Table.find_mapValues, Option.map_map]
        congr 1
        funext txn
        rw [Function.comp_apply]
        split
        · rfl
        · rfl
      · intro id txn' hfind
        obtain ⟨txn, hfound, rfl⟩ :=
          Option.map_eq_some_iff.mp ((Table.find_mapValues _ _ _).symm.trans hfind)
        split
        · refine ⟨(hkept.timed id txn hfound).covers rfl fun name => ?_,
            fun _ h => (Option.some_ne_none _ h.symm).elim⟩
          cases name
          · exact Timer.covers_cancel _
          · exact Timer.covers_cancel _
        · exact ⟨hkept.timed id txn hfound, fun callback => hkept.callback id txn callback hfound⟩

end

theorem Kept.init : Kept .init [] := by
  refine ⟨?_, ?_, ?_, ?_, fun _ _ _ _ h => (List.not_mem_nil h).elim,
    fun _ _ _ _ _ _ _ h => (List.not_mem_nil h).elim, fun _ _ _ h => (List.not_mem_nil h).elim⟩
  · intro key id hfind
    cases hfind
  · intro id msg hrequest
    cases hrequest
  · intro id txn hfind
    cases hfind
  · intro id txn callback hfind
    cases hfind

/-! ## All of it -/

def serverDiscipline : Discipline ServerLayer serverOps ServerThread Unit ServerEvent where
  contract := serverContract
  assumes _ _ := True
  shared := Kept
  linked := ServerThread.Linked
  result _ _ := True

theorem serverDiscipline_sound : serverDiscipline.Sound serverService where
  track _ _ _ := rfl
  begins call := ServerLayer.begin_meets call
  fresh _ _ _ _ _ hnumbered := ⟨by rw [eventsOf_eq_nil hnumbered]; rfl, trivial⟩
  serves s log tid thread op accepted t answer events hkept hlinked hallows hserve _ :=
    have hserves := serve_serves hkept hlinked hallows hserve
    ⟨hserves.kept, hserves.expects, hserves.linked,
      fun _ _ hne hother => hother.elsewhere hne hserves.later⟩
  background s log event t hkept hbackground := by
    obtain ⟨hkept', hlater⟩ := background_keeps hkept hbackground
    refine ⟨hkept', fun id thread hlinked => ⟨hlinked.dispatches, ?_⟩⟩
    have hrelies : thread.Relies t (log ++ ([] : List ServerEvent).map (id, ·)) id :=
      hlinked.relies.mono hlater
    rwa [List.map_nil, List.append_nil] at hrelies

end SimIms.Sip
