import Mathlib.Tactic.SplitIfs
import SimIms.Sip.ClientLayer

/-!
# What the callback of a request is given

A response is looked up under the layer's mutex, and the entry goes under the same mutex, but only
after the callback has been called. Nothing in between asks for the state of the transaction: who
has found it before the entry has gone calls the callback too, whatever it has been given already.
-/

namespace SimIms.Sip

open Cxx Lib

/-! ## Threads -/

/-- How far a response has come. -/
inductive ClientProgress where
  | fresh
  | found (txn : Nat)
  | ready (txn : Nat) (key : Bytes)
  | called (txn : Nat) (key : Bytes)
  | ended
deriving DecidableEq

structure ClientThread (κ : Type) where
  call : ClientCall κ
  progress : ClientProgress := .fresh

namespace ClientThread

variable {κ : Type}

def track (thread : ClientThread κ) : (op : ClientOp κ) → ClientAnswer κ op → ClientThread κ
  | .findClient _, some txn => { thread with progress := .found txn }
  | .processResponse txn _, some callback => { thread with progress := .ready txn callback.key }
  | .processResponse _ _, none => { thread with progress := .ended }
  | .shuttingDown, true => { thread with progress := .ended }
  | .onResponse txn _ _, _ =>
      match thread.progress with
      | .ready _ key => { thread with progress := .called txn key }
      | _ => thread
  | .erase _, _ => { thread with progress := .ended }
  | _, _ => thread

/-- The response that the thread delivers, if it delivers one. -/
def response (thread : ClientThread κ) : Option SipMessage :=
  match thread.call with
  | .processResponse response => some response
  | _ => none

/-- The thread has found the transaction, and will give its callback a provisional or a final
response. -/
def holds (thread : ClientThread κ) (txn : Nat) : Bool :=
  (match thread.progress with
    | .found txn' => txn' == txn
    | .ready txn' _ => txn' == txn
    | _ => false) && thread.response.any (100 ≤ ·.statusCode)

/-- The thread has given the callback a final response, and will erase the entry. -/
def finishes (thread : ClientThread κ) (txn : Nat) : Bool :=
  match thread.progress with
  | .called txn' _ => txn' == txn && thread.response.any (200 ≤ ·.statusCode)
  | _ => false

end ClientThread

/-- The transaction layer, with any number of calls under way. -/
def clientService [OsipAccessor] (κ : Type) :
    Service (ClientLayer κ) (clientOps κ) Exception (ClientThread κ) Unit
    (Option ErrorInfo) (ClientCall κ) ClientBackground ClientEvent where
  serve := ClientLayer.serve
  begin := ClientLayer.begin
  background := ClientLayer.background
  fresh call := { call }
  track := ClientThread.track

abbrev ClientThreads (κ : Type) :=
  Threads (ClientLayer κ) (clientOps κ) Exception (ClientThread κ) Unit

abbrev ClientAction (κ : Type) :=
  ThreadAction (Option ErrorInfo) (ClientCall κ) ClientBackground

abbrev ClientLog := List (Nat × ClientEvent)

abbrev clientMachine [OsipAccessor] (κ : Type) :
    Machine (ClientThreads κ) (ClientAction κ) (Nat × ClientEvent) :=
  threadsMachine (clientService κ)

/-! ## Responses in order -/

/-- The status codes that the callback of a transaction has been given. -/
def givenCodes (log : ClientLog) (txn : Nat) : List Int :=
  log.filterMap fun event =>
    match event.2 with
    | .called txn' response => if txn' = txn then some response.statusCode else none

/-- After a final response comes neither a provisional nor a final one. -/
def FinalLast (codes : List Int) : Prop :=
  codes.Pairwise fun earlier later => 200 ≤ earlier → later < 100

def DeliversInOrder (log : ClientLog) : Prop := ∀ txn, FinalLast (givenCodes log txn)

/-- Another thread fulfils the condition. -/
def ClientThreads.others {κ : Type} (s : ClientThreads κ) (tid : Nat)
    (p : ClientThread κ → Bool) : Bool :=
  s.threads.entries.any fun entry => entry.1 != tid && p entry.2.history

/-- Two responses to one request overlap: a final one is given to the callback while another
thread has found the transaction, or the transaction is found after the callback and before the
erasure. -/
def overlaps [OsipAccessor] {κ : Type} (s : ClientThreads κ) : ClientAction κ → Bool
  | .run tid _ =>
      match s.operation tid with
      | some (_, ⟨.onResponse txn _ response, _⟩) =>
          200 ≤ response.statusCode && s.others tid (·.holds txn)
      | some (_, ⟨.findClient response, _⟩) =>
          100 ≤ response.statusCode &&
            (s.shared.layer.findClientTransaction response).any fun txn =>
              s.others tid (·.finishes txn)
      | _ => false
  | _ => false

/-! ## What a call may do -/

namespace ClientThread

variable {κ : Type}

/-- The thread has not called the callback. -/
def Uncalled (thread : ClientThread κ) : Prop := ∀ txn key, thread.progress ≠ .called txn key

def Allows (thread : ClientThread κ) : ClientOp κ → Prop
  | .findClient response => thread.progress = .fresh ∧ thread.call = .processResponse response
  | .processResponse txn code => thread.progress = .found txn ∧
      ∃ response, thread.call = .processResponse response ∧ code = response.statusCode
  | .onResponse txn _ response => thread.call = .processResponse response ∧
      ∃ key, thread.progress = .ready txn key
  | .erase key => ∀ txn key', thread.progress = .called txn key' → key' = key
  | _ => thread.Uncalled

def contract (κ : Type) : Contract (clientOps κ) (ClientThread κ) where
  Allows := Allows
  Expects _ _ := True
  Throws _ := False
  track := track

end ClientThread

namespace ClientLayer

variable {κ : Type} {thread : ClientThread κ} {txn : Nat} {key : Bytes} {response : SipMessage}

/-- The entry is erased by the key that the thread has called with. -/
theorem finish_meets (h : ∀ txn key', thread.progress = .called txn key' → key' = key) :
    (finish key response).Meets (ClientThread.contract κ) thread fun _ _ => True := by
  rw [finish]
  split
  · exact ⟨h, fun _ _ => trivial⟩
  · exact trivial

theorem callOnResponse_meets {callback : ResponseCallback κ}
    (hcall : thread.call = .processResponse response)
    (hprogress : thread.progress = .ready txn callback.key) :
    (callOnResponse txn callback response).Meets (ClientThread.contract κ) thread
      fun _ _ => True := by
  obtain ⟨key, cb⟩ := callback
  refine ⟨fun _ _ h => (by cases hprogress.symm.trans h), fun down _ => ?_⟩
  cases down with
  | true => exact trivial
  | false =>
      cases cb with
      | none => exact finish_meets fun _ _ h => by cases hprogress.symm.trans h
      | some cb =>
          refine ⟨⟨hcall, key, hprogress⟩, fun _ _ => finish_meets fun txn' key' h => ?_⟩
          obtain ⟨call, progress⟩ := thread
          cases hprogress
          cases h
          rfl

theorem processResponse_meets (hcall : thread.call = .processResponse response)
    (hprogress : thread.progress = .fresh) :
    (processResponse response).Meets (ClientThread.contract κ) thread fun _ _ => True := by
  refine ⟨fun _ _ h => (by cases hprogress.symm.trans h), fun down _ => ?_⟩
  cases down with
  | true => exact trivial
  | false =>
      refine ⟨⟨hprogress, hcall⟩, fun found _ => ?_⟩
      cases found with
      | none => exact trivial
      | some txn =>
          refine ⟨⟨rfl, response, hcall, rfl⟩, fun callback _ => ?_⟩
          cases callback with
          | none => exact trivial
          | some callback => exact callOnResponse_meets hcall rfl

theorem runTimerB_meets (hprogress : thread.progress = .fresh) :
    (runTimerB txn).Meets (ClientThread.contract κ) thread fun _ _ => True := by
  have huncalled : thread.Uncalled := fun _ _ h => by cases hprogress.symm.trans h
  refine ⟨huncalled, fun key _ => ?_⟩
  cases key with
  | none => exact trivial
  | some key =>
      refine ⟨huncalled, fun down _ => ?_⟩
      cases down with
      | true => exact trivial
      | false => exact ⟨fun txn key' h => (huncalled txn key' h).elim, fun _ _ => trivial⟩

theorem sendRequest_meets {request : SipMessage} {dest : Endpoint} {onResponse : Option κ}
    (hprogress : thread.progress = .fresh) :
    (sendRequest request dest onResponse).Meets (ClientThread.contract κ) thread
      fun _ _ => True := by
  have huncalled : thread.Uncalled := fun _ _ h => by cases hprogress.symm.trans h
  refine ⟨huncalled, fun down _ => ?_⟩
  cases down with
  | true => exact trivial
  | false =>
      refine ⟨huncalled, fun registered _ => ?_⟩
      cases registered with
      | error error => exact trivial
      | ok txn =>
          refine ⟨huncalled, fun refusal _ => ?_⟩
          cases refusal with
          | none => exact ⟨huncalled, fun _ _ => trivial⟩
          | some error =>
              exact ⟨huncalled, fun _ _ => ⟨fun txn key' h => (huncalled txn key' h).elim,
                fun _ _ => trivial⟩⟩

theorem begin_meets (call : ClientCall κ) :
    (begin call).Meets (ClientThread.contract κ) { call } fun _ _ => True := by
  cases call with
  | sendRequest request dest onResponse =>
      exact (sendRequest_meets rfl).bind fun _ _ _ => trivial
  | processResponse response => exact processResponse_meets rfl rfl
  | runTimerB txn => exact runTimerB_meets rfl

end ClientLayer

/-! ## What holds of the threads -/

/-- The key of a thread is the one of the transaction that it has found. -/
def ClientThread.Relies {κ : Type} (s : ClientLayer κ) (thread : ClientThread κ) : Prop :=
  match thread.progress with
  | .found id => ∃ request, s.requestOf id = some request
  | .ready id key => ∃ request, s.requestOf id = some request ∧ key = clientKey request
  | .called id key => ∃ request, s.requestOf id = some request ∧ key = clientKey request
  | _ => True

structure ClientKept {κ : Type} (s : ClientLayer κ) (log : ClientLog) : Prop where
  keyed : s.Keyed
  called : ∀ tid id response, (tid, .called id response) ∈ log →
    ∃ request, s.requestOf id = some request

section

variable {κ : Type} {s t : ClientLayer κ} {log : ClientLog} {tid : Nat} {thread : ClientThread κ}
variable {op : ClientOp κ} {refusal : Option ErrorInfo} {answer : ClientAnswer κ op}
variable {events : List ClientEvent}

theorem ClientThread.Relies.mono (h : thread.Relies s)
    (hlater : ∀ id request, s.requestOf id = some request → t.requestOf id = some request) :
    thread.Relies t := by
  obtain ⟨call, progress⟩ := thread
  cases progress with
  | fresh => exact trivial
  | ended => exact trivial
  | found id =>
      obtain ⟨request, hrequest⟩ := h
      exact ⟨request, hlater id request hrequest⟩
  | ready id key =>
      obtain ⟨request, hrequest, hkey⟩ := h
      exact ⟨request, hlater id request hrequest, hkey⟩
  | called id key =>
      obtain ⟨request, hrequest, hkey⟩ := h
      exact ⟨request, hlater id request hrequest, hkey⟩

/-- Transactions stay what they are. -/
theorem ClientKept.later [OsipAccessor] (h : ClientKept s log)
    (hserve : s.serve op refusal = some (t, answer, events)) :
    t.Keyed ∧ ∀ id request, s.requestOf id = some request → t.requestOf id = some request := by
  obtain hshrinks | ⟨request, dest, onResponse, rfl, rfl⟩ := ClientLayer.serve_cases hserve
  · exact ⟨h.keyed.shrinks hshrinks, fun id request hrequest =>
      (hshrinks.requests id).trans hrequest⟩
  · exact ⟨h.keyed.register, fun _ _ => ClientLayer.requestOf_register h.keyed.numbered⟩

/-- Only the call of a callback is an event. -/
theorem called_of_serve [OsipAccessor] {event : ClientEvent}
    (hserve : s.serve op refusal = some (t, answer, events)) (hmem : event ∈ events) :
    ∃ id cb response, op = .onResponse id cb response ∧ events = [.called id response] := by
  cases op with
  | onResponse id cb response =>
      cases hserve
      exact ⟨id, cb, response, rfl, rfl⟩
  | register request dest onResponse =>
      rw [ClientLayer.serve] at hserve
      split at hserve
      · cases hserve
        cases hmem
      · cases hserve
        cases hmem
  | shuttingDown =>
      cases hserve
      cases hmem
  | send id =>
      cases hserve
      cases hmem
  | startSent id =>
      cases hserve
      cases hmem
  | startFailed id =>
      cases hserve
      cases hmem
  | erase key =>
      cases hserve
      cases hmem
  | findClient response =>
      cases hserve
      cases hmem
  | processResponse id code =>
      obtain ⟨txn, -, heq⟩ := Option.map_eq_some_iff.mp hserve
      cases heq
      cases hmem
  | timeout id =>
      rw [ClientLayer.serve] at hserve
      split at hserve
      · cases hserve
      · obtain ⟨txn, -, heq⟩ := Option.map_eq_some_iff.mp hserve
        cases heq
        cases hmem

theorem ClientThread.relies_track [OsipAccessor] (hkept : ClientKept s log)
    (hrelies : thread.Relies s)
    (hallows : thread.Allows op) (hserve : s.serve op refusal = some (t, answer, events)) :
    (thread.track op answer).Relies t := by
  have hsame := hrelies.mono (hkept.later hserve).2
  cases op with
  | findClient response =>
      cases hserve
      cases hfind : s.layer.findClientTransaction response with
      | none => exact hsame
      | some id =>
          obtain ⟨key, -, hentry⟩ := List.exists_of_findSome?_eq_some hfind
          obtain ⟨request, hrequest, -⟩ := hkept.keyed.entry key id hentry
          exact ⟨request, hrequest⟩
  | processResponse id code =>
      obtain ⟨txn, hfind, heq⟩ := Option.map_eq_some_iff.mp hserve
      cases heq
      cases hcallback : txn.onResponse with
      | none => exact trivial
      | some callback =>
          refine ⟨txn.request, (hkept.later hserve).2 id txn.request ?_,
            hkept.keyed.callback id txn callback hfind hcallback⟩
          rw [ClientLayer.requestOf, hfind, Option.map_some]
  | shuttingDown =>
      cases answer with
      | true => exact trivial
      | false => exact hsame
  | onResponse id cb response =>
      obtain ⟨call, progress⟩ := thread
      obtain ⟨-, key, rfl⟩ := hallows
      exact hsame
  | erase key => exact trivial
  | register request dest onResponse => exact hsame
  | send id => exact hsame
  | startSent id => exact hsame
  | startFailed id => exact hsame
  | timeout id => exact hsame

end

def clientDiscipline (κ : Type) :
    Discipline (ClientLayer κ) (clientOps κ) (ClientThread κ) Unit ClientEvent where
  contract := ClientThread.contract κ
  assumes _ _ := True
  shared := ClientKept
  linked s _ _ thread := thread.Relies s
  result _ _ := True

theorem clientDiscipline_sound [OsipAccessor] (κ : Type) :
    (clientDiscipline κ).Sound (clientService κ) where
  track _ _ _ := rfl
  begins call := ClientLayer.begin_meets call
  fresh _ _ _ _ _ _ := trivial
  serves s log tid thread op refusal t answer events hkept hrelies hallows hserve _ := by
    obtain ⟨hkeyed, hlater⟩ := hkept.later hserve
    refine ⟨⟨hkeyed, fun tid' id response hmem => ?_⟩, trivial,
      thread.relies_track hkept hrelies hallows hserve, fun _ _ _ hother => hother.mono hlater⟩
    obtain hmem | hmem := List.mem_append.mp hmem
    · obtain ⟨request, hrequest⟩ := hkept.called tid' id response hmem
      exact ⟨request, hlater id request hrequest⟩
    · obtain ⟨event, hevent, heq⟩ := List.mem_map.mp hmem
      cases heq
      obtain ⟨id', cb, response', rfl, rfl⟩ := called_of_serve hserve hevent
      cases List.mem_singleton.mp hevent
      obtain ⟨call, progress⟩ := thread
      obtain ⟨-, key, rfl⟩ := hallows
      obtain ⟨request, hrequest, -⟩ := hrelies
      exact ⟨request, hlater id request hrequest⟩
  background s log event t hkept hbackground := by
    have hshrinks := ClientLayer.shrinks_background hbackground
    have hlater : ∀ id request, s.requestOf id = some request → t.requestOf id = some request :=
      fun id request hrequest => (hshrinks.requests id).trans hrequest
    refine ⟨⟨hkept.keyed.shrinks hshrinks, fun tid id response hmem => ?_⟩,
      fun _ _ hrelies => hrelies.mono hlater⟩
    obtain ⟨request, hrequest⟩ := hkept.called tid id response hmem
    exact ⟨request, hlater id request hrequest⟩

/-! ## Responses that do not overlap -/

def FinalGiven (log : ClientLog) (id : Nat) : Prop := ∃ code ∈ givenCodes log id, 200 ≤ code

/-- Who still holds a transaction that has been given a final response, and why its entry is
there. -/
structure Orderly {κ : Type} (s : ClientThreads κ) (log : ClientLog) : Prop where
  inv : s.Inv (clientDiscipline κ) log
  idle : ∀ id, FinalGiven log id → ∀ tid thread, s.threads.find tid = some thread →
    thread.history.holds id = false
  leaves : ∀ id key, FinalGiven log id → s.shared.layer.clientTxns.find key = some id →
    ∃ tid thread, s.threads.find tid = some thread ∧ thread.history.finishes id = true
  ordered : DeliversInOrder log

section

variable {κ : Type} {s t : ClientLayer κ} {log : ClientLog} {tid id : Nat} {thread : ClientThread κ}
variable {op : ClientOp κ} {refusal : Option ErrorInfo} {answer : ClientAnswer κ op}
variable {events : List ClientEvent}

theorem givenCodes_append (out : ClientLog) :
    givenCodes (log ++ out) id = givenCodes log id ++ givenCodes out id :=
  List.filterMap_append

theorem registered_of_finalGiven (h : ClientKept s log) (hfinal : FinalGiven log id) :
    ∃ request, s.requestOf id = some request := by
  obtain ⟨code, hmem, -⟩ := hfinal
  obtain ⟨⟨tid, event⟩, hlog, heq⟩ := List.mem_filterMap.mp hmem
  obtain ⟨id', response⟩ := event
  obtain ⟨rfl, -⟩ := Option.ite_none_right_eq_some.mp heq
  exact h.called tid id' response hlog

theorem ClientThread.response_of_call {response : SipMessage}
    (h : thread.call = .processResponse response) : thread.response = some response := by
  rw [ClientThread.response, h]

theorem ClientThread.holds_of_ready {key : Bytes} {response : SipMessage}
    (h : thread.progress = .ready id key) (hcall : thread.call = .processResponse response) :
    thread.holds id = decide (100 ≤ response.statusCode) := by
  rw [holds, h, response_of_call hcall]
  simp

/-- A thread comes to hold a transaction by finding it. -/
theorem ClientThread.holds_track [OsipAccessor] (hallows : thread.Allows op)
    (hserve : s.serve op refusal = some (t, answer, events))
    (h : (thread.track op answer).holds id = true) :
    thread.holds id = true ∨ ∃ response, op = .findClient response ∧
      s.layer.findClientTransaction response = some id ∧ 100 ≤ response.statusCode := by
  cases op with
  | findClient response =>
      cases hserve
      cases hfind : s.layer.findClientTransaction response with
      | none =>
          rw [hfind] at h
          exact .inl h
      | some found =>
          rw [hfind] at h
          obtain ⟨-, hcall⟩ := hallows
          obtain ⟨hsame, hcode⟩ := Bool.and_eq_true_iff.mp h
          cases eq_of_beq hsame
          change thread.response.any (100 ≤ SipMessage.statusCode ·) = true at hcode
          rw [response_of_call hcall] at hcode
          exact .inr ⟨response, rfl, hfind, of_decide_eq_true hcode⟩
  | processResponse found code =>
      obtain ⟨hprogress, -⟩ := hallows
      obtain ⟨call, progress⟩ := thread
      cases hprogress
      cases answer with
      | none => cases h
      | some callback => exact .inl h
  | shuttingDown =>
      cases answer with
      | true => cases h
      | false => exact .inl h
  | onResponse found cb response =>
      obtain ⟨call, progress⟩ := thread
      obtain ⟨-, key, rfl⟩ := hallows
      cases h
  | erase key => cases h
  | register request dest onResponse => exact .inl h
  | send id => exact .inl h
  | startSent id => exact .inl h
  | startFailed id => exact .inl h
  | timeout id => exact .inl h

/-- A thread that has called the callback can only erase the entry. -/
theorem ClientThread.erases_of_finishes (hallows : thread.Allows op)
    (h : thread.finishes id = true) :
    ∃ key, op = .erase key ∧ thread.progress = .called id key := by
  obtain ⟨call, progress⟩ := thread
  cases progress with
  | called found key =>
      obtain ⟨hsame, -⟩ := Bool.and_eq_true_iff.mp h
      cases eq_of_beq hsame
      cases op with
      | erase key' =>
          cases hallows _ _ rfl
          exact ⟨key, rfl, rfl⟩
      | findClient response => cases hallows.1
      | processResponse found code => cases hallows.1
      | onResponse found cb response =>
          obtain ⟨-, key, hprogress⟩ := hallows
          cases hprogress
      | shuttingDown => exact (hallows _ _ rfl).elim
      | register request dest onResponse => exact (hallows _ _ rfl).elim
      | send id => exact (hallows _ _ rfl).elim
      | startSent id => exact (hallows _ _ rfl).elim
      | startFailed id => exact (hallows _ _ rfl).elim
      | timeout id => exact (hallows _ _ rfl).elim
  | fresh => cases h
  | ended => cases h
  | found txn => cases h
  | ready txn key => cases h

end

section

variable {κ : Type} {s t : ClientThreads κ} {log out : ClientLog} {a : ClientAction κ}

theorem others_eq_true {tid other : Nat} {p : ClientThread κ → Bool}
    {thread : Thread (clientOps κ) Exception (ClientThread κ) Unit} (hne : other ≠ tid)
    (hfind : s.threads.find other = some thread) (hp : p thread.history = true) :
    s.others tid p = true := by
  rw [ClientThreads.others, List.any_eq_true]
  refine ⟨⟨other, thread⟩, Table.find_eq_some_iff_mem.mp hfind, Bool.and_eq_true_iff.mpr ⟨?_, hp⟩⟩
  exact bne_iff_ne.mpr hne

/-- The callback of a transaction is called. -/
theorem Orderly.call {tid id : Nat} {cb : κ} {response : SipMessage} {history : ClientThread κ}
    {next : Unit → Program (clientOps κ) Exception Unit} (h : Orderly s log)
    (hoperation : s.operation tid = some (history, ⟨.onResponse id cb response, next⟩))
    (hinv : t.Inv (clientDiscipline κ) (log ++ [(tid, .called id response)]))
    (hshared : t.shared = s.shared)
    (hthreads : t.threads = s.threads.insert tid
      ⟨history.track (.onResponse id cb response) (), next ()⟩)
    (hapart : 200 ≤ response.statusCode → s.others tid (·.holds id) = false) :
    Orderly t (log ++ [(tid, .called id response)]) := by
  obtain ⟨hcall, key, hprogress⟩ : history.Allows (.onResponse id cb response) :=
    h.inv.allows hoperation
  have hfound := Threads.operation_eq_some hoperation
  have htrack : history.track (.onResponse id cb response) () =
      { history with progress := .called id key } := by
    rw [ClientThread.track, hprogress]
  have hgiven : ∀ other, givenCodes [(tid, ClientEvent.called id response)] other =
      if id = other then [response.statusCode] else [] := by
    intro other
    by_cases hsame : id = other
    · simp [givenCodes, hsame]
    · simp [givenCodes, hsame]
  have hfinal : ∀ other, FinalGiven (log ++ [(tid, .called id response)]) other →
      FinalGiven log other ∨ id = other ∧ 200 ≤ response.statusCode := by
    rintro other ⟨code, hmem, hcode⟩
    rw [givenCodes_append, hgiven] at hmem
    obtain hmem | hmem := List.mem_append.mp hmem
    · exact .inl ⟨code, hmem, hcode⟩
    · split at hmem
      · rename_i hsame
        cases List.mem_singleton.mp hmem
        exact .inr ⟨hsame, hcode⟩
      · cases hmem
  refine ⟨hinv, ?_, ?_, ?_⟩
  · intro other hgiven tid' thread hfind
    rw [hthreads, Table.find_insert] at hfind
    split at hfind
    · cases hfind
      rw [htrack]
      rfl
    · rename_i hne
      obtain hbefore | ⟨rfl, hcode⟩ := hfinal other hgiven
      · exact h.idle other hbefore tid' thread hfind
      · rw [Bool.eq_false_iff]
        intro hholds
        cases (others_eq_true hne hfind hholds).symm.trans (hapart hcode)
  · intro other key' hgiven hentry
    rw [hshared] at hentry
    obtain hbefore | ⟨rfl, hcode⟩ := hfinal other hgiven
    · obtain ⟨tid', thread, hfind, hfinishes⟩ := h.leaves other key' hbefore hentry
      refine ⟨tid', thread, ?_, hfinishes⟩
      rw [hthreads, Table.find_insert_of_ne _ _ ?_]
      · exact hfind
      · rintro rfl
        cases hfound.symm.trans hfind
        obtain ⟨_, -, hcalled⟩ := ClientThread.erases_of_finishes
          (h.inv.allows hoperation) hfinishes
        cases hprogress.symm.trans hcalled
    · refine ⟨tid, ⟨{ history with progress := .called id key }, next ()⟩, ?_, ?_⟩
      · rw [hthreads, htrack, Table.find_insert_self]
      · change (id == id && history.response.any (200 ≤ SipMessage.statusCode ·)) = true
        rw [beq_self_eq_true, ClientThread.response_of_call hcall]
        exact decide_eq_true hcode
  · intro other
    rw [givenCodes_append, hgiven]
    split
    · rename_i hsame
      cases hsame
      refine List.pairwise_append.mpr ⟨h.ordered id, List.pairwise_singleton _ _, ?_⟩
      intro earlier hearlier later hlater hcode
      cases List.mem_singleton.mp hlater
      -- this thread does not hold the transaction, although it has found it
      have hnot := h.idle id ⟨earlier, hearlier, hcode⟩ tid _ hfound
      rw [ClientThread.holds_of_ready hprogress hcall] at hnot
      exact Int.not_le.mp (of_decide_eq_false hnot)
    · rw [List.append_nil]
      exact h.ordered other

/-- Another operation is served. -/
theorem Orderly.serve [OsipAccessor] {tid : Nat} {history : ClientThread κ} {op : ClientOp κ}
    {next : ClientAnswer κ op → Program (clientOps κ) Exception Unit} {refusal : Option ErrorInfo}
    {answer : ClientAnswer κ op} (h : Orderly s log)
    (hoperation : s.operation tid = some (history, ⟨op, next⟩))
    (hserve : s.shared.serve op refusal = some (t.shared, answer, []))
    (hinv : t.Inv (clientDiscipline κ) log)
    (hthreads : t.threads = s.threads.insert tid ⟨history.track op answer, next answer⟩)
    (hapart : ∀ response id, op = .findClient response →
      s.shared.layer.findClientTransaction response = some id → 100 ≤ response.statusCode →
      s.others tid (·.finishes id) = false) : Orderly t log := by
  have hallows : history.Allows op := h.inv.allows hoperation
  have hrelies : history.Relies s.shared := h.inv.linked_operation hoperation
  have hkept : ClientKept s.shared log := h.inv.shared
  have hfound := Threads.operation_eq_some hoperation
  refine ⟨hinv, ?_, ?_, h.ordered⟩
  · intro id hgiven tid' thread hfind
    rw [hthreads, Table.find_insert] at hfind
    split at hfind
    · cases hfind
      rw [Bool.eq_false_iff]
      intro hholds
      obtain hheld | ⟨response, rfl, hclient, hcode⟩ :=
        ClientThread.holds_track hallows hserve hholds
      · cases (h.idle id hgiven tid _ hfound).symm.trans hheld
      · -- the entry is still there, so it has a thread that will erase it
        obtain ⟨key, -, hentry⟩ := List.exists_of_findSome?_eq_some hclient
        obtain ⟨other, thread, hfind, hfinishes⟩ := h.leaves id key hgiven hentry
        have hne : other ≠ tid := by
          rintro rfl
          cases hfound.symm.trans hfind
          obtain ⟨_, hop, -⟩ := ClientThread.erases_of_finishes hallows hfinishes
          cases hop
        cases (others_eq_true hne hfind hfinishes).symm.trans (hapart response id rfl hclient hcode)
    · exact h.idle id hgiven tid' thread hfind
  · intro id key hgiven hentry
    obtain ⟨made, hmade⟩ := registered_of_finalGiven hkept hgiven
    have hbefore : s.shared.layer.clientTxns.find key = some id := by
      obtain hshrinks | ⟨request, dest, onResponse, rfl, hregister⟩ :=
        ClientLayer.serve_cases hserve
      · exact hshrinks.entries key id hentry
      · rw [hregister, ClientLayer.register, Table.find_insert] at hentry
        split at hentry
        · cases hentry
          exact (Nat.lt_irrefl _ (hkept.keyed.numbered _ made hmade)).elim
        · exact hentry
    obtain ⟨other, thread, hfind, hfinishes⟩ := h.leaves id key hgiven hbefore
    refine ⟨other, thread, ?_, hfinishes⟩
    rw [hthreads, Table.find_insert_of_ne _ _ ?_]
    · exact hfind
    · -- a thread that erases the entry has erased it
      rintro rfl
      cases hfound.symm.trans hfind
      obtain ⟨key', rfl, hcalled⟩ := ClientThread.erases_of_finishes hallows hfinishes
      rw [ClientThread.Relies, hcalled] at hrelies
      obtain ⟨request, hrequest, rfl⟩ := hrelies
      obtain ⟨request', hrequest', rfl⟩ := hkept.keyed.entry key id hbefore
      cases hrequest.symm.trans hrequest'
      have hshared : s.shared.erase (clientKey request) = t.shared :=
        congrArg (·.1) (Option.some.inj hserve)
      rw [← hshared, ClientLayer.erase, Table.find_erase_self] at hentry
      cases hentry

theorem Orderly.step [OsipAccessor] (h : Orderly s log) (hapart : overlaps s a = false)
    (hstep : (clientMachine κ).step s a = some (t, out)) : Orderly t (log ++ out) := by
  have hinv : t.Inv (clientDiscipline κ) (log ++ out) :=
    h.inv.next (clientDiscipline_sound κ) (fun _ _ => trivial) hstep
  cases a with
  | start call =>
      cases hstep
      rw [List.append_nil] at hinv ⊢
      refine ⟨hinv, fun id hgiven tid thread hfind => ?_, fun id key hgiven hentry => ?_, h.ordered⟩
      · rw [Table.find_insert] at hfind
        split at hfind
        · cases hfind
          rfl
        · exact h.idle id hgiven tid thread hfind
      · obtain ⟨tid, thread, hfind, hfinishes⟩ := h.leaves id key hgiven hentry
        refine ⟨tid, thread, ?_, hfinishes⟩
        rw [Table.find_insert_of_ne _ _ (Nat.ne_of_lt ((h.inv.started tid).mpr ⟨thread, hfind⟩))]
        exact hfind
  | background event =>
      obtain ⟨shared, hbackground, heq⟩ := Option.map_eq_some_iff.mp hstep
      cases heq
      rw [List.append_nil] at hinv ⊢
      exact ⟨hinv, h.idle, fun id key hgiven hentry => h.leaves id key hgiven
        ((ClientLayer.shrinks_background hbackground).entries key id hentry), h.ordered⟩
  | run tid refusal =>
      obtain ⟨history, op, next, shared, answer, events, hoperation, hserve, rfl, rfl⟩ :=
        Threads.runThread_eq_some hstep
      by_cases hquiet : events = []
      · subst hquiet
        rw [List.map_nil, List.append_nil] at hinv ⊢
        refine h.serve hoperation hserve hinv rfl fun response id hop hfound hcode => ?_
        cases hop
        rw [overlaps, hoperation] at hapart
        simp only [hfound, Option.any_some, Bool.and_eq_false_iff] at hapart
        exact hapart.resolve_left fun h =>
          Bool.false_ne_true (h.symm.trans (decide_eq_true hcode))
      · obtain ⟨event, hmem⟩ := List.exists_mem_of_ne_nil _ hquiet
        obtain ⟨id, cb, response, rfl, rfl⟩ := called_of_serve hserve hmem
        cases hserve
        refine h.call hoperation hinv rfl rfl fun hcode => ?_
        rw [overlaps, hoperation] at hapart
        simp only [Bool.and_eq_false_iff] at hapart
        exact hapart.resolve_left fun h =>
          Bool.false_ne_true (h.symm.trans (decide_eq_true hcode))

end

theorem Orderly.init {κ : Type} : Orderly (.init (.init : ClientLayer κ)) [] := by
  have hnone : ∀ id, ¬ FinalGiven [] id := by
    rintro id ⟨code, hmem, -⟩
    cases hmem
  have hkept : ClientKept (.init : ClientLayer κ) [] := by
    refine ⟨⟨?_, ?_, ?_⟩, fun _ _ _ hmem => (List.not_mem_nil hmem).elim⟩
    · intro key id hfind
      cases hfind
    · intro id request hrequest
      cases hrequest
    · intro id txn callback hfind
      cases hfind
  exact ⟨.init hkept, fun id hgiven => (hnone id hgiven).elim,
    fun id _ hgiven => (hnone id hgiven).elim, fun _ => List.Pairwise.nil⟩

/-- In a run without overlaps every callback gets its responses in order, and one final one. -/
theorem delivers_in_order_of_apart [OsipAccessor] {κ : Type} {actions : List (ClientAction κ)}
    {s : ClientThreads κ}
    {log : ClientLog} (hrun : (clientMachine κ).exec (.init .init) actions = some (s, log))
    (hapart : (clientMachine κ).Along (fun s a _ _ => overlaps s a = false) (.init .init) actions) :
    DeliversInOrder log := by
  have horderly : Orderly s ([] ++ log) :=
    Machine.exec_preserves_log (fun _ _ _ _ _ h hstep hapart => h.step hapart hstep)
      .init hapart hrun
  exact horderly.ordered

/-! ## Two responses -/

def hopInvite : SipMessage :=
  (dialogRequest "INVITE" (bytes "a") []).addVia
    ⟨bytes "UDP", bytes "hop", none, [⟨bytes "branch", some (bytes "z9hG4bK1")⟩]⟩

/-- An INVITE is sent, and two responses come. -/
def twoResponses (first second : Int) : List (ClientAction Unit) :=
  let answer (code : Int) : SipMessage := { hopInvite with start := .response code [] }
  [.start (.sendRequest hopInvite ⟨bytes "10.0.0.2", 5060, bytes "udp"⟩ (some ()))] ++
    List.replicate 4 (.run 0 none) ++
    [.start (.processResponse (answer first)), .start (.processResponse (answer second))]

/-- Both find the transaction, and the second one is done first. -/
def overlappingRun (first second : Int) : List (ClientAction Unit) :=
  twoResponses first second ++ [.run 1 none, .run 1 none] ++ List.replicate 6 (.run 2 none) ++
    List.replicate 3 (.run 1 none)

theorem not_deliversInOrder_of_given [OsipAccessor] {run : List (ClientAction Unit)} {late : Int}
    (hlate : 100 ≤ late) (hgiven : ((clientMachine Unit).exec (.init .init) run).map (fun result =>
      decide (givenCodes result.2 0 = [200, late])) = some true) :
    ∃ s log, (clientMachine Unit).exec (.init .init) run = some (s, log) ∧
      givenCodes log 0 = [200, late] ∧ ¬ DeliversInOrder log := by
  obtain ⟨⟨s, log⟩, hrun, hgiven⟩ := Option.map_eq_some_iff.mp hgiven
  have hcodes := of_decide_eq_true hgiven
  refine ⟨s, log, hrun, hcodes, fun horder => ?_⟩
  have hpair := horder 0
  rw [hcodes] at hpair
  have hlow : late < 100 :=
    (List.pairwise_cons.mp hpair).1 late (List.mem_singleton.mpr rfl) (by decide)
  exact Int.not_le.mpr hlow hlate

/-- The callback gets two final responses, or a provisional one after the final one. -/
theorem callback_called_out_of_order :
    (∃ s log, (clientMachine Unit).exec (.init .init) (overlappingRun 200 200) = some (s, log) ∧
      givenCodes log 0 = [200, 200] ∧ ¬ DeliversInOrder log) ∧
    ∃ s log, (clientMachine Unit).exec (.init .init) (overlappingRun 180 200) = some (s, log) ∧
      givenCodes log 0 = [200, 180] ∧ ¬ DeliversInOrder log := by
  constructor
  · exact not_deliversInOrder_of_given (by decide) (by decide +kernel)
  · exact not_deliversInOrder_of_given (by decide) (by decide +kernel)

/-- Here the second response comes when the first one is done. -/
theorem delivers_in_order_of_apart_ringing : ∃ s log,
    (clientMachine Unit).exec (.init .init) (twoResponses 180 200 ++
      List.replicate 5 (.run 1 none) ++ List.replicate 6 (.run 2 none)) = some (s, log) ∧
      givenCodes log 0 = [180, 200] ∧ DeliversInOrder log := by
  have hsummary : ((clientMachine Unit).exec (.init .init) (twoResponses 180 200 ++
      List.replicate 5 (.run 1 none) ++ List.replicate 6 (.run 2 none))).map
        (fun result => decide (givenCodes result.2 0 = [180, 200])) = some true := by
    decide +kernel
  obtain ⟨⟨s, log⟩, hrun, hgiven⟩ := Option.map_eq_some_iff.mp hsummary
  exact ⟨s, log, hrun, of_decide_eq_true hgiven,
    delivers_in_order_of_apart hrun (by decide +kernel)⟩

end SimIms.Sip
