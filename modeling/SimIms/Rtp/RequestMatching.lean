import Mathlib.Data.List.Perm.Basic
import SimIms.Rtp.ReceiverLoop

/-!
# Which response a command gets

A request is in one place at a time: in the table, with the receiver loop, with the destructor, or
completed. It is registered under the cookie of its call, and the loop completes it with a response
to this cookie that was read after that, or that it had in its hands just then. Nothing stops
somebody from guessing a cookie.
-/

namespace SimIms.Rtp

open Cxx Lib

/-! ## Responses -/

/-- The response of rtpengine to this cookie. -/
def ResponseTo (rtpengineEp : UdpEndpoint) (datagram : Datagram) (cookie : Bytes)
    (dict : BencodeDict) : Prop :=
  datagram.sender = rtpengineEp ∧
    ∃ fuel, parseResponsePayload datagram.data fuel = some (.ok (cookie, dict))

/-- The datagram has been read, and the loop is not through with it. -/
def InHand (history : List ClientEvent) (datagram : Datagram) : Prop :=
  ∃ earlier later, history = earlier ++ .received datagram :: later ∧ .handled ∉ later

/-- The request has been registered, and the dictionary is that of a response to its cookie that
was read after that or was in the hands of the loop just then. -/
def Answered (rtpengineEp : UdpEndpoint) (history : List ClientEvent) (cookie : Bytes)
    (request : Nat) (dict : BencodeDict) : Prop :=
  ∃ before after datagram, history = before ++ .registered cookie request :: after ∧
    ResponseTo rtpengineEp datagram cookie dict ∧
    (.received datagram ∈ after ∨ InHand before datagram)

section

variable {rtpengineEp : UdpEndpoint} {history : List ClientEvent} {cookie : Bytes} {request : Nat}
variable {dict : BencodeDict} {datagram : Datagram}

theorem Answered.append (h : Answered rtpengineEp history cookie request dict)
    (more : List ClientEvent) : Answered rtpengineEp (history ++ more) cookie request dict := by
  obtain ⟨before, after, datagram, rfl, hresponse, hread⟩ := h
  refine ⟨before, after ++ more, datagram, List.append_assoc _ _ _, hresponse, ?_⟩
  exact hread.imp_left fun hmem => List.mem_append_left _ hmem

theorem InHand.append (h : InHand history datagram) {event : ClientEvent}
    (hne : event ≠ .handled) : InHand (history ++ [event]) datagram := by
  obtain ⟨earlier, later, rfl, hlater⟩ := h
  refine ⟨earlier, later ++ [event], List.append_assoc _ _ _, fun hmem => ?_⟩
  obtain hmem | hmem := List.mem_append.mp hmem
  · exact hlater hmem
  · exact hne (List.mem_singleton.mp hmem).symm

/-- What is in hand answers every request that is registered by now. -/
theorem InHand.answers (h : InHand history datagram)
    (hregistered : .registered cookie request ∈ history)
    (hresponse : ResponseTo rtpengineEp datagram cookie dict) :
    Answered rtpengineEp history cookie request dict := by
  obtain ⟨earlier, later, rfl, hlater⟩ := h
  obtain hmem | hmem := List.mem_append.mp hregistered
  · obtain ⟨before, after, rfl⟩ := List.append_of_mem hmem
    refine ⟨before, after ++ .received datagram :: later, datagram, List.append_assoc _ _ _,
      hresponse, .inl ?_⟩
    exact List.mem_append_right _ List.mem_cons_self
  · obtain heq | hmem := List.mem_cons.mp hmem
    · cases heq
    · obtain ⟨before, after, rfl⟩ := List.append_of_mem hmem
      refine ⟨earlier ++ .received datagram :: before, after, datagram, ?_, hresponse,
        .inr ⟨earlier, before, rfl, fun hin => hlater (List.mem_append_left _ hin)⟩⟩
      rw [List.append_assoc]
      rfl

end

/-! ## Where requests are -/

def Receiver.holding : Receiver → List Nat
  | .completing request _ => [request]
  | .failingAll _ requests => requests
  | _ => []

def Destructor.holding : Destructor → List Nat
  | .failingAll requests => requests
  | _ => []

/-- The requests that have been registered and neither completed nor withdrawn. -/
def Client.inFlight (s : Client) : List Nat :=
  s.pendingRequests.values ++ (s.receiver.holding ++ s.destructor.holding)

def ClientEvent.completion : ClientEvent → Option Nat
  | .completed request => some request
  | _ => none

/-- What has been completed, in this order. -/
def completions (history : List ClientEvent) : List Nat :=
  history.filterMap ClientEvent.completion

/-- What the loop has in its hands. -/
def Receiver.Holds (rtpengineEp : UdpEndpoint) (history : List ClientEvent) : Receiver → Prop
  | .received datagram => InHand history datagram
  | .completing request dict =>
      ∃ cookie, Answered rtpengineEp history cookie request dict
  | _ => True

def PendingRequest.Completed (pending : PendingRequest) (result : Result BencodeDict) : Prop :=
  pending.completed = true ∧ pending.result = result

/-- The numbers that have been drawn are different, cookies belong to one request each, and requests
are in one place each. -/
structure Client.Keeps (rtpengineEp : UdpEndpoint) (s : Client) (log : List (Nat × Nat)) :
    Prop where
  drawn : (log.map Prod.snd).Nodup
  counted : ∀ event ∈ log, event.2 ≤ s.cookieCounter
  numbered : ∀ cookie request, .registered cookie request ∈ s.history →
    ∃ number ≤ s.cookieCounter, cookie = decimal number
  allocated : ∀ cookie request, .registered cookie request ∈ s.history →
    request < s.requests.length
  owned : ∀ cookie cookie' request, .registered cookie request ∈ s.history →
    .registered cookie' request ∈ s.history → cookie = cookie'
  pending : ∀ cookie request, s.pendingRequests.find cookie = some request →
    .registered cookie request ∈ s.history
  distinct : s.inFlight.Nodup
  incomplete : ∀ request ∈ s.inFlight, ∃ pending, s.requests[request]? = some pending ∧
    pending.completed = false
  once : (completions s.history).Nodup
  completed : ∀ request ∈ completions s.history, ∃ pending, s.requests[request]? = some pending ∧
    pending.completed = true
  answers : ∀ request pending dict, s.requests[request]? = some pending →
    pending.Completed (.ok dict) → ∃ cookie, Answered rtpengineEp s.history cookie request dict
  receiver : s.receiver.Holds rtpengineEp s.history

theorem Receiver.Holds.append {rtpengineEp : UdpEndpoint} {history : List ClientEvent}
    {receiver : Receiver} (h : receiver.Holds rtpengineEp history) {event : ClientEvent}
    (hne : event ≠ .handled) : receiver.Holds rtpengineEp (history ++ [event]) := by
  cases receiver with
  | received datagram => exact InHand.append h hne
  | completing request dict =>
      obtain ⟨cookie, hanswered⟩ := h
      exact ⟨cookie, hanswered.append _⟩
  | absent | looping | receiving | receiveFailed | failing | failingAll | exited => trivial

theorem Answered.registered {rtpengineEp : UdpEndpoint} {history : List ClientEvent}
    {cookie : Bytes} {request : Nat} {dict : BencodeDict}
    (h : Answered rtpengineEp history cookie request dict) :
    .registered cookie request ∈ history := by
  obtain ⟨before, after, datagram, rfl, -⟩ := h
  exact List.mem_append_right _ List.mem_cons_self

/-! ## Steps -/

/-- Events that are about no request. -/
def ClientEvent.IsQuiet : ClientEvent → Prop
  | .received _ | .handled | .receiveFailed => True
  | .registered _ _ | .completed _ => False

/-- A step that registers and completes nothing. -/
structure Client.Shrinks (s t : Client) (events : List ClientEvent) : Prop where
  cookieCounter : t.cookieCounter = s.cookieCounter
  requests : t.requests = s.requests
  history : t.history = s.history ++ events
  quiet : ∀ event ∈ events, event.IsQuiet
  pending : ∀ cookie request, t.pendingRequests.find cookie = some request →
    s.pendingRequests.find cookie = some request
  inFlight : t.inFlight.Subperm s.inFlight

/-- A step that completes a request which somebody has in hand. -/
structure Client.Completes (s t : Client) (request : Nat) (result : Result BencodeDict) : Prop where
  cookieCounter : t.cookieCounter = s.cookieCounter
  requests : t.requests = s.requests.set request { completed := true, result }
  history : t.history = s.history ++ [.completed request]
  pendingRequests : t.pendingRequests = s.pendingRequests
  inFlight : s.inFlight.Perm (request :: t.inFlight)

/-- What a step leaves as it is for the owner of a cookie. -/
structure Client.Frames (s t : Client) (cookie : Bytes) : Prop where
  registered : ∀ request, .registered cookie request ∈ t.history ↔
    .registered cookie request ∈ s.history
  pending : s.pendingRequests.find cookie = none → t.pendingRequests.find cookie = none
  requests : ∀ (request : Nat) (pending : PendingRequest), s.requests[request]? = some pending →
    pending.completed = true → t.requests[request]? = some pending

namespace Client

variable {rtpengineEp : UdpEndpoint} {s t : Client} {log : List (Nat × Nat)}
variable {events : List ClientEvent} {request : Nat} {result : Result BencodeDict}

namespace Shrinks

variable (h : s.Shrinks t events)

include h

theorem registered_iff (cookie : Bytes) (request : Nat) :
    .registered cookie request ∈ t.history ↔ .registered cookie request ∈ s.history := by
  rw [h.history, List.mem_append, or_iff_left]
  exact fun hmem => h.quiet _ hmem

theorem completions_eq : completions t.history = completions s.history := by
  have hnone : completions events = [] := by
    rw [completions, List.filterMap_eq_nil_iff]
    intro event hmem
    have hquiet := h.quiet event hmem
    cases event with
    | received | handled | receiveFailed | registered => rfl
    | completed request => exact hquiet.elim
  rw [h.history, completions, List.filterMap_append, ← completions, ← completions, hnone,
    List.append_nil]

theorem frames (cookie : Bytes) : s.Frames t cookie where
  registered := h.registered_iff cookie
  pending hnone := by
    rw [Option.eq_none_iff_forall_ne_some]
    intro request hfind
    rw [h.pending cookie request hfind] at hnone
    cases hnone
  requests request pending hget _ := by
    rw [h.requests]
    exact hget

theorem keeps (hkeeps : s.Keeps rtpengineEp log)
    (hreceiver : t.receiver.Holds rtpengineEp t.history) : t.Keeps rtpengineEp log where
  drawn := hkeeps.drawn
  counted event hmem := by
    rw [h.cookieCounter]
    exact hkeeps.counted event hmem
  numbered cookie request hmem := by
    rw [h.cookieCounter]
    exact hkeeps.numbered cookie request ((h.registered_iff _ _).mp hmem)
  allocated cookie request hmem := by
    rw [h.requests]
    exact hkeeps.allocated cookie request ((h.registered_iff _ _).mp hmem)
  owned cookie cookie' request hmem hmem' :=
    hkeeps.owned cookie cookie' request ((h.registered_iff _ _).mp hmem)
      ((h.registered_iff _ _).mp hmem')
  pending cookie request hfind :=
    (h.registered_iff _ _).mpr (hkeeps.pending cookie request (h.pending cookie request hfind))
  distinct := by
    obtain ⟨part, hperm, hsublist⟩ := h.inFlight
    exact hperm.nodup_iff.mp (hkeeps.distinct.sublist hsublist)
  incomplete request hmem := by
    rw [h.requests]
    exact hkeeps.incomplete request (h.inFlight.subset hmem)
  once := by
    rw [h.completions_eq]
    exact hkeeps.once
  completed request hmem := by
    rw [h.completions_eq] at hmem
    rw [h.requests]
    exact hkeeps.completed request hmem
  answers request pending dict hget hcompleted := by
    rw [h.requests] at hget
    obtain ⟨cookie, hanswered⟩ := hkeeps.answers request pending dict hget hcompleted
    rw [h.history]
    exact ⟨cookie, hanswered.append events⟩
  receiver := hreceiver

end Shrinks

namespace Completes

variable (h : s.Completes t request result)

include h

theorem mem_inFlight : request ∈ s.inFlight := h.inFlight.symm.subset List.mem_cons_self

theorem registered_iff (cookie : Bytes) (other : Nat) :
    .registered cookie other ∈ t.history ↔ .registered cookie other ∈ s.history := by
  rw [h.history, List.mem_append, or_iff_left]
  exact fun hmem => by cases List.mem_singleton.mp hmem

/-- Other requests are as they were. -/
theorem requests_of_ne {other : Nat} (hne : other ≠ request) :
    t.requests[other]? = s.requests[other]? := by
  rw [h.requests, List.getElem?_set_ne hne.symm]

theorem requests_self (hkeeps : s.Keeps rtpengineEp log) :
    t.requests[request]? = some { completed := true, result } := by
  obtain ⟨pending, hget, -⟩ := hkeeps.incomplete request h.mem_inFlight
  rw [h.requests, List.getElem?_set_self (List.getElem?_eq_some_iff.mp hget).1]

theorem frames (hkeeps : s.Keeps rtpengineEp log) (cookie : Bytes) : s.Frames t cookie where
  registered := h.registered_iff cookie
  pending hnone := by
    rw [h.pendingRequests]
    exact hnone
  requests other pending hget hcompleted := by
    rw [h.requests_of_ne, hget]
    rintro rfl
    obtain ⟨pending', hget', hincomplete⟩ := hkeeps.incomplete _ h.mem_inFlight
    rw [hget'] at hget
    cases hget
    rw [hcompleted] at hincomplete
    cases hincomplete

theorem completions_eq : completions t.history = completions s.history ++ [request] := by
  rw [h.history, completions, List.filterMap_append]
  rfl

theorem keeps (hkeeps : s.Keeps rtpengineEp log)
    (hresult : ∀ dict, result = .ok dict →
      ∃ cookie, Answered rtpengineEp s.history cookie request dict)
    (hreceiver : t.receiver.Holds rtpengineEp t.history) : t.Keeps rtpengineEp log := by
  have hframes := h.frames hkeeps []
  have hdistinct : (request :: t.inFlight).Nodup := h.inFlight.nodup_iff.mp hkeeps.distinct
  have hne : ∀ other ∈ t.inFlight, other ≠ request := by
    rintro other hmem rfl
    exact (List.nodup_cons.mp hdistinct).1 hmem
  have hfresh : request ∉ completions s.history := by
    intro hmem
    obtain ⟨pending, hget, hcompleted⟩ := hkeeps.completed request hmem
    obtain ⟨pending', hget', hincomplete⟩ := hkeeps.incomplete request h.mem_inFlight
    rw [hget] at hget'
    cases hget'
    rw [hcompleted] at hincomplete
    cases hincomplete
  refine ⟨hkeeps.drawn, ?_, ?_, ?_, ?_, ?_, (List.nodup_cons.mp hdistinct).2, ?_, ?_, ?_, ?_,
    hreceiver⟩
  · rw [h.cookieCounter]
    exact hkeeps.counted
  · intro cookie other hmem
    rw [h.cookieCounter]
    exact hkeeps.numbered cookie other ((h.registered_iff _ _).mp hmem)
  · intro cookie other hmem
    rw [h.requests, List.length_set]
    exact hkeeps.allocated cookie other ((h.registered_iff _ _).mp hmem)
  · intro cookie cookie' other hmem hmem'
    exact hkeeps.owned cookie cookie' other ((h.registered_iff _ _).mp hmem)
      ((h.registered_iff _ _).mp hmem')
  · intro cookie other hfind
    rw [h.pendingRequests] at hfind
    exact (h.registered_iff _ _).mpr (hkeeps.pending cookie other hfind)
  · intro other hmem
    rw [h.requests_of_ne (hne other hmem)]
    exact hkeeps.incomplete other (h.inFlight.symm.subset (List.mem_cons_of_mem _ hmem))
  · rw [h.completions_eq, List.nodup_append]
    refine ⟨hkeeps.once, List.nodup_singleton _, ?_⟩
    intro other hmem other' hmem' heq
    rw [heq, List.mem_singleton.mp hmem'] at hmem
    exact hfresh hmem
  · intro other hmem
    rw [h.completions_eq] at hmem
    obtain hmem | hmem := List.mem_append.mp hmem
    · obtain ⟨pending, hget, hcompleted⟩ := hkeeps.completed other hmem
      exact ⟨pending, hframes.requests other pending hget hcompleted, hcompleted⟩
    · rw [List.mem_singleton.mp hmem]
      exact ⟨_, h.requests_self hkeeps, rfl⟩
  · intro other pending dict hget hcompleted
    rw [h.history]
    by_cases heq : other = request
    · subst heq
      rw [h.requests_self hkeeps] at hget
      cases hget
      obtain ⟨cookie, hanswered⟩ := hresult dict hcompleted.2
      exact ⟨cookie, hanswered.append _⟩
    · rw [h.requests_of_ne heq] at hget
      obtain ⟨cookie, hanswered⟩ := hkeeps.answers other pending dict hget hcompleted
      exact ⟨cookie, hanswered.append _⟩

end Completes

/-- A step keeps what is kept, and is noticed by nobody else. -/
def Carries (rtpengineEp : UdpEndpoint) (log : List (Nat × Nat)) (s t : Client) : Prop :=
  t.Keeps rtpengineEp log ∧ ∀ cookie, s.Frames t cookie

theorem Carries.refl (hkeeps : s.Keeps rtpengineEp log) : Carries rtpengineEp log s s :=
  ⟨hkeeps, fun _ => ⟨fun _ => Iff.rfl, fun hnone => hnone, fun _ _ hget _ => hget⟩⟩

theorem Shrinks.carries (h : s.Shrinks t events) (hkeeps : s.Keeps rtpengineEp log)
    (hreceiver : t.receiver.Holds rtpengineEp t.history) : Carries rtpengineEp log s t :=
  ⟨h.keeps hkeeps hreceiver, h.frames⟩

theorem Completes.carries (request : Nat) (result : Result BencodeDict)
    (h : s.Completes t request result) (hkeeps : s.Keeps rtpengineEp log)
    (hresult : ∀ dict, result = .ok dict →
      ∃ cookie, Answered rtpengineEp s.history cookie request dict)
    (hreceiver : t.receiver.Holds rtpengineEp t.history) : Carries rtpengineEp log s t :=
  ⟨h.keeps hkeeps hresult hreceiver, h.frames hkeeps⟩

/-- A step of the loop that has nothing in its hands before and after. -/
theorem shrinks_of_loop {receiver : Receiver} (hquiet : ∀ event ∈ events, event.IsQuiet)
    (hempty : receiver.holding = []) :
    s.Shrinks { s with receiver := receiver, history := s.history ++ events } events where
  cookieCounter := rfl
  requests := rfl
  history := rfl
  quiet := hquiet
  pending _ _ hfind := hfind
  inFlight := by
    rw [inFlight, inFlight, hempty]
    exact (((List.nil_sublist _).append_right _).append_left _).subperm

/-- A step that is about no request says nothing of one. -/
theorem Shrinks.silent (hcounter : t.cookieCounter = s.cookieCounter)
    (hrequests : t.requests = s.requests) (hhistory : t.history = s.history)
    (hpending : ∀ cookie request, t.pendingRequests.find cookie = some request →
      s.pendingRequests.find cookie = some request) (hinFlight : t.inFlight.Subperm s.inFlight) :
    s.Shrinks t [] :=
  ⟨hcounter, hrequests, hhistory.trans (List.append_nil _).symm,
    fun _ hmem => (List.not_mem_nil hmem).elim, hpending, hinFlight⟩

theorem isQuiet_singleton (event : ClientEvent) (h : event.IsQuiet) :
    ∀ other ∈ [event], other.IsQuiet := by
  intro other hmem
  rw [List.mem_singleton.mp hmem]
  exact h

/-! ### The receiver loop -/

theorem takePending_carries (hkeeps : s.Keeps rtpengineEp log) {datagram : Datagram}
    (hreceived : s.receiver = .received datagram) {cookie : Bytes} {dict : BencodeDict}
    (hresponse : ResponseTo rtpengineEp datagram cookie dict) :
    Carries rtpengineEp log s (s.takePending cookie dict) := by
  have hinHand : InHand s.history datagram := by
    have hholds := hkeeps.receiver
    rw [hreceived] at hholds
    exact hholds
  rw [takePending]
  cases hfind : s.pendingRequests.find cookie with
  | none => exact (shrinks_of_loop (isQuiet_singleton .handled trivial) rfl).carries hkeeps trivial
  | some request =>
      have hanswered : Answered rtpengineEp (s.history ++ [.handled]) cookie request dict :=
        (hinHand.answers (hkeeps.pending cookie request hfind) hresponse).append _
      have hshrinks : s.Shrinks
          { s with
            pendingRequests := s.pendingRequests.erase cookie
            receiver := .completing request dict
            history := s.history ++ [.handled] } [.handled] := by
        refine ⟨rfl, rfl, rfl, isQuiet_singleton .handled trivial, ?_, ?_⟩
        · exact fun _ _ hother => (Table.find_of_find_erase hother).2
        · have hperm := Table.values_perm hfind
          rw [inFlight, inFlight, hreceived]
          exact (List.perm_middle.trans (hperm.symm.append_right s.destructor.holding)).subperm
      exact hshrinks.carries hkeeps ⟨cookie, hanswered⟩

theorem handle_carries (hkeeps : s.Keeps rtpengineEp log) {datagram : Datagram} {fuel : Nat}
    (hreceived : s.receiver = .received datagram)
    (hhandle : s.handle rtpengineEp datagram fuel = some t) : Carries rtpengineEp log s t := by
  rw [handle] at hhandle
  split at hhandle
  · cases hhandle
    exact (shrinks_of_loop (isQuiet_singleton .handled trivial) rfl).carries hkeeps trivial
  · rename_i hsender
    split at hhandle
    · cases hhandle
    · cases hhandle
      exact (shrinks_of_loop (isQuiet_singleton .handled trivial) rfl).carries hkeeps trivial
    · rename_i cookie dict hparse
      cases hhandle
      exact takePending_carries hkeeps hreceived ⟨not_not.mp hsender, fuel, hparse⟩

/-- One of the requests in hand is completed. -/
theorem perm_eraseIdx {requests : List Nat} {i : Nat} (hget : requests[i]? = some request)
    (before after : List Nat) :
    (before ++ (requests ++ after)).Perm
      (request :: (before ++ (requests.eraseIdx i ++ after))) := by
  obtain ⟨hlt, rfl⟩ := List.getElem?_eq_some_iff.mp hget
  have hperm : requests.Perm (requests[i] :: requests.eraseIdx i) :=
    (List.getElem_cons_eraseIdx_perm hlt).symm
  exact ((hperm.append_right after).append_left before).trans List.perm_middle

theorem receiverStep_carries (hkeeps : s.Keeps rtpengineEp log) {label : ReceiverLabel}
    (hstep : s.receiverStep rtpengineEp label = some t) : Carries rtpengineEp log s t := by
  cases label with
  | datagram datagram =>
      rw [receiverStep] at hstep
      split at hstep
      · cases hstep
        exact (shrinks_of_loop (isQuiet_singleton (.received datagram) trivial) rfl).carries hkeeps
          ⟨s.history, [], rfl, List.not_mem_nil⟩
      · cases hstep
  | error error =>
      rw [receiverStep] at hstep
      split at hstep
      · cases hstep
        exact (shrinks_of_loop (isQuiet_singleton .receiveFailed trivial) rfl).carries hkeeps
          trivial
      · cases hstep
  | proceed fuel choice =>
      have hsilent : ∀ receiver : Receiver, receiver.holding = [] →
          receiver.Holds rtpengineEp s.history →
          Carries rtpengineEp log s { s with receiver } := by
        intro receiver hempty hholds
        refine Shrinks.carries (Shrinks.silent rfl rfl rfl (fun _ _ hfind => hfind) ?_) hkeeps
          hholds
        rw [inFlight, inFlight, hempty]
        exact (((List.nil_sublist _).append_right _).append_left _).subperm
      rw [receiverStep] at hstep
      have hholds := hkeeps.receiver
      cases hreceiver : s.receiver with
      | absent | receiving | exited =>
          simp only [hreceiver] at hstep
          cases hstep
      | looping =>
          simp only [hreceiver] at hstep
          cases hstep
          split
          · exact hsilent .exited rfl trivial
          · exact hsilent .receiving rfl trivial
      | received datagram =>
          simp only [hreceiver] at hstep
          exact handle_carries hkeeps hreceiver hstep
      | completing request dict =>
          simp only [hreceiver] at hstep
          cases hstep
          rw [hreceiver] at hholds
          refine Completes.carries request (.ok dict) ⟨rfl, rfl, rfl, rfl, ?_⟩ hkeeps
            (fun _ heq => by cases heq; exact hholds) trivial
          rw [inFlight, hreceiver]
          exact List.perm_middle
      | receiveFailed error =>
          simp only [hreceiver] at hstep
          cases hstep
          split
          · exact hsilent .exited rfl trivial
          · exact hsilent (.failing _) rfl trivial
      | failing error =>
          simp only [hreceiver] at hstep
          cases hstep
          refine Shrinks.carries (Shrinks.silent rfl rfl rfl ?_ ?_) hkeeps trivial
          · exact fun _ _ hfind => by cases hfind
          · rw [inFlight, inFlight, hreceiver]
            exact List.Subperm.refl _
      | failingAll error requests =>
          simp only [hreceiver] at hstep
          split at hstep
          · cases hstep
            exact hsilent .exited rfl trivial
          · rename_i request hget
            cases hstep
            refine Completes.carries request (.error error) ⟨rfl, rfl, rfl, rfl, ?_⟩ hkeeps
              (fun _ heq => by cases heq) trivial
            rw [inFlight, hreceiver]
            exact perm_eraseIdx hget _ _

/-! ### The destructor -/

theorem destructorStep_carries (hkeeps : s.Keeps rtpengineEp log) {choice : Nat}
    (hstep : s.destructorStep choice = some t) : Carries rtpengineEp log s t := by
  have hsilent : ∀ (shuttingDown : Bool) (destructor : Destructor), destructor.holding = [] →
      Carries rtpengineEp log s { s with shuttingDown, destructor } := by
    intro shuttingDown destructor hempty
    refine Shrinks.carries (Shrinks.silent rfl rfl rfl (fun _ _ hfind => hfind) ?_) hkeeps
      hkeeps.receiver
    rw [inFlight, inFlight, hempty]
    exact (((List.nil_sublist _).append_left _).append_left _).subperm
  rw [destructorStep] at hstep
  cases hdestructor : s.destructor with
  | idle =>
      simp only [hdestructor] at hstep
      cases hstep
      exact hsilent true .closing rfl
  | closing =>
      simp only [hdestructor] at hstep
      cases hstep
      exact hsilent s.shuttingDown .failing rfl
  | failing =>
      simp only [hdestructor] at hstep
      cases hstep
      refine Shrinks.carries (Shrinks.silent rfl rfl rfl ?_ ?_) hkeeps hkeeps.receiver
      · exact fun _ _ hfind => by cases hfind
      · rw [inFlight, inFlight, hdestructor]
        change (s.receiver.holding ++ s.pendingRequests.values).Subperm
          (s.pendingRequests.values ++ (s.receiver.holding ++ []))
        rw [List.append_nil]
        exact List.perm_append_comm.subperm
  | failingAll requests =>
      simp only [hdestructor] at hstep
      split at hstep
      · cases hstep
        exact hsilent s.shuttingDown .joining rfl
      · rename_i request hget
        cases hstep
        refine Completes.carries request (.error shutdownError) ⟨rfl, rfl, rfl, rfl, ?_⟩ hkeeps
          (fun _ heq => by cases heq)
          (hkeeps.receiver.append (fun heq => by cases heq))
        rw [inFlight, hdestructor]
        have hperm := perm_eraseIdx hget (s.pendingRequests.values ++ s.receiver.holding) []
        rw [List.append_nil, List.append_nil, List.append_assoc, List.append_assoc] at hperm
        exact hperm
  | joining =>
      simp only [hdestructor] at hstep
      split at hstep
      · cases hstep
        exact hsilent s.shuttingDown .joined rfl
      · cases hstep
        exact hsilent s.shuttingDown .joined rfl
      · cases hstep
  | joined =>
      simp only [hdestructor] at hstep
      cases hstep

end Client

/-! ## Calls -/

/-- The only request that has been registered under this cookie. -/
def Client.Owns (s : Client) (cookie : Bytes) (request : Nat) : Prop :=
  ∀ other, .registered cookie other ∈ s.history ↔ other = request

/-- What has become of the number and the request of a call. -/
def Client.Linked (s : Client) (log : List (Nat × Nat)) (id : Nat) : CallProgress → Prop
  | .fresh => eventsOf log id = []
  | .numbered number =>
      eventsOf log id = [number] ∧ ∀ request, .registered (decimal number) request ∉ s.history
  | .registered number request =>
      eventsOf log id = [number] ∧ s.Owns (decimal number) request
  | .withdrawn number =>
      eventsOf log id = [number] ∧ s.pendingRequests.find (decimal number) = none
  | .answered number request result =>
      eventsOf log id = [number] ∧ s.Owns (decimal number) request ∧
        ∃ pending, s.requests[request]? = some pending ∧ pending.Completed result

def CallProgress.Allows (progress : CallProgress) : ClientOp → Prop
  | .loadShuttingDown | .ensureReceiverRunning | .generateCookie => progress = .fresh
  | .emplace cookie => ∃ number, progress = .numbered number ∧ cookie = decimal number
  | .sendTo _ => True
  | .erase cookie =>
      ∃ number request, progress = .registered number request ∧ cookie = decimal number
  | .waitFor request => ∃ number, progress = .registered number request

def ClientOp.Expects : (op : ClientOp) → ClientAnswer op → Prop
  | .generateCookie, cookie => ∃ number, cookie = decimal number
  | _, _ => True

/-- A call returns a dictionary only if its request has been completed with it. -/
def CallProgress.Ends : CallProgress → Result BencodeDict → Prop
  | .fresh, result | .withdrawn _, result => ∀ dict, result ≠ .ok dict
  | .numbered _, _ | .registered _ _, _ => False
  | .answered _ _ result, result' => result = result'

def clientDiscipline (rtpengineEp : UdpEndpoint) :
    Discipline Client clientOps CallProgress (Result BencodeDict) Nat where
  contract := ⟨CallProgress.Allows, ClientOp.Expects, fun _ => False, CallProgress.track⟩
  assumes _ _ := True
  shared s log := s.Keeps rtpengineEp log
  linked s log id := s.Linked log id
  result := CallProgress.Ends

theorem sendCommand_meets (rtpengineEp : UdpEndpoint) (cmd : BencodeDict) :
    (sendCommand cmd).Meets (clientDiscipline rtpengineEp).contract .fresh CallProgress.Ends := by
  refine ⟨rfl, fun shuttingDown _ => ?_⟩
  cases shuttingDown with
  | true => exact fun dict heq => by cases heq
  | false =>
      refine ⟨rfl, fun started _ => ?_⟩
      cases started with
      | error error => exact fun dict heq => by cases heq
      | ok _ =>
          refine ⟨rfl, fun cookie hcookie => ?_⟩
          obtain ⟨number, rfl⟩ := hcookie
          have hvalue : decimal number = decimal (digitsValue (decimal number)) := by
            rw [digitsValue_decimal]
          refine ⟨⟨digitsValue (decimal number), rfl, hvalue⟩, fun request _ => ?_⟩
          refine ⟨trivial, fun sent _ => ?_⟩
          cases sent with
          | some message =>
              refine ⟨⟨_, request, rfl, hvalue⟩, fun _ _ => ?_⟩
              exact fun dict heq => by cases heq
          | none =>
              refine ⟨⟨_, rfl⟩, fun answer _ => ?_⟩
              cases answer with
              | none =>
                  refine ⟨⟨_, request, rfl, hvalue⟩, fun _ _ => ?_⟩
                  exact fun dict heq => by cases heq
              | some result => exact rfl

/-- A step that registers a request under a cookie that has not been used. -/
structure Client.Registers (s t : Client) (cookie : Bytes) : Prop where
  unused : ∀ request, .registered cookie request ∉ s.history
  cookieCounter : t.cookieCounter = s.cookieCounter
  requests : t.requests = s.requests ++ [({} : PendingRequest)]
  history : t.history = s.history ++ [.registered cookie s.requests.length]
  pendingRequests : t.pendingRequests = s.pendingRequests.insert cookie s.requests.length
  receiver : t.receiver = s.receiver
  destructor : t.destructor = s.destructor

namespace Client

variable {rtpengineEp : UdpEndpoint} {s t : Client} {log log' : List (Nat × Nat)} {id : Nat}

namespace Registers

variable {cookie : Bytes} (h : s.Registers t cookie)

include h

theorem mem_history_iff {other : Bytes} {request : Nat} :
    .registered other request ∈ t.history ↔ .registered other request ∈ s.history ∨
      other = cookie ∧ request = s.requests.length := by
  rw [h.history, List.mem_append, List.mem_singleton, ClientEvent.registered.injEq]

theorem requests_of_some {request : Nat} {pending : PendingRequest}
    (hget : s.requests[request]? = some pending) : t.requests[request]? = some pending := by
  rw [h.requests, List.getElem?_append_left (List.getElem?_eq_some_iff.mp hget).1]
  exact hget

theorem requests_self : t.requests[s.requests.length]? = some ({} : PendingRequest) := by
  rw [h.requests, List.getElem?_concat_length]

theorem frames {other : Bytes} (hne : other ≠ cookie) : s.Frames t other where
  registered request := by
    rw [h.mem_history_iff, or_iff_left]
    exact fun hsame => hne hsame.1
  pending hnone := by
    rw [h.pendingRequests, Table.find_insert, if_neg hne]
    exact hnone
  requests request pending hget _ := h.requests_of_some hget

theorem owns : t.Owns cookie s.requests.length := by
  intro other
  rw [h.mem_history_iff, or_iff_right (h.unused other)]
  exact and_iff_right rfl

theorem find_eq_none (hkeeps : s.Keeps rtpengineEp log) :
    s.pendingRequests.find cookie = none := by
  rw [Option.eq_none_iff_forall_ne_some]
  exact fun request hfind => h.unused request (hkeeps.pending cookie request hfind)

theorem inFlight_eq (hkeeps : s.Keeps rtpengineEp log) :
    t.inFlight = s.requests.length :: s.inFlight := by
  rw [inFlight, h.pendingRequests, Table.values_insert (h.find_eq_none hkeeps), h.receiver,
    h.destructor]
  rfl

theorem completions_eq : completions t.history = completions s.history := by
  rw [h.history, completions, List.filterMap_append]
  exact List.append_nil _

theorem keeps (hkeeps : s.Keeps rtpengineEp log) {number : Nat} (hcookie : cookie = decimal number)
    (hle : number ≤ s.cookieCounter) : t.Keeps rtpengineEp log where
  drawn := hkeeps.drawn
  counted := by
    rw [h.cookieCounter]
    exact hkeeps.counted
  numbered other request hmem := by
    rw [h.cookieCounter]
    obtain hmem | ⟨rfl, -⟩ := h.mem_history_iff.mp hmem
    · exact hkeeps.numbered other request hmem
    · exact ⟨number, hle, hcookie⟩
  allocated other request hmem := by
    rw [h.requests, List.length_append, List.length_singleton]
    obtain hmem | ⟨-, rfl⟩ := h.mem_history_iff.mp hmem
    · exact Nat.lt_succ_of_lt (hkeeps.allocated other request hmem)
    · exact Nat.lt_succ_self _
  owned other other' request hmem hmem' := by
    obtain hmem | ⟨rfl, rfl⟩ := h.mem_history_iff.mp hmem
    · obtain hmem' | ⟨-, rfl⟩ := h.mem_history_iff.mp hmem'
      · exact hkeeps.owned other other' request hmem hmem'
      · exact (Nat.lt_irrefl _ (hkeeps.allocated other _ hmem)).elim
    · obtain hmem' | ⟨rfl, -⟩ := h.mem_history_iff.mp hmem'
      · exact (Nat.lt_irrefl _ (hkeeps.allocated other' _ hmem')).elim
      · rfl
  pending other request hfind := by
    rw [h.pendingRequests, Table.find_insert] at hfind
    rw [h.mem_history_iff]
    split at hfind
    · rename_i heq
      cases hfind
      exact .inr ⟨heq, rfl⟩
    · exact .inl (hkeeps.pending other request hfind)
  distinct := by
    rw [h.inFlight_eq hkeeps, List.nodup_cons]
    refine ⟨fun hmem => ?_, hkeeps.distinct⟩
    obtain ⟨pending, hget, -⟩ := hkeeps.incomplete _ hmem
    exact Nat.lt_irrefl _ (List.getElem?_eq_some_iff.mp hget).1
  incomplete request hmem := by
    rw [h.inFlight_eq hkeeps] at hmem
    obtain rfl | hmem := List.mem_cons.mp hmem
    · exact ⟨_, h.requests_self, rfl⟩
    · obtain ⟨pending, hget, hincomplete⟩ := hkeeps.incomplete request hmem
      exact ⟨pending, h.requests_of_some hget, hincomplete⟩
  once := by
    rw [h.completions_eq]
    exact hkeeps.once
  completed request hmem := by
    rw [h.completions_eq] at hmem
    obtain ⟨pending, hget, hcompleted⟩ := hkeeps.completed request hmem
    exact ⟨pending, h.requests_of_some hget, hcompleted⟩
  answers request pending dict hget hcompleted := by
    rw [h.history]
    obtain hlt | hge := Nat.lt_or_ge request s.requests.length
    · rw [h.requests, List.getElem?_append_left hlt] at hget
      obtain ⟨other, hanswered⟩ := hkeeps.answers request pending dict hget hcompleted
      exact ⟨other, hanswered.append _⟩
    · have hlt := (List.getElem?_eq_some_iff.mp hget).1
      rw [h.requests, List.length_append, List.length_singleton] at hlt
      rw [Nat.le_antisymm (Nat.le_of_lt_succ hlt) hge, h.requests_self] at hget
      cases hget
      cases hcompleted.1
  receiver := by
    rw [h.receiver, h.history]
    exact hkeeps.receiver.append fun heq => by cases heq

end Registers

/-- What is linked stays so if no step is taken with its cookie. -/
theorem Linked.frames {progress : CallProgress} (h : s.Linked log id progress)
    (heq : eventsOf log' id = eventsOf log id)
    (hframes : ∀ number ∈ eventsOf log id, s.Frames t (decimal number)) :
    t.Linked log' id progress := by
  have hframe : ∀ {number : Nat}, eventsOf log id = [number] → s.Frames t (decimal number) := by
    intro number hlog
    refine hframes number ?_
    rw [hlog]
    exact List.mem_singleton_self number
  have howns : ∀ {number request : Nat}, eventsOf log id = [number] →
      s.Owns (decimal number) request → t.Owns (decimal number) request :=
    fun hlog howns other => ((hframe hlog).registered other).trans (howns other)
  cases progress with
  | fresh => exact heq.trans h
  | numbered number =>
      obtain ⟨hlog, hfree⟩ := h
      exact ⟨heq.trans hlog,
        fun request hmem => hfree request (((hframe hlog).registered request).mp hmem)⟩
  | registered number request =>
      obtain ⟨hlog, hown⟩ := h
      exact ⟨heq.trans hlog, howns hlog hown⟩
  | withdrawn number =>
      obtain ⟨hlog, hnone⟩ := h
      exact ⟨heq.trans hlog, (hframe hlog).pending hnone⟩
  | answered number request result =>
      obtain ⟨hlog, hown, pending, hget, hcompleted⟩ := h
      exact ⟨heq.trans hlog, howns hlog hown, pending,
        (hframe hlog).requests request pending hget hcompleted.1, hcompleted⟩

/-- What the steps in the background leave linked. -/
theorem Carries.linked (h : Carries rtpengineEp log s t) (id : Nat) (progress : CallProgress)
    (hlinked : s.Linked log id progress) : t.Linked log id progress :=
  hlinked.frames rfl fun number _ => h.2 (decimal number)

theorem decimal_injective : Function.Injective decimal :=
  Function.LeftInverse.injective digitsValue_decimal

/-- Calls draw different numbers. -/
theorem Keeps.decimal_ne (hkeeps : s.Keeps rtpengineEp log) {other number : Nat}
    (hlog : eventsOf log id = [number]) (hne : other ≠ id) :
    ∀ number' ∈ eventsOf log other, decimal number' ≠ decimal number := by
  intro number' hmem heq
  have hown : (id, number) ∈ log := by
    rw [← mem_eventsOf, hlog]
    exact List.mem_singleton_self number
  have hsame : ((other, number') : Nat × Nat) = (id, number) :=
    List.inj_on_of_nodup_map hkeeps.drawn (mem_eventsOf.mp hmem) hown (decimal_injective heq)
  exact hne (congrArg Prod.fst hsame)

theorem ensureReceiverRunning_carries (hkeeps : s.Keeps rtpengineEp log)
    (threadError : Option Bytes) :
    Carries rtpengineEp log s (s.ensureReceiverRunning threadError).1 := by
  have hself := Carries.refl hkeeps
  obtain ⟨-, heq⟩ | ⟨-, ⟨error, heq⟩ | heq⟩ := s.ensureReceiverRunning_cases threadError
  · rw [heq]
    exact hself
  · rw [heq]
    exact hself
  · rw [heq]
    have hshrinks : s.Shrinks { s with receiver := .looping, history := s.history ++ [] } [] :=
      shrinks_of_loop (fun _ hmem => (List.not_mem_nil hmem).elim) rfl
    rw [List.append_nil] at hshrinks
    exact hshrinks.carries hkeeps trivial

theorem generateCookie_keeps (hkeeps : s.Keeps rtpengineEp log) (id : Nat) :
    Keeps rtpengineEp { s with cookieCounter := s.cookieCounter + 1 }
      (log ++ [(id, s.cookieCounter + 1)]) where
  drawn := by
    rw [List.map_append, List.nodup_append]
    refine ⟨hkeeps.drawn, List.nodup_singleton _, ?_⟩
    rintro number hmem other hother rfl
    obtain ⟨event, hevent, rfl⟩ := List.mem_map.mp hmem
    have hle := hkeeps.counted event hevent
    rw [List.mem_singleton.mp hother] at hle
    exact Nat.not_succ_le_self _ hle
  counted event hmem := by
    obtain hmem | hmem := List.mem_append.mp hmem
    · exact Nat.le_succ_of_le (hkeeps.counted event hmem)
    · rw [List.mem_singleton.mp hmem]
  numbered cookie request hmem := by
    obtain ⟨number, hle, heq⟩ := hkeeps.numbered cookie request hmem
    exact ⟨number, Nat.le_succ_of_le hle, heq⟩
  allocated := hkeeps.allocated
  owned := hkeeps.owned
  pending := hkeeps.pending
  distinct := hkeeps.distinct
  incomplete := hkeeps.incomplete
  once := hkeeps.once
  completed := hkeeps.completed
  answers := hkeeps.answers
  receiver := hkeeps.receiver

theorem registers_of_emplace (hkeeps : s.Keeps rtpengineEp log) {cookie : Bytes}
    (hunused : ∀ request, .registered cookie request ∉ s.history) {environment : ClientEnvironment}
    {request : Nat} {out : List Nat}
    (hserve : s.serve (.emplace cookie) environment = some (t, request, out)) :
    s.Registers t cookie ∧ request = s.requests.length ∧ out = [] := by
  have hnone : s.pendingRequests.find cookie = none := by
    rw [Option.eq_none_iff_forall_ne_some]
    exact fun request hfind => hunused request (hkeeps.pending cookie request hfind)
  rw [serve, if_neg (by rw [Table.contains_eq_false_iff.mpr hnone]; exact Bool.false_ne_true)]
    at hserve
  cases hserve
  exact ⟨⟨hunused, rfl, rfl, rfl, rfl, rfl, rfl⟩, rfl, rfl⟩

theorem erase_carries (hkeeps : s.Keeps rtpengineEp log) (cookie : Bytes) :
    Carries rtpengineEp log s
      { s with pendingRequests := s.pendingRequests.erase cookie } := by
  refine Shrinks.carries (Shrinks.silent rfl rfl rfl ?_ ?_) hkeeps hkeeps.receiver
  · exact fun _ _ hfind => (Table.find_of_find_erase hfind).2
  · exact ((Table.values_erase_sublist s.pendingRequests cookie).append_right _).subperm

theorem init_keeps (rtpengineEp : UdpEndpoint) : Client.init.Keeps rtpengineEp [] where
  drawn := List.nodup_nil
  counted _ hmem := (List.not_mem_nil hmem).elim
  numbered _ _ hmem := (List.not_mem_nil hmem).elim
  allocated _ _ hmem := (List.not_mem_nil hmem).elim
  owned _ _ _ hmem := (List.not_mem_nil hmem).elim
  pending _ _ hfind := by cases hfind
  distinct := List.nodup_nil
  incomplete _ hmem := (List.not_mem_nil hmem).elim
  once := List.nodup_nil
  completed _ hmem := (List.not_mem_nil hmem).elim
  answers _ _ _ hget := by cases hget
  receiver := trivial

end Client

/-- What a step of a call does for the discipline. -/
def Served (rtpengineEp : UdpEndpoint) (log : List (Nat × Nat)) (t : Client) (id : Nat)
    (progress : CallProgress) (s : Client) (out : List Nat) : Prop :=
  t.Keeps rtpengineEp (log ++ out.map (id, ·)) ∧ t.Linked (log ++ out.map (id, ·)) id progress ∧
    ∀ other progress', other ≠ id → s.Linked log other progress' →
      t.Linked (log ++ out.map (id, ·)) other progress'

section

open Client

variable {rtpengineEp : UdpEndpoint} {s t : Client} {log : List (Nat × Nat)} {id : Nat}
variable {progress : CallProgress} {out : List Nat} {environment : ClientEnvironment}

theorem Client.Carries.served (h : Carries rtpengineEp log s t)
    (hlinked : t.Linked log id progress) :
    Served rtpengineEp log t id progress s [] := by
  rw [Served, List.map_nil, List.append_nil]
  exact ⟨h.1, hlinked, fun other progress' _ => h.linked other progress'⟩

theorem generateCookie_serves (hkeeps : s.Keeps rtpengineEp log)
    (hlinked : s.Linked log id .fresh) :
    Served rtpengineEp log { s with cookieCounter := s.cookieCounter + 1 } id
      (.numbered (s.cookieCounter + 1)) s [s.cookieCounter + 1] := by
  refine ⟨generateCookie_keeps hkeeps id, ⟨?_, fun request hmem => ?_⟩,
    fun other progress' hne hother => ?_⟩
  · rw [eventsOf_append_self, hlinked, List.nil_append]
  · obtain ⟨number, hle, heq⟩ := hkeeps.numbered _ request hmem
    rw [← decimal_injective heq] at hle
    exact Nat.not_succ_le_self _ hle
  · refine hother.frames (eventsOf_append_of_ne hne) fun _ _ => ?_
    exact ⟨fun _ => Iff.rfl, fun hnone => hnone, fun _ _ hget _ => hget⟩

theorem emplace_serves (hkeeps : s.Keeps rtpengineEp log) {number : Nat}
    (hlinked : s.Linked log id (.numbered number)) {request : Nat}
    (hserve : s.serve (.emplace (decimal number)) environment = some (t, request, out)) :
    Served rtpengineEp log t id (.registered number request) s out := by
  obtain ⟨hlog, hunused⟩ := hlinked
  obtain ⟨hregisters, rfl, rfl⟩ := registers_of_emplace hkeeps hunused hserve
  have hdrawn : (id, number) ∈ log := by
    rw [← mem_eventsOf, hlog]
    exact List.mem_singleton_self number
  rw [Served, List.map_nil, List.append_nil]
  refine ⟨hregisters.keeps hkeeps rfl (hkeeps.counted _ hdrawn), ⟨hlog, hregisters.owns⟩,
    fun other progress' hne hother => ?_⟩
  exact hother.frames rfl fun number' hmem =>
    hregisters.frames (hkeeps.decimal_ne hlog hne number' hmem)

theorem waitFor_serves (hkeeps : s.Keeps rtpengineEp log) {number request : Nat}
    (hlinked : s.Linked log id (.registered number request)) {answer : Option (Result BencodeDict)}
    (hserve : s.serve (.waitFor request) environment = some (t, answer, out)) :
    Served rtpengineEp log t id ((CallProgress.registered number request).track
      (.waitFor request) answer) s out := by
  have hself := Carries.refl hkeeps
  rw [Client.serve] at hserve
  split at hserve
  · cases hserve
  · rename_i pending hget
    split at hserve
    · rename_i hcompleted
      cases hserve
      exact hself.served ⟨hlinked.1, hlinked.2, pending, hget, hcompleted, rfl⟩
    · split at hserve
      · cases hserve
        exact hself.served hlinked
      · cases hserve

end

theorem clientDiscipline_sound (rtpengineEp : UdpEndpoint) :
    (clientDiscipline rtpengineEp).Sound (clientService rtpengineEp) where
  track _ _ _ := rfl
  begins := sendCommand_meets rtpengineEp
  fresh _ _ _ _ _ hstarted := eventsOf_eq_nil hstarted
  serves := by
    intro s log id progress op environment t answer out hkeeps hlinked hallows hserve _
    have hself := Client.Carries.refl hkeeps
    suffices h : Served rtpengineEp log t id (progress.track op answer) s out ∧
        op.Expects answer from ⟨h.1.1, h.2, h.1.2⟩
    cases op with
    | loadShuttingDown =>
        cases hserve
        exact ⟨hself.served hlinked, trivial⟩
    | sendTo payload =>
        cases hserve
        exact ⟨hself.served hlinked, trivial⟩
    | ensureReceiverRunning =>
        cases hserve
        have hcarries := Client.ensureReceiverRunning_carries hkeeps environment.threadError
        exact ⟨hcarries.served (hcarries.linked id progress hlinked), trivial⟩
    | generateCookie =>
        cases hserve
        obtain rfl := hallows
        refine ⟨?_, s.cookieCounter + 1, rfl⟩
        rw [CallProgress.track, digitsValue_decimal]
        exact generateCookie_serves hkeeps hlinked
    | emplace cookie =>
        obtain ⟨number, rfl, rfl⟩ := hallows
        have hemplace : s.serve (.emplace (decimal number)) environment = some (t, answer, out) :=
          hserve
        exact ⟨emplace_serves hkeeps hlinked hemplace, trivial⟩
    | erase cookie =>
        obtain ⟨number, request, rfl, rfl⟩ := hallows
        cases hserve
        exact ⟨(Client.erase_carries hkeeps _).served ⟨hlinked.1, Table.find_erase_self _ _⟩,
          trivial⟩
    | waitFor request =>
        obtain ⟨number, rfl⟩ := hallows
        exact ⟨waitFor_serves hkeeps hlinked hserve, trivial⟩
  background := by
    intro s log event t hkeeps hstep
    have hcarries : Client.Carries rtpengineEp log s t := by
      cases event with
      | receiver label => exact Client.receiverStep_carries hkeeps hstep
      | destructor choice => exact Client.destructorStep_carries hkeeps hstep
    exact ⟨hcarries.1, hcarries.linked⟩

/-! ## Runs -/

section

variable {rtpengineEp : UdpEndpoint} {s : Client} {log : List (Nat × Nat)} {id : Nat}

/-- The request of a call that has been answered is in no table. -/
theorem Client.Keeps.find_eq_none (hkeeps : s.Keeps rtpengineEp log) {number request : Nat}
    {result : Result BencodeDict} (hlinked : s.Linked log id (.answered number request result)) :
    s.pendingRequests.find (decimal number) = none := by
  obtain ⟨-, howns, pending, hget, hcompleted⟩ := hlinked
  rw [Option.eq_none_iff_forall_ne_some]
  intro other hfind
  obtain rfl := (howns other).mp (hkeeps.pending _ other hfind)
  have hmem : other ∈ s.inFlight := List.mem_append_left _ (Table.mem_values_of_find hfind)
  obtain ⟨pending', hget', hincomplete⟩ := hkeeps.incomplete other hmem
  rw [hget] at hget'
  cases hget'
  rw [hcompleted.1] at hincomplete
  cases hincomplete

/-- The response to the request of a call is one to its cookie. -/
theorem Client.Keeps.answered (hkeeps : s.Keeps rtpengineEp log) {number request : Nat}
    {dict : BencodeDict} (hlinked : s.Linked log id (.answered number request (.ok dict))) :
    Answered rtpengineEp s.history (decimal number) request dict := by
  obtain ⟨-, howns, pending, hget, hcompleted⟩ := hlinked
  obtain ⟨cookie, hanswered⟩ := hkeeps.answers request pending dict hget hcompleted
  have hregistered := (howns request).mpr rfl
  rwa [hkeeps.owned cookie (decimal number) request hanswered.registered hregistered] at hanswered

end

/-- Every dictionary that a call returns is that of a response to its own cookie, which has been
read after the cookie was registered or was in the hands of the receiver loop just then. Requests
are completed at most once, and the cookie of a call that has returned is in no table. -/
theorem sendCommand_returns_own_response (rtpengineEp : UdpEndpoint)
    (actions : List (ThreadAction ClientEnvironment BencodeDict ClientBackground))
    (s : ClientThreads) (log : List (Nat × Nat))
    (hrun : (threadsMachine (clientService rtpengineEp)).exec (.init .init) actions =
      some (s, log)) :
    (∀ id progress dict, s.outcome id = some (progress, .ok dict) →
      ∃ number request, eventsOf log id = [number] ∧
        Answered rtpengineEp s.shared.history (decimal number) request dict) ∧
    (completions s.shared.history).Nodup ∧
    ∀ id progress result number, s.outcome id = some (progress, result) → (id, number) ∈ log →
      s.shared.pendingRequests.find (decimal number) = none := by
  have hinv : s.Inv (clientDiscipline rtpengineEp) log :=
    (clientDiscipline_sound rtpengineEp).exec_of_forall (fun _ _ => trivial)
      (Client.init_keeps rtpengineEp) hrun
  have hkeeps : s.shared.Keeps rtpengineEp log := hinv.shared
  refine ⟨fun id progress dict houtcome => ?_, hkeeps.once,
    fun id progress result number houtcome hmem => ?_⟩
  · have hends : progress.Ends (.ok dict) := hinv.result houtcome
    have hlinked : s.shared.Linked log id progress := hinv.linked_outcome houtcome
    cases progress with
    | fresh | withdrawn => exact (hends dict rfl).elim
    | numbered | registered => exact hends.elim
    | answered number request result =>
        obtain rfl : result = .ok dict := hends
        exact ⟨number, request, hlinked.1, hkeeps.answered hlinked⟩
  · have hends : progress.Ends result := hinv.result houtcome
    have hlinked : s.shared.Linked log id progress := hinv.linked_outcome houtcome
    rw [← mem_eventsOf] at hmem
    cases progress with
    | fresh =>
        rw [hlinked] at hmem
        exact (List.not_mem_nil hmem).elim
    | numbered | registered => exact hends.elim
    | withdrawn number' =>
        rw [hlinked.1] at hmem
        rw [List.mem_singleton.mp hmem]
        exact hlinked.2
    | answered number' request result' =>
        have hnone := hkeeps.find_eq_none hlinked
        rw [hlinked.1] at hmem
        rwa [List.mem_singleton.mp hmem]

/-! ## One command -/

def pong : Datagram := ⟨pingEndpoint, bytes "1 d6:result4:ponge"⟩

/-- The response to the first command is read after its cookie has been registered. -/
def pingRun : List (ThreadAction ClientEnvironment BencodeDict ClientBackground) :=
  [.start ping, .run 0 {}, .run 0 {}, .run 0 {}, .run 0 {}, .run 0 {},
    .background (.receiver (.proceed 0 0)), .background (.receiver (.datagram pong)),
    .background (.receiver (.proceed 20 0)), .background (.receiver (.proceed 0 0)), .run 0 {}]

/-- The loop has a response to the first cookie in its hands when this is drawn. -/
def guessedRun : List (ThreadAction ClientEnvironment BencodeDict ClientBackground) :=
  [.start ping, .run 0 {}, .run 0 {},
    .background (.receiver (.proceed 0 0)), .background (.receiver (.datagram pong)),
    .run 0 {}, .run 0 {},
    .background (.receiver (.proceed 20 0)), .background (.receiver (.proceed 0 0)),
    .run 0 {}, .run 0 {}]

/-- The call has returned a dictionary. -/
def returnsDict (s : ClientThreads) (id : Nat) : Bool :=
  match s.outcome id with
  | some (_, .ok _) => true
  | _ => false

theorem exists_outcome_of_returnsDict {s : ClientThreads} {id : Nat}
    (h : returnsDict s id = true) : ∃ progress dict, s.outcome id = some (progress, .ok dict) := by
  unfold returnsDict at h
  split at h
  · rename_i progress dict houtcome
    exact ⟨progress, dict, houtcome⟩
  · cases h

/-- The command is answered. -/
theorem sendCommand_returns_own_response_pong :
    ∃ s log progress dict number request,
      (threadsMachine (clientService pingEndpoint)).exec (.init .init) pingRun = some (s, log) ∧
      s.outcome 0 = some (progress, .ok dict) ∧ eventsOf log 0 = [number] ∧
      Answered pingEndpoint s.shared.history (decimal number) request dict ∧
      (completions s.shared.history).Nodup ∧
      s.shared.pendingRequests.find (decimal number) = none := by
  have hsummary : ((threadsMachine (clientService pingEndpoint)).exec (.init .init) pingRun).map
      (fun run => returnsDict run.1 0) = some true := by decide +kernel
  obtain ⟨⟨s, log⟩, hrun, hreturns⟩ := Option.map_eq_some_iff.mp hsummary
  obtain ⟨progress, dict, houtcome⟩ := exists_outcome_of_returnsDict hreturns
  obtain ⟨hanswered, honce, hgone⟩ :=
    sendCommand_returns_own_response pingEndpoint pingRun s log hrun
  obtain ⟨number, request, hlog, hdict⟩ := hanswered 0 progress dict houtcome
  refine ⟨s, log, progress, dict, number, request, hrun, houtcome, hlog, hdict, honce, ?_⟩
  refine hgone 0 progress (.ok dict) number houtcome ?_
  rw [← mem_eventsOf, hlog]
  exact List.mem_singleton_self number

/-- A response that was read before the cookie was registered, and none after that, answers the
command. -/
theorem guessed_response_is_returned :
    ∃ s log progress dict,
      (threadsMachine (clientService pingEndpoint)).exec (.init .init) guessedRun = some (s, log) ∧
      s.outcome 0 = some (progress, .ok dict) ∧ log = [(0, 1)] ∧
      .registered (decimal 1) 0 ∈ s.shared.history ∧
      ∀ before after cookie request,
        s.shared.history = before ++ .registered cookie request :: after →
        ∀ datagram, .received datagram ∉ after := by
  have hsummary : ((threadsMachine (clientService pingEndpoint)).exec (.init .init) guessedRun).map
      (fun run => (returnsDict run.1 0, run.2, run.1.shared.history)) =
      some (true, [(0, 1)],
        [.received pong, .registered (decimal 1) 0, .handled, .completed 0]) := by decide +kernel
  obtain ⟨⟨s, log⟩, hrun, heq⟩ := Option.map_eq_some_iff.mp hsummary
  simp only [Prod.mk.injEq] at heq
  obtain ⟨hreturns, hlog, hhistory⟩ := heq
  obtain ⟨progress, dict, houtcome⟩ := exists_outcome_of_returnsDict hreturns
  refine ⟨s, log, progress, dict, hrun, houtcome, hlog, ?_, ?_⟩
  · rw [hhistory]
    exact List.mem_cons_of_mem _ List.mem_cons_self
  · intro before after cookie request hsplit datagram hmem
    rw [hhistory] at hsplit
    -- The datagram comes first, so it is what there is before the registration.
    cases before with
    | nil => cases hsplit
    | cons event before =>
        have htail := (List.cons.inj hsplit).2
        have hin : .received datagram ∈
            [ClientEvent.registered (decimal 1) 0, .handled, .completed 0] := by
          rw [htail]
          exact List.mem_append_right _ (List.mem_cons_of_mem _ hmem)
        rcases hin with _ | ⟨_, _ | ⟨_, _ | ⟨_, hin⟩⟩⟩
        cases hin

end SimIms.Rtp
