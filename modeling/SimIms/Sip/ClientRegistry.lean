import SimIms.Sip.ResponseMatching

/-!
# The table of client transactions in a sequential run

One thread does everything: `sendRequest` runs to its end, and so does the processing of a response,
but for the caller's callback, which may send further requests or shut the layer down. A key is in
`client_txns` from the moment `sendRequest` has succeeded with it until its transaction has had a
final response, a timeout or a shutdown.
-/

namespace SimIms.Sip

open Cxx Lib

/-- The caller's callback that runs, with the key and the status code of its response. -/
structure Calling where
  key : Bytes
  code : Int

/-- The callback of each caller is the number of the call of `sendRequest`. -/
structure SequentialLayer where
  layer : TransactionLayer Nat
  now : Nat
  calls : Nat
  calling : Option Calling

inductive SequentialAction where
  | elapse (duration : Nat)
  | sendRequest (request : SipMessage) (dest : Endpoint) (hasCallback : Bool)
      (refusal : Option ErrorInfo)
  | processResponse (response : SipMessage)
  | callbackReturns
  | expireTimer (name : ClientTransaction.TimerName) (id : Nat)
  | runTimerA (id : Nat)
  | runTimerB (id : Nat)
  | shutdown

inductive RegistryEvent where
  | opened (id : Nat) (key : Bytes)
  | refused (call : Nat) (error : ErrorInfo)
  | called (call : Nat) (response : SipMessage)
  | finished (id : Nat)
  | timedOut (id : Nat)
  | shutdown

namespace SequentialLayer

def init : SequentialLayer := ⟨.init, 0, 0, none⟩

/-- The key whose entry goes when the callback returns. -/
def completing (s : SequentialLayer) : Option Bytes :=
  s.calling.bind fun calling => if 200 ≤ calling.code then some calling.key else none

def sendRequest (s : SequentialLayer) (request : SipMessage) (dest : Endpoint)
    (hasCallback : Bool) (refusal : Option ErrorInfo) : SequentialLayer × List RegistryEvent :=
  match s.layer.sendRequest request dest (if hasCallback then some s.calls else none) with
  | .error error => ({ s with calls := s.calls + 1 }, [.refused s.calls error])
  | .ok (layer, id) =>
      match refusal with
      | none =>
          ({ s with layer := layer.startSent s.now id, calls := s.calls + 1 },
            [.opened id (clientKey request)])
      | some error =>
          ({ s with layer := layer.startFailed id (clientKey request), calls := s.calls + 1 },
            [.refused s.calls error])

/-- What the callback of `sendRequest` does after the caller's. -/
def finish (layer : TransactionLayer Nat) (calling : Calling) : TransactionLayer Nat :=
  if 200 ≤ calling.code then { layer with clientTxns := layer.clientTxns.erase calling.key }
  else layer

/-- `processMessage` with a response, up to the caller's callback. -/
def processResponse [OsipAccessor] (s : SequentialLayer) (response : SipMessage) :
    SequentialLayer × List RegistryEvent :=
  if s.layer.shuttingDown then (s, [])
  else
    match s.layer.findClientTransaction response with
    | none => (s, [])
    | some id =>
        match s.layer.clients.find id with
        | none => (s, [])
        | some txn =>
            let layer := { s.layer with
              clients := s.layer.clients.modify id (·.processResponse response.statusCode) }
            let finished : List RegistryEvent :=
              if 200 ≤ response.statusCode then [.finished id] else []
            match txn.onResponse with
            | none => ({ s with layer }, finished)
            | some callback =>
                let calling : Calling := ⟨callback.key, response.statusCode⟩
                match callback.cb with
                | none => ({ s with layer := finish layer calling }, finished)
                | some call =>
                    ({ s with layer, calling := some calling },
                      finished ++ [.called call response])

def callbackReturns (s : SequentialLayer) : Option SequentialLayer :=
  s.calling.map fun calling => { s with layer := finish s.layer calling, calling := none }

def withTimer (s : SequentialLayer) (id : Nat) (name : ClientTransaction.TimerName)
    (change : Timer → Option Timer) : Option SequentialLayer :=
  match (s.layer.clients.find id).bind fun txn => change (txn.timer name) with
  | none => none
  | some timer =>
      some { s with layer := { s.layer with
        clients := s.layer.clients.modify id (·.setTimer timer name) } }

/-- The handler of Timer B, with an event when its transaction has timed out. -/
def timeout (s : SequentialLayer) (id : Nat) : SequentialLayer × List RegistryEvent :=
  ({ s with layer := s.layer.timeout id },
    if ((s.layer.clients.find id).bind fun txn => txn.timeout.2).isSome then [.timedOut id] else [])

/-- While a callback runs, no other message and no handler of a timer is processed. -/
def step [OsipAccessor] (s : SequentialLayer) :
    SequentialAction → Option (SequentialLayer × List RegistryEvent)
  | .elapse duration => some ({ s with now := s.now + duration }, [])
  | .sendRequest request dest hasCallback refusal =>
      some (s.sendRequest request dest hasCallback refusal)
  | .processResponse response =>
      if s.calling.isNone = true ∧ response.isResponse = true then
        some (s.processResponse response)
      else none
  | .callbackReturns => s.callbackReturns.map fun t => (t, [])
  | .expireTimer name id => (s.withTimer id name (·.expire s.now)).map fun t => (t, [])
  | .runTimerA id =>
      if s.calling.isNone then
        (s.withTimer id .a Timer.dequeue).map fun t =>
          ({ t with layer := t.layer.retransmit t.now id }, [])
      else none
  | .runTimerB id =>
      if s.calling.isNone then
        (s.withTimer id .b Timer.dequeue).map fun t => t.timeout id
      else none
  | .shutdown => some ({ s with layer := s.layer.shutdown }, [.shutdown])

end SequentialLayer

def registryMachine [OsipAccessor] : Machine SequentialLayer SequentialAction RegistryEvent :=
  ⟨SequentialLayer.step⟩

/-! ## What the events say about a key -/

namespace RegistryEvent

/-- The events of the life of a transaction. -/
def concerns (id : Nat) : RegistryEvent → Bool
  | .opened other _ | .finished other | .timedOut other => other = id
  | .shutdown => true
  | .refused _ _ | .called _ _ => false

end RegistryEvent

/-- `sendRequest` has succeeded with this key, and since then its transaction has had no final
response, no timeout and no shutdown. -/
def Pending (key : Bytes) (id : Nat) (log : List RegistryEvent) : Prop :=
  (log.filter (·.concerns id)).getLast? = some (.opened id key)

theorem pending_append_of_quiet {key : Bytes} {id : Nat} {log out : List RegistryEvent}
    (h : ∀ e ∈ out, e.concerns id = false) : Pending key id (log ++ out) ↔ Pending key id log := by
  have hquiet : out.filter (·.concerns id) = [] :=
    List.filter_eq_nil_iff.mpr fun e he => Bool.eq_false_iff.mp (h e he)
  rw [Pending, Pending, List.filter_append, hquiet, List.append_nil]

/-- The last event about a transaction decides. -/
theorem pending_append_cons {key : Bytes} {id : Nat} {log rest : List RegistryEvent}
    {e : RegistryEvent} (he : e.concerns id = true) (h : ∀ e ∈ rest, e.concerns id = false) :
    Pending key id (log ++ e :: rest) ↔ e = .opened id key := by
  have hquiet : rest.filter (·.concerns id) = [] :=
    List.filter_eq_nil_iff.mpr fun e he => Bool.eq_false_iff.mp (h e he)
  rw [Pending, List.filter_append, List.filter_cons_of_pos (by exact he), hquiet,
    List.getLast?_append, List.getLast?_singleton, Option.some_or, Option.some.injEq]

/-! ## What a step can do -/

/-- No transaction changes its fixed parts, and those that are live have been, or are registered and
get a response, which happens only when `idle`. -/
structure Calm (idle : Prop) (layer layer' : TransactionLayer Nat) : Prop where
  frame : TransactionLayer.Frame layer layer'
  live : ∀ id txn', layer'.clients.find id = some txn' → txn'.Live →
    (∃ txn, layer.clients.find id = some txn ∧ txn.Live) ∨
      (idle ∧ ∃ key, layer.clientTxns.find key = some id)

namespace SequentialLayer

/-- The call of `sendRequest` whose callback the event is. -/
def Calls (s : SequentialLayer) (e : RegistryEvent) : Prop :=
  ∃ key id txn call response, s.layer.clientTxns.find key = some id ∧
    s.layer.clients.find id = some txn ∧ txn.onResponse = some ⟨key, some call⟩ ∧
    e = .called call response

/-- The entries, the callback that runs and the events after a step. -/
inductive Effect (s : SequentialLayer) : SequentialLayer → List RegistryEvent → Prop
  | kept {t : SequentialLayer} {out : List RegistryEvent}
      (calm : Calm (s.completing = none) s.layer t.layer)
      (hentries : ∀ key, t.layer.clientTxns.find key = s.layer.clientTxns.find key)
      (hcompleting : t.completing = s.completing) (hcalls : t.calls = s.calls)
      (hout : ∀ e ∈ out, s.Calls e) : Effect s t out
  | refused (error : ErrorInfo) :
      Effect s { s with calls := s.calls + 1 } [.refused s.calls error]
  | failed {t : SequentialLayer} {request : SipMessage} {dest : Endpoint} {cb : Option Nat}
      (error : ErrorInfo) (haccepts : ¬ LayerState.Refuses s.layer request)
      (calm : Calm False (LayerState.register ⟨s.layer, s.now, .empty⟩ request dest cb).layer
        t.layer)
      (hdead : ∀ txn', t.layer.clients.find s.layer.nextClient = some txn' → ¬ txn'.Live)
      (hentries : ∀ key, t.layer.clientTxns.find key = s.layer.clientTxns.find key)
      (hcompleting : t.completing = s.completing) (hcalls : t.calls = s.calls + 1) :
      Effect s t [.refused s.calls error]
  | opened {t : SequentialLayer} {request : SipMessage} {dest : Endpoint} {cb : Option Nat}
      (haccepts : ¬ LayerState.Refuses s.layer request)
      (hcb : ∀ call, cb = some call → call = s.calls)
      (calm : Calm False (LayerState.register ⟨s.layer, s.now, .empty⟩ request dest cb).layer
        t.layer)
      (hentries : t.layer.clientTxns =
        s.layer.clientTxns.insert (clientKey request) s.layer.nextClient)
      (hcompleting : t.completing = s.completing) (hcalls : t.calls = s.calls + 1) :
      Effect s t [.opened s.layer.nextClient (clientKey request)]
  | ended {t : SequentialLayer} {key : Bytes} {id : Nat} {e : RegistryEvent}
      {rest : List RegistryEvent} (hentry : s.layer.clientTxns.find key = some id)
      (calm : Calm True s.layer t.layer)
      (hdead : ∀ txn', t.layer.clients.find id = some txn' → ¬ txn'.Live)
      (hbefore : s.completing = none)
      (hentries : t.completing = some key ∧ t.layer.clientTxns = s.layer.clientTxns ∨
        t.completing = none ∧ t.layer.clientTxns = s.layer.clientTxns.erase key)
      (hcalls : t.calls = s.calls) (he : e = .finished id ∨ e = .timedOut id)
      (hrest : ∀ e ∈ rest, s.Calls e) : Effect s t (e :: rest)
  | returned {t : SequentialLayer} {key : Bytes} (hcompleting : s.completing = some key)
      (hlayer : t.layer = { s.layer with clientTxns := s.layer.clientTxns.erase key })
      (hafter : t.completing = none) (hcalls : t.calls = s.calls) : Effect s t []
  | shutdown : Effect s { s with layer := s.layer.shutdown } [.shutdown]

variable {s t : SequentialLayer} {out : List RegistryEvent} {key : Bytes} {id : Nat}

end SequentialLayer

section Calm

variable {idle : Prop} {layer layer' : TransactionLayer Nat} {id : Nat} {key : Bytes}

theorem Calm.refl (layer : TransactionLayer Nat) : Calm idle layer layer :=
  ⟨.refl layer, fun _ txn' hc hlive => .inl ⟨txn', hc, hlive⟩⟩

theorem Calm.trans {layer'' : TransactionLayer Nat} (h₁ : Calm idle layer layer')
    (h₂ : Calm idle layer' layer'') : Calm idle layer layer'' := by
  refine ⟨h₁.frame.trans h₂.frame, fun id txn' hc hlive => ?_⟩
  obtain ⟨txn, hc', hlive'⟩ | ⟨hidle, key, hentry⟩ := h₂.live id txn' hc hlive
  · exact h₁.live id txn hc' hlive'
  · exact .inr ⟨hidle, key, h₁.frame.entries key id hentry⟩

/-- Changing a transaction in place, which only a response to a registered one makes live. -/
theorem calm_modify {f : Client Nat → Client Nat} (hf : ∀ txn, (f txn).fixed = txn.fixed)
    (hlive : ∀ txn, layer.clients.find id = some txn → (f txn).Live →
      txn.Live ∨ (idle ∧ ∃ key, layer.clientTxns.find key = some id)) :
    Calm idle layer { layer with clients := layer.clients.modify id f } := by
  refine ⟨TransactionLayer.frame_modify hf, fun other txn' hc hlive' => ?_⟩
  rw [Table.find_modify] at hc
  split at hc
  · rename_i heq
    subst heq
    obtain ⟨txn, hfind, rfl⟩ := Option.map_eq_some_iff.mp hc
    exact (hlive txn hfind hlive').imp_left fun h => ⟨txn, hfind, h⟩
  · exact .inl ⟨txn', hc, hlive'⟩

/-- A step that leaves the state alone. -/
theorem calm_modify_state {f : Client Nat → Client Nat} (hf : ∀ txn, (f txn).fixed = txn.fixed)
    (hstate : ∀ txn, (f txn).state = txn.state) :
    Calm idle layer { layer with clients := layer.clients.modify id f } := by
  refine calm_modify hf fun txn _ hlive => .inl ?_
  rw [ClientTransaction.Live, hstate] at hlive
  exact hlive

theorem Calm.erase (h : Calm idle layer layer') (key : Bytes) :
    Calm idle layer { layer' with clientTxns := layer'.clientTxns.erase key } :=
  ⟨h.frame.trans TransactionLayer.frame_erase, h.live⟩

end Calm

namespace SequentialLayer

variable {s t : SequentialLayer} {out : List RegistryEvent} {key : Bytes} {id : Nat}

theorem withTimer_eq_some {name : ClientTransaction.TimerName} {change : Timer → Option Timer}
    (h : s.withTimer id name change = some t) :
    ∃ txn timer, s.layer.clients.find id = some txn ∧ change (txn.timer name) = some timer ∧
      t = { s with layer := { s.layer with
        clients := s.layer.clients.modify id (·.setTimer timer name) } } := by
  rw [withTimer] at h
  split at h
  · cases h
  · rename_i timer hbind
    obtain ⟨txn, hc, htimer⟩ := Option.bind_eq_some_iff.mp hbind
    exact ⟨txn, timer, hc, htimer, (Option.some.inj h).symm⟩

theorem sendRequest_effect (request : SipMessage) (dest : Endpoint) (hasCallback : Bool)
    (refusal : Option ErrorInfo) :
    Effect s (s.sendRequest request dest hasCallback refusal).1
      (s.sendRequest request dest hasCallback refusal).2 := by
  rw [sendRequest]
  generalize hcb : (if hasCallback = true then some s.calls else none) = cb
  have hcall : ∀ call, cb = some call → call = s.calls := by
    intro call heq
    rw [← hcb] at heq
    obtain ⟨-, heq⟩ := Option.ite_none_right_eq_some.mp heq
    exact (Option.some.inj heq).symm
  cases hsent : s.layer.sendRequest request dest cb with
  | error error => exact .refused error
  | ok result =>
      rw [TransactionLayer.sendRequest] at hsent
      split_ifs at hsent with hdown hbranch hcontains
      cases hsent
      have haccepts : ¬ LayerState.Refuses s.layer request := by
        rintro (h | h | h)
        · exact hdown h
        · exact hbranch h
        · exact hcontains h
      cases refusal with
      | none =>
          exact .opened haccepts hcall (calm_modify_state (fun txn => txn.fixed_startSent s.now)
            fun txn => txn.state_startSent s.now) rfl rfl rfl
      | some error =>
          refine .failed error haccepts ((calm_modify (fun txn => txn.fixed_startFailed)
            fun txn _ hlive => absurd rfl hlive.2).erase (clientKey request)) ?_ ?_ rfl rfl
          · intro txn' hc
            have hfind := (Table.find_modify_self _ _ _).symm.trans hc
            obtain ⟨txn, -, rfl⟩ := Option.map_eq_some_iff.mp hfind
            exact fun hlive => hlive.2 rfl
          · intro key
            have hnew := (LayerState.not_refuses (s := ⟨s.layer, s.now, .empty⟩) haccepts).2
            have herased : ((s.layer.clientTxns.insert (clientKey request) s.layer.nextClient).erase
                (clientKey request)).find key = s.layer.clientTxns.find key := by
              rw [Table.find_erase]
              split
              · rename_i heq
                rw [heq]
                exact hnew.symm
              · exact Table.find_insert_of_ne _ _ ‹_›
            exact herased

/-- The transaction that is found has processed the response. -/
def delivered (s : SequentialLayer) (id : Nat) (response : SipMessage) : TransactionLayer Nat :=
  { s.layer with clients := s.layer.clients.modify id (·.processResponse response.statusCode) }

theorem processResponse_of_found [OsipAccessor] {txn : Client Nat} {response : SipMessage}
    {cb : Option Nat}
    (hdown : s.layer.shuttingDown = false)
    (hfind : s.layer.findClientTransaction response = some id)
    (hc : s.layer.clients.find id = some txn) (hcallback : txn.onResponse = some ⟨key, cb⟩) :
    s.processResponse response =
      (match cb with
        | none => { s with layer := finish (s.delivered id response) ⟨key, response.statusCode⟩ }
        | some _ =>
            { s with
              layer := s.delivered id response, calling := some ⟨key, response.statusCode⟩ },
        (if 200 ≤ response.statusCode then [.finished id] else []) ++
          cb.toList.map (.called · response)) := by
  have hup : ¬ s.layer.shuttingDown = true := by
    rw [hdown]
    exact Bool.false_ne_true
  rw [processResponse, if_neg hup]
  simp only [hfind, hc, hcallback, delivered]
  cases cb with
  | none => simp
  | some call => rfl

/-- A registered transaction is found, and its callback is called. -/
theorem processResponse_effect [OsipAccessor]
    (hconsistent : LayerState.Consistent ⟨s.layer, s.now, .empty⟩)
    (hcalling : s.calling = none) (response : SipMessage) :
    Effect s (s.processResponse response).1 (s.processResponse response).2 := by
  have hbefore : s.completing = none := by rw [completing, hcalling, Option.bind_none]
  cases hfind : s.layer.findClientTransaction response with
  | none =>
      have hsame : s.processResponse response = (s, []) := by
        rw [processResponse, hfind]
        exact ite_self _
      rw [hsame]
      exact .kept (.refl _) (fun _ => rfl) rfl rfl (fun _ he => by cases he)
  | some id =>
      obtain ⟨key, -, hentry⟩ := List.exists_of_findSome?_eq_some hfind
      obtain ⟨txn, cb, hc, hcallback, -, -, hdown⟩ := hconsistent.registered hentry
      have hfound : s.layer.clients.find id = some txn := hc
      have calm : ∀ {idle : Prop}, idle → Calm idle s.layer (s.delivered id response) :=
        fun hidle => calm_modify (fun txn => txn.fixed_processResponse response.statusCode)
          fun _ _ _ => .inr ⟨hidle, key, hentry⟩
      have hcalls : ∀ e ∈ cb.toList.map (RegistryEvent.called · response), s.Calls e := by
        intro e he
        obtain ⟨call, hcall, rfl⟩ := List.mem_map.mp he
        rw [Option.mem_toList] at hcall
        cases hcall
        exact ⟨key, id, txn, call, response, hentry, hfound, hcallback, rfl⟩
      rw [processResponse_of_found hdown hfind hfound hcallback]
      by_cases hfinal : 200 ≤ response.statusCode
      · have hdead : ∀ txn', (s.delivered id response).clients.find id = some txn' →
            ¬ txn'.Live := by
          intro txn' hc'
          rw [delivered, Table.find_modify_self] at hc'
          obtain ⟨txn, -, rfl⟩ := Option.map_eq_some_iff.mp hc'
          exact ClientTransaction.not_live_processResponse_final hfinal
        rw [if_pos hfinal]
        cases cb with
        | none =>
            have hfinish : finish (s.delivered id response) ⟨key, response.statusCode⟩ =
                { s.delivered id response with
                  clientTxns := (s.delivered id response).clientTxns.erase key } := if_pos hfinal
            rw [hfinish]
            exact .ended hentry ((calm trivial).erase key) hdead hbefore (.inr ⟨hbefore, rfl⟩) rfl
              (.inl rfl) hcalls
        | some call =>
            refine .ended hentry (calm trivial) hdead hbefore (.inl ⟨?_, rfl⟩) rfl (.inl rfl) hcalls
            rw [completing, Option.bind_some, if_pos hfinal]
      · rw [if_neg hfinal, List.nil_append]
        cases cb with
        | none =>
            have hfinish : finish (s.delivered id response) ⟨key, response.statusCode⟩ =
                s.delivered id response := if_neg hfinal
            rw [hfinish]
            exact .kept (calm hbefore) (fun _ => rfl) rfl rfl hcalls
        | some call =>
            refine .kept (calm hbefore) (fun _ => rfl) ?_ rfl hcalls
            rw [hbefore, completing, Option.bind_some, if_neg hfinal]

theorem timeout_effect (hconsistent : LayerState.Consistent ⟨s.layer, s.now, .empty⟩)
    (hlives : ∀ id txn, s.layer.clients.find id = some txn → txn.Live →
      ∃ key, s.layer.clientTxns.find key = some id) (hcalling : s.calling = none)
    (hstep : s.withTimer id .b Timer.dequeue = some t) :
    Effect s (t.timeout id).1 (t.timeout id).2 := by
  obtain ⟨txn, timer, hc, -, rfl⟩ := withTimer_eq_some hstep
  have hbefore : s.completing = none := by rw [completing, hcalling, Option.bind_none]
  have hdequeued : (s.layer.clients.modify id (·.setTimer timer .b)).find id =
      some (txn.setTimer timer .b) := by
    rw [Table.find_modify_self, hc, Option.map_some]
  have hmodify : TransactionLayer.Frame s.layer
      { s.layer with clients := s.layer.clients.modify id (·.setTimer timer .b) } :=
    TransactionLayer.frame_modify fun txn => txn.fixed_setTimer timer .b
  have frame := hmodify.trans (TransactionLayer.frame_timeout _ id)
  have hothers : ∀ other txn', (TransactionLayer.timeout { s.layer with
      clients := s.layer.clients.modify id (·.setTimer timer .b) } id).clients.find other =
        some txn' → txn'.Live → other ≠ id ∧ s.layer.clients.find other = some txn' := by
    intro other txn' hc' hlive'
    rw [TransactionLayer.find_clients_timeout] at hc'
    by_cases hother : other = id
    · rw [hother, Table.find_modify_self] at hc'
      obtain ⟨txn, -, rfl⟩ := Option.map_eq_some_iff.mp hc'
      rw [ClientTransaction.timeout] at hlive'
      split at hlive'
      · exact absurd rfl hlive'.2
      · rename_i hdead
        exact absurd hlive' hdead
    · rw [Table.find_modify_of_ne _ _ hother, Table.find_modify_of_ne _ _ hother] at hc'
      exact ⟨hother, hc'⟩
  have calm : ∀ {idle : Prop}, Calm idle s.layer (TransactionLayer.timeout { s.layer with
      clients := s.layer.clients.modify id (·.setTimer timer .b) } id) :=
    ⟨frame, fun other txn' hc' hlive' => .inl ⟨txn', (hothers other txn' hc' hlive').2, hlive'⟩⟩
  by_cases hlive : txn.Live
  · obtain ⟨key, hentry⟩ := hlives id txn hc hlive
    obtain ⟨txn', cb, hc', -, honTimeout, -, hdown⟩ := hconsistent.registered hentry
    cases hc.symm.trans hc'
    have hcallback : (txn.setTimer timer .b).timeout.2 = some key :=
      (ClientTransaction.timeout_of_live (by exact hlive)).2.trans honTimeout
    have hout : (SequentialLayer.timeout { s with layer := { s.layer with
        clients := s.layer.clients.modify id (·.setTimer timer .b) } } id).2 = [.timedOut id] := by
      simp only [timeout, hdequeued, Option.bind_some, hcallback, Option.isSome_some, if_true]
    rw [hout]
    refine .ended hentry calm (fun txn' hc' hlive' => (hothers id txn' hc' hlive').1 rfl) hbefore
      (.inr ⟨hbefore, ?_⟩) rfl (.inr rfl) (fun _ he => by cases he)
    exact TransactionLayer.clientTxns_timeout_of_live hdequeued hlive honTimeout hdown
  · have hcallback : (txn.setTimer timer .b).timeout.2 = none := by
      rw [ClientTransaction.timeout_of_not_live (by exact hlive)]
    have hout : (SequentialLayer.timeout { s with layer := { s.layer with
        clients := s.layer.clients.modify id (·.setTimer timer .b) } } id).2 = [] := by
      simp only [timeout, hdequeued, Option.bind_some, hcallback]
      rfl
    rw [hout]
    refine .kept calm (fun key => ?_) rfl rfl (fun _ he => by cases he)
    have hsame : (TransactionLayer.timeout { s.layer with
        clients := s.layer.clients.modify id (·.setTimer timer .b) } id).clientTxns =
          s.layer.clientTxns :=
      TransactionLayer.clientTxns_timeout_of_not_called hdequeued (.inl hcallback)
    exact congrArg (fun table => Table.find table key) hsame

theorem callbackReturns_effect (hstep : s.callbackReturns = some t) : Effect s t [] := by
  obtain ⟨calling, hcalling, rfl⟩ := Option.map_eq_some_iff.mp hstep
  by_cases hfinal : 200 ≤ calling.code
  · have hfinish : finish s.layer calling =
        { s.layer with clientTxns := s.layer.clientTxns.erase calling.key } := if_pos hfinal
    have hcompleting : s.completing = some calling.key := by
      rw [completing, hcalling, Option.bind_some, if_pos hfinal]
    exact .returned hcompleting hfinish rfl rfl
  · have hfinish : finish s.layer calling = s.layer := if_neg hfinal
    rw [hfinish]
    refine .kept (.refl _) (fun _ => rfl) ?_ rfl (fun _ he => by cases he)
    rw [completing, completing, hcalling, Option.bind_some, if_neg hfinal]
    rfl

/-! ## What holds in every state -/

/-- An entry is there exactly while its transaction is pending, but for the one that goes when the
callback returns; and a live transaction has an entry. -/
structure Exact (s : SequentialLayer) (log : List RegistryEvent) : Prop where
  consistent : LayerState.Consistent ⟨s.layer, s.now, .empty⟩
  live : ∀ id txn, s.layer.clients.find id = some txn → txn.Live →
    ∃ key, s.layer.clientTxns.find key = some id
  pending : ∀ key id, s.completing ≠ some key →
    (s.layer.clientTxns.find key = some id ↔ Pending key id log)
  completing : ∀ key, s.completing = some key → (∀ id, ¬ Pending key id log) ∧
    (s.layer.shuttingDown = true ∨ s.layer.clientTxns.contains key = true)
  dead : ∀ key id txn, s.completing = some key → s.layer.clientTxns.find key = some id →
    s.layer.clients.find id = some txn → ¬ txn.Live
  numbered : ∀ id key, .opened id key ∈ log → id < s.layer.nextClient

/-- No callback is called whose caller gets an error. -/
structure Honest (s : SequentialLayer) (log : List RegistryEvent) : Prop where
  refused : ∀ call error, .refused call error ∈ log → call < s.calls
  entry : ∀ key id txn call, s.layer.clientTxns.find key = some id →
    s.layer.clients.find id = some txn → txn.onResponse = some ⟨key, some call⟩ →
    call < s.calls ∧ ∀ error, .refused call error ∉ log
  called : ∀ call response, .called call response ∈ log →
    call < s.calls ∧ ∀ error, .refused call error ∉ log

theorem exact_init : init.Exact [] where
  consistent := LayerState.consistent_init
  live _ _ h := by cases h
  pending key id _ := by
    constructor
    · intro h
      cases h
    · intro h
      cases h
  completing _ h := by cases h
  dead _ _ _ h := by cases h
  numbered _ _ h := by cases h

theorem honest_init : init.Honest [] where
  refused _ _ h := by cases h
  entry _ _ _ _ h := by cases h
  called _ _ h := by cases h

variable {log : List RegistryEvent} {a : SequentialAction}

theorem Exact.step_effect [OsipAccessor] (h : s.Exact log) (hstep : s.step a = some (t, out)) :
    Effect s t out := by
  cases a with
  | elapse duration =>
      cases hstep
      exact .kept (.refl _) (fun _ => rfl) rfl rfl (fun _ he => by cases he)
  | sendRequest request dest hasCallback refusal =>
      have heffect := sendRequest_effect (s := s) request dest hasCallback refusal
      rw [Option.some.inj hstep] at heffect
      exact heffect
  | processResponse response =>
      obtain ⟨⟨hidle, -⟩, heq⟩ := Option.ite_none_right_eq_some.mp hstep
      have heffect :=
        processResponse_effect h.consistent (Option.isNone_iff_eq_none.mp hidle) response
      rw [Option.some.inj heq] at heffect
      exact heffect
  | callbackReturns =>
      obtain ⟨t', hreturns, heq⟩ := Option.map_eq_some_iff.mp hstep
      cases heq
      exact callbackReturns_effect hreturns
  | expireTimer name id =>
      obtain ⟨t', hexpires, heq⟩ := Option.map_eq_some_iff.mp hstep
      cases heq
      obtain ⟨txn, timer, -, -, rfl⟩ := withTimer_eq_some hexpires
      exact .kept (calm_modify_state (fun txn => txn.fixed_setTimer timer name)
        fun txn => txn.state_setTimer timer name) (fun _ => rfl) rfl rfl (fun _ he => by cases he)
  | runTimerA id =>
      obtain ⟨-, hruns⟩ := Option.ite_none_right_eq_some.mp hstep
      obtain ⟨t', hdequeues, heq⟩ := Option.map_eq_some_iff.mp hruns
      cases heq
      obtain ⟨txn, timer, -, -, rfl⟩ := withTimer_eq_some hdequeues
      exact .kept ((calm_modify_state (fun txn => txn.fixed_setTimer timer .a)
        fun txn => txn.state_setTimer timer .a).trans
          (calm_modify_state (fun txn => txn.fixed_retransmit s.now)
            fun txn => txn.state_retransmit s.now))
        (fun _ => rfl) rfl rfl (fun _ he => by cases he)
  | runTimerB id =>
      obtain ⟨hidle, hruns⟩ := Option.ite_none_right_eq_some.mp hstep
      obtain ⟨t', hdequeues, heq⟩ := Option.map_eq_some_iff.mp hruns
      cases heq
      exact timeout_effect h.consistent h.live (Option.isNone_iff_eq_none.mp hidle) hdequeues
  | shutdown =>
      cases hstep
      exact .shutdown

/-- The layer stays consistent, whatever the clock says. -/
theorem consistent_of_calm {idle : Prop} (h : LayerState.Consistent ⟨s.layer, s.now, .empty⟩)
    (calm : Calm idle s.layer t.layer) : LayerState.Consistent ⟨t.layer, t.now, .empty⟩ :=
  h.of_frame calm.frame fun _ _ hcall => by cases hcall

theorem concerns_of_calls {e : RegistryEvent} (h : s.Calls e) (id : Nat) :
    e.concerns id = false := by
  obtain ⟨-, -, -, -, -, -, -, -, rfl⟩ := h
  rfl

theorem not_calls_refused {call : Nat} {error : ErrorInfo} :
    ¬ s.Calls (.refused call error) := by
  rintro ⟨_, _, _, _, _, -, -, -, heq⟩
  cases heq

/-- A live transaction is registered, where no other one can have become live. -/
theorem Exact.live_of_calm {idle : Prop} (h : s.Exact log) (calm : Calm idle s.layer t.layer)
    {txn : Client Nat}
    (hc : t.layer.clients.find id = some txn) (hlive : txn.Live) :
    ∃ key, s.layer.clientTxns.find key = some id := by
  obtain ⟨txn', hc', hlive'⟩ | ⟨-, hregistered⟩ := calm.live id txn hc hlive
  · exact h.live id txn' hc' hlive'
  · exact hregistered

/-- Two keys do not share a transaction. -/
theorem Exact.key_unique (h : s.Exact log) {key' : Bytes}
    (hentry : s.layer.clientTxns.find key = some id)
    (hentry' : s.layer.clientTxns.find key' = some id) : key = key' := by
  obtain ⟨txn, -, hc, -, -, hkey, -⟩ := h.consistent.registered hentry
  obtain ⟨txn', -, hc', -, -, hkey', -⟩ := h.consistent.registered hentry'
  cases hc.symm.trans hc'
  exact hkey.symm.trans hkey'

theorem Exact.kept (h : s.Exact log) (calm : Calm (s.completing = none) s.layer t.layer)
    (hentries : ∀ key, t.layer.clientTxns.find key = s.layer.clientTxns.find key)
    (hcompleting : t.completing = s.completing) (hout : ∀ e ∈ out, s.Calls e) :
    t.Exact (log ++ out) := by
  have hquiet : ∀ id, ∀ e ∈ out, e.concerns id = false :=
    fun id e he => concerns_of_calls (hout e he) id
  refine ⟨consistent_of_calm h.consistent calm, fun id txn hc hlive => ?_, fun key id hkey => ?_,
    fun key hkey => ?_, fun key id txn hkey hentry hc hlive => ?_, fun id key hmem => ?_⟩
  · obtain ⟨key, hentry⟩ := h.live_of_calm calm hc hlive
    exact ⟨key, (hentries key).trans hentry⟩
  · rw [hcompleting] at hkey
    rw [hentries, pending_append_of_quiet (hquiet id)]
    exact h.pending key id hkey
  · rw [hcompleting] at hkey
    rw [calm.frame.shuttingDown, Table.contains, hentries]
    refine ⟨fun id => ?_, (h.completing key hkey).2⟩
    rw [pending_append_of_quiet (hquiet id)]
    exact (h.completing key hkey).1 id
  · rw [hcompleting] at hkey
    rw [hentries] at hentry
    obtain ⟨txn', hc', hlive'⟩ | ⟨hidle, -⟩ := calm.live id txn hc hlive
    · exact h.dead key id txn' hkey hentry hc' hlive'
    · cases hidle.symm.trans hkey
  · rw [calm.frame.nextClient]
    obtain hmem | hmem := List.mem_append.mp hmem
    · exact h.numbered id key hmem
    · have hconcerns := hquiet id _ hmem
      rw [RegistryEvent.concerns, decide_eq_false_iff_not] at hconcerns
      exact (hconcerns rfl).elim

theorem Exact.accepted (h : s.Exact log) {request : SipMessage}
    (haccepts : ¬ LayerState.Refuses s.layer request) :
    s.layer.shuttingDown = false ∧ s.layer.clientTxns.find (clientKey request) = none ∧
      s.completing ≠ some (clientKey request) := by
  obtain ⟨hup, hfree⟩ := LayerState.not_refuses (s := ⟨s.layer, s.now, .empty⟩) haccepts
  refine ⟨hup, hfree, fun hcompleting => ?_⟩
  obtain hdown | hthere := (h.completing _ hcompleting).2
  · exact Bool.false_ne_true (hup.symm.trans hdown)
  · exact Bool.false_ne_true ((Table.contains_eq_false_iff.mpr hfree).symm.trans hthere)

theorem Exact.of_registered (h : s.Exact log) {request : SipMessage} {dest : Endpoint}
    {cb : Option Nat} (haccepts : ¬ LayerState.Refuses s.layer request)
    (calm : Calm False (LayerState.register ⟨s.layer, s.now, .empty⟩ request dest cb).layer
      t.layer) : LayerState.Consistent ⟨t.layer, t.now, .empty⟩ := by
  have hregister := h.consistent.register (h.accepted haccepts).1 request dest cb
  exact hregister.of_frame calm.frame fun _ _ hcall => by cases hcall

/-- What is live after `sendRequest` has been live before it, or is the new transaction. -/
theorem live_of_registered {request : SipMessage} {dest : Endpoint}
    {cb : Option Nat}
    (calm : Calm False (LayerState.register ⟨s.layer, s.now, .empty⟩ request dest cb).layer
        t.layer)
    {txn : Client Nat} (hc : t.layer.clients.find id = some txn) (hlive : txn.Live) :
    id = s.layer.nextClient ∨ ∃ txn', s.layer.clients.find id = some txn' ∧ txn'.Live := by
  obtain ⟨txn', hc', hlive'⟩ | ⟨hidle, -⟩ := calm.live id txn hc hlive
  · rw [LayerState.find_clients_register] at hc'
    split at hc'
    · exact .inl ‹_›
    · exact .inr ⟨txn', hc', hlive'⟩
  · exact hidle.elim

theorem concerns_refused (id call : Nat) (error : ErrorInfo) :
    ∀ e ∈ [RegistryEvent.refused call error], e.concerns id = false := by
  intro e he
  rw [List.mem_singleton.mp he]
  rfl

theorem Exact.refused (h : s.Exact log) (error : ErrorInfo) :
    Exact { s with calls := s.calls + 1 } (log ++ [.refused s.calls error]) := by
  refine ⟨h.consistent, h.live, fun key id hkey => ?_, fun key hkey => ?_, h.dead,
    fun id key hmem => ?_⟩
  · rw [pending_append_of_quiet (concerns_refused id _ error)]
    exact h.pending key id hkey
  · refine ⟨fun id => ?_, (h.completing key hkey).2⟩
    rw [pending_append_of_quiet (concerns_refused id _ error)]
    exact (h.completing key hkey).1 id
  · obtain hmem | hmem := List.mem_append.mp hmem
    · exact h.numbered id key hmem
    · cases List.mem_singleton.mp hmem

theorem Exact.failed (h : s.Exact log) {request : SipMessage} {dest : Endpoint} {cb : Option Nat}
    (error : ErrorInfo) (haccepts : ¬ LayerState.Refuses s.layer request)
    (calm : Calm False (LayerState.register ⟨s.layer, s.now, .empty⟩ request dest cb).layer
        t.layer)
    (hdead : ∀ txn', t.layer.clients.find s.layer.nextClient = some txn' → ¬ txn'.Live)
    (hentries : ∀ key, t.layer.clientTxns.find key = s.layer.clientTxns.find key)
    (hcompleting : t.completing = s.completing) : t.Exact (log ++ [.refused s.calls error]) := by
  refine ⟨h.of_registered haccepts calm, fun id txn hc hlive => ?_, fun key id hkey => ?_,
    fun key hkey => ?_, fun key id txn hkey hentry hc hlive => ?_, fun id key hmem => ?_⟩
  · obtain rfl | ⟨txn', hc', hlive'⟩ := live_of_registered calm hc hlive
    · exact (hdead txn hc hlive).elim
    · obtain ⟨key, hentry⟩ := h.live id txn' hc' hlive'
      exact ⟨key, (hentries key).trans hentry⟩
  · rw [hcompleting] at hkey
    rw [hentries, pending_append_of_quiet (concerns_refused id _ error)]
    exact h.pending key id hkey
  · rw [hcompleting] at hkey
    rw [calm.frame.shuttingDown, Table.contains, hentries]
    refine ⟨fun id => ?_, (h.completing key hkey).2⟩
    rw [pending_append_of_quiet (concerns_refused id _ error)]
    exact (h.completing key hkey).1 id
  · rw [hcompleting] at hkey
    rw [hentries] at hentry
    obtain rfl | ⟨txn', hc', hlive'⟩ := live_of_registered calm hc hlive
    · exact hdead txn hc hlive
    · exact h.dead key id txn' hkey hentry hc' hlive'
  · obtain hmem | hmem := List.mem_append.mp hmem
    · rw [calm.frame.nextClient]
      exact Nat.lt_succ_of_lt (h.numbered id key hmem)
    · cases List.mem_singleton.mp hmem

theorem Exact.opened (h : s.Exact log) {request : SipMessage} {dest : Endpoint} {cb : Option Nat}
    (haccepts : ¬ LayerState.Refuses s.layer request)
    (calm : Calm False (LayerState.register ⟨s.layer, s.now, .empty⟩ request dest cb).layer
        t.layer)
    (hentries : t.layer.clientTxns =
      s.layer.clientTxns.insert (clientKey request) s.layer.nextClient)
    (hcompleting : t.completing = s.completing) :
    t.Exact (log ++ [.opened s.layer.nextClient (clientKey request)]) := by
  obtain ⟨hup, hfree, hother⟩ := h.accepted haccepts
  have hfind : ∀ key, t.layer.clientTxns.find key =
      if key = clientKey request then some s.layer.nextClient
      else s.layer.clientTxns.find key := by
    intro key
    rw [hentries, Table.find_insert]
  -- the new transaction is pending under the new key, and nothing changes for the others
  have hpending : ∀ key id, Pending key id
      (log ++ [.opened s.layer.nextClient (clientKey request)]) ↔
        if id = s.layer.nextClient then key = clientKey request else Pending key id log := by
    intro key id
    split
    · rename_i heq
      rw [pending_append_cons (by rw [heq]; exact decide_eq_true rfl) (fun _ he => by cases he),
        heq]
      constructor
      · intro hopened
        cases hopened
        rfl
      · rintro rfl
        rfl
    · rename_i hne
      refine pending_append_of_quiet fun e he => ?_
      rw [List.mem_singleton.mp he]
      exact decide_eq_false fun heq => hne heq.symm
  have hold : ∀ key id, s.layer.clientTxns.find key = some id → id ≠ s.layer.nextClient := by
    intro key id hentry
    obtain ⟨txn, -, hc, -⟩ := h.consistent.registered hentry
    exact Nat.ne_of_lt (h.consistent.fresh id txn hc)
  refine ⟨h.of_registered haccepts calm, fun id txn hc hlive => ?_, fun key id hkey => ?_,
    fun key hkey => ?_, fun key id txn hkey hentry hc hlive => ?_, fun id key hmem => ?_⟩
  · obtain rfl | ⟨txn', hc', hlive'⟩ := live_of_registered calm hc hlive
    · exact ⟨clientKey request, by rw [hfind, if_pos rfl]⟩
    · obtain ⟨key, hentry⟩ := h.live id txn' hc' hlive'
      refine ⟨key, ?_⟩
      rw [hfind, if_neg, hentry]
      rintro rfl
      cases hfree.symm.trans hentry
  · rw [hcompleting] at hkey
    rw [hfind, hpending]
    split
    · rename_i heq
      subst heq
      split
      · rename_i hnew
        rw [hnew]
        exact ⟨fun _ => rfl, fun _ => rfl⟩
      · rename_i hne
        rw [← h.pending _ id hother, hfree, Option.some.injEq]
        exact ⟨fun heq => (hne heq.symm).elim, fun hnone => by cases hnone⟩
    · rename_i hne
      split
      · rename_i hnew
        exact ⟨fun hentry => (hold key id hentry hnew).elim, fun heq => (hne heq).elim⟩
      · exact h.pending key id hkey
  · rw [hcompleting] at hkey
    have hne : key ≠ clientKey request := by
      rintro rfl
      exact hother hkey
    obtain ⟨hnot, hthere⟩ := h.completing key hkey
    refine ⟨fun id hpend => ?_, ?_⟩
    · rw [hpending] at hpend
      split at hpend
      · exact hne hpend
      · exact hnot id hpend
    · rw [calm.frame.shuttingDown, Table.contains, hfind, if_neg hne]
      exact hthere
  · rw [hcompleting] at hkey
    have hne : key ≠ clientKey request := by
      rintro rfl
      exact hother hkey
    rw [hfind, if_neg hne] at hentry
    obtain rfl | ⟨txn', hc', hlive'⟩ := live_of_registered calm hc hlive
    · exact hold key _ hentry rfl
    · exact h.dead key id txn' hkey hentry hc' hlive'
  · rw [calm.frame.nextClient]
    obtain hmem | hmem := List.mem_append.mp hmem
    · exact Nat.lt_succ_of_lt (h.numbered id key hmem)
    · cases List.mem_singleton.mp hmem
      exact Nat.lt_succ_self _

theorem Exact.ended (h : s.Exact log) {e : RegistryEvent} {rest : List RegistryEvent}
    (hentry : s.layer.clientTxns.find key = some id) (calm : Calm True s.layer t.layer)
    (hdead : ∀ txn', t.layer.clients.find id = some txn' → ¬ txn'.Live)
    (hbefore : s.completing = none)
    (hentries : t.completing = some key ∧ t.layer.clientTxns = s.layer.clientTxns ∨
      t.completing = none ∧ t.layer.clientTxns = s.layer.clientTxns.erase key)
    (he : e = .finished id ∨ e = .timedOut id) (hrest : ∀ e ∈ rest, s.Calls e) :
    t.Exact (log ++ e :: rest) := by
  have hquiet : ∀ id, ∀ e ∈ rest, e.concerns id = false :=
    fun id e he => concerns_of_calls (hrest e he) id
  have hpending : ∀ key' id', Pending key' id' (log ++ e :: rest) ↔
      id' ≠ id ∧ s.layer.clientTxns.find key' = some id' := by
    intro key' id'
    have hiff := h.pending key' id' (by rw [hbefore]; exact fun hnone => by cases hnone)
    by_cases hsame : id' = id
    · subst hsame
      rw [pending_append_cons (by obtain rfl | rfl := he <;> exact decide_eq_true rfl) (hquiet id')]
      constructor
      · intro hopened
        obtain rfl | rfl := he <;> cases hopened
      · rintro ⟨hne, -⟩
        exact (hne rfl).elim
    · have hall : ∀ e' ∈ e :: rest, e'.concerns id' = false := by
        intro e' hmem
        obtain rfl | hmem := List.mem_cons.mp hmem
        · obtain rfl | rfl := he <;> exact decide_eq_false fun heq => hsame heq.symm
        · exact hquiet id' e' hmem
      rw [pending_append_of_quiet hall, hiff]
      exact ⟨fun hfind => ⟨hsame, hfind⟩, fun hboth => hboth.2⟩
  have hnot : ∀ id', ¬ Pending key id' (log ++ e :: rest) := by
    intro id' hpend
    obtain ⟨hne, hfind⟩ := (hpending key id').mp hpend
    exact hne (Option.some.inj (hfind.symm.trans hentry))
  have hothers : ∀ key', key' ≠ key →
      t.layer.clientTxns.find key' = s.layer.clientTxns.find key' := by
    intro key' hne
    obtain ⟨-, heq⟩ | ⟨-, heq⟩ := hentries
    · rw [heq]
    · rw [heq]
      exact Table.find_erase_of_ne _ hne
  refine ⟨consistent_of_calm h.consistent calm, fun id' txn hc hlive => ?_, fun key' id' hkey => ?_,
    fun key' hkey => ?_, fun key' id' txn hkey hentry' hc hlive => ?_, fun id' key' hmem => ?_⟩
  · obtain ⟨key', hentry'⟩ := h.live_of_calm calm hc hlive
    refine ⟨key', (hothers key' ?_).trans hentry'⟩
    rintro rfl
    cases hentry.symm.trans hentry'
    exact hdead txn hc hlive
  · by_cases hsame : key' = key
    · subst hsame
      refine ⟨fun hfind => ?_, fun hpend => (hnot id' hpend).elim⟩
      obtain ⟨hcompleting, -⟩ | ⟨-, heq⟩ := hentries
      · exact (hkey hcompleting).elim
      · rw [heq, Table.find_erase_self] at hfind
        cases hfind
    · rw [hothers key' hsame, hpending]
      refine ⟨fun hfind => ⟨?_, hfind⟩, fun hboth => hboth.2⟩
      rintro rfl
      exact hsame (h.key_unique hfind hentry)
  · obtain ⟨hcompleting, heq⟩ | ⟨hcompleting, -⟩ := hentries
    · cases hcompleting.symm.trans hkey
      refine ⟨hnot, .inr ?_⟩
      rw [heq, Table.contains, hentry]
      rfl
    · cases hcompleting.symm.trans hkey
  · obtain ⟨hcompleting, heq⟩ | ⟨hcompleting, -⟩ := hentries
    · cases hcompleting.symm.trans hkey
      rw [heq] at hentry'
      cases hentry.symm.trans hentry'
      exact hdead txn hc hlive
    · cases hcompleting.symm.trans hkey
  · rw [calm.frame.nextClient]
    obtain hmem | hmem := List.mem_append.mp hmem
    · exact h.numbered id' key' hmem
    · obtain heq | hmem := List.mem_cons.mp hmem
      · rw [← heq] at he
        obtain he | he := he <;> cases he
      · have hconcerns := hquiet id' _ hmem
        rw [RegistryEvent.concerns, decide_eq_false_iff_not] at hconcerns
        exact (hconcerns rfl).elim

theorem Exact.returned (h : s.Exact log) (hcompleting : s.completing = some key)
    (hlayer : t.layer = { s.layer with clientTxns := s.layer.clientTxns.erase key })
    (hafter : t.completing = none) : t.Exact (log ++ []) := by
  rw [List.append_nil]
  have hcalm : Calm True s.layer t.layer := by
    rw [hlayer]
    exact (Calm.refl s.layer).erase key
  refine ⟨consistent_of_calm h.consistent hcalm, fun id txn hc hlive => ?_, fun key' id _ => ?_,
    fun key' hkey => ?_, fun key' id txn hkey => ?_, fun id key' hmem => ?_⟩
  · rw [hlayer] at hc
    obtain ⟨key', hentry⟩ := h.live id txn hc hlive
    refine ⟨key', ?_⟩
    rw [hlayer]
    refine (Table.find_erase_of_ne _ ?_).trans hentry
    rintro rfl
    exact h.dead key' id txn hcompleting hentry hc hlive
  · rw [hlayer]
    by_cases hsame : key' = key
    · subst hsame
      rw [Table.find_erase_self]
      exact ⟨(fun hnone => by cases hnone),
        fun hpend => ((h.completing key' hcompleting).1 id hpend).elim⟩
    · rw [Table.find_erase_of_ne _ hsame]
      refine h.pending key' id fun hkey => hsame ?_
      exact Option.some.inj (hkey.symm.trans hcompleting)
  · rw [hafter] at hkey
    cases hkey
  · rw [hafter] at hkey
    cases hkey
  · rw [hcalm.frame.nextClient]
    exact h.numbered id key' hmem

theorem Exact.shutdown (h : s.Exact log) :
    Exact { s with layer := s.layer.shutdown } (log ++ [.shutdown]) := by
  have hnot : ∀ key id, ¬ Pending key id (log ++ [.shutdown]) := by
    intro key id hpend
    cases (pending_append_cons rfl (fun _ he => by cases he)).mp hpend
  have hdead : ∀ id txn, s.layer.shutdown.clients.find id = some txn → ¬ txn.Live := by
    intro id txn hc hlive
    rw [TransactionLayer.shutdown, Table.find_mapValues] at hc
    obtain ⟨txn', hc', rfl⟩ := Option.map_eq_some_iff.mp hc
    split at hlive
    · exact hlive.2 rfl
    · rename_i hother
      obtain ⟨key, hentry⟩ := h.live id txn' hc' hlive
      obtain ⟨txn, -, hc'', -, -, hkey, -⟩ := h.consistent.registered hentry
      cases hc'.symm.trans hc''
      rw [hkey] at hother
      exact hother hentry
  refine ⟨h.consistent.shutdown, fun id txn hc hlive => (hdead id txn hc hlive).elim,
    fun key id _ => ?_, fun key _ => ⟨hnot key, .inl rfl⟩, fun key id txn _ hentry => ?_,
    fun id key hmem => ?_⟩
  · exact ⟨(fun hnone => by cases hnone), fun hpend => (hnot key id hpend).elim⟩
  · cases hentry
  · obtain hmem | hmem := List.mem_append.mp hmem
    · exact h.numbered id key hmem
    · cases List.mem_singleton.mp hmem

theorem Exact.step [OsipAccessor] (h : s.Exact log) (hstep : s.step a = some (t, out)) :
    t.Exact (log ++ out) := by
  cases h.step_effect hstep with
  | kept calm hentries hcompleting hcalls hout => exact h.kept calm hentries hcompleting hout
  | refused error => exact h.refused error
  | failed error haccepts calm hdead hentries hcompleting hcalls =>
      exact h.failed error haccepts calm hdead hentries hcompleting
  | opened haccepts hcb calm hentries hcompleting hcalls =>
      exact h.opened haccepts calm hentries hcompleting
  | ended hentry calm hdead hbefore hentries hcalls he hrest =>
      exact h.ended hentry calm hdead hbefore hentries he hrest
  | returned hcompleting hlayer hafter hcalls => exact h.returned hcompleting hlayer hafter
  | shutdown => exact h.shutdown

/-- The entry for a callback was there before, or it is that of the present call. -/
theorem Honest.later (h : s.Honest log) (hcalls : s.calls ≤ t.calls)
    (hentry : ∀ key id txn call, t.layer.clientTxns.find key = some id →
      t.layer.clients.find id = some txn → txn.onResponse = some ⟨key, some call⟩ →
      (∃ txn', s.layer.clientTxns.find key = some id ∧ s.layer.clients.find id = some txn' ∧
        txn'.onResponse = some ⟨key, some call⟩) ∨
      (call = s.calls ∧ s.calls < t.calls ∧ ∀ error, .refused call error ∉ out))
    (hrefused : ∀ call error, .refused call error ∈ out → call = s.calls ∧ s.calls < t.calls)
    (hcalled : ∀ call response, .called call response ∈ out →
      s.Calls (.called call response)) : t.Honest (log ++ out) := by
  have hold : ∀ call, (call < s.calls ∧ ∀ error, .refused call error ∉ log) →
      call < t.calls ∧ ∀ error, .refused call error ∉ log ++ out := by
    intro call hcall
    refine ⟨Nat.lt_of_lt_of_le hcall.1 hcalls, fun error hmem => ?_⟩
    obtain hmem | hmem := List.mem_append.mp hmem
    · exact hcall.2 error hmem
    · exact absurd (hrefused call error hmem).1 (Nat.ne_of_lt hcall.1)
  refine ⟨fun call error hmem => ?_, fun key id txn call hfind hc hcallback => ?_,
    fun call response hmem => ?_⟩
  · obtain hmem | hmem := List.mem_append.mp hmem
    · exact Nat.lt_of_lt_of_le (h.refused call error hmem) hcalls
    · obtain ⟨rfl, hlt⟩ := hrefused call error hmem
      exact hlt
  · obtain ⟨txn', hfind', hc', hcallback'⟩ | ⟨rfl, hlt, hnot⟩ :=
      hentry key id txn call hfind hc hcallback
    · exact hold call (h.entry key id txn' call hfind' hc' hcallback')
    · refine ⟨hlt, fun error hmem => ?_⟩
      obtain hmem | hmem := List.mem_append.mp hmem
      · exact Nat.lt_irrefl _ (h.refused _ error hmem)
      · exact hnot error hmem
  · obtain hmem | hmem := List.mem_append.mp hmem
    · exact hold call (h.called call response hmem)
    · obtain ⟨key, id, txn, call', response', hfind, hc, hcallback, heq⟩ :=
        hcalled call response hmem
      cases heq
      exact hold call (h.entry key id txn call hfind hc hcallback)

/-- Entries that stay keep their callbacks. -/
theorem entry_of_frame (frame : TransactionLayer.Frame s.layer t.layer) {txn : Client Nat}
    {call : Nat} (hfind : t.layer.clientTxns.find key = some id)
    (hc : t.layer.clients.find id = some txn)
    (hcallback : txn.onResponse = some ⟨key, some call⟩) :
    ∃ txn', s.layer.clientTxns.find key = some id ∧ s.layer.clients.find id = some txn' ∧
      txn'.onResponse = some ⟨key, some call⟩ := by
  have hfixed := frame.fixed id
  rw [hc, Option.map_some, eq_comm] at hfixed
  obtain ⟨txn', hc', hsame⟩ := Option.map_eq_some_iff.mp hfixed
  exact ⟨txn', frame.entries key id hfind, hc', (congrArg (·.2.1) hsame).trans hcallback⟩

theorem Honest.step [OsipAccessor] (h : s.Honest log) (hexact : s.Exact log)
    (hstep : s.step a = some (t, out)) : t.Honest (log ++ out) := by
  cases hexact.step_effect hstep with
  | kept calm hentries hcompleting hcalls hout =>
      refine h.later (Nat.le_of_eq hcalls.symm) (fun key id txn call hfind hc hcallback =>
        .inl (entry_of_frame calm.frame hfind hc hcallback)) (fun call error hmem => ?_)
        fun call response hmem => hout _ hmem
      exact (not_calls_refused (hout _ hmem)).elim
  | refused error =>
      refine h.later (Nat.le_succ _) (fun key id txn call hfind hc hcallback =>
        .inl ⟨txn, hfind, hc, hcallback⟩) (fun call error hmem => ?_) fun call response hmem => ?_
      · cases List.mem_singleton.mp hmem
        exact ⟨rfl, Nat.lt_succ_self _⟩
      · cases List.mem_singleton.mp hmem
  | failed error haccepts calm hdead hentries hcompleting hcalls =>
      refine h.later (by rw [hcalls]; exact Nat.le_succ _)
        (fun key id txn call hfind hc hcallback =>
        .inl ?_) (fun call error hmem => ?_) fun call response hmem => ?_
      · rw [hentries] at hfind
        obtain ⟨txn', -, hc', -⟩ := hexact.consistent.registered hfind
        have hne : id ≠ s.layer.nextClient := Nat.ne_of_lt (hexact.consistent.fresh id txn' hc')
        have hfixed := calm.frame.fixed id
        rw [hc, LayerState.find_clients_register, if_neg hne, Option.map_some, eq_comm] at hfixed
        obtain ⟨txn'', hc'', hsame⟩ := Option.map_eq_some_iff.mp hfixed
        exact ⟨txn'', hfind, hc'', (congrArg (·.2.1) hsame).trans hcallback⟩
      · cases List.mem_singleton.mp hmem
        exact ⟨rfl, by rw [hcalls]; exact Nat.lt_succ_self _⟩
      · cases List.mem_singleton.mp hmem
  | opened haccepts hcb calm hentries hcompleting hcalls =>
      refine h.later (by rw [hcalls]; exact Nat.le_succ _)
        (fun key id txn call hfind hc hcallback =>
        ?_) (fun call error hmem => ?_) fun call response hmem => ?_
      · have hfixed := calm.frame.fixed id
        rw [hc, LayerState.find_clients_register, Option.map_some, eq_comm] at hfixed
        rw [hentries, Table.find_insert] at hfind
        split at hfind
        · cases hfind
          rw [if_pos rfl, Option.map_some, Option.some.injEq] at hfixed
          have hsame : some _ = txn.onResponse := congrArg (·.2.1) hfixed
          cases hsame.trans hcallback
          refine .inr ⟨hcb call rfl, by rw [hcalls]; exact Nat.lt_succ_self _, fun error hmem => ?_⟩
          cases List.mem_singleton.mp hmem
        · obtain ⟨txn', -, hc', -⟩ := hexact.consistent.registered hfind
          have hne : id ≠ s.layer.nextClient := Nat.ne_of_lt (hexact.consistent.fresh id txn' hc')
          rw [if_neg hne] at hfixed
          obtain ⟨txn'', hc'', hsame⟩ := Option.map_eq_some_iff.mp hfixed
          exact .inl ⟨txn'', hfind, hc'', (congrArg (·.2.1) hsame).trans hcallback⟩
      · cases List.mem_singleton.mp hmem
      · cases List.mem_singleton.mp hmem
  | ended hentry calm hdead hbefore hentries hcalls he hrest =>
      refine h.later (Nat.le_of_eq hcalls.symm) (fun key id txn call hfind hc hcallback =>
        .inl (entry_of_frame calm.frame hfind hc hcallback)) (fun call error hmem => ?_)
        fun call response hmem => ?_
      · obtain heq | hmem := List.mem_cons.mp hmem
        · rw [← heq] at he
          obtain he | he := he <;> cases he
        · exact (not_calls_refused (hrest _ hmem)).elim
      · obtain heq | hmem := List.mem_cons.mp hmem
        · rw [← heq] at he
          obtain he | he := he <;> cases he
        · exact hrest _ hmem
  | returned hcompleting hlayer hafter hcalls =>
      have frame : TransactionLayer.Frame s.layer t.layer := by
        rw [hlayer]
        exact TransactionLayer.frame_erase
      exact h.later (Nat.le_of_eq hcalls.symm) (fun key id txn call hfind hc hcallback =>
        .inl (entry_of_frame frame hfind hc hcallback)) (fun _ _ hmem => by cases hmem)
        fun _ _ hmem => by cases hmem
  | shutdown =>
      refine h.later (Nat.le_refl _) (fun key id txn call hfind hc hcallback => by cases hfind)
        (fun call error hmem => ?_) fun call response hmem => ?_
      · cases List.mem_singleton.mp hmem
      · cases List.mem_singleton.mp hmem

/-- A call of `sendRequest` that returns an error leaves the entries as they were, and calls
nobody. -/
theorem Exact.entries_of_refused [OsipAccessor] (h : s.Exact log)
    (hstep : s.step a = some (t, out)) {call : Nat}
    {error : ErrorInfo} (hmem : .refused call error ∈ out) :
    (∀ key, t.layer.clientTxns.find key = s.layer.clientTxns.find key) ∧
      ∀ call' response, .called call' response ∉ out := by
  cases h.step_effect hstep with
  | kept calm hentries hcompleting hcalls hout => exact (not_calls_refused (hout _ hmem)).elim
  | refused error =>
      exact ⟨fun _ => rfl, fun _ _ hcalled => by cases List.mem_singleton.mp hcalled⟩
  | failed error haccepts calm hdead hentries hcompleting hcalls =>
      exact ⟨hentries, fun _ _ hcalled => by cases List.mem_singleton.mp hcalled⟩
  | opened haccepts hcb calm hentries hcompleting hcalls => cases List.mem_singleton.mp hmem
  | ended hentry calm hdead hbefore hentries hcalls he hrest =>
      obtain heq | hmem := List.mem_cons.mp hmem
      · rw [← heq] at he
        obtain he | he := he <;> cases he
      · exact (not_calls_refused (hrest _ hmem)).elim
  | returned hcompleting hlayer hafter hcalls => cases hmem
  | shutdown => cases List.mem_singleton.mp hmem

theorem exact_honest_of_exec [OsipAccessor] {actions : List SequentialAction}
    (hrun : registryMachine.exec .init actions = some (s, log)) :
    s.Exact log ∧ s.Honest log :=
  Machine.exec_invariant_log
    (I := fun s : SequentialLayer => fun log => s.Exact log ∧ s.Honest log)
    (fun _ _ _ _ _ h hstep => ⟨h.1.step hstep, h.2.step h.1 hstep⟩) ⟨exact_init, honest_init⟩ hrun

end SequentialLayer

/-- In every sequential run, an entry is there exactly while a call of `sendRequest` for its key has
succeeded and its transaction has had no final response, no timeout and no shutdown since, but for
the key whose callback has not returned yet; and a call that returns an error changes no entry and
calls nobody, and its own callback is never called. -/
theorem clientRegistry_exact [OsipAccessor] (actions : List SequentialAction) (s : SequentialLayer)
    (log : List RegistryEvent) (hrun : registryMachine.exec .init actions = some (s, log)) :
    (∀ key id, s.completing ≠ some key →
      (s.layer.clientTxns.find key = some id ↔ Pending key id log)) ∧
    (∀ a t out call error, s.step a = some (t, out) → .refused call error ∈ out →
      (∀ key, t.layer.clientTxns.find key = s.layer.clientTxns.find key) ∧
        ∀ call' response, .called call' response ∉ out) ∧
    ∀ call error response, .refused call error ∈ log → .called call response ∉ log := by
  obtain ⟨hexact, hhonest⟩ := SequentialLayer.exact_honest_of_exec hrun
  refine ⟨hexact.pending, fun a t out call error hstep hmem => hexact.entries_of_refused hstep hmem,
    fun call error response hrefused hcalled => ?_⟩
  exact (hhonest.called call response hcalled).2 error hrefused

/-! ## One refused duplicate -/

/-- A call with a callback, the same again, and the final response to the first one. -/
def refusedTwice : List SequentialAction :=
  [.sendRequest (branchedInvite "z9hG4bK1") ⟨bytes "10.0.0.2", 5060, bytes "udp"⟩ true none,
    .sendRequest (branchedInvite "z9hG4bK1") ⟨bytes "10.0.0.2", 5060, bytes "udp"⟩ true none,
    .processResponse (createResponse (branchedInvite "z9hG4bK1") 486 (bytes "Busy") (bytes "tag")),
    .callbackReturns]

theorem clientRegistry_exact_refused :
    ∃ s log, registryMachine.exec .init refusedTwice = some (s, log) ∧ log.length = 4 ∧
      (∀ key id, s.layer.clientTxns.find key = some id ↔ Pending key id log) ∧
      ∀ call error response, .refused call error ∈ log → .called call response ∉ log := by
  obtain ⟨hpending, -, hhonest⟩ := clientRegistry_exact refusedTwice _ _ rfl
  exact ⟨_, _, rfl, rfl, fun key id => hpending key id (fun heq => by cases heq), hhonest⟩

end SimIms.Sip
