import SimIms.Lib.Persistence
import SimIms.Sip.Forwarding

/-!
# The upstream side of a forwarded request

When a request has been forwarded, its upstream transaction waits for a final response. It
should get one by the time the client transaction has left `client_txns`: the relayed one,
or one that the hop generates when the downstream side fails. `Orphans` names the steps that
take the client transaction away and generate nothing: the handler of Timer B, whose
callback erases the entry only, and an error of `sendRequest` under a forwarder that logs
it. Upstream transactions are accounted for in exactly the runs without such steps.
-/

namespace SimIms.Sip

open Cxx Lib

/-- The upstream transaction has been given a final response. -/
def Answered (log : List Given) (upstream : Nat) : Prop :=
  ∃ given ∈ log, given.upstream = upstream ∧ 200 ≤ given.response.statusCode

/-- The forwarder answers upstream when `sendRequest` returns an error. -/
def Forwarder.AnswersSendError : Forwarder → Prop
  | .forwardStateful _ => True
  | _ => False

namespace LayerState

/-- The callback of the client transaction relays to the upstream transaction. -/
def Serves (s : LayerState Forwarding) (id upstream : Nat) : Prop :=
  ∃ txn key forwarding, s.layer.clients.find id = some txn ∧
    txn.onResponse = some ⟨key, some forwarding⟩ ∧ forwarding.upstream = upstream

/-- The client transaction that is registered under the key does so. -/
def Waits (s : LayerState Forwarding) (key : Bytes) (upstream : Nat) : Prop :=
  ∃ id, s.layer.clientTxns.find key = some id ∧ s.Serves id upstream

def Pending (s : LayerState Forwarding) (upstream : Nat) : Prop := ∃ key, s.Waits key upstream

end LayerState

namespace HopState

def Accounted (s : HopState) (log : List Given) : Prop :=
  ∀ upstream < s.nextUpstream, s.layer.Pending upstream ∨ Answered log upstream

/-- Until the transaction layer is shut down, every upstream transaction whose request has
been forwarded has its client transaction or its final response. -/
def NoOrphans [OsipAccessor] (as : List HopAction) : Prop :=
  ∀ before after s log, as = before ++ after → hopMachine.exec init before = some (s, log) →
    s.layer.layer.shuttingDown = false → s.Accounted log

/-- The client side of a forwarded request ends, and the hop does not answer upstream. -/
def Orphans (s : HopState) : HopAction → Prop
  | .forward forwarder _ forwarded _ _ =>
      s.layer.layer.shuttingDown = false ∧ LayerState.Refuses s.layer.layer forwarded ∧
        ¬ forwarder.AnswersSendError
  | .layer (.runTimerB id) _ _ => ∃ txn key upstream, s.layer.layer.clients.find id = some txn ∧
      txn.Live ∧ txn.onTimeout = some key ∧ s.layer.Waits key upstream
  | .layer (.startFailed id _) _ _ => ∃ call upstream, s.layer.starting.find id = some call ∧
      s.layer.Waits call.key upstream ∧ ∀ forwarding, call.onResponse = some forwarding →
        forwarding.upstream = upstream → ¬ forwarding.forwarder.AnswersSendError
  | _ => False

end HopState

/-! ## Final responses among those given -/

theorem answered_append {log log' : List Given} {upstream : Nat} :
    Answered (log ++ log') upstream ↔ Answered log upstream ∨ Answered log' upstream := by
  simp only [Answered, List.mem_append, or_and_right, exists_or]

theorem not_answered_nil {upstream : Nat} : ¬ Answered [] upstream := by
  rintro ⟨given, hmem, _⟩
  cases hmem

theorem answered_onResponse {forwarding : Forwarding} {response : SipMessage}
    {answerSdp : Option Bytes} {upstream : Nat} :
    Answered [forwarding.onResponse response answerSdp] upstream ↔
      forwarding.upstream = upstream ∧ 200 ≤ response.statusCode := by
  simp [Answered]

theorem answered_onSendError {forwarding : Forwarding} {tag : Bytes} {upstream : Nat} :
    Answered (forwarding.onSendError tag) upstream ↔
      forwarding.upstream = upstream ∧ forwarding.forwarder.AnswersSendError := by
  obtain ⟨forwarder, served, request⟩ := forwarding
  cases forwarder with
  | forwardStateful media => simp [Answered, Forwarding.onSendError, Forwarder.AnswersSendError]
  | _ => simp [Answered, Forwarding.onSendError, Forwarder.AnswersSendError]

/-! ## Which client transaction serves an upstream transaction -/

namespace LayerState

variable {s t : LayerState Forwarding} {a : LayerAction Forwarding}
variable {id id' upstream : Nat} {key key' : Bytes}

theorem serves_of_frame (frame : TransactionLayer.Frame s.layer t.layer) :
    t.Serves id upstream ↔ s.Serves id upstream := by
  have serves_of_fixed : ∀ {s t : LayerState Forwarding},
      (t.layer.clients.find id).map ClientTransaction.fixed =
        (s.layer.clients.find id).map ClientTransaction.fixed →
      s.Serves id upstream → t.Serves id upstream := by
    rintro s t hfixed ⟨txn, key, forwarding, hc, hcallback, hupstream⟩
    rw [hc] at hfixed
    obtain ⟨txn', hc', hsame⟩ := Option.map_eq_some_iff.mp hfixed
    exact ⟨txn', key, forwarding, hc', (congrArg (·.2.1) hsame).trans hcallback, hupstream⟩
  exact ⟨serves_of_fixed (frame.fixed id).symm, serves_of_fixed (frame.fixed id)⟩

theorem Pending.of_frame (frame : TransactionLayer.Frame s.layer t.layer)
    (h : t.Pending upstream) : s.Pending upstream := by
  obtain ⟨key, id, hentry, hserves⟩ := h
  exact ⟨key, id, frame.entries key id hentry, (serves_of_frame frame).mp hserves⟩

theorem pending_of_same_entries (frame : TransactionLayer.Frame s.layer t.layer)
    (hentries : t.layer.clientTxns = s.layer.clientTxns) :
    t.Pending upstream ↔ s.Pending upstream := by
  refine ⟨Pending.of_frame frame, ?_⟩
  rintro ⟨key, id, hentry, hserves⟩
  exact ⟨key, id, hentries ▸ hentry, (serves_of_frame frame).mpr hserves⟩

/-- A registered transaction that serves it is registered under the key that its callback
knows. -/
theorem Consistent.key_of_serves (hs : Consistent s)
    (hentry : s.layer.clientTxns.find key = some id) {txn : Client Forwarding}
    (hc : s.layer.clients.find id = some txn) {callback : ResponseCallback Forwarding}
    (hcallback : txn.onResponse = some callback) : callback.key = key := by
  obtain ⟨txn', cb, hc', hcallback', _⟩ := hs.registered hentry
  cases hc.symm.trans hc'
  cases hcallback.symm.trans hcallback'
  rfl

/-- Only `shutdown` sets the flag. -/
theorem shuttingDown_of_step [OsipAccessor] (hs : Consistent s) {out : List (LayerEvent Forwarding)}
    (hstep : s.step a = some (t, out)) :
    t.layer.shuttingDown = s.layer.shuttingDown ∨
      a = .shutdown ∧ t.layer.shuttingDown = true := by
  cases step_change hs hstep with
  | kept hquiet frame hentries hstart => exact .inl frame.shuttingDown
  | refused error hrefuses => exact .inl rfl
  | registered haccepts heq => exact .inl (heq ▸ rfl)
  | delivered hentry hc hcallback frame hentries hstart => exact .inl frame.shuttingDown
  | timedOut hc hlive honTimeout hdown frame hentries hstart => exact .inl frame.shuttingDown
  | failed hcall frame hentries hstart => exact .inl frame.shuttingDown
  | shutdown => exact .inr ⟨rfl, rfl⟩

end LayerState

namespace HopState

variable {s t : HopState} {a : HopAction} {log given : List Given} {l : LayerState Forwarding}
variable {id id' upstream : Nat} {key key' : Bytes}

/-- Each upstream transaction is served by one client transaction, and a call of
`sendRequest` that still waits for the transport has installed the callback that it would
answer for. Pending transactions have not been answered. -/
structure Routed (s : HopState) (log : List Given) : Prop where
  serves_lt : ∀ id upstream, s.layer.Serves id upstream → upstream < s.nextUpstream
  serves_inj : ∀ id id' upstream, s.layer.Serves id upstream → s.layer.Serves id' upstream →
    id = id'
  waiting : ∀ id call, s.layer.starting.find id = some call →
    ∃ txn, s.layer.layer.clients.find id = some txn ∧
      txn.onResponse = some ⟨call.key, call.onResponse⟩
  answered_lt : ∀ upstream, Answered log upstream → upstream < s.nextUpstream
  pending : ∀ upstream, s.layer.Pending upstream → ¬ Answered log upstream

/-- Where an entry is erased, what waited under its key is no longer pending. -/
theorem Routed.pending_of_erase (h : Routed s log) (hs : s.layer.Consistent)
    (frame : TransactionLayer.Frame s.layer.layer l.layer)
    (hentries : l.layer.clientTxns = s.layer.layer.clientTxns.erase key) :
    l.Pending upstream ↔ s.layer.Pending upstream ∧ ¬ s.layer.Waits key upstream := by
  constructor
  · intro hpending
    refine ⟨hpending.of_frame frame, ?_⟩
    rintro ⟨id, hentry, hserves⟩
    obtain ⟨key', id', hentry', hserves'⟩ := hpending
    have hserves' := (LayerState.serves_of_frame frame).mp hserves'
    cases h.serves_inj id id' upstream hserves hserves'
    rw [hentries] at hentry'
    obtain ⟨hne, hentry'⟩ := Table.find_of_find_erase hentry'
    obtain ⟨txn, _, _, hc, hcallback, _⟩ := hserves
    have hkey := hs.key_of_serves hentry hc hcallback
    have hkey' := hs.key_of_serves hentry' hc hcallback
    exact hne (hkey'.symm.trans hkey)
  · rintro ⟨⟨key', id, hentry, hserves⟩, hother⟩
    have hne : key' ≠ key := by
      rintro rfl
      exact hother ⟨id, hentry, hserves⟩
    refine ⟨key', id, ?_, (LayerState.serves_of_frame frame).mpr hserves⟩
    rw [hentries, Table.find_erase_of_ne _ hne, hentry]

/-- A call that waits for the transport serves its own upstream transaction. -/
theorem Routed.serves_of_starting (h : Routed s log) {call : Starting Forwarding}
    (hcall : s.layer.starting.find id = some call) {forwarding : Forwarding}
    (hforwarding : call.onResponse = some forwarding) :
    s.layer.Serves id forwarding.upstream := by
  obtain ⟨txn, hc, hcallback⟩ := h.waiting id call hcall
  exact ⟨txn, call.key, forwarding, hc, hforwarding ▸ hcallback, rfl⟩

/-- If that upstream transaction is pending, it waits under the key of the call. -/
theorem Routed.waits_of_starting (h : Routed s log) (hs : s.layer.Consistent)
    {call : Starting Forwarding} (hcall : s.layer.starting.find id = some call)
    (hserves : s.layer.Serves id upstream) (hpending : s.layer.Pending upstream) :
    s.layer.Waits call.key upstream := by
  obtain ⟨key, id', hentry, hserves'⟩ := hpending
  cases h.serves_inj id id' upstream hserves hserves'
  obtain ⟨txn, hc, hcallback⟩ := h.waiting id call hcall
  have hkey : call.key = key := hs.key_of_serves hentry hc hcallback
  exact ⟨id, hkey ▸ hentry, hserves⟩

/-! ## Steps without a new client transaction -/

/-- The client transactions are framed, and whoever is given a final response is no longer
pending. -/
theorem Routed.of_frame (h : Routed s log)
    (frame : TransactionLayer.Frame s.layer.layer l.layer)
    (hstart : ∀ id call, l.starting.find id = some call → s.layer.starting.find id = some call)
    (hgiven : ∀ upstream, Answered given upstream →
      upstream < s.nextUpstream ∧ ¬ l.Pending upstream) :
    Routed { s with layer := l } (log ++ given) := by
  have serves : ∀ {id upstream}, l.Serves id upstream → s.layer.Serves id upstream :=
    fun hserves => (LayerState.serves_of_frame frame).mp hserves
  refine ⟨?_, ?_, ?_, ?_, ?_⟩
  · exact fun id upstream hserves => h.serves_lt id upstream (serves hserves)
  · exact fun id id' upstream hserves hserves' =>
      h.serves_inj id id' upstream (serves hserves) (serves hserves')
  · intro id call hcall
    obtain ⟨txn, hc, hcallback⟩ := h.waiting id call (hstart id call hcall)
    have hfixed := frame.fixed id
    rw [hc] at hfixed
    obtain ⟨txn', hc', hsame⟩ := Option.map_eq_some_iff.mp hfixed
    exact ⟨txn', hc', (congrArg (·.2.1) hsame).trans hcallback⟩
  · intro upstream hanswered
    obtain hanswered | hanswered := answered_append.mp hanswered
    · exact h.answered_lt upstream hanswered
    · exact (hgiven upstream hanswered).1
  · intro upstream hpending hanswered
    obtain hanswered | hanswered := answered_append.mp hanswered
    · exact h.pending upstream (hpending.of_frame frame) hanswered
    · exact (hgiven upstream hanswered).2 hpending

/-- What a step of the transaction layer does to those who wait upstream: it answers only
those whose client transaction goes, and it orphans one exactly when `Orphans` says so. -/
structure Settles (s : HopState) (a : HopAction) (l : LayerState Forwarding)
    (given : List Given) : Prop where
  frame : TransactionLayer.Frame s.layer.layer l.layer
  starting : ∀ id call, l.starting.find id = some call → s.layer.starting.find id = some call
  answers : ∀ upstream, Answered given upstream →
    upstream < s.nextUpstream ∧ ¬ l.Pending upstream
  orphans : Orphans s a ↔
    ∃ upstream, s.layer.Pending upstream ∧ ¬ l.Pending upstream ∧ ¬ Answered given upstream

/-- A response: only a final one takes the entry, and it has been relayed. -/
theorem Routed.delivered (h : Routed s log) (hs : s.layer.Consistent) {response : SipMessage}
    {answerSdp : Option Bytes} {tag : Bytes} {txn : Client Forwarding} {cb : Option Forwarding}
    (hentry : s.layer.layer.clientTxns.find key = some id)
    (hc : s.layer.layer.clients.find id = some txn) (hcallback : txn.onResponse = some ⟨key, cb⟩)
    (frame : TransactionLayer.Frame s.layer.layer l.layer)
    (hentries : l.layer.clientTxns = if 200 ≤ response.statusCode then
      s.layer.layer.clientTxns.erase key else s.layer.layer.clientTxns)
    (hstart : l.starting = s.layer.starting) :
    Settles s (.layer (.processResponse response) answerSdp tag) l
      ((cb.toList.map (LayerEvent.called · response)).flatMap (relay answerSdp tag)) := by
  have hanswered : ∀ upstream,
      Answered ((cb.toList.map (LayerEvent.called · response)).flatMap (relay answerSdp tag))
        upstream ↔ s.layer.Serves id upstream ∧ 200 ≤ response.statusCode := by
    intro upstream
    cases cb with
    | none =>
        refine ⟨fun h => absurd h not_answered_nil, ?_⟩
        rintro ⟨⟨txn', _, _, hc', hcallback', _⟩, _⟩
        cases hc.symm.trans hc'
        cases hcallback.symm.trans hcallback'
    | some forwarding =>
        show Answered [forwarding.onResponse response answerSdp] upstream ↔ _
        rw [answered_onResponse]
        refine and_congr_left fun _ => ⟨?_, ?_⟩
        · exact fun hupstream => ⟨txn, key, forwarding, hc, hcallback, hupstream⟩
        · rintro ⟨txn', _, _, hc', hcallback', hupstream⟩
          cases hc.symm.trans hc'
          cases hcallback.symm.trans hcallback'
          exact hupstream
  refine ⟨frame, fun _ _ hcall => hstart ▸ hcall, ?_, ?_⟩
  · intro upstream hgiven
    obtain ⟨hserves, hfinal⟩ := (hanswered upstream).mp hgiven
    rw [if_pos hfinal] at hentries
    refine ⟨h.serves_lt id upstream hserves, ?_⟩
    rw [h.pending_of_erase hs frame hentries]
    exact fun hpending => hpending.2 ⟨id, hentry, hserves⟩
  · refine ⟨fun horphans => horphans.elim, ?_⟩
    rintro ⟨upstream, hpending, hgone, hunanswered⟩
    by_cases hfinal : 200 ≤ response.statusCode
    · rw [if_pos hfinal] at hentries
      rw [h.pending_of_erase hs frame hentries, not_and_not_right] at hgone
      obtain ⟨id', hentry', hserves⟩ := hgone hpending
      cases hentry.symm.trans hentry'
      exact hunanswered ((hanswered upstream).mpr ⟨hserves, hfinal⟩)
    · rw [if_neg hfinal] at hentries
      exact hgone ((LayerState.pending_of_same_entries frame hentries).mpr hpending)

/-- A timeout: the entry goes and nobody is given anything. -/
theorem Routed.timedOut (h : Routed s log) (hs : s.layer.Consistent) {answerSdp : Option Bytes}
    {tag : Bytes} {txn : Client Forwarding}
    (hc : s.layer.layer.clients.find id = some txn) (hlive : txn.Live)
    (honTimeout : txn.onTimeout = some key)
    (frame : TransactionLayer.Frame s.layer.layer l.layer)
    (hentries : l.layer.clientTxns = s.layer.layer.clientTxns.erase key)
    (hstart : l.starting = s.layer.starting) :
    Settles s (.layer (.runTimerB id) answerSdp tag) l [] := by
  refine ⟨frame, fun _ _ hcall => hstart ▸ hcall, fun _ h => absurd h not_answered_nil, ?_⟩
  constructor
  · rintro ⟨txn', key', upstream, hc', _, honTimeout', hwaits⟩
    cases hc.symm.trans hc'
    cases honTimeout.symm.trans honTimeout'
    refine ⟨upstream, ⟨key, hwaits⟩, ?_, not_answered_nil⟩
    rw [h.pending_of_erase hs frame hentries]
    exact fun hpending => hpending.2 hwaits
  · rintro ⟨upstream, hpending, hgone, _⟩
    rw [h.pending_of_erase hs frame hentries, not_and_not_right] at hgone
    exact ⟨txn, key, upstream, hc, hlive, honTimeout, hgone hpending⟩

/-- An error that `sendRequest` returns after it has registered the transaction. -/
theorem Routed.failed (h : Routed s log) (hs : s.layer.Consistent) {error : ErrorInfo}
    {answerSdp : Option Bytes} {tag : Bytes} {call : Starting Forwarding}
    (hcall : s.layer.starting.find id = some call)
    (frame : TransactionLayer.Frame s.layer.layer l.layer)
    (hentries : l.layer.clientTxns = s.layer.layer.clientTxns.erase call.key)
    (hstart : l.starting = s.layer.starting.erase id) :
    Settles s (.layer (.startFailed id error) answerSdp tag) l
      (relay answerSdp tag (.rejected call.onResponse error)) := by
  have hanswered : ∀ upstream,
      Answered (relay answerSdp tag (.rejected call.onResponse error)) upstream ↔
        ∃ forwarding, call.onResponse = some forwarding ∧ forwarding.upstream = upstream ∧
          forwarding.forwarder.AnswersSendError := by
    intro upstream
    cases honResponse : call.onResponse with
    | none => simp [relay, not_answered_nil]
    | some forwarding => simp [relay, answered_onSendError]
  refine ⟨frame, ?_, ?_, ?_⟩
  · exact fun id' call' hcall' => (Table.find_of_find_erase (hstart ▸ hcall')).2
  · intro upstream hgiven
    obtain ⟨forwarding, hforwarding, rfl, _⟩ := (hanswered upstream).mp hgiven
    have hserves := h.serves_of_starting hcall hforwarding
    refine ⟨h.serves_lt id _ hserves, ?_⟩
    rw [h.pending_of_erase hs frame hentries]
    exact fun hpending => hpending.2 (h.waits_of_starting hs hcall hserves hpending.1)
  · constructor
    · rintro ⟨call', upstream, hcall', hwaits, hsilent⟩
      cases hcall.symm.trans hcall'
      refine ⟨upstream, ⟨_, hwaits⟩, ?_, ?_⟩
      · rw [h.pending_of_erase hs frame hentries]
        exact fun hpending => hpending.2 hwaits
      · rw [hanswered]
        rintro ⟨forwarding, hforwarding, hupstream, hanswers⟩
        exact hsilent forwarding hforwarding hupstream hanswers
    · rintro ⟨upstream, hpending, hgone, hunanswered⟩
      rw [h.pending_of_erase hs frame hentries, not_and_not_right] at hgone
      refine ⟨call, upstream, hcall, hgone hpending, ?_⟩
      intro forwarding hforwarding hupstream hanswers
      exact hunanswered ((hanswered upstream).mpr ⟨forwarding, hforwarding, hupstream, hanswers⟩)

/-- Any step of the transaction layer that neither registers a transaction nor shuts the
layer down. -/
theorem Routed.settles [OsipAccessor] (h : Routed s log) (hs : s.layer.Consistent)
    {action : LayerAction Forwarding} {answerSdp : Option Bytes} {tag : Bytes}
    {out : List (LayerEvent Forwarding)}
    (hsend : action.isSendRequest = false) (hup : l.layer.shuttingDown = false)
    (hstep : s.layer.step action = some (l, out)) :
    Settles s (.layer action answerSdp tag) l (out.flatMap (relay answerSdp tag)) := by
  cases LayerState.step_change hs hstep with
  | kept hquiet frame hentries hstart =>
      refine ⟨frame, hstart, fun _ h => absurd h not_answered_nil, ?_, ?_⟩
      · intro horphans
        cases action with
        | runTimerB id =>
            obtain ⟨txn, key, upstream, hc, hlive, honTimeout, id', hentry, _⟩ := horphans
            obtain ⟨_, _, _, _, _, _, hdown⟩ := hs.registered hentry
            exact absurd ⟨txn, key, hc, hlive, honTimeout, hdown⟩ hquiet
        | startFailed id error => exact absurd trivial hquiet
        | _ => exact horphans.elim
      · rintro ⟨upstream, hpending, hgone, _⟩
        exact absurd ((LayerState.pending_of_same_entries frame hentries).mpr hpending) hgone
  | refused error hrefuses => cases hsend
  | registered haccepts heq => cases hsend
  | delivered hentry hc hcallback frame hentries hstart =>
      exact h.delivered hs hentry hc hcallback frame hentries hstart
  | timedOut hc hlive honTimeout hdown frame hentries hstart =>
      exact h.timedOut hs hc hlive honTimeout frame hentries hstart
  | failed hcall frame hentries hstart =>
      rw [List.flatMap_singleton]
      exact h.failed hs hcall frame hentries hstart
  | shutdown => cases hup

/-- Nobody upstream loses a client transaction without an answer, unless the step orphans. -/
theorem Settles.accounted_iff {action : LayerAction Forwarding} {answerSdp : Option Bytes}
    {tag : Bytes} (hsettles : Settles s (.layer action answerSdp tag) l given)
    (h : Routed s log) (haccounted : s.Accounted log) :
    Accounted { s with layer := l } (log ++ given) ↔
      ¬ Orphans s (.layer action answerSdp tag) := by
  rw [hsettles.orphans]
  constructor
  · rintro haccounted' ⟨upstream, hpending, hgone, hunanswered⟩
    have hlt : upstream < s.nextUpstream := by
      obtain ⟨_, id, _, hserves⟩ := hpending
      exact h.serves_lt id upstream hserves
    obtain hpending' | hanswered := haccounted' upstream hlt
    · exact hgone hpending'
    · obtain hanswered | hanswered := answered_append.mp hanswered
      · exact h.pending upstream hpending hanswered
      · exact hunanswered hanswered
  · intro hnone upstream hlt
    rw [answered_append]
    by_contra hlost
    obtain ⟨hgone, hunanswered⟩ := not_or.mp hlost
    obtain ⟨hbefore, hnow⟩ := not_or.mp hunanswered
    obtain hpending | hanswered := haccounted upstream hlt
    · exact hnone ⟨upstream, hpending, hgone, hnow⟩
    · exact hbefore hanswered

/-! ## Steps that pass a request to `sendRequest` -/

theorem serves_register (hs : s.layer.Consistent) {request : SipMessage} {dest : Endpoint}
    {cb : Option Forwarding} :
    (s.layer.register request dest cb).Serves id upstream ↔
      s.layer.Serves id upstream ∨
        id = s.layer.layer.nextClient ∧ ∃ forwarding, cb = some forwarding ∧
          forwarding.upstream = upstream := by
  have hfresh : ∀ {id txn}, s.layer.layer.clients.find id = some txn →
      id ≠ s.layer.layer.nextClient := fun hc => (hs.fresh _ _ hc).ne
  constructor
  · rintro ⟨txn, key, forwarding, hc, hcallback, hupstream⟩
    rw [LayerState.find_clients_register] at hc
    split at hc
    · rename_i hid
      cases hc
      cases hcallback
      exact .inr ⟨hid, forwarding, rfl, hupstream⟩
    · exact .inl ⟨txn, key, forwarding, hc, hcallback, hupstream⟩
  · rintro (⟨txn, key, forwarding, hc, hcallback, hupstream⟩ | ⟨hid, forwarding, rfl, hupstream⟩)
    · refine ⟨txn, key, forwarding, ?_, hcallback, hupstream⟩
      rw [LayerState.find_clients_register, if_neg (hfresh hc), hc]
    · refine ⟨.create request dest ⟨clientKey request, some forwarding⟩ (clientKey request),
        clientKey request, forwarding, ?_, rfl, hupstream⟩
      rw [LayerState.find_clients_register, if_pos hid]

theorem pending_register (hs : s.layer.Consistent) {request : SipMessage} {dest : Endpoint}
    {cb : Option Forwarding} (haccepts : ¬ LayerState.Refuses s.layer.layer request) :
    (s.layer.register request dest cb).Pending upstream ↔
      s.layer.Pending upstream ∨
        ∃ forwarding, cb = some forwarding ∧ forwarding.upstream = upstream := by
  obtain ⟨_, hfree⟩ := LayerState.not_refuses haccepts
  constructor
  · rintro ⟨key, id, hentry, hserves⟩
    rw [LayerState.find_clientTxns_register] at hentry
    obtain hserves | ⟨hid, hforwarding⟩ := (serves_register hs).mp hserves
    · split at hentry
      · cases hentry
        obtain ⟨txn, _, _, hc, _⟩ := hserves
        exact absurd (hs.fresh _ txn hc) (Nat.lt_irrefl _)
      · exact .inl ⟨key, id, hentry, hserves⟩
    · exact .inr hforwarding
  · rintro (⟨key, id, hentry, hserves⟩ | hforwarding)
    · have hne : key ≠ clientKey request := by
        rintro rfl
        cases hfree.symm.trans hentry
      refine ⟨key, id, ?_, (serves_register hs).mpr (.inl hserves)⟩
      rw [LayerState.find_clientTxns_register, if_neg hne, hentry]
    · refine ⟨clientKey request, s.layer.layer.nextClient, ?_,
        (serves_register hs).mpr (.inr ⟨rfl, hforwarding⟩)⟩
      rw [LayerState.find_clientTxns_register, if_pos rfl]

/-- A registered transaction serves the next upstream transaction, or none. -/
theorem Routed.register (h : Routed s log) (hs : s.layer.Consistent) {request : SipMessage}
    {dest : Endpoint} {cb : Option Forwarding} {n : Nat}
    (haccepts : ¬ LayerState.Refuses s.layer.layer request) (hn : s.nextUpstream ≤ n)
    (hcb : ∀ forwarding, cb = some forwarding →
      forwarding.upstream = s.nextUpstream ∧ s.nextUpstream < n) :
    Routed ⟨s.layer.register request dest cb, n⟩ log := by
  refine ⟨?_, ?_, ?_, ?_, ?_⟩
  · intro id upstream hserves
    obtain hserves | ⟨_, forwarding, hforwarding, rfl⟩ := (serves_register hs).mp hserves
    · exact (h.serves_lt id upstream hserves).trans_le hn
    · obtain ⟨heq, hlt⟩ := hcb forwarding hforwarding
      rwa [heq]
  · intro id id' upstream hserves hserves'
    obtain hserves | ⟨hid, forwarding, hforwarding, hupstream⟩ := (serves_register hs).mp hserves
    · obtain hserves' | ⟨_, forwarding, hforwarding, rfl⟩ := (serves_register hs).mp hserves'
      · exact h.serves_inj id id' upstream hserves hserves'
      · have hlt := h.serves_lt id _ hserves
        rw [(hcb forwarding hforwarding).1] at hlt
        exact absurd hlt (Nat.lt_irrefl _)
    · obtain hserves' | ⟨hid', _⟩ := (serves_register hs).mp hserves'
      · have hlt := h.serves_lt id' _ hserves'
        rw [← hupstream, (hcb forwarding hforwarding).1] at hlt
        exact absurd hlt (Nat.lt_irrefl _)
      · rw [hid, hid']
  · intro id call hcall
    rw [LayerState.find_starting_register] at hcall
    rw [LayerState.find_clients_register]
    split at hcall
    · rename_i hid
      cases hcall
      rw [if_pos hid]
      exact ⟨_, rfl, rfl⟩
    · obtain ⟨txn, hc, hcallback⟩ := h.waiting id call hcall
      exact ⟨txn, by rw [if_neg (hs.fresh id txn hc).ne, hc], hcallback⟩
  · exact fun upstream hanswered => (h.answered_lt upstream hanswered).trans_le hn
  · intro upstream hpending hanswered
    obtain hpending | ⟨forwarding, hforwarding, rfl⟩ := (pending_register hs haccepts).mp hpending
    · exact h.pending upstream hpending hanswered
    · have hlt := h.answered_lt _ hanswered
      rw [(hcb forwarding hforwarding).1] at hlt
      exact absurd hlt (Nat.lt_irrefl _)

/-- Where no transaction is registered, only the next upstream transaction can be answered. -/
theorem Routed.refuse (h : Routed s log) {n : Nat} (hn : s.nextUpstream ≤ n)
    (hgiven : ∀ upstream, Answered given upstream → upstream = s.nextUpstream ∧ upstream < n) :
    Routed ⟨s.layer, n⟩ (log ++ given) := by
  refine ⟨?_, h.serves_inj, h.waiting, ?_, ?_⟩
  · exact fun id upstream hserves => (h.serves_lt id upstream hserves).trans_le hn
  · intro upstream hanswered
    obtain hanswered | hanswered := answered_append.mp hanswered
    · exact (h.answered_lt upstream hanswered).trans_le hn
    · exact (hgiven upstream hanswered).2
  · intro upstream hpending hanswered
    obtain hanswered | hanswered := answered_append.mp hanswered
    · exact h.pending upstream hpending hanswered
    · obtain ⟨key, id, _, hserves⟩ := hpending
      exact absurd (hgiven upstream hanswered).1 (h.serves_lt id upstream hserves).ne

/-- A new upstream transaction, beside those that were accounted for. -/
theorem accounted_succ_iff (haccounted : s.Accounted log)
    (hpending : ∀ upstream, s.layer.Pending upstream → l.Pending upstream) :
    Accounted ⟨l, s.nextUpstream + 1⟩ (log ++ given) ↔
      l.Pending s.nextUpstream ∨ Answered (log ++ given) s.nextUpstream := by
  constructor
  · exact fun haccounted' => haccounted' s.nextUpstream (Nat.lt_succ_self _)
  · intro hnew upstream hlt
    obtain hlt | rfl := Nat.lt_succ_iff_lt_or_eq.mp hlt
    · obtain hold | hold := haccounted upstream hlt
      · exact .inl (hpending upstream hold)
      · exact .inr (answered_append.mpr (.inl hold))
    · exact hnew

/-- A forwarded request: refused by `sendRequest` it is answered by its forwarder or by
nobody. -/
theorem Routed.forward [OsipAccessor] (h : Routed s log) (hs : s.layer.Consistent)
    (hup : s.layer.layer.shuttingDown = false) {forwarder : Forwarder}
    {received forwarded : SipMessage} {dest : Endpoint} {tag : Bytes}
    (hstep : s.step (.forward forwarder received forwarded dest tag) = some (t, given)) :
    Routed t (log ++ given) ∧ (s.Accounted log → (t.Accounted (log ++ given) ↔
      ¬ Orphans s (.forward forwarder received forwarded dest tag))) := by
  obtain ⟨⟨l, out⟩, hsend⟩ : ∃ result, s.layer.sendRequest forwarded dest
      (some ⟨forwarder, s.nextUpstream, received⟩) = result := ⟨_, rfl⟩
  simp only [HopState.step, hsend, Option.some.injEq, Prod.mk.injEq] at hstep
  obtain ⟨rfl, rfl⟩ := hstep
  obtain ⟨error, hrefuses, rfl, rfl⟩ | ⟨haccepts, rfl, rfl⟩ := LayerState.sendRequest_cases hsend
  · rw [List.flatMap_singleton, relay]
    refine ⟨h.refuse (Nat.le_succ _) ?_, ?_⟩
    · intro upstream hanswered
      obtain ⟨rfl, _⟩ := answered_onSendError.mp hanswered
      exact ⟨rfl, Nat.lt_succ_self _⟩
    · intro haccounted
      have hnew : ¬ s.layer.Pending s.nextUpstream := by
        rintro ⟨_, id, _, hserves⟩
        exact Nat.lt_irrefl _ (h.serves_lt id _ hserves)
      have hold : ¬ Answered log s.nextUpstream :=
        fun hanswered => Nat.lt_irrefl _ (h.answered_lt _ hanswered)
      rw [accounted_succ_iff haccounted (fun _ hpending => hpending), answered_append,
        answered_onSendError, Orphans]
      simp only [hnew, hold, hup, hrefuses, false_or, true_and, not_not]
  · refine ⟨?_, ?_⟩
    · rw [List.flatMap_nil, List.append_nil]
      apply h.register hs haccepts (Nat.le_succ _)
      intro forwarding hforwarding
      cases hforwarding
      exact ⟨rfl, Nat.lt_succ_self _⟩
    · intro haccounted
      rw [accounted_succ_iff haccounted
        fun _ hpending => (pending_register hs haccepts).mpr (.inl hpending)]
      refine iff_of_true (.inl ((pending_register hs haccepts).mpr (.inr ⟨_, rfl, rfl⟩))) ?_
      exact fun horphans => haccepts horphans.2.1

/-- A request of the hop's own concerns nobody upstream. -/
theorem Routed.send [OsipAccessor] (h : Routed s log) (hs : s.layer.Consistent)
    {request : SipMessage}
    {dest : Endpoint} (hstep : s.step (.send request dest) = some (t, given)) :
    Routed t (log ++ given) ∧ (s.Accounted log →
      (t.Accounted (log ++ given) ↔ ¬ Orphans s (.send request dest))) := by
  obtain ⟨⟨l, out⟩, hsend⟩ : ∃ result, s.layer.sendRequest request dest none = result := ⟨_, rfl⟩
  simp only [HopState.step, hsend, Option.some.injEq, Prod.mk.injEq] at hstep
  obtain ⟨rfl, rfl⟩ := hstep
  rw [List.append_nil]
  obtain ⟨_, _, rfl, _⟩ | ⟨haccepts, _, rfl⟩ := LayerState.sendRequest_cases hsend
  · exact ⟨h, fun haccounted => iff_of_true haccounted fun horphans => horphans⟩
  · have hnone : ∀ forwarding, (none : Option Forwarding) = some forwarding →
        forwarding.upstream = s.nextUpstream ∧ s.nextUpstream < s.nextUpstream := by
      intro forwarding hforwarding
      cases hforwarding
    refine ⟨h.register hs haccepts (Nat.le_refl _) hnone, ?_⟩
    intro haccounted
    refine iff_of_true ?_ fun horphans => horphans
    intro upstream hlt
    obtain hpending | hanswered := haccounted upstream hlt
    · exact .inl ((pending_register hs haccepts).mpr (.inl hpending))
    · exact .inr hanswered

theorem layer_step [OsipAccessor] {action : LayerAction Forwarding}
    {answerSdp : Option Bytes} {tag : Bytes}
    (hstep : s.step (.layer action answerSdp tag) = some (t, given)) :
    action.isSendRequest = false ∧
      ∃ l out, s.layer.step action = some (l, out) ∧ t = { s with layer := l } ∧
        given = out.flatMap (relay answerSdp tag) := by
  obtain ⟨hsend, hstep⟩ := Option.ite_none_left_eq_some.mp hstep
  obtain ⟨⟨l, out⟩, hlayer, heq⟩ := Option.map_eq_some_iff.mp hstep
  cases heq
  exact ⟨Bool.eq_false_iff.mpr hsend, l, out, hlayer, rfl, rfl⟩

theorem sendRequest_keeps [OsipAccessor] (hs : s.layer.Consistent) {request : SipMessage}
    {dest : Endpoint} {cb : Option Forwarding} {out : List (LayerEvent Forwarding)}
    (hsend : s.layer.sendRequest request dest cb = (l, out)) :
    l.Consistent ∧ l.layer.shuttingDown = s.layer.layer.shuttingDown := by
  have hlayer : s.layer.step (.sendRequest request dest cb) = some (l, out) :=
    congrArg some hsend
  obtain hsame | ⟨hshutdown, _⟩ := LayerState.shuttingDown_of_step hs hlayer
  · exact ⟨hs.step hlayer, hsame⟩
  · cases hshutdown

/-- Every step of the hop is one of its transaction layer, which it shuts down for good. -/
theorem consistent_step [OsipAccessor] (hs : s.layer.Consistent)
    (hstep : s.step a = some (t, given)) :
    t.layer.Consistent ∧ (t.layer.layer.shuttingDown = s.layer.layer.shuttingDown ∨
      (∃ answerSdp tag, a = .layer .shutdown answerSdp tag) ∧
        t.layer.layer.shuttingDown = true) := by
  cases a with
  | forward forwarder received forwarded dest tag =>
      obtain ⟨⟨l, out⟩, hsend⟩ : ∃ result, s.layer.sendRequest forwarded dest
          (some ⟨forwarder, s.nextUpstream, received⟩) = result := ⟨_, rfl⟩
      simp only [HopState.step, hsend, Option.some.injEq, Prod.mk.injEq] at hstep
      obtain ⟨rfl, rfl⟩ := hstep
      obtain ⟨hs', hsame⟩ := sendRequest_keeps hs hsend
      exact ⟨hs', .inl hsame⟩
  | send request dest =>
      obtain ⟨⟨l, out⟩, hsend⟩ : ∃ result, s.layer.sendRequest request dest none = result :=
        ⟨_, rfl⟩
      simp only [HopState.step, hsend, Option.some.injEq, Prod.mk.injEq] at hstep
      obtain ⟨rfl, rfl⟩ := hstep
      obtain ⟨hs', hsame⟩ := sendRequest_keeps hs hsend
      exact ⟨hs', .inl hsame⟩
  | layer action answerSdp tag =>
      obtain ⟨_, l, out, hlayer, rfl, _⟩ := layer_step hstep
      obtain hsame | ⟨rfl, hdown⟩ := LayerState.shuttingDown_of_step hs hlayer
      · exact ⟨hs.step hlayer, .inl hsame⟩
      · exact ⟨hs.step hlayer, .inr ⟨⟨answerSdp, tag, rfl⟩, hdown⟩⟩

theorem shuttingDown_of_orphans (hs : s.layer.Consistent) (horphans : Orphans s a) :
    s.layer.layer.shuttingDown = false := by
  have of_waits : ∀ {key upstream}, s.layer.Waits key upstream →
      s.layer.layer.shuttingDown = false := by
    rintro key upstream ⟨id, hentry, _⟩
    obtain ⟨_, _, _, _, _, _, hdown⟩ := hs.registered hentry
    exact hdown
  cases a with
  | forward forwarder received forwarded dest tag => exact horphans.1
  | send request dest => exact horphans.elim
  | layer action answerSdp tag =>
      cases action with
      | runTimerB id =>
          obtain ⟨_, _, _, _, _, _, hwaits⟩ := horphans
          exact of_waits hwaits
      | startFailed id error =>
          obtain ⟨_, _, _, hwaits, _⟩ := horphans
          exact of_waits hwaits
      | _ => exact horphans.elim

/-- The step lemma. -/
theorem Routed.step [OsipAccessor] (h : Routed s log) (hs : s.layer.Consistent)
    (hup : s.layer.layer.shuttingDown = false) (hup' : t.layer.layer.shuttingDown = false)
    (hstep : s.step a = some (t, given)) :
    Routed t (log ++ given) ∧
      (s.Accounted log → (t.Accounted (log ++ given) ↔ ¬ Orphans s a)) := by
  cases a with
  | forward forwarder received forwarded dest tag => exact h.forward hs hup hstep
  | send request dest => exact h.send hs hstep
  | layer action answerSdp tag =>
      obtain ⟨hsend, l, out, hlayer, rfl, rfl⟩ := layer_step hstep
      have hsettles : Settles s (.layer action answerSdp tag) l _ :=
        h.settles hs hsend hup' hlayer
      exact ⟨h.of_frame hsettles.frame hsettles.starting hsettles.answers,
        hsettles.accounted_iff h⟩

/-! ## Runs -/

theorem routed_init : Routed init [] := by
  have hserves : ∀ {id upstream}, ¬ LayerState.Serves init.layer id upstream := by
    rintro id upstream ⟨txn, _, _, hc, _⟩
    cases hc
  refine ⟨?_, ?_, ?_, ?_, ?_⟩
  · exact fun _ _ h => absurd h hserves
  · exact fun _ _ _ h => absurd h hserves
  · intro id call hcall
    cases hcall
  · exact fun _ h => absurd h not_answered_nil
  · exact fun _ _ => not_answered_nil

/-- Upstream transactions are accounted for in exactly the runs in which no Timer B and no
error of `sendRequest` orphans one of them. -/
theorem noOrphans_iff [OsipAccessor] (as : List HopAction) :
    NoOrphans as ↔ hopMachine.Along (fun s a _ _ => ¬ Orphans s a) init as := by
  apply Machine.forall_reached_iff
    (J := fun s log => s.layer.Consistent ∧ (s.layer.layer.shuttingDown = false → Routed s log))
  · rintro s a t given log ⟨hs, hrouted⟩ hstep
    obtain ⟨hs', hsame | ⟨_, hdown⟩⟩ := consistent_step hs hstep
    · refine ⟨hs', fun hup' => ?_⟩
      have hup := hsame.symm.trans hup'
      exact ((hrouted hup).step hs hup hup' hstep).1
    · exact ⟨hs', fun hup' => absurd (hdown.symm.trans hup') (by simp)⟩
  · rintro s a t given log ⟨hs, hrouted⟩ haccounted hstep
    obtain ⟨_, hsame | ⟨⟨answerSdp, tag, rfl⟩, hdown⟩⟩ := consistent_step hs hstep
    · constructor
      · intro haccounted' horphans
        have hup := shuttingDown_of_orphans hs horphans
        have hup' := hsame.trans hup
        have hiff := ((hrouted hup).step hs hup hup' hstep).2 (haccounted hup)
        exact hiff.mp (haccounted' hup') horphans
      · intro hspared hup'
        have hup := hsame.symm.trans hup'
        exact (((hrouted hup).step hs hup hup' hstep).2 (haccounted hup)).mpr hspared
    · refine iff_of_true (fun hup' => absurd (hdown.symm.trans hup') (by simp)) ?_
      exact fun horphans => horphans
  · exact ⟨LayerState.consistent_init, fun _ => routed_init⟩
  · intro _ upstream hlt
    exact absurd hlt (Nat.not_lt_zero _)

/-- A call of `handleInvite` that the transport refuses, and one of `forwardStateful` whose
destination stays silent for 32 s. -/
def unansweredRun : List HopAction :=
  let hop : Via := ⟨bytes "UDP", bytes "scscf", none, [⟨bytes "branch", some (bytes "z9hG4bK1")⟩]⟩
  let ue : Via := ⟨bytes "UDP", bytes "ue", none, [⟨bytes "branch", some (bytes "z9hG4bK0")⟩]⟩
  let invite := (dialogRequest "INVITE" (bytes "a") []).addVia ue
  let dest : Endpoint := ⟨bytes "10.0.0.2", 5060, bytes "udp"⟩
  [.forward .handleInvite invite (invite.addVia hop) dest (bytes "tag"),
    .layer (.startFailed 0 { code := .sipTransportError, message := bytes "Host unreachable" })
      none (bytes "tag"),
    .forward (.forwardStateful false) invite (invite.addVia hop) dest (bytes "tag"),
    .layer (.startSent 1) none (bytes "tag"),
    .layer (.elapse 32000) none (bytes "tag"),
    .layer (.expireTimer .b 1) none (bytes "tag"),
    .layer (.runTimerB 1) none (bytes "tag")]

/-- Neither caller gets a final response. -/
theorem timeout_and_send_error_orphan_callers : ¬ ∀ as : List HopAction, NoOrphans as := by
  intro hnone
  have haccounted := hnone unansweredRun unansweredRun [] _ _ (List.append_nil _).symm rfl rfl 0
    (by decide)
  obtain ⟨key, id, hentry, _⟩ | ⟨_, hmem, _⟩ := haccounted
  · cases hentry
  · cases hmem

end HopState
end SimIms.Sip
