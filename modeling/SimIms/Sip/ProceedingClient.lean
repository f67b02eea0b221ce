import SimIms.Lib.Persistence
import SimIms.Sip.TransactionLayer

/-!
# An INVITE transaction in Proceeding

Timer B is armed when the transaction starts and a provisional response leaves it running.
`Cuts` names the steps that take the entry of a transaction in Proceeding away although
neither a final response has come nor the layer is shut down: the handler of Timer B, and
the error return of a `sendRequest` whose response arrived before its error. Runs without
such steps, and only they, keep every transaction in Proceeding until its final response.
-/

namespace SimIms.Sip

open Cxx Lib

namespace ClientTransaction

variable {ρ τ : Type}

/-- The fixed parts and the state. -/
def view (txn : ClientTransaction ρ τ) : (SipMessage × Option ρ × Option τ) × TransactionState :=
  (txn.fixed, txn.state)

end ClientTransaction

namespace LayerState

variable {κ : Type} {s t : LayerState κ} {a : LayerAction κ} {out : List (LayerEvent κ)}
variable {key : Bytes} {id other : Nat} {cb : Option κ} {txn : Client κ}

/-- A registered INVITE transaction in Proceeding, with its caller's callback. -/
structure Proceeding (s : LayerState κ) (key : Bytes) (id : Nat) (cb : Option κ) : Prop where
  entry : s.layer.clientTxns.find key = some id
  txn : ∃ txn, s.layer.clients.find id = some txn ∧ txn.state = .proceeding ∧
    txn.request.cseqMethod = bytes "INVITE" ∧ txn.onResponse = some ⟨key, cb⟩

/-- What may end it: a final response delivered to the transaction, or a shutdown. -/
def Ends [OsipAccessor] (s : LayerState κ) (id : Nat) : LayerAction κ → Prop
  | .shutdown => True
  | .processResponse response =>
      200 ≤ response.statusCode ∧ s.layer.findClientTransaction response = some id
  | _ => False

/-- The step takes away the entry of a transaction in Proceeding, and is neither. -/
def Cuts (s : LayerState κ) (a : LayerAction κ) : Prop :=
  ∃ key id cb, Proceeding s key id cb ∧
    match a with
    | .runTimerB other =>
        ∃ txn, s.layer.clients.find other = some txn ∧ txn.Live ∧ txn.onTimeout = some key
    | .startFailed other _ => ∃ call, s.starting.find other = some call ∧ call.key = key
    | _ => False

/-- Once in Proceeding, a transaction stays there with its entry until something ends it,
and whenever a final response comes with its branch in the top `Via`, it is handed to the
callback. -/
structure KeepsProceeding [OsipAccessor] (as : List (LayerAction κ)) : Prop where
  stays : ∀ key id cb, (layerMachine κ).Persists (Proceeding · key id cb) (Ends · id)
    (fun _ => True) init as
  delivers : ∀ before after s out key id cb, as = before ++ after →
    (layerMachine κ).exec init before = some (s, out) → Proceeding s key id cb →
    ∀ response, response.isResponse = true → 200 ≤ response.statusCode →
      (responseTransactionKeys response).head? = some key →
      ∃ t, s.step (.processResponse response) = some (t, cb.toList.map (.called · response))

/-! ## What each step leaves of a transaction in Proceeding -/

theorem Proceeding.congr (h : Proceeding s key id cb)
    (hentry : t.layer.clientTxns.find key = s.layer.clientTxns.find key)
    (hview : (t.layer.clients.find id).map ClientTransaction.view =
      (s.layer.clients.find id).map ClientTransaction.view) :
    Proceeding t key id cb := by
  obtain ⟨txn, hc, hstate, hinvite, honResponse⟩ := h.txn
  rw [hc] at hview
  obtain ⟨txn', hc', hsame⟩ := Option.map_eq_some_iff.mp hview
  have hfixed : txn'.fixed = txn.fixed := congrArg (·.1) hsame
  have hrequest : txn'.request = txn.request := congrArg (·.1) hfixed
  refine ⟨hentry.trans h.entry, txn', hc', ?_, ?_, ?_⟩
  · exact (congrArg (·.2) hsame).trans hstate
  · rw [hrequest, hinvite]
  · exact (congrArg (·.2.1) hfixed).trans honResponse

theorem find_modify_view {clients : Table Nat (Client κ)} {f : Client κ → Client κ}
    (hf : ∀ txn, clients.find other = some txn → other = id → (f txn).view = txn.view) :
    ((clients.modify other f).find id).map ClientTransaction.view =
      (clients.find id).map ClientTransaction.view := by
  by_cases hid : id = other
  · rw [hid, Table.find_modify_self, Option.map_map]
    cases hc : clients.find other with
    | none => rfl
    | some txn => exact congrArg some (hf txn hc hid.symm)
  · rw [Table.find_modify_of_ne _ _ hid]

/-- A registered transaction in Proceeding is live, is the only one under its key, and its
own timeout would erase its entry. -/
theorem Proceeding.unique (h : Proceeding s key id cb) (hother : other ≠ id) {key' : Bytes}
    (hentry : s.layer.clientTxns.find key' = some other) : key ≠ key' := by
  rintro rfl
  exact hother (Option.some.inj (hentry.symm.trans h.entry))

theorem Proceeding.sendRequest (hs : Consistent s) (h : Proceeding s key id cb)
    {request : SipMessage} {dest : Endpoint} {onResponse : Option κ}
    (hstep : s.sendRequest request dest onResponse = (t, out)) :
    Proceeding t key id cb := by
  obtain ⟨_, _, rfl, _⟩ | ⟨haccepts, _, rfl⟩ := sendRequest_cases hstep
  · exact h
  · obtain ⟨txn, hc, _⟩ := h.txn
    obtain ⟨_, hfree⟩ := not_refuses haccepts
    apply h.congr
    · apply Table.find_insert_of_ne
      rintro rfl
      cases hfree.symm.trans h.entry
    · exact congrArg _ (Table.find_insert_of_ne _ _ (hs.fresh id txn hc).ne)

/-- Delivering a response: unless it is final and for this transaction, the entry and the
state stay. -/
theorem Proceeding.processResponse [OsipAccessor] (hs : Consistent s) (h : Proceeding s key id cb)
    {response : SipMessage} (hends : ¬ Ends s id (.processResponse response)) :
    Proceeding { s with layer := (s.layer.processResponse response).1 } key id cb := by
  obtain ⟨txn, hc, hstate, _⟩ := h.txn
  cases hfind : s.layer.findClientTransaction response with
  | none => rwa [TransactionLayer.processResponse_of_not_found hfind]
  | some other =>
      obtain ⟨key', _, hentry⟩ := List.exists_of_findSome?_eq_some hfind
      obtain ⟨txn', cb', hc', hcallback, _, _, hdown⟩ := hs.registered hentry
      rw [TransactionLayer.processResponse_of_found hdown hfind hc' hcallback]
      by_cases hid : other = id
      · rw [hid] at hfind
        have hprov : response.statusCode < 200 := by
          by_contra hfinal
          exact hends ⟨by omega, hfind⟩
        apply h.congr
        · show Table.find (if _ then _ else _) key = _
          rw [if_neg (by omega)]
        · apply find_modify_view
          intro txn₀ hc₀ hid₀
          rw [hid₀, hc] at hc₀
          cases hc₀
          by_cases hlow : 100 ≤ response.statusCode
          · have hsame : (txn.processResponse response.statusCode).state = txn.state :=
              (ClientTransaction.state_processResponse_provisional hlow hprov).trans hstate.symm
            rw [ClientTransaction.view, ClientTransaction.fixed_processResponse, hsame]
            rfl
          · rw [ClientTransaction.processResponse_of_lt (by omega)]
      · apply h.congr
        · show Table.find (if _ then _ else _) key = _
          split
          · exact Table.find_erase_of_ne _ (h.unique hid hentry)
          · rfl
        · exact find_modify_view fun _ _ heq => absurd heq hid

theorem Proceeding.withTimer (h : Proceeding s key id cb) {name : ClientTransaction.TimerName}
    {change : Timer → Option Timer} (hstep : s.withTimer other name change = some t) :
    Proceeding t key id cb := by
  obtain ⟨_, timer, _, _, rfl⟩ := withTimer_eq_some hstep
  apply h.congr
  · rfl
  · apply find_modify_view
    intro txn _ _
    rw [ClientTransaction.view, ClientTransaction.fixed_setTimer, ClientTransaction.state_setTimer]
    rfl

/-- A timeout that does not cut a transaction in Proceeding is one of another transaction
with another key. -/
theorem Proceeding.runTimerB (hs : Consistent s) (h : Proceeding s key id cb)
    (hcuts : ¬ Cuts s (.runTimerB other)) (hstep : s.withTimer other .b Timer.dequeue = some t) :
    Proceeding { t with layer := t.layer.timeout other } key id cb := by
  obtain ⟨txn, timer, hc, _, rfl⟩ := withTimer_eq_some hstep
  have hdequeued : (s.layer.clients.modify other (·.setTimer timer .b)).find other =
      some (txn.setTimer timer .b) := by
    rw [Table.find_modify_self, hc, Option.map_some]
  have hspared : txn.Live → txn.onTimeout ≠ some key :=
    fun hlive hkey => hcuts ⟨key, id, cb, h, txn, hc, hlive, hkey⟩
  apply (h.withTimer hstep).congr
  · apply TransactionLayer.find_clientTxns_timeout
    intro txn' hc' hlive
    cases hdequeued.symm.trans hc'
    exact hspared hlive
  · show Option.map _ (Table.find (TransactionLayer.clients _) id) = _
    rw [TransactionLayer.find_clients_timeout]
    apply find_modify_view
    intro txn' hc' hid
    cases hdequeued.symm.trans hc'
    -- the transaction in Proceeding itself has not timed out
    obtain ⟨txn₀, _, hc₀, _, honTimeout, _⟩ := hs.registered h.entry
    obtain ⟨txn₁, hc₁, hstate, _⟩ := h.txn
    rw [← hid, hc] at hc₀ hc₁
    cases hc₀
    cases hc₁
    exact absurd honTimeout (hspared ⟨by simp [hstate], by simp [hstate]⟩)

theorem Proceeding.startFailed (hs : Consistent s) (h : Proceeding s key id cb)
    {call : Starting κ} (hcall : s.starting.find other = some call) (hne : call.key ≠ key) :
    Proceeding { s with layer := s.layer.startFailed other call.key
                        starting := s.starting.erase other } key id cb := by
  apply h.congr
  · exact Table.find_erase_of_ne _ hne.symm
  · apply find_modify_view
    rintro txn hc rfl
    obtain ⟨txn₀, hc₀, hkey₀⟩ := hs.waiting other call hcall
    obtain ⟨txn₁, _, hc₁, _, _, hkey₁, _⟩ := hs.registered h.entry
    cases hc₀.symm.trans hc₁
    exact absurd (hkey₀.symm.trans hkey₁) hne

/-- The step lemma. -/
theorem Proceeding.step [OsipAccessor] (hs : Consistent s) (h : Proceeding s key id cb)
    (hends : ¬ Ends s id a) (hcuts : ¬ Cuts s a) (hstep : s.step a = some (t, out)) :
    Proceeding t key id cb := by
  cases a with
  | elapse duration =>
      cases hstep
      exact h.congr rfl rfl
  | sendRequest request dest onResponse => exact h.sendRequest hs (Option.some.inj hstep)
  | startSent other =>
      obtain ⟨t', hstart, heq⟩ := Option.map_eq_some_iff.mp hstep
      cases heq
      rw [LayerState.startSent] at hstart
      split at hstart
      · cases hstart
      · cases hstart
        apply h.congr
        · rfl
        · apply find_modify_view
          intro txn _ _
          rw [ClientTransaction.view, ClientTransaction.fixed_startSent,
            ClientTransaction.state_startSent]
          rfl
  | startFailed other error =>
      rw [LayerState.step, LayerState.startFailed] at hstep
      split at hstep
      · cases hstep
      · rename_i call hcall
        cases hstep
        exact h.startFailed hs hcall fun hkey => hcuts ⟨key, id, cb, h, call, hcall, hkey⟩
  | processResponse response =>
      obtain ⟨_, hstep⟩ := Option.ite_none_right_eq_some.mp hstep
      cases hstep
      exact h.processResponse hs hends
  | expireTimer name other =>
      obtain ⟨t', htimer, heq⟩ := Option.map_eq_some_iff.mp hstep
      cases heq
      exact h.withTimer htimer
  | runTimerA other =>
      obtain ⟨t', htimer, heq⟩ := Option.map_eq_some_iff.mp hstep
      cases heq
      apply (h.withTimer htimer).congr
      · rfl
      · apply find_modify_view
        intro txn _ _
        rw [ClientTransaction.view, ClientTransaction.fixed_retransmit,
          ClientTransaction.state_retransmit]
        rfl
  | runTimerB other =>
      obtain ⟨t', htimer, heq⟩ := Option.map_eq_some_iff.mp hstep
      cases heq
      exact h.runTimerB hs hcuts htimer
  | shutdown => exact absurd trivial hends

/-- Where an entry is in place, a final response with its branch in the top `Via` reaches
the callback. -/
theorem Proceeding.delivers [OsipAccessor] (hs : Consistent s) (h : Proceeding s key id cb)
    {response : SipMessage} (hresponse : response.isResponse = true)
    (hkey : (responseTransactionKeys response).head? = some key) :
    ∃ t, s.step (.processResponse response) = some (t, cb.toList.map (.called · response)) := by
  obtain ⟨txn, hc, _, _, honResponse⟩ := h.txn
  obtain ⟨_, _, _, _, _, _, hdown⟩ := hs.registered h.entry
  have hfind : s.layer.findClientTransaction response = some id := by
    obtain ⟨rest, hkeys⟩ := List.head?_eq_some_iff.mp hkey
    rw [TransactionLayer.findClientTransaction, hkeys, List.findSome?_cons, h.entry]
  refine ⟨{ s with layer := (s.layer.processResponse response).1 }, ?_⟩
  rw [LayerState.step, LayerState.processResponse, if_pos hresponse,
    TransactionLayer.processResponse_of_found hdown hfind hc honResponse]

/-- A cut takes the entry away and is no end of the transaction. -/
theorem Cuts.erases [OsipAccessor] (hs : Consistent s) (h : Cuts s a)
    (hstep : s.step a = some (t, out)) :
    ∃ key id cb, Proceeding s key id cb ∧ ¬ Ends s id a ∧
      t.layer.clientTxns.find key = none := by
  obtain ⟨key, id, cb, hp, hcut⟩ := h
  refine ⟨key, id, cb, hp, ?_⟩
  cases a with
  | runTimerB other =>
      obtain ⟨txn, hc, hlive, honTimeout⟩ := hcut
      obtain ⟨t', htimer, heq⟩ := Option.map_eq_some_iff.mp hstep
      cases heq
      obtain ⟨_, timer, _, _, rfl⟩ := withTimer_eq_some htimer
      obtain ⟨_, _, _, _, _, _, hdown⟩ := hs.registered hp.entry
      have hdequeued : (s.layer.clients.modify other (·.setTimer timer .b)).find other =
          some (txn.setTimer timer .b) := by
        rw [Table.find_modify_self, hc, Option.map_some]
      have hlive' : (txn.setTimer timer .b).Live := hlive
      have herased : (TransactionLayer.timeout { s.layer with
          clients := s.layer.clients.modify other (·.setTimer timer .b) } other).clientTxns =
            s.layer.clientTxns.erase key :=
        TransactionLayer.clientTxns_timeout_of_live hdequeued hlive' honTimeout hdown
      refine ⟨fun h => h, ?_⟩
      rw [herased]
      exact Table.find_erase_self _ _
  | startFailed other error =>
      obtain ⟨call, hcall, hkey⟩ := hcut
      rw [LayerState.step, LayerState.startFailed, hcall] at hstep
      cases hstep
      refine ⟨fun h => h, ?_⟩
      rw [← hkey]
      exact Table.find_erase_self _ _
  | _ => exact hcut.elim

/-- Transactions in Proceeding wait for their final response in exactly the runs in which
no Timer B and no failed start cuts one of them. -/
theorem keepsProceeding_iff_no_cuts [OsipAccessor] (as : List (LayerAction κ)) :
    KeepsProceeding as ↔ (layerMachine κ).Along (fun s a _ _ => ¬ Cuts s a) init as := by
  have stays_iff : (∀ i : Bytes × Nat × Option κ,
      (layerMachine κ).Persists (Proceeding · i.1 i.2.1 i.2.2) (Ends · i.2.1)
        (fun _ => True) init as) ↔
      (layerMachine κ).Along (fun s a _ _ => ¬ Cuts s a) init as := by
    apply Machine.forall_persists_iff (I := Consistent)
    · exact fun _ _ _ _ hs hstep => hs.step hstep
    · intro i s a t out hs hstep hp hends hcuts
      exact ⟨hp.step hs hends hcuts hstep, fun _ _ => trivial⟩
    · intro s a t out hs hstep hcut
      obtain ⟨key, id, cb, hp, hends, hgone⟩ := hcut.erases hs hstep
      refine ⟨(key, id, cb), hp, hends, ?_⟩
      intro hkept
      cases hgone.symm.trans hkept.1.entry
    · exact consistent_init
  rw [← stays_iff]
  constructor
  · intro keeps i
    exact keeps.stays i.1 i.2.1 i.2.2
  · intro stays
    refine ⟨fun key id cb => stays (key, id, cb), ?_⟩
    intro before after s out key id cb _ hrun hp response hresponse _ hkey
    have hs := Machine.exec_invariant (fun _ _ _ _ hs hstep => hs.step hstep) consistent_init hrun
    exact hp.delivers hs hresponse hkey

/-- A request over TCP that rings for 32 s. -/
def ringingInvite : SipMessage :=
  { start := .request (bytes "INVITE") (bytes "sip:bob@ims.local")
    vias := [⟨bytes "TCP", bytes "pcscf", none, [⟨bytes "branch", some (bytes "z9hG4bK1")⟩]⟩]
    fromAddr := none, toAddr := none, callIdText := bytes "call"
    cseqField := some ⟨some (bytes "1"), some (bytes "INVITE")⟩ }

/-- The transaction is sent, gets its 180, and Timer B runs out 32 s later: the entry is
gone, and with it the way for the answer. -/
theorem timerB_cuts_ringing_invite :
    ¬ ∀ as : List (LayerAction Unit), KeepsProceeding as := by
  intro keeps
  let before : List (LayerAction Unit) :=
    [.sendRequest ringingInvite ⟨bytes "10.0.0.2", 5060, bytes "tcp"⟩ (some ()), .startSent 0,
      .processResponse (createResponse ringingInvite 180 (bytes "Ringing") (bytes "tag"))]
  let during : List (LayerAction Unit) := [.elapse 32000, .expireTimer .b 0, .runTimerB 0]
  have stays := (keeps (before ++ (during ++ []))).stays (clientKey ringingInvite) 0 (some ())
    before during [] _ _ _ _ rfl rfl ⟨rfl, _, rfl, rfl, rfl, rfl⟩ rfl
    (And.intro id (And.intro id (And.intro id trivial)))
  cases stays.1.entry

end LayerState
end SimIms.Sip
