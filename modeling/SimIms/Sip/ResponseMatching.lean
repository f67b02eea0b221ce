import SimIms.Sip.TransactionLayer

/-!
# Which transaction a response belongs to

A transaction says itself which responses match it: those with its branch in the top `Via` and its
method in the `CSeq`. The layer loops over all the `Via`s, but takes a `Via` only where the library
returns 0, which for a position is the first one. It looks for a text in which branch and method are
joined, so what it finds is the transaction that matches as long as no other one has the same text.
-/

namespace SimIms.Sip

open Cxx Lib

variable {κ ρ τ : Type}

def ClientTransaction.matches (txn : ClientTransaction ρ τ) (response : SipMessage) : Bool :=
  response.viaBranch == txn.branch && response.cseqMethod == txn.request.cseqMethod

/-- The transaction is in the table under its key. -/
def TransactionLayer.Registers (layer : TransactionLayer κ) (id : Nat) (txn : Client κ) : Prop :=
  layer.clients.find id = some txn ∧ layer.clientTxns.find (clientKey txn.request) = some id

/-- A registered transaction matches the response where their branches and methods are joined to
the same text. -/
def TransactionLayer.Separates (layer : TransactionLayer κ) (response : SipMessage) : Prop :=
  ∀ id txn, layer.Registers id txn →
    clientKey txn.request = transactionKey response.viaBranch response.cseqMethod →
    txn.matches response = true

/-! ## Branches -/

namespace ClientTransaction

variable (txn : ClientTransaction ρ τ)

/-- What responses are matched with. -/
def identity : Bytes × SipMessage := (txn.branch, txn.request)

@[simp] theorem identity_startFailed : txn.startFailed.identity = txn.identity := rfl

@[simp] theorem identity_startSent (now : Nat) : (txn.startSent now).identity = txn.identity := by
  simp only [startSent]
  split_ifs <;> rfl

@[simp] theorem identity_timeout : txn.timeout.1.identity = txn.identity := by
  rw [timeout]
  split
  · rfl
  · rfl

@[simp] theorem identity_processResponse (code : Int) :
    (txn.processResponse code).identity = txn.identity := by
  simp only [processResponse]
  split_ifs <;> rfl

@[simp] theorem identity_retransmit (now : Nat) : (txn.retransmit now).identity = txn.identity := by
  simp only [retransmit, retransmitCounted, retransmitArmed]
  split_ifs <;> first | rfl | (simp only; split_ifs <;> rfl)

@[simp] theorem identity_setTimer (timer : Timer) (name : TimerName) :
    (txn.setTimer timer name).identity = txn.identity := by
  cases name
  · rfl
  · rfl

@[simp] theorem identity_shutdown : txn.shutdown.identity = txn.identity := rfl

end ClientTransaction

/-- Each transaction has the branch of its request, and there is one. -/
def Branched (clients : Table Nat (Client κ)) : Prop :=
  ∀ id txn, clients.find id = some txn → txn.branch = txn.request.viaBranch ∧ txn.branch ≠ []

namespace Branched

variable {clients : Table Nat (Client κ)} {layer : TransactionLayer κ}

theorem of_identity (h : Branched clients) {others : Table Nat (Client κ)}
    (hsame : ∀ id, (others.find id).map ClientTransaction.identity =
      (clients.find id).map ClientTransaction.identity) : Branched others := by
  intro id txn hfind
  have hidentity := (hsame id).symm
  rw [hfind, Option.map_some] at hidentity
  obtain ⟨txn', hfind', heq⟩ := Option.map_eq_some_iff.mp hidentity
  have hbranch : txn'.branch = txn.branch := congrArg Prod.fst heq
  have hrequest : txn'.request = txn.request := congrArg Prod.snd heq
  rw [← hbranch, ← hrequest]
  exact h id txn' hfind'

theorem modify (h : Branched clients) {f : Client κ → Client κ}
    (hf : ∀ txn, (f txn).identity = txn.identity) (id : Nat) : Branched (clients.modify id f) := by
  refine h.of_identity fun other => ?_
  rw [Table.find_modify]
  split
  · rw [Option.map_map]
    exact congrArg (Option.map · _) (funext hf)
  · rfl

theorem processResponse [OsipAccessor] (h : Branched layer.clients) (response : SipMessage) :
    Branched (layer.processResponse response).1.clients := by
  rw [TransactionLayer.processResponse]
  split
  · exact h
  · split
    · exact h
    · split
      · exact h
      · have hchanged := h.modify (fun txn => txn.identity_processResponse response.statusCode)
        simp only
        split
        · exact hchanged _
        · rw [TransactionLayer.callOnResponse]
          split
          · exact hchanged _
          · simp only
            split
            · exact hchanged _
            · exact hchanged _

theorem timeout (h : Branched layer.clients) (id : Nat) :
    Branched (layer.timeout id).clients := by
  refine (h.modify (fun txn => txn.identity_timeout) id).of_identity fun other => ?_
  rw [TransactionLayer.find_clients_timeout]

theorem withTimer {s t : LayerState κ} (h : Branched s.layer.clients) {id : Nat}
    {name : ClientTransaction.TimerName} {change : Timer → Option Timer}
    (hstep : s.withTimer id name change = some t) : Branched t.layer.clients := by
  obtain ⟨_, timer, _, _, rfl⟩ := LayerState.withTimer_eq_some hstep
  exact h.modify (fun txn => txn.identity_setTimer timer name) id

theorem register {s : LayerState κ} (h : Branched s.layer.clients) {request : SipMessage}
    (hbranch : request.viaBranch ≠ []) (dest : Endpoint) (onResponse : Option κ) :
    Branched (s.register request dest onResponse).layer.clients := by
  intro id txn hfind
  rw [LayerState.find_clients_register] at hfind
  split at hfind
  · cases hfind
    exact ⟨rfl, hbranch⟩
  · exact h id txn hfind

theorem step [OsipAccessor] {s t : LayerState κ} {a : LayerAction κ} {out : List (LayerEvent κ)}
    (h : Branched s.layer.clients) (hstep : s.step a = some (t, out)) :
    Branched t.layer.clients := by
  cases a with
  | elapse duration =>
      cases hstep
      exact h
  | sendRequest request dest onResponse =>
      obtain ⟨error, -, rfl, -⟩ | ⟨haccepts, -, rfl⟩ :=
        LayerState.sendRequest_cases (Option.some.inj hstep)
      · exact h
      · exact h.register (fun hbranch => haccepts (.inr (.inl hbranch))) dest onResponse
  | startSent id =>
      obtain ⟨t', hstart, heq⟩ := Option.map_eq_some_iff.mp hstep
      cases heq
      rw [LayerState.startSent] at hstart
      split at hstart
      · cases hstart
      · cases hstart
        exact h.modify (fun txn => txn.identity_startSent s.now) id
  | startFailed id error =>
      rw [LayerState.step, LayerState.startFailed] at hstep
      split at hstep
      · cases hstep
      · cases hstep
        exact h.modify (fun txn => txn.identity_startFailed) id
  | processResponse response =>
      obtain ⟨_, hstep⟩ := Option.ite_none_right_eq_some.mp hstep
      cases hstep
      exact h.processResponse response
  | expireTimer name id =>
      obtain ⟨t', htimer, heq⟩ := Option.map_eq_some_iff.mp hstep
      cases heq
      exact h.withTimer htimer
  | runTimerA id =>
      obtain ⟨t', htimer, heq⟩ := Option.map_eq_some_iff.mp hstep
      cases heq
      exact (h.withTimer htimer).modify (fun txn => txn.identity_retransmit t'.now) id
  | runTimerB id =>
      obtain ⟨t', htimer, heq⟩ := Option.map_eq_some_iff.mp hstep
      cases heq
      exact (h.withTimer htimer).timeout id
  | shutdown =>
      cases hstep
      refine h.of_identity fun id => ?_
      rw [TransactionLayer.shutdown, Table.find_mapValues, Option.map_map]
      congr 1
      funext txn
      rw [Function.comp_apply]
      split
      · rfl
      · rfl

end Branched

/-! ## Lookups -/

section

open LayerState

variable {s : LayerState κ} {response : SipMessage} {id : Nat} {txn : Client κ}

/-- The first key is that of the top `Via`. -/
theorem responseTransactionKeys_eq_cons [OsipAccessor] (hmethod : response.cseqMethod ≠ [])
    (hbranch : response.viaBranch ≠ []) : ∃ rest, responseTransactionKeys response =
      transactionKey response.viaBranch response.cseqMethod :: rest := by
  obtain ⟨via, vias, hvias⟩ : ∃ via vias, response.vias = via :: vias := by
    cases hvias : response.vias with
    | nil =>
        rw [SipMessage.viaBranch, hvias] at hbranch
        exact (hbranch rfl).elim
    | cons via vias => exact ⟨via, vias, rfl⟩
  have htop : response.viaBranch = (SipMessage.branchOf via).getD [] := by
    rw [SipMessage.viaBranch, hvias]
  rw [htop] at hbranch
  rw [responseTransactionKeys, if_neg hmethod, htop, SipMessage.takenVias_eq_cons hvias]
  cases hsome : SipMessage.branchOf via with
  | none =>
      rw [hsome] at hbranch
      exact (hbranch rfl).elim
  | some branch => exact ⟨_, List.filterMap_cons_some (congrArg (Option.map _) hsome)⟩

/-- Where positions are returned, there is no other. -/
theorem eq_of_mem_responseTransactionKeys [OsipAccessor] (hpos : OsipAccessor.ReturnsPosition)
    {key : Bytes} (hmem : key ∈ responseTransactionKeys response) :
    key = transactionKey response.viaBranch response.cseqMethod := by
  rw [responseTransactionKeys, SipMessage.takenVias_of_returnsPosition hpos] at hmem
  split at hmem
  · cases hmem
  · obtain ⟨via, htop, hkey⟩ := List.mem_filterMap.mp hmem
    rw [Option.mem_toList, List.head?_eq_some_iff] at htop
    obtain ⟨vias, hvias⟩ := htop
    obtain ⟨branch, hbranch, rfl⟩ := Option.map_eq_some_iff.mp hkey
    rw [SipMessage.viaBranch, hvias]
    simp only [hbranch, Option.getD_some]

/-- The transaction that matches is found first. -/
theorem find_of_matches [OsipAccessor] (hbranched : Branched s.layer.clients)
    (hmethod : response.cseqMethod ≠ []) (hregisters : s.layer.Registers id txn)
    (hmatches : txn.matches response = true) :
    s.layer.findClientTransaction response = some id := by
  obtain ⟨hbranch, hne⟩ := hbranched id txn hregisters.1
  rw [ClientTransaction.matches, Bool.and_eq_true, beq_iff_eq, beq_iff_eq] at hmatches
  obtain ⟨hvia, hsame⟩ := hmatches
  have hkey : transactionKey response.viaBranch response.cseqMethod = clientKey txn.request := by
    rw [clientKey, hvia, hsame, hbranch]
  rw [← hvia] at hne
  obtain ⟨rest, hkeys⟩ := responseTransactionKeys_eq_cons hmethod hne
  rw [TransactionLayer.findClientTransaction, hkeys, List.findSome?_cons, hkey, hregisters.2]

/-- What is found is registered, under the text of the response's branch and method. -/
theorem registers_of_find [OsipAccessor] (hpos : OsipAccessor.ReturnsPosition)
    (hconsistent : s.Consistent) (hfind : s.layer.findClientTransaction response = some id) :
    ∃ txn, s.layer.Registers id txn ∧
      clientKey txn.request = transactionKey response.viaBranch response.cseqMethod := by
  obtain ⟨key, hmem, hentry⟩ := List.exists_of_findSome?_eq_some hfind
  obtain ⟨txn, cb, hclient, -, hkey⟩ := hconsistent.entry key id hentry
  refine ⟨txn, ⟨hclient, ?_⟩, ?_⟩
  · rw [hkey, hentry]
  · rw [hkey, eq_of_mem_responseTransactionKeys hpos hmem]

end

/-- In every state that the layer reaches, a response without a method in its `CSeq` is given to
none. For another it is the transaction that it matches which is found, if no other is registered
under the same text. -/
theorem findClientTransaction_iff_matches [OsipAccessor] (hpos : OsipAccessor.ReturnsPosition)
    (actions : List (LayerAction κ)) (s : LayerState κ) (log : List (LayerEvent κ))
    (hrun : (layerMachine κ).exec .init actions = some (s, log)) (response : SipMessage) :
    (response.cseqMethod = [] → s.layer.findClientTransaction response = none) ∧
      (response.cseqMethod ≠ [] → s.layer.Separates response →
        ∀ id, s.layer.findClientTransaction response = some id ↔
          ∃ txn, s.layer.Registers id txn ∧ txn.matches response = true) := by
  have hbranched : Branched s.layer.clients :=
    Machine.exec_invariant (I := fun s : LayerState κ => Branched s.layer.clients)
      (fun _ _ _ _ h hstep => h.step hstep) (fun _ _ hfind => by cases hfind) hrun
  have hconsistent : s.Consistent :=
    Machine.exec_invariant (fun _ _ _ _ h hstep => h.step hstep) LayerState.consistent_init hrun
  refine ⟨fun hnone => ?_, fun hmethod hseparates id => ⟨fun hfind => ?_, ?_⟩⟩
  · rw [TransactionLayer.findClientTransaction, responseTransactionKeys, if_pos hnone]
    rfl
  · obtain ⟨txn, hregisters, hkey⟩ := registers_of_find hpos hconsistent hfind
    exact ⟨txn, hregisters, hseparates id txn hregisters hkey⟩
  · rintro ⟨txn, hregisters, hmatches⟩
    exact find_of_matches hbranched hmethod hregisters hmatches

/-! ## Texts that coincide -/

/-- An `INVITE` with this branch in its top `Via` and this method in its `CSeq`, if any. -/
def branchedInvite (branch : String) (method : Option String := some "INVITE") : SipMessage :=
  { start := .request (bytes "INVITE") (bytes "sip:bob@ims.local")
    vias := [⟨bytes "UDP", bytes "scscf", none, [⟨bytes "branch", some (bytes branch)⟩]⟩]
    fromAddr := none, toAddr := none, callIdText := bytes "call"
    cseqField := some ⟨some (bytes "1"), method.map bytes⟩ }

def ringing (request : SipMessage) : SipMessage :=
  createResponse request 180 (bytes "Ringing") (bytes "tag")

def invitedRun (method : Option String) : List (LayerAction Unit) :=
  [.sendRequest (branchedInvite "z9hG4bK1" method) ⟨bytes "10.0.0.2", 5060, bytes "udp"⟩ (some ()),
    .startSent 0]

/-- Another hop has put its own `Via` on top. -/
def foreignRinging : SipMessage :=
  (ringing (branchedInvite "z9hG4bK1")).addVia
    ⟨bytes "UDP", bytes "icscf", none, [⟨bytes "branch", some (bytes "z9hG4bK2")⟩]⟩

/-- Its own response is the transaction's. One below the `Via` of another hop is none's. -/
theorem findClientTransaction_iff_matches_ringing :
    ∃ s log, (layerMachine Unit).exec .init (invitedRun (some "INVITE")) = some (s, log) ∧
      (∀ id, s.layer.findClientTransaction (ringing (branchedInvite "z9hG4bK1")) = some id ↔
        ∃ txn, s.layer.Registers id txn ∧
          txn.matches (ringing (branchedInvite "z9hG4bK1")) = true) ∧
      ∀ id, s.layer.findClientTransaction foreignRinging = some id ↔
        ∃ txn, s.layer.Registers id txn ∧ txn.matches foreignRinging = true := by
  have hmatches := findClientTransaction_iff_matches returnsPosition_returnedPositions
    (invitedRun (some "INVITE")) _ _ rfl
  refine ⟨_, _, rfl, (hmatches (ringing (branchedInvite "z9hG4bK1"))).2 (by decide) ?_,
    (hmatches foreignRinging).2 (by decide) ?_⟩
  · rintro id txn ⟨hclient, hentry⟩ hkey
    rw [hkey] at hentry
    have hid : some 0 = some id := hentry
    cases hid
    have hbranch := congrArg (Option.map ClientTransaction.identity) hclient
    have hsame : (bytes "z9hG4bK1", branchedInvite "z9hG4bK1") = txn.identity :=
      Option.some.inj hbranch
    obtain ⟨hvia, hrequest⟩ := Prod.mk.inj hsame
    rw [ClientTransaction.matches, ← hvia, ← hrequest]
    rfl
  · rintro id txn ⟨-, hentry⟩ hkey
    rw [hkey] at hentry
    have hnone : (none : Option Nat) = some id := hentry
    cases hnone

/-- The method of a request goes on where its branch ends, and the response is given to another
transaction. A response without a method is given to none, though its transaction matches it. -/
theorem joined_texts_coincide :
    (∃ s log txn, (layerMachine Unit).exec .init (invitedRun (some "x:INVITE")) = some (s, log) ∧
      s.layer.findClientTransaction (ringing (branchedInvite "z9hG4bK1:x")) =
        some 0 ∧ s.layer.Registers 0 txn ∧
      txn.matches (ringing (branchedInvite "z9hG4bK1:x")) = false) ∧
    ∃ s log txn, (layerMachine Unit).exec .init (invitedRun none) = some (s, log) ∧
      s.layer.findClientTransaction (ringing (branchedInvite "z9hG4bK1" none)) = none ∧
      s.layer.Registers 0 txn ∧ txn.matches (ringing (branchedInvite "z9hG4bK1" none)) = true :=
  ⟨⟨_, _, _, rfl, rfl, ⟨rfl, rfl⟩, rfl⟩, ⟨_, _, _, rfl, rfl, ⟨rfl, rfl⟩, rfl⟩⟩

end SimIms.Sip
