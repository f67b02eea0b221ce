import SimIms.PCscf.Forwarders
import SimIms.SCscf.ContactQueries
import SimIms.SCscf.RouterHandlers

/-!
# Calls that come back the way of the registration

A P-CSCF puts its address into every REGISTER that it forwards. The registrar keeps the address with
the contact, and a call to the contact goes there: it reaches the UE through the P-CSCF by which the
UE has registered. A UE that has put an address of its own before chooses the way itself.
-/

namespace SimIms.Sip

open Cxx Lib

/-! ## What a hop leaves as it is -/

namespace SipMessage

/-- The value of a field of this name. -/
def valueNamed (name : Bytes) (header : Header) : Option Bytes :=
  if sameName header.name name then header.value else none

/-- Repetitions or not, the first value is that of the first field with one. -/
theorem head?_headerValues (name : Bytes) (headers : List Header) :
    (headerValues name headers).head? = headers.findSome? (valueNamed name) := by
  induction headers with
  | nil => rfl
  | cons header rest ih =>
      rw [headerValues, List.findSome?_cons]
      cases hname : sameName header.name name with
      | true =>
          have hfind : (header :: rest).find? (fun header => sameName header.name name) =
              some header := List.find?_cons_of_pos hname
          have hvalue : valueNamed name header = header.value := if_pos hname
          simp only [hfind, hvalue]
          cases header.value with
          | none => exact ih
          | some value => rfl
      | false =>
          have hfind : (header :: rest).find? (fun header => sameName header.name name) =
              rest.find? (fun header => sameName header.name name) :=
            List.find?_cons_of_neg (by rw [hname]; exact Bool.false_ne_true)
          have hvalue : valueNamed name header = none :=
            if_neg (by rw [hname]; exact Bool.false_ne_true)
          simp only [hfind, hvalue, ← ih]
          -- a field that comes later is found again at its own position
          cases rest with
          | nil => rfl
          | cons next rest =>
              rw [headerValues]
              cases (next :: rest).find? fun header => sameName header.name name with
              | none => rfl
              | some found =>
                  dsimp only
                  cases found.value with
                  | none => rfl
                  | some value => rfl

/-- The fields of this name. -/
theorem findSome?_modify {name : Bytes} {f : Header → Header} {headers : List Header} {i : Nat}
    (h : ∀ header, headers[i]? = some header →
      valueNamed name (f header) = valueNamed name header) :
    (headers.modify i f).findSome? (valueNamed name) = headers.findSome? (valueNamed name) := by
  induction headers generalizing i with
  | nil => simp
  | cons header rest ih =>
      cases i with
      | zero =>
          rw [List.modify_zero_cons, List.findSome?_cons, List.findSome?_cons, h header rfl]
      | succ i =>
          rw [List.modify_succ_cons, List.findSome?_cons, List.findSome?_cons,
            ih fun next hnext => h next hnext]

variable {msg other third : SipMessage}

theorem getHeader_path (msg : SipMessage) :
    msg.getHeader (bytes "Path") = msg.headers.findSome? (valueNamed (bytes "Path")) :=
  head?_headerValues _ _

/-- The value that was there, or the one that is added. -/
theorem getHeader_addHeader_path (value : Bytes) :
    (msg.addHeader (bytes "Path") value).getHeader (bytes "Path") =
      some ((msg.getHeader (bytes "Path")).getD value) := by
  have hadded : valueNamed (bytes "Path") ⟨bytes "Path", some value⟩ = some value := rfl
  rw [getHeader_path, getHeader_path, addHeader, List.findSome?_append, List.findSome?_singleton,
    hadded]
  cases msg.headers.findSome? (valueNamed (bytes "Path")) with
  | none => rfl
  | some first => rfl

theorem getHeader_path_setMaxForwards (value : Int) :
    (msg.setMaxForwards value).getHeader (bytes "Path") = msg.getHeader (bytes "Path") := by
  rw [getHeader_path, getHeader_path, setMaxForwards]
  split
  · rw [addHeader, List.findSome?_append]
    have hother : [(⟨bytes "Max-Forwards", some (decimalInt value)⟩ : Header)].findSome?
        (valueNamed (bytes "Path")) = none := rfl
    rw [hother, Option.or_none]
  · rename_i i hfind
    apply findSome?_modify
    intro header hheader
    have hmatches : isMaxForwards header = true := by
      obtain ⟨hlt, hit, -⟩ := List.findIdx?_eq_some_iff_getElem.mp hfind
      rw [List.getElem?_eq_getElem hlt, Option.some.injEq] at hheader
      rw [← hheader]
      exact hit
    have hname : sameName header.name (bytes "Path") = false := by
      rw [isMaxForwards, sameName, beq_iff_eq] at hmatches
      rw [sameName, hmatches]
      decide
    simp only [valueNamed, hname, Bool.false_eq_true, if_false]

/-- What the registrar reads is the same. -/
structure KeepsRegistration (msg other : SipMessage) : Prop where
  contacts : other.contacts = msg.contacts
  callId : other.callIdText = msg.callIdText
  cseqField : other.cseqField = msg.cseqField
  path : other.getHeader (bytes "Path") = msg.getHeader (bytes "Path")

theorem KeepsRegistration.refl (msg : SipMessage) : msg.KeepsRegistration msg :=
  ⟨rfl, rfl, rfl, rfl⟩

theorem KeepsRegistration.trans (h : msg.KeepsRegistration other)
    (h' : other.KeepsRegistration third) : msg.KeepsRegistration third :=
  ⟨h'.contacts.trans h.contacts, h'.callId.trans h.callId, h'.cseqField.trans h.cseqField,
    h'.path.trans h.path⟩

theorem keepsRegistration_setMaxForwards (value : Int) :
    msg.KeepsRegistration (msg.setMaxForwards value) := by
  refine ⟨?_, ?_, ?_, getHeader_path_setMaxForwards value⟩
  all_goals
    rw [setMaxForwards]
    split
    · rfl
    · rfl

theorem keepsRegistration_of_decrementMaxForwards (h : msg.decrementMaxForwards = .ok other) :
    msg.KeepsRegistration other := by
  obtain ⟨mf, -, h⟩ := exists_of_bind_eq_ok h
  cases h
  split
  · exact keepsRegistration_setMaxForwards _
  · exact .refl msg

end SipMessage

namespace ProxyCore

variable {proxy : ProxyCore} {request prepared : SipMessage} {dest : Endpoint}
variable {options : ForwardOptions} {branch transport : Bytes}

theorem keepsRegistration_of_prepareRequestForForward
    (h : proxy.prepareRequestForForward request transport branch = .ok (.ok prepared)) :
    request.KeepsRegistration prepared := by
  obtain ⟨mf, -, h⟩ := exists_of_bind_eq_ok h
  split at h
  · cases h
  · obtain ⟨decremented, hdecrement, h⟩ := exists_of_bind_eq_ok h
    cases h
    have hcounted := SipMessage.keepsRegistration_of_decrementMaxForwards hdecrement
    have hset : request.KeepsRegistration decremented := by
      split at hcounted
      · exact (SipMessage.keepsRegistration_setMaxForwards 70).trans hcounted
      · exact hcounted
    exact ⟨hset.contacts, hset.callId, hset.cseqField, hset.path⟩

theorem keepsRegistration_processRouteHeaders [OsipParser] :
    request.KeepsRegistration (proxy.processRouteHeaders request) := by
  rw [processRouteHeaders]
  split
  · exact .refl request
  · split
    · exact ⟨rfl, rfl, rfl, rfl⟩
    · exact .refl request

theorem keepsRegistration_of_prepareStateful [OsipAccessor] [OsipParser]
    (h : proxy.prepareStateful request dest options branch = .ok (.ok prepared)) :
    request.KeepsRegistration prepared := by
  rw [prepareStateful] at h
  split at h
  · cases h
  · dsimp only at h
    obtain ⟨result, hresult, h⟩ := exists_of_bind_eq_ok h
    cases result with
    | error error =>
        obtain ⟨mf, -, h⟩ := exists_of_bind_eq_ok h
        cases h
    | ok made =>
        cases h
        have hprepared := keepsRegistration_of_prepareRequestForForward hresult
        split at hprepared
        · exact keepsRegistration_processRouteHeaders.trans hprepared
        · exact hprepared

end ProxyCore

/-- Any number of hops, each of which forwards the request statefully. -/
inductive Relayed [OsipAccessor] [OsipParser] : SipMessage → SipMessage → Prop where
  | refl (request : SipMessage) : Relayed request request
  | hop {proxy : ProxyCore} {request prepared received : SipMessage} {dest : Endpoint}
      {options : ForwardOptions} {branch : Bytes}
      (forwards : proxy.prepareStateful request dest options branch = .ok (.ok prepared))
      (rest : Relayed prepared received) : Relayed request received

theorem Relayed.keepsRegistration [OsipAccessor] [OsipParser] {request received : SipMessage}
    (h : Relayed request received) : request.KeepsRegistration received := by
  induction h with
  | refl request => exact .refl request
  | hop forwards _ ih => exact (ProxyCore.keepsRegistration_of_prepareStateful forwards).trans ih

/-! ## The address of a proxy -/

namespace ProxyCore

variable [OsipParser] {proxy : ProxyCore}

/-- The parser takes the proxy's own URI apart. -/
def SplitsOwnUri (proxy : ProxyCore) : Prop :=
  ∃ uri, OsipParser.uriParse proxy.ownUri = some uri ∧ uri.host = some proxy.localAddress ∧
    uri.port = some (decimal proxy.localPort.toNat) ∧ uri.transport = none

def ownEndpoint (proxy : ProxyCore) : Endpoint :=
  ⟨proxy.localAddress, proxy.localPort, bytes "udp"⟩

theorem parseEndpointFromUri_ownUri (hsplits : proxy.SplitsOwnUri)
    (hhost : '>'.toUInt8 ∉ proxy.localAddress) :
    parseEndpointFromUri (bytes "<" ++ proxy.ownUri ++ bytes ">") = some proxy.ownEndpoint := by
  obtain ⟨uri, hparse, hname, hport, htransport⟩ := hsplits
  have hbracket : '>'.toUInt8 ∉ proxy.ownUri := by
    have hdigits : '>'.toUInt8 ∉ decimal proxy.localPort.toNat := fun hmem =>
      absurd (isDigit_of_mem_decimal hmem) (by decide)
    simp only [ownUri, List.mem_append, hhost, hdigits, or_false]
    decide
  have hextract : extractUriFromNameAddr (bytes "<" ++ proxy.ownUri ++ bytes ">") = proxy.ownUri :=
    extractUriFromNameAddr_brackets hbracket
  have hne : ¬(proxy.ownUri = [] ∨ proxy.ownUri = bytes "*") := by
    rintro (heq | heq)
    · cases congrArg List.head? heq
    · cases congrArg List.head? heq
  have hlt := proxy.localPort.toNat_lt
  have hstoi : stoi (decimal proxy.localPort.toNat) = .ok (proxy.localPort.toNat : Int) := by
    have hread := stoi_decimalInt (i := proxy.localPort.toNat) (by omega) (by omega)
    rwa [decimalInt, if_neg (by omega), Int.natAbs_natCast] at hread
  have hcast : UInt16.ofInt proxy.localPort.toNat = proxy.localPort := by
    rw [UInt16.ofInt, Int.emod_eq_of_lt (by omega) (by omega), Int.toNat_natCast,
      UInt16.ofNat_toNat]
  rw [parseEndpointFromUri, hextract]
  simp only [if_neg hne, hparse, hname, hport, htransport, hstoi]
  rw [hcast, ownEndpoint]

end ProxyCore
end SimIms.Sip

namespace SimIms.SCscf

open Cxx Lib Sip Registration

/-! ## Where the router sends a call -/

namespace SessionRouter

variable [OsipParser]

/-- What `handleInvite` finds for an INVITE outside of a dialog: the target, with the URI of the
contact, or the status that refuses it. -/
def inviteTarget (store : MemoryRegistrationStore) (now : Nat) (peerIcscf : Option Endpoint)
    (requestUri : Bytes) (follower : Option Bytes) : Except (Int × Bytes) RoutedInvite :=
  match (lookupCallee store now requestUri follower).2 with
  | .error _ =>
      match peerIcscf with
      | none => .error (404, bytes "Not Found")
      | some peer => .ok { target := ⟨normalizeImpuUri requestUri, peer⟩, uri := [] }
  | .ok binding =>
      match binding.activeContacts now with
      | [] => .error (480, bytes "Temporarily Unavailable")
      | contact :: _ =>
          match resolveBindingDestination binding now with
          | .error _ => .error (480, bytes "Temporarily Unavailable")
          | .ok dest =>
              .ok { target := ⟨binding.impu, dest⟩
                    uri := extractUriFromNameAddr contact.contactUri }

/-- Where there is a contact, the status is the one that its destination decides about. -/
theorem inviteTarget_calleeTarget (store : MemoryRegistrationStore) (now : Nat)
    (peerIcscf : Option Endpoint) (requestUri : Bytes) (follower : Option Bytes) :
    calleeTarget store now peerIcscf requestUri follower =
      ((inviteTarget store now peerIcscf requestUri follower).mapError Prod.fst).map
        RoutedInvite.target := by
  unfold calleeTarget inviteTarget
  cases (lookupCallee store now requestUri follower).2 with
  | error error =>
      cases peerIcscf with
      | none => rfl
      | some peer => rfl
  | ok binding =>
      dsimp only
      cases hcontacts : binding.activeContacts now with
      | nil =>
          have hnone : ∃ error, resolveBindingDestination binding now = .error error := by
            rw [resolveBindingDestination, hcontacts]
            exact ⟨_, rfl⟩
          obtain ⟨error, hnone⟩ := hnone
          rw [hnone]
          rfl
      | cons contact rest =>
          cases resolveBindingDestination binding now with
          | error error => rfl
          | ok dest => rfl

/-- A path that is a usable endpoint is where the call goes. -/
theorem inviteTarget_of_path {store : MemoryRegistrationStore} {now : Nat}
    {peerIcscf : Option Endpoint} {uri : Bytes} {binding : RegistrationBinding}
    {contact : ContactBinding} {endpoint : Endpoint} {follower : Option Bytes}
    (hfound : (lookupCallee store now uri follower).2 = .ok binding)
    (hfirst : (binding.activeContacts now).head? = some contact) (hpath : contact.path ≠ [])
    (hparsed : parseEndpointFromUri contact.path = some endpoint)
    (husable : isUsableDestination endpoint = true) :
    inviteTarget store now peerIcscf uri follower =
      .ok { target := ⟨binding.impu, endpoint⟩
            uri := extractUriFromNameAddr contact.contactUri } := by
  obtain ⟨rest, hcontacts⟩ := List.head?_eq_some_iff.mp hfirst
  have hdest : resolveBindingDestination binding now = .ok endpoint := by
    rw [resolveBindingDestination, hcontacts]
    simp only [if_neg hpath, hparsed, Option.filter_some, husable, if_true, Option.some_or]
  unfold inviteTarget
  rw [hfound]
  simp only [hcontacts, hdest]

end SessionRouter
end SimIms.SCscf

namespace SimIms.PCscf

open Cxx Lib Sip SCscf Registration

variable [OsipParser]

/-! ## What a handler sends -/

/-- What a handler that nothing interferes with sends, for some state of the table. -/
def Sends (service : PcscfService) (handler : PcscfNode.Method) (direction : Direction)
    (sent : SipMessage) (dest : Endpoint) : Prop :=
  ∃ environment s t result out,
    handler.alone (ForwardState.serve service) environment s = some (t, result, out) ∧
      .sent direction sent dest ∈ out

/-- Everything that is sent is as stated. -/
def sendsContract (P : Direction → SipMessage → Endpoint → Prop) : Contract forwardOps Unit where
  Allows
    | _, .sendRequest direction sent dest => P direction sent dest
    | _, .send direction sent dest => P direction sent dest
    | _, _ => True
  Expects _ _ := True
  Throws _ := True
  track _ _ _ := ()

omit [OsipParser] in
theorem Sends.of_meets {service : PcscfService} {handler : PcscfNode.Method} {direction : Direction}
    {sent : SipMessage} {dest : Endpoint} {P : Direction → SipMessage → Endpoint → Prop}
    (hmeets : handler.Meets (sendsContract P) () fun _ _ => True)
    (h : Sends service handler direction sent dest) : P direction sent dest := by
  obtain ⟨environment, s, t, result, out, hrun, hmem⟩ := h
  let kept (_ : Unit) (_ : ForwardState) (done : List ForwardEvent) : Prop :=
    ∀ direction sent dest, .sent direction sent dest ∈ done → P direction sent dest
  have hserve : ∀ g s done (op : ForwardOp) t answer out, kept g s done →
      (sendsContract P).Allows g op → s.serve service op environment = some (t, answer, out) →
      True ∧ kept () t (done ++ out) := by
    intro _ s done op t answer out hkept hallows hserve
    refine ⟨trivial, fun direction sent dest hmem => ?_⟩
    obtain hmem | hmem := List.mem_append.mp hmem
    · exact hkept direction sent dest hmem
    · cases op with
      | resolveCoreDestination | createTopologyToken | rememberTopologyRoute | generateBranch =>
          cases hserve
          cases hmem
      | sendRequest direction' sent' dest' =>
          cases hserve
          split at hmem
          · cases List.mem_singleton.mp hmem
            exact hallows
          · cases hmem
      | send direction' sent' dest' =>
          cases hserve
          cases List.mem_singleton.mp hmem
          exact hallows
      | respond request statusCode =>
          cases hserve
          cases List.mem_singleton.mp hmem
  have hnone : kept () s [] := fun _ _ _ hmem => (List.not_mem_nil hmem).elim
  obtain ⟨_, hsent⟩ := hmeets.alone hserve hnone hrun
  exact hsent direction sent dest hmem

namespace PcscfNode

variable {node : PcscfNode} {request : SipMessage} {source dest ue : Endpoint}
variable {direction : Direction} {P : Direction → SipMessage → Endpoint → Prop}

theorem forwardStateful_meets [OsipAccessor] {options : ForwardOptions}
    (h : ∀ branch sent, node.proxy.prepareStateful request dest options branch = .ok (.ok sent) →
      P direction sent dest) :
    (node.forwardStateful direction request dest options).Meets (sendsContract P) ()
      fun _ _ => True := by
  refine ⟨trivial, fun branch _ => ?_⟩
  show Program.Meets _ _ (Program.ofExcept _ >>= _) _
  cases hprepared : node.proxy.prepareStateful request dest options branch with
  | error e => exact trivial
  | ok result =>
      cases result with
      | error statusCode => exact ⟨trivial, fun _ _ => trivial⟩
      | ok sent =>
          refine ⟨h branch sent hprepared, fun accepted _ => ?_⟩
          cases accepted with
          | true => trivial
          | false => exact ⟨trivial, fun _ _ => trivial⟩

/-- A REGISTER goes out with what the node has put into it. -/
theorem onRegister_sends [OsipAccessor] {sent : SipMessage}
    (h : Sends node.toPcscfService (node.onRegister request) direction sent dest) :
    ∃ branch, node.proxy.prepareStateful (node.proxy.addPathHeader request) dest {} branch =
      .ok (.ok sent) := by
  apply h.of_meets (P := fun _ sent dest => ∃ branch,
    node.proxy.prepareStateful (node.proxy.addPathHeader request) dest {} branch = .ok (.ok sent))
  exact ⟨trivial, fun _ _ => forwardStateful_meets fun branch sent hprepared => ⟨branch, hprepared⟩⟩

/-- A request from the core goes to the UE that its URI names. -/
theorem onStateful_sends [OsipAccessor] {sent : SipMessage} {addRecordRoute : Bool}
    (hcore : node.isCoreFacingRequest source = true) (hue : resolveUeDestination request = some ue)
    (h : Sends node.toPcscfService (node.onStateful request source addRecordRoute) direction sent
      dest) : direction = .ue ∧ dest = ue := by
  apply h.of_meets (P := fun direction _ dest => direction = .ue ∧ dest = ue)
  rw [onStateful, if_pos hcore, forwardStatefulToUe, hue]
  refine ⟨trivial, fun token _ => ⟨trivial, fun core _ => ⟨trivial, fun _ _ => ?_⟩⟩⟩
  exact forwardStateful_meets fun _ _ _ => ⟨rfl, rfl⟩

end PcscfNode

/-! ## The registrar behind the P-CSCFs -/

/-- A REGISTER of a UE, as one of the nodes sends it and as it arrives after any number of hops. -/
structure EdgeRegister [OsipAccessor] (nodes : List PcscfNode) where
  node : PcscfNode
  mem : node ∈ nodes
  ue : SipMessage
  sent : SipMessage
  request : SipMessage
  txn : Nat
  sends : ∃ dest, Sends node.toPcscfService (node.onRegister ue) .core sent dest
  relayed : Relayed sent request

/-- Besides the responses, the contacts that are stored are events. -/
inductive RegistrarEvent where
  | responded (response : Nat × SipMessage)
  | stored (contact : ContactBinding)

def storedBy : RegistrarOp → List RegistrarEvent
  | .store (.upsertContacts batch) => [.stored batch.contact]
  | _ => []

/-- The registrar, all requests of which come from these nodes. -/
def edgeRegistrar [OsipAccessor] (nodes : List PcscfNode) (providers : List Nat) (domain : Bytes) :
    Service RegistrarState registrarOps Exception RegistrarThread Unit RegistrarEnvironment
      (EdgeRegister nodes) RegistrarBackground RegistrarEvent where
  serve s op environment := (s.serve op environment).map fun served =>
    (served.1, served.2.1, storedBy op ++ served.2.2.map .responded)
  begin register := (Registrar.remote providers domain).handleRegister register.request register.txn
  background s event := some (s.background event)
  fresh register := { request := register.request }
  track := RegistrarThread.track

/-- The contact is that of the request; a path that this gives is the contact's. -/
structure MadeOf (request : SipMessage) (contact : ContactBinding) : Prop where
  contactUri : contact.contactUri = request.contact.getD []
  callId : contact.callId = request.callId
  cseq : request.cseq = .ok contact.cseq
  path : ∀ path, request.getHeader (bytes "Path") = some path → contact.path = path

section

variable {nodes : List PcscfNode} {thread : RegistrarThread} {setting : RegistrarSetting}
variable {batch : ContactBatchUpsert}

theorem madeOf_of_writes (h : thread.Writes setting (.upsertContacts batch)) :
    MadeOf thread.request batch.contact := by
  cases h with
  | refresh _ _ _ _ hcontact _ _ _ _ _ _ _ _ hcseq =>
      refine ⟨by rw [hcontact]; rfl, rfl, hcseq, fun path hpath => ?_⟩
      simp only [madeContact, hpath, Option.getD_some]
  | register _ _ _ _ _ _ _ _ hcseq =>
      refine ⟨?_, rfl, hcseq, fun path hpath => ?_⟩
      · cases hcontact : thread.request.contact with
        | none => rfl
        | some contact => rfl
      · simp only [madeContact, hpath, Option.getD_some]

/-- Whoever has stored a contact has made it of its request, which is one of the nodes'. -/
structure StoresOwn [OsipAccessor] (nodes : List PcscfNode)
    (log : List (Nat × RegistrarEvent)) (tid : Nat) (thread : RegistrarThread) : Prop where
  request : ∃ register : EdgeRegister nodes, thread.request = register.request
  stored : ∀ contact, (tid, .stored contact) ∈ log → MadeOf thread.request contact

/-- Every contact in the store has been stored by a request. -/
def AllStored (s : RegistrarState) (log : List (Nat × RegistrarEvent)) : Prop :=
  ∀ impu, ∀ contact ∈ s.store.contacts impu, ∃ tid, (tid, .stored contact) ∈ log

def edgeDiscipline [OsipAccessor] (nodes : List PcscfNode) (providers : List Nat) (domain : Bytes) :
    Discipline RegistrarState registrarOps RegistrarThread Unit RegistrarEvent where
  contract := RegistrarThread.contract ⟨providers, domain, fun _ _ => True⟩
  assumes _ _ := True
  shared := AllStored
  linked _ log tid thread := StoresOwn nodes log tid thread
  result _ _ := True

variable {s : RegistrarState} {log : List (Nat × RegistrarEvent)}

omit [OsipParser] in
theorem AllStored.shrinks {t : RegistrarState} (h : AllStored s log)
    (hshrinks : s.store.Shrinks t.store) (out : List (Nat × RegistrarEvent)) :
    AllStored t (log ++ out) := by
  intro impu contact hmem
  obtain ⟨tid, hstored⟩ := h impu contact ((hshrinks impu).subset hmem)
  exact ⟨tid, List.mem_append_left _ hstored⟩

omit [OsipParser] in
theorem AllStored.upsertContacts (h : AllStored s log) (batch : ContactBatchUpsert) (tid : Nat) :
    AllStored { s with store := (s.store.upsertContacts s.now batch).1 }
      (log ++ [(tid, .stored batch.contact)]) := by
  intro impu contact hmem
  obtain hold | rfl := MemoryRegistrationStore.mem_of_mem_upsertContacts hmem
  · obtain ⟨other, hstored⟩ := h impu contact hold
    exact ⟨other, List.mem_append_left _ hstored⟩
  · exact ⟨tid, List.mem_append_right _ (List.mem_singleton.mpr rfl)⟩

omit [OsipParser] in
theorem AllStored.serve {t : RegistrarState} {tid : Nat} {op : RegistrarOp}
    {environment : RegistrarEnvironment} {answer : op.Answer}
    {responses : List (Nat × SipMessage)} (h : AllStored s log)
    (hserve : s.serve op environment = some (t, answer, responses)) :
    AllStored t (log ++ (storedBy op ++ responses.map RegistrarEvent.responded).map (tid, ·)) := by
  cases op with
  | store op =>
      cases op with
      | lookup impu =>
          cases hserve
          exact h.shrinks (MemoryRegistrationStore.pruneExpiredLocked_shrinks s.store s.now impu) _
      | upsertContacts batch =>
          cases hserve
          exact h.upsertContacts batch tid
      | removeContacts batch =>
          cases hserve
          exact h.shrinks (MemoryRegistrationStore.removeContacts_shrinks batch) _
      | removeBindings impus =>
          cases hserve
          exact h.shrinks (MemoryRegistrationStore.removeBindings_shrinks impus) _
  | hss | provider | environment | respond =>
      cases hserve
      exact h.shrinks (fun _ => List.Sublist.refl _) _

/-- What others store leaves a request alone. -/
theorem StoresOwn.elsewhere [OsipAccessor] {tid other : Nat} (h : StoresOwn nodes log other thread)
    (hne : other ≠ tid) (out : List RegistrarEvent) :
    StoresOwn nodes (log ++ out.map (tid, ·)) other thread := by
  refine ⟨h.request, fun contact hmem => ?_⟩
  obtain hmem | hmem := List.mem_append.mp hmem
  · exact h.stored contact hmem
  · obtain ⟨event, -, heq⟩ := List.mem_map.mp hmem
    cases heq
    exact (hne rfl).elim

omit [OsipParser] in
theorem request_track {op : RegistrarOp} (answer : op.Answer) :
    (thread.track op answer).request = thread.request := by
  cases op with
  | store op =>
      cases op with
      | lookup | upsertContacts | removeContacts | removeBindings => rfl
  | hss op =>
      cases op with
      | serverAssignment | multimediaAuth => rfl
  | provider op =>
      cases op with
      | verifyAuthorization n request =>
          cases answer with
          | ok | error => rfl
      | canHandleInitialRegister | canHandleAuthorization | createChallenge => rfl
  | environment | respond => rfl

end

/-- The thread itself, after what it has stored. -/
theorem StoresOwn.here [OsipAccessor] {nodes : List PcscfNode}
    {log : List (Nat × RegistrarEvent)} {tid : Nat}
    {thread next : RegistrarThread} (h : StoresOwn nodes log tid thread)
    (hnext : next.request = thread.request) {out : List RegistrarEvent}
    (hout : ∀ contact, .stored contact ∈ out → MadeOf thread.request contact) :
    StoresOwn nodes (log ++ out.map (tid, ·)) tid next := by
  rw [← hnext] at hout
  refine ⟨by rw [hnext]; exact h.request, fun contact hmem => ?_⟩
  obtain hmem | hmem := List.mem_append.mp hmem
  · rw [hnext]
    exact h.stored contact hmem
  · obtain ⟨event, hevent, heq⟩ := List.mem_map.mp hmem
    cases heq
    exact hout contact hevent

theorem edgeDiscipline_sound [OsipAccessor] (nodes : List PcscfNode) (providers : List Nat)
    (domain : Bytes) :
    (edgeDiscipline nodes providers domain).Sound (edgeRegistrar nodes providers domain) where
  track _ _ _ := rfl
  begins _ := Registrar.handleRegister_goes
  fresh s log id register hshared hbefore := by
    refine ⟨⟨register, rfl⟩, fun contact hmem => ?_⟩
    have hlt := hbefore _ hmem
    omega
  serves s log tid thread op environment t answer out hshared hlinked hallows hserve _ := by
    obtain ⟨⟨state, result, responses⟩, hserve, heq⟩ := Option.map_eq_some_iff.mp hserve
    have hshared : AllStored state
        (log ++ (storedBy op ++ responses.map RegistrarEvent.responded).map (tid, ·)) :=
      hshared.serve hserve
    have hout : ∀ contact,
        .stored contact ∈ storedBy op ++ responses.map RegistrarEvent.responded →
        MadeOf thread.request contact := by
      intro contact hmem
      obtain hmem | hmem := List.mem_append.mp hmem
      · cases op with
        | store op =>
            cases op with
            | upsertContacts batch =>
                cases List.mem_singleton.mp hmem
                exact madeOf_of_writes hallows.1
            | lookup | removeContacts | removeBindings => cases hmem
        | hss | provider | environment | respond => cases hmem
      · obtain ⟨_, -, heq⟩ := List.mem_map.mp hmem
        cases heq
    cases heq
    exact ⟨hshared, trivial, hlinked.here (request_track _) hout,
      fun other _ hne h => h.elsewhere hne _⟩
  background s log event t hshared hstep := by
    cases hstep
    refine ⟨?_, fun _ _ h => h⟩
    rw [← List.append_nil log]
    cases event with
    | elapse milliseconds => exact hshared.shrinks (fun _ => List.Sublist.refl _) _
    | purgeExpired => exact hshared.shrinks MemoryRegistrationStore.purgeExpired_shrinks _
    | lookup impu =>
        exact hshared.shrinks
          (MemoryRegistrationStore.pruneExpiredLocked_shrinks s.store s.now impu) _

/-! ## The way of a call -/

abbrev EdgeRegistrarThreads := Threads RegistrarState registrarOps Exception RegistrarThread Unit

/-- The REGISTER has been taken up in the run. -/
def Received [OsipAccessor] {nodes : List PcscfNode} (s : EdgeRegistrarThreads)
    (register : EdgeRegister nodes) :
    Prop :=
  ∃ tid thread, s.threads.find tid = some thread ∧ thread.history.request = register.request

/-- The contact has the URI, the Call-ID and the number of the REGISTER that the UE has sent, and
the path of its node, unless the UE has given one itself. -/
structure EdgeRegister.Made [OsipAccessor] {nodes : List PcscfNode} (register : EdgeRegister nodes)
    (contact : ContactBinding) : Prop where
  contactUri : contact.contactUri = register.ue.contact.getD []
  callId : contact.callId = register.ue.callId
  cseq : register.ue.cseq = .ok contact.cseq
  path : contact.path =
    (register.ue.getHeader (bytes "Path")).getD register.node.proxy.buildPathHeader

/-- A node with an address that its parser can take apart. -/
structure PcscfNode.Addressed (node : PcscfNode) : Prop where
  advertised : node.advertisedAddr ≠ bytes "0.0.0.0"
  splits : node.proxy.SplitsOwnUri

namespace PcscfNode

variable {node : PcscfNode}

theorem Addressed.hasAddress (h : node.Addressed) : node.proxy.HasAddress := by
  have husable := resolveProxyAdvertisedAddress_usable h.advertised node.listenAddr
  rw [← node.resolved] at husable
  exact husable

theorem Addressed.buildPathHeader_eq (h : node.Addressed) :
    node.proxy.buildPathHeader = bytes "<" ++ node.proxy.ownUri ++ bytes ">" :=
  if_pos h.hasAddress

theorem Addressed.parse (h : node.Addressed) :
    parseEndpointFromUri node.proxy.buildPathHeader = some node.proxy.ownEndpoint := by
  rw [h.buildPathHeader_eq]
  exact ProxyCore.parseEndpointFromUri_ownUri h.splits fun hmem => (node.isHost _ hmem).2 rfl

theorem Addressed.usable (h : node.Addressed) :
    isUsableDestination node.proxy.ownEndpoint = true :=
  decide_eq_true h.hasAddress

end PcscfNode

section

variable [OsipAccessor] {nodes : List PcscfNode} {register : EdgeRegister nodes}
variable {contact : ContactBinding}

/-- A contact that is made of what has arrived is made of what the UE has sent. -/
theorem EdgeRegister.made_of_madeOf (h : MadeOf register.request contact)
    (haddressed : register.node.Addressed) : register.Made contact := by
  obtain ⟨dest, hsends⟩ := register.sends
  obtain ⟨branch, hprepared⟩ := PcscfNode.onRegister_sends hsends
  have hkeeps := (ProxyCore.keepsRegistration_of_prepareStateful hprepared).trans
    register.relayed.keepsRegistration
  have hadds : register.node.proxy.addPathHeader register.ue =
      register.ue.addHeader (bytes "Path") register.node.proxy.buildPathHeader := by
    rw [ProxyCore.addPathHeader, if_neg]
    rw [haddressed.buildPathHeader_eq]
    exact fun h => List.cons_ne_nil _ _ h
  rw [hadds] at hkeeps
  have hcontact : register.request.contact = register.ue.contact := by
    rw [SipMessage.contact, SipMessage.contact, hkeeps.contacts]
    rfl
  have hcseq : register.request.cseq = register.ue.cseq := by
    rw [SipMessage.cseq, SipMessage.cseq, hkeeps.cseqField]
    rfl
  refine ⟨?_, h.callId.trans hkeeps.callId, hcseq ▸ h.cseq, h.path _ ?_⟩
  · rw [h.contactUri, hcontact]
  · rw [hkeeps.path, SipMessage.getHeader_addHeader_path]

end

omit [OsipParser] in
/-- Whatever a look-up returns, its contacts are in the store. -/
theorem mem_contacts_of_lookup {store : MemoryRegistrationStore} {now : Nat} {impu : Bytes}
    {follower : Option Bytes} {binding : RegistrationBinding} {contact : ContactBinding}
    (h : (store.lookup now impu follower).2 = .ok binding) (hmem : contact ∈ binding.contacts) :
    ∃ stored, contact ∈ store.contacts stored := by
  rw [MemoryRegistrationStore.lookup_eq_ok_iff] at h
  obtain hown | ⟨-, other, -, -, hfind⟩ := MemoryRegistrationStore.prunedEntry_eq_some h
  · refine ⟨impu, (store.pruneExpiredLocked_shrinks now impu impu).subset ?_⟩
    rw [MemoryRegistrationStore.contacts,
      MemoryRegistrationStore.find_pruneExpiredLocked_self, hown]
    exact hmem
  · refine ⟨other, ?_⟩
    rw [MemoryRegistrationStore.contacts, hfind]
    exact hmem

/-- Every contact was made of one REGISTER, with the path that this has come by. So a call goes to
the P-CSCF by which the UE has registered, if the UE has not given a path itself, and from there to
the endpoint of the contact. -/
theorem calls_return [OsipAccessor] {nodes : List PcscfNode} {providers : List Nat} {domain : Bytes}
    {actions : List (ThreadAction RegistrarEnvironment (EdgeRegister nodes) RegistrarBackground)}
    {s : EdgeRegistrarThreads} {log : List (Nat × RegistrarEvent)}
    (haddressed : ∀ node ∈ nodes, node.Addressed)
    (hrun : (threadsMachine (edgeRegistrar nodes providers domain)).exec
      (.init ⟨.init, 0⟩) actions = some (s, log))
    {uri : Bytes} {follower : Option Bytes} {binding : RegistrationBinding}
    {contact : ContactBinding}
    (hfound : (SessionRouter.lookupCallee s.shared.store s.shared.now uri follower).2 = .ok binding)
    (hfirst : (binding.activeContacts s.shared.now).head? = some contact) :
    ∃ register : EdgeRegister nodes, Received s register ∧ register.Made contact ∧
      (register.ue.getHeader (bytes "Path") = none →
        (∀ peerIcscf, SessionRouter.inviteTarget s.shared.store s.shared.now peerIcscf
          uri follower =
          .ok { target := ⟨binding.impu, register.node.proxy.ownEndpoint⟩
                uri := extractUriFromNameAddr contact.contactUri }) ∧
        ∀ ue, parseEndpointFromUri (extractUriFromNameAddr contact.contactUri) = some ue →
          ue.address ≠ [] → ue.address ≠ bytes "ims.local" → ∀ invite source direction sent dest,
          invite.requestUri = extractUriFromNameAddr contact.contactUri →
          register.node.isCoreFacingRequest source = true →
          Sends register.node.toPcscfService (register.node.onInvite invite source) direction sent
            dest → direction = .ue ∧ dest = withTransport ue) := by
  have hinv : s.Inv (edgeDiscipline nodes providers domain) log :=
    (edgeDiscipline_sound nodes providers domain).exec_of_forall (fun _ _ => trivial)
      (fun _ _ hmem => (List.not_mem_nil hmem).elim) hrun
  obtain ⟨impu, hstored⟩ : ∃ impu, contact ∈ s.shared.store.contacts impu := by
    have hactive : contact ∈ binding.activeContacts s.shared.now := List.mem_of_mem_head? hfirst
    exact mem_contacts_of_lookup hfound (List.mem_filter.mp hactive).1
  obtain ⟨tid, hevent⟩ := hinv.shared impu contact hstored
  obtain ⟨thread, hthread⟩ := (hinv.started tid).mp (hinv.numbered _ hevent)
  have hown : StoresOwn nodes log tid thread.history := hinv.linked tid thread hthread
  obtain ⟨register, hregister⟩ := hown.request
  have haddress := haddressed register.node register.mem
  have hmade : register.Made contact :=
    EdgeRegister.made_of_madeOf (hregister ▸ hown.stored contact hevent) haddress
  refine ⟨register, ⟨tid, thread, hthread, hregister⟩, hmade,
    fun hnone => ⟨fun peerIcscf => ?_, ?_⟩⟩
  · have hpath : contact.path = register.node.proxy.buildPathHeader := by
      rw [hmade.path, hnone, Option.getD_none]
    apply SessionRouter.inviteTarget_of_path hfound hfirst
    · rw [hpath, haddress.buildPathHeader_eq]
      exact fun h => List.cons_ne_nil _ _ h
    · rw [hpath]
      exact haddress.parse
    · exact haddress.usable
  · intro ue hparse hne hdomain invite source direction sent dest huri hcore hsends
    apply PcscfNode.onStateful_sends hcore _ hsends
    have hfilter : (parseEndpointFromUri invite.requestUri).filter (fun endpoint =>
        endpoint.address ≠ [] ∧ endpoint.address ≠ bytes "ims.local") = some ue := by
      rw [huri, hparse, Option.filter_some, if_pos (decide_eq_true ⟨hne, hdomain⟩)]
    simp only [resolveUeDestination, hfilter]

omit [OsipParser]

/-- Alice's REGISTER, as it comes to the P-CSCF. -/
def registerAtEdge : SipMessage := aliceRequest [contactAt "sip:alice@10.0.0.7"] true

/-- And as it leaves. -/
def registerFromEdge : SipMessage :=
  let added := (edgeNode.proxy.addPathHeader registerAtEdge).setMaxForwards 69
  added.addVia (edgeNode.proxy.via edgeNode.coreEntry.transport (bytes "z9hG4bK1"))

theorem sends_registerFromEdge : ∃ dest, Sends edgeNode.toPcscfService
    (@PcscfNode.onRegister addressUris edgeNode _ registerAtEdge) .core registerFromEdge dest := by
  have hsummary : ((@PcscfNode.onRegister addressUris edgeNode _ registerAtEdge).alone
      (ForwardState.serve edgeNode.toPcscfService) { branch := bytes "z9hG4bK1" } .init).map
        (fun run => decide (.sent .core registerFromEdge edgeNode.coreEntry ∈ run.2.2)) =
      some true := by
    decide +kernel
  obtain ⟨⟨t, result, out⟩, hrun, hsent⟩ := Option.map_eq_some_iff.mp hsummary
  exact ⟨_, _, _, t, result, out, hrun, of_decide_eq_true hsent⟩

def registerOfAlice : @EdgeRegister addressUris _ [edgeNode] :=
  @EdgeRegister.mk addressUris _ _ edgeNode (List.mem_singleton.mpr rfl) registerAtEdge
    registerFromEdge registerFromEdge 0 sends_registerFromEdge
    (@Relayed.refl _ addressUris _)

theorem addressed_edgeNode : @PcscfNode.Addressed addressUris edgeNode := by
  refine @PcscfNode.Addressed.mk addressUris _ (by decide) ?_
  exact ⟨⟨some (bytes "sip"), none, some (bytes "10.0.0.1"), some (bytes "5060"), none⟩,
    by decide +kernel, by decide +kernel, by decide +kernel, rfl⟩

/-- She registers. -/
def aliceAtEdge : List (ThreadAction RegistrarEnvironment (@EdgeRegister addressUris _ [edgeNode])
    RegistrarBackground) :=
  .start registerOfAlice :: List.replicate 9 (.run 0 aliceEnvironment)

/-- A call finds the address of the P-CSCF with her contact. -/
theorem calls_return_alice : ∃ s log binding contact,
    (threadsMachine (@edgeRegistrar addressUris _ [edgeNode] [0] (bytes "ims.local"))).exec
        (.init ⟨.init, 0⟩) aliceAtEdge = some (s, log) ∧
      (@SessionRouter.lookupCallee addressUris s.shared.store s.shared.now
        (bytes "sip:alice@ims.local") none).2 = .ok binding ∧
      (binding.activeContacts s.shared.now).head? = some contact ∧
      contact.path = bytes "<sip:10.0.0.1:5060;lr>" ∧
      ∃ register : @EdgeRegister addressUris _ [edgeNode],
        @Received addressUris _ [edgeNode] s register ∧
          @EdgeRegister.Made addressUris _ [edgeNode] register contact := by
  have hsummary : ((threadsMachine (@edgeRegistrar addressUris _ [edgeNode] [0]
      (bytes "ims.local"))).exec (.init ⟨.init, 0⟩) aliceAtEdge).bind (fun run =>
        ((@SessionRouter.lookupCallee addressUris run.1.shared.store run.1.shared.now
          (bytes "sip:alice@ims.local") none).2.toOption.bind fun binding =>
            (binding.activeContacts run.1.shared.now).head?).map ContactBinding.path) =
      some (bytes "<sip:10.0.0.1:5060;lr>") := by
    decide +kernel
  obtain ⟨⟨s, log⟩, hrun, hsummary⟩ := Option.bind_eq_some_iff.mp hsummary
  obtain ⟨contact, hcontact, hpath⟩ := Option.map_eq_some_iff.mp hsummary
  obtain ⟨binding, hbinding, hfirst⟩ := Option.bind_eq_some_iff.mp hcontact
  have hfound : (@SessionRouter.lookupCallee addressUris s.shared.store s.shared.now
      (bytes "sip:alice@ims.local") none).2 = .ok binding := by
    cases hresult : (@SessionRouter.lookupCallee addressUris s.shared.store s.shared.now
        (bytes "sip:alice@ims.local") none).2 with
    | error error =>
        rw [hresult] at hbinding
        cases hbinding
    | ok found =>
        rw [hresult] at hbinding
        cases hbinding
        rfl
  obtain ⟨register, hreceived, hmade, -⟩ := @calls_return addressUris _ [edgeNode] [0]
    (bytes "ims.local") _ s log
    (fun node hmem => List.mem_singleton.mp hmem ▸ addressed_edgeNode) hrun _ none binding contact
    hfound hfirst
  exact ⟨s, log, binding, contact, hrun, hfound, hfirst, hpath, register, hreceived, hmade⟩

end SimIms.PCscf
