import SimIms.Common.Environment
import SimIms.Registration.Store
import SimIms.SCscf.AuthProvider

/-!
# The registrar

A REGISTER removes contacts, refreshes one that is registered, answers a challenge or asks
for one. Calls of the store, of the provider and of the HSS are the places where handlers of
other requests may run in between.
-/

namespace SimIms.SCscf

open Cxx Lib Sip Diameter Registration

/-! ## Operations -/

inductive StoreOp where
  | lookup (impu : Bytes)
  | upsertContacts (batch : ContactBatchUpsert)
  | removeContacts (batch : ContactBatchRemove)
  | removeBindings (impus : ImpuSet)

abbrev StoreAnswer : StoreOp → Type
  | .lookup _ => Result RegistrationBinding
  | .upsertContacts _ => Result Nat
  | .removeContacts _ => Result Nat
  | .removeBindings _ => Result Nat

/-- `IRegistrationStore`, as far as the registrar uses it. -/
def registrationStore : Interface := ⟨StoreOp, StoreAnswer⟩

/-- `sendResponse` of the server transaction with this number. -/
def responses : Interface := ⟨Nat × SipMessage, fun _ => Unit⟩

/-- What the memory store answers. -/
def serveStore (store : MemoryRegistrationStore) (now : Nat) (follower : Option Bytes) :
    (op : StoreOp) → MemoryRegistrationStore × StoreAnswer op
  | .lookup impu => store.lookup now impu follower
  | .upsertContacts batch =>
      ((store.upsertContacts now batch).1, .ok (store.upsertContacts now batch).2)
  | .removeContacts batch =>
      ((store.removeContacts now batch).1, .ok (store.removeContacts now batch).2)
  | .removeBindings impus => ((store.removeBindings impus).1, .ok (store.removeBindings impus).2)

/-! ## What is read from a request -/

def makeImpuSet (associatedImpus : List Bytes) (primaryImpu : Bytes) : ImpuSet :=
  ⟨associatedImpus.dedup.insert primaryImpu, associatedImpus.nodup_dedup.insert⟩

/-- Echo the mechanisms of the client. -/
def addSecurityAgreementHeaders (request response : SipMessage) (finalRegisterResponse : Bool) :
    SipMessage :=
  (request.getHeaders (bytes "Security-Client")).foldl
    (fun response mechanism =>
      let response := response.addHeader (bytes "Security-Server") mechanism
      if finalRegisterResponse then response.addHeader (bytes "Security-Verify") mechanism
      else response)
    response

@[simp] theorem statusCode_addSecurityAgreementHeaders (request response : SipMessage)
    (final : Bool) :
    (addSecurityAgreementHeaders request response final).statusCode = response.statusCode := by
  rw [addSecurityAgreementHeaders]
  induction request.getHeaders (bytes "Security-Client") generalizing response with
  | nil => rfl
  | cons mechanism mechanisms ih =>
      rw [List.foldl_cons, ih]
      split
      · rfl
      · rfl

theorem mem_headers_addSecurityAgreementHeaders {request response : SipMessage} {header : Header}
    (h : header ∈ response.headers) (final : Bool) :
    header ∈ (addSecurityAgreementHeaders request response final).headers := by
  rw [addSecurityAgreementHeaders]
  induction request.getHeaders (bytes "Security-Client") generalizing response with
  | nil => exact h
  | cons mechanism mechanisms ih =>
      rw [List.foldl_cons]
      apply ih
      dsimp only
      split
      · exact SipMessage.mem_headers_addHeader (SipMessage.mem_headers_addHeader h _ _) _ _
      · exact SipMessage.mem_headers_addHeader h _ _

def determineRegisterExpires (request : SipMessage) : UInt32 :=
  (request.contactExpires.or request.expiresValue).getD 3600

def makeContactSelector (request : SipMessage) (contact : Option Bytes) :
    ContactBindingSelector :=
  let selector : ContactBindingSelector :=
    { normalizedContactUri := (contact.map extractUriFromNameAddr).getD []
      instanceId := (request.contactParam (bytes "+sip.instance")).getD []
      regId := (request.contactParam (bytes "reg-id")).getD [] }
  if selector.usesInstanceAndRegId then selector
  else { selector with instanceId := [], regId := [] }

section

variable {G : Interface} [Includes environment G]

/-- The contact of a request; what it leaves out is taken from the previous one. -/
def makeContactBinding (request : SipMessage) (contact : Option Bytes) (expires : UInt32)
    (previous : Option ContactBinding) : Program G Exception ContactBinding := do
  let or (value : Option Bytes) (field : ContactBinding → Bytes) : Bytes :=
    value.getD ((previous.map field).getD [])
  let now ← clock
  let cseq ← Program.ofExcept request.cseq
  return { contactUri := or contact ContactBinding.contactUri
           instanceId := or (request.contactParam (bytes "+sip.instance")) ContactBinding.instanceId
           regId := or (request.contactParam (bytes "reg-id")) ContactBinding.regId
           path := or (request.getHeader (bytes "Path")) ContactBinding.path
           expires := now + 1000 * expires.toNat
           userAgent := or (request.getHeader (bytes "User-Agent")) ContactBinding.userAgent
           callId := request.callId
           cseq }

end

def isDeregister (msg : SipMessage) : Bool :=
  msg.expiresValue == some 0 || msg.isWildcardContact || msg.contactExpires == some 0

/-- Placeholder credentials, without nonce or response, do not count. -/
def hasAuthorization (msg : SipMessage) : Bool :=
  match msg.getHeader (bytes "Authorization") with
  | none => false
  | some header =>
      match AuthManager.parseAuthorization header with
      | .error _ => false
      | .ok params => !params.nonce.isEmpty && !params.response.isEmpty

/-! ## Handlers -/

structure Registrar (G : Interface) where
  authProviders : List (AuthProvider G)
  hss : HssClient G
  domain : Bytes

namespace Registrar

variable {G : Interface} [Includes environment G] [Includes registrationStore G]
variable [Includes responses G]

/-- Handlers return nothing: what they do are their operations. -/
abbrev Handler (G : Interface) := Program G Exception Unit

section

def lookup (impu : Bytes) : Program G Exception (Result RegistrationBinding) :=
  Program.perform (F := registrationStore) (StoreOp.lookup impu)

def upsertContacts (batch : ContactBatchUpsert) : Program G Exception (Result Nat) :=
  Program.perform (F := registrationStore) (StoreOp.upsertContacts batch)

def removeContacts (batch : ContactBatchRemove) : Program G Exception (Result Nat) :=
  Program.perform (F := registrationStore) (StoreOp.removeContacts batch)

def removeBindings (impus : ImpuSet) : Program G Exception (Result Nat) :=
  Program.perform (F := registrationStore) (StoreOp.removeBindings impus)

def sendResponse (txn : Nat) (response : SipMessage) : Handler G :=
  Program.perform (F := responses) (txn, response)

/-- Answer with a response that carries nothing but its status. -/
def respond (request : SipMessage) (txn : Nat) (statusCode : Int) (reason : String) :
    Handler G := do
  let tag ← generateTag
  sendResponse txn (createResponse request statusCode (bytes reason) tag)

end

variable [OsipParser] (registrar : Registrar G)

def serverName : Bytes := bytes "sip:scscf." ++ registrar.domain

/-- The first provider for which the condition holds. -/
def findProvider (condition : AuthProvider G → Program G Exception Bool) :
    List (AuthProvider G) → Program G Exception (Option (AuthProvider G))
  | [] => .pure none
  | provider :: providers => do
      if ← condition provider then return some provider
      else findProvider condition providers

def selectProviderForInitialRegister (request : SipMessage) :
    Program G Exception (Option (AuthProvider G)) :=
  findProvider (·.canHandleInitialRegister request) registrar.authProviders

def selectProviderForAuthorization (request : SipMessage) :
    Program G Exception (Option (AuthProvider G)) :=
  findProvider (·.canHandleAuthorization request) registrar.authProviders

def sendChallenge (request : SipMessage) (txn : Nat) : Handler G := do
  match ← registrar.selectProviderForInitialRegister request with
  | none => respond request txn 501 "Not Implemented"
  | some provider =>
      match ← provider.createChallenge request with
      | .error _ => respond request txn 501 "Not Implemented"
      | .ok challenge =>
          let tag ← generateTag
          let resp := createResponse request 401 (bytes "Unauthorized") tag
          let resp := resp.addHeader (bytes "WWW-Authenticate") challenge.wwwAuthenticate
          let resp := addSecurityAgreementHeaders request resp false
          let date ← formatGmtDate
          sendResponse txn (resp.addHeader (bytes "Date") date)

def sendRegisterOk (request : SipMessage) (txn : Nat) (expires : UInt32)
    (associatedImpus : List Bytes) : Handler G := do
  let tag ← generateTag
  let resp := createResponse request 200 (bytes "OK") tag
  let resp := match request.contacts.head? with
    | none => resp
    | some contact => resp.setContact contact
  let resp := resp.addHeader (bytes "Expires") (decimal expires.toNat)
  let date ← formatGmtDate
  let resp := resp.addHeader (bytes "Date") date
  let resp := addSecurityAgreementHeaders request resp true
  let associated := if associatedImpus = [] then [extractImpu request] else associatedImpus
  sendResponse txn (associated.foldl
    (fun resp impu =>
      resp.addHeader (bytes "P-Associated-URI") (bytes "<" ++ impu ++ bytes ">"))
    resp)

/-- The contact that a re-registration refreshes. The clock is read for each candidate. -/
def findExisting (selector : ContactBindingSelector) :
    List ContactBinding → Program G Exception (Option ContactBinding)
  | [] => .pure none
  | candidate :: candidates => do
      let now ← clock
      if candidate.live now && matchesSelector candidate selector then return some candidate
      else findExisting selector candidates

/-- The refresh of a contact that is registered. -/
def refresh (request : SipMessage) (txn : Nat) (binding : RegistrationBinding) (contact : Bytes)
    (existing : ContactBinding) : Handler G := do
  let expires := determineRegisterExpires request
  let refreshed ← makeContactBinding request (some contact) expires (some existing)
  let saa ← registrar.hss.serverAssignment
    { impi := binding.impi, impu := binding.impu, serverName := registrar.serverName }
  let associatedImpus := match saa with
    | .ok profile =>
        if profile.associatedImpus = [] then [binding.impu] else profile.associatedImpus
    | .error _ => [binding.impu]
  let result ← upsertContacts
    { impus := makeImpuSet associatedImpus binding.impu
      selector := makeContactSelector request (some contact)
      contact := refreshed
      impi := binding.impi
      scscfUri := binding.scscfUri
      state := .registered
      requireExistingMatch := true
      rejectOlderCseq := true }
  match result with
  | .ok (_ + 1) => sendRegisterOk request txn expires associatedImpus
  | _ => respond request txn 500 "Internal Server Error"

/-- Whether the request has been handled. -/
def tryHandleReregister (request : SipMessage) (txn : Nat) : Program G Exception Bool := do
  match ← lookup (extractImpu request) with
  | .error _ => return false
  | .ok binding =>
      if binding.state ≠ .registered then return false
      else
        match request.contact with
        | none => return false
        | some contact =>
            let selector := makeContactSelector request (some contact)
            match ← findExisting selector binding.contacts with
            | none => return false
            | some existing =>
                registrar.refresh request txn binding contact existing
                return true

/-- The binding of a verified request. -/
def register (request : SipMessage) (txn : Nat) (verification : AuthVerificationResult)
    (profile : UserProfile) : Handler G := do
  let contact := request.contact
  let expires := determineRegisterExpires request
  let selector := makeContactSelector request contact
  let contactBinding ← makeContactBinding request contact expires none
  let result ← upsertContacts
    { impus := makeImpuSet profile.associatedImpus verification.impu
      selector
      contact := contactBinding
      impi := verification.impi
      scscfUri := registrar.serverName
      state := .registered
      requireExistingMatch := false
      rejectOlderCseq := true }
  match result with
  | .error _ => respond request txn 500 "Internal Server Error"
  | .ok _ =>
      sendRegisterOk request txn expires
        (if profile.associatedImpus = [] then [verification.impu] else profile.associatedImpus)

def verifyAndRegister (request : SipMessage) (txn : Nat) : Handler G := do
  match ← registrar.selectProviderForAuthorization request with
  | none => respond request txn 400 "Bad Request"
  | some provider =>
      match ← provider.verifyAuthorization request with
      | .error error =>
          if error.message = bytes "no pending auth state" then registrar.sendChallenge request txn
          else respond request txn 403 "Forbidden"
      | .ok verification =>
          match ← registrar.hss.serverAssignment
              { impi := verification.impi, impu := verification.impu
                serverName := registrar.serverName } with
          | .error _ => respond request txn 500 "Internal Server Error"
          | .ok profile => registrar.register request txn verification profile

def handleDeregister (request : SipMessage) (txn : Nat) : Handler G := do
  let impu := extractImpu request
  let saa ← registrar.hss.serverAssignment
    { impi := extractImpi request, impu, serverName := registrar.serverName }
  let associatedImpus := match saa with
    | .ok profile => profile.associatedImpus
    | .error _ => []
  let targetImpus := makeImpuSet associatedImpus impu
  let _ ← match request.contact with
    | none => removeBindings targetImpus
    | some contact =>
        if contact = bytes "*" then removeBindings targetImpus
        else do
          let cseq ← Program.ofExcept request.cseq
          removeContacts
            { impus := targetImpus
              selector := makeContactSelector request (some contact)
              callId := request.callId
              cseq
              rejectOlderCseq := true }
  let tag ← generateTag
  let resp := createResponse request 200 (bytes "OK") tag
  let date ← formatGmtDate
  sendResponse txn (resp.addHeader (bytes "Date") date)

def handleRegister (request : SipMessage) (txn : Nat) : Handler G := do
  if isDeregister request then registrar.handleDeregister request txn
  else if ← registrar.tryHandleReregister request txn then return ()
  else if hasAuthorization request then registrar.verifyAndRegister request txn
  else registrar.sendChallenge request txn

end Registrar
end SimIms.SCscf
