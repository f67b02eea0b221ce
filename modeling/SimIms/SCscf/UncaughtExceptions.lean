import SimIms.SCscf.RegistrarCalls
import SimIms.Sip.HopLimit

/-!
# Numbers that cannot be read

`stoi` on Max-Forwards and `stoul` on the number of a CSeq throw on a text that is no number or too
large a one. Nothing catches that, so the handlers that read these fields end, and answer, for all
texts but for the ill-formed ones that they come to read.
-/

namespace SimIms.SCscf

open Cxx Lib Sip Diameter Registration

/-! ## The proxy core -/

section

variable {proxy : ProxyCore} {msg request : SipMessage} {branch : Bytes}

theorem prepareRequestForForward_returns_iff (proxy : ProxyCore) (transport branch : Bytes) :
    (∃ result, proxy.prepareRequestForForward msg transport branch = .ok result) ↔
      ∃ mf, msg.maxForwards = .ok mf := by
  constructor
  · rintro ⟨result, h⟩
    obtain ⟨mf, hmf, -⟩ := exists_of_bind_eq_ok h
    exact ⟨mf, hmf⟩
  · rintro ⟨mf, hmf⟩
    by_cases hzero : mf = 0
    · rw [ProxyCore.prepareRequestForForward, hmf]
      exact ⟨_, if_pos hzero⟩
    · obtain ⟨prepared, hprepared⟩ :=
        ProxyCore.exists_prepareRequestForForward proxy transport branch hmf hzero
      exact ⟨_, hprepared⟩

variable [OsipParser] {dest : Endpoint} {options : ForwardOptions} {context : CancelForwardContext}

/-- Whether the own Route is taken off does not matter. -/
theorem maxForwards_routed (proxy : ProxyCore) (request : SipMessage) (options : ForwardOptions) :
    (if options.processRouteHeaders = true then proxy.processRouteHeaders request
      else request).maxForwards = request.maxForwards := by
  split
  · exact SipMessage.maxForwards_congr ProxyCore.maxForwardsField_processRouteHeaders
  · rfl

theorem prepareStateful_returns_iff [OsipAccessor] :
    (∃ result, proxy.prepareStateful request dest options branch = .ok result) ↔
      (options.detectLoop && proxy.isLoopDetected request) = true ∨
        ∃ mf, request.maxForwards = .ok mf := by
  rw [ProxyCore.prepareStateful]
  by_cases hloop : (options.detectLoop && proxy.isLoopDetected request) = true
  · rw [if_pos hloop]
    exact ⟨fun _ => .inl hloop, fun _ => ⟨_, rfl⟩⟩
  · rw [if_neg hloop]
    constructor
    · rintro ⟨result, h⟩
      obtain ⟨prepared, hprepared, -⟩ := exists_of_bind_eq_ok h
      obtain ⟨mf, hmf⟩ := (prepareRequestForForward_returns_iff _ _ _).mp
        ⟨prepared, hprepared⟩
      rw [maxForwards_routed] at hmf
      exact .inr ⟨mf, hmf⟩
    · intro h
      obtain ⟨mf, hmf⟩ := h.resolve_left hloop
      have hrouted := (maxForwards_routed proxy request options).trans hmf
      obtain ⟨prepared, hprepared⟩ := (prepareRequestForForward_returns_iff proxy dest.transport
        branch).mpr ⟨mf, hrouted⟩
      simp only [hprepared]
      cases prepared with
      | ok prepared => exact ⟨_, rfl⟩
      | error error =>
          simp only [bind, Except.bind, hrouted]
          exact ⟨_, rfl⟩

theorem forwardStateful_returns_iff [OsipAccessor]
    {sendRequest : SipMessage → Endpoint → Result Unit} :
    (∃ outcome, proxy.forwardStateful sendRequest request dest options branch = .ok outcome) ↔
      (options.detectLoop && proxy.isLoopDetected request) = true ∨
        ∃ mf, request.maxForwards = .ok mf := by
  constructor
  · rintro ⟨outcome, h⟩
    obtain ⟨result, hresult, -⟩ := exists_of_bind_eq_ok h
    exact prepareStateful_returns_iff.mp ⟨result, hresult⟩
  · intro h
    obtain ⟨result, hresult⟩ := prepareStateful_returns_iff.mpr h
    rw [ProxyCore.forwardStateful, hresult]
    cases result with
    | error statusCode => exact ⟨_, rfl⟩
    | ok prepared =>
        cases hsend : sendRequest prepared dest with
        | error error =>
            refine ⟨.answered 500, ?_⟩
            simp only [bind, Except.bind, hsend]
            rfl
        | ok sent =>
            refine ⟨.forwarded, ?_⟩
            simp only [bind, Except.bind, hsend]
            rfl

theorem buildForwardedCancel_returns_iff :
    (∃ cancel, proxy.buildForwardedCancel request context branch = .ok cancel) ↔
      context.decrementMaxForwards = false ∨ ∃ mf, request.maxForwards = .ok mf := by
  constructor
  · rintro ⟨cancel, h⟩
    cases hcount : context.decrementMaxForwards with
    | false => exact .inl rfl
    | true => exact .inr (ProxyCore.exists_maxForwards_of_buildForwardedCancel hcount h)
  · intro h
    cases hcount : context.decrementMaxForwards with
    | false =>
        obtain ⟨cancel, hcancel, -⟩ := ProxyCore.maxForwards_of_uncounted proxy
          request branch hcount
        exact ⟨cancel, hcancel⟩
    | true =>
        rw [hcount] at h
        obtain ⟨mf, hmf⟩ := h.resolve_left (by decide)
        obtain ⟨cancel, hcancel, -⟩ :=
          ProxyCore.maxForwards_of_buildForwardedCancel proxy branch hcount hmf
        exact ⟨cancel, hcancel⟩

end

/-! ## The registrar -/

/-- The responses are counted, every operation may be answered in any way, and no exception may
escape. -/
def answering : Contract registrarOps Nat where
  Allows _ _ := True
  Expects _ _ := True
  Throws _ := False
  track count op _ :=
    match op with
    | .respond _ => count + 1
    | _ => count

/-- The handler sends exactly one response. -/
abbrev Answers (handler : Program registrarOps Exception Unit) : Prop :=
  ∀ count, handler.Meets answering count fun count' _ => count' = count + 1

/-- The program sends none, and gives such a value. -/
abbrev Asks {α : Type} (program : Program registrarOps Exception α) (Q : α → Prop) : Prop :=
  ∀ count, program.Meets answering count fun count' a => count' = count ∧ Q a

theorem Asks.bind {α : Type} {program : Program registrarOps Exception α} {Q : α → Prop}
    {f : α → Program registrarOps Exception Unit} (h : Asks program Q)
    (hf : ∀ a, Q a → Answers (f a)) : Answers (program >>= f) := by
  intro count
  refine Program.Meets.bind (h count) ?_
  rintro count' a ⟨rfl, ha⟩
  exact hf a ha count'

/-- A handler that answers may not throw. -/
theorem not_mayEnd_error_of_answers {handler : Program registrarOps Exception Unit}
    (h : Answers handler) (e : Exception) : ¬ handler.MayEnd (.error e) :=
  (h 0).not_mayEnd_error (fun _ _ => trivial) (fun _ h => h)

namespace Registrar

variable {request : SipMessage} {txn : Nat}

theorem respond_answers (statusCode : Int) (reason : String) :
    Answers (respond (G := registrarOps) request txn statusCode reason) :=
  fun _ => ⟨trivial, fun _ _ => ⟨trivial, fun _ _ => rfl⟩⟩

variable [OsipParser]

theorem sendRegisterOk_answers (expires : UInt32) (associatedImpus : List Bytes) :
    Answers (sendRegisterOk (G := registrarOps) request txn expires associatedImpus) :=
  fun _ => ⟨trivial, fun _ _ => ⟨trivial, fun _ _ => ⟨trivial, fun _ _ => rfl⟩⟩⟩

omit [OsipParser] in
theorem findProvider_asks
    {condition : AuthProvider registrarOps → Program registrarOps Exception Bool}
    (providers : List Nat) (hcondition : ∀ n, Asks (condition (.remote n)) fun _ => True) :
    Asks (findProvider condition (providers.map AuthProvider.remote)) fun provider =>
      ∀ p, provider = some p → ∃ n, p = .remote n ∧ n ∈ providers := by
  induction providers with
  | nil => exact fun _ => ⟨rfl, fun _ h => by cases h⟩
  | cons first providers ih =>
      intro count
      rw [List.map_cons, findProvider]
      refine Program.Meets.bind (hcondition first count) ?_
      rintro count' suits ⟨rfl, -⟩
      cases suits with
      | true =>
          refine ⟨rfl, fun p hp => ⟨first, ?_, List.mem_cons_self⟩⟩
          cases hp
          rfl
      | false =>
          refine (ih count').mono ?_
          rintro count'' provider ⟨rfl, hremote⟩
          refine ⟨rfl, fun p hp => ?_⟩
          obtain ⟨n, hn, hmem⟩ := hremote p hp
          exact ⟨n, hn, List.mem_cons_of_mem first hmem⟩

variable {providers : List Nat} {domain : Bytes}

omit [OsipParser] in
theorem sendChallenge_answers : Answers ((remote providers domain).sendChallenge request txn) := by
  have hselect : Asks ((remote providers domain).selectProviderForInitialRegister request)
      fun provider => ∀ p, provider = some p → ∃ n, p = .remote n ∧ n ∈ providers :=
    findProvider_asks providers fun n count => ⟨trivial, fun _ _ => ⟨rfl, trivial⟩⟩
  refine hselect.bind fun found hremote => ?_
  cases found with
  | none => exact respond_answers 501 "Not Implemented"
  | some provider =>
      obtain ⟨n, rfl, -⟩ := hremote provider rfl
      intro count
      refine ⟨trivial, fun challenge _ => ?_⟩
      cases challenge with
      | error error => exact respond_answers 501 "Not Implemented" count
      | ok challenge =>
          exact ⟨trivial, fun _ _ => ⟨trivial, fun _ _ => ⟨trivial, fun _ _ => rfl⟩⟩⟩

omit [OsipParser] in
theorem makeContactBinding_asks (hcseq : ∃ cseq, request.cseq = .ok cseq) (contact : Option Bytes)
    (expires : UInt32) (previous : Option ContactBinding) :
    Asks (makeContactBinding (G := registrarOps) request contact expires previous)
      fun _ => True := by
  obtain ⟨cseq, hcseq⟩ := hcseq
  refine fun count => ⟨trivial, fun now _ => ?_⟩
  change Program.Meets answering count
    (Program.ofExcept request.cseq >>= fun cseq =>
      Pure.pure (madeContact request contact expires previous now cseq)) _
  rw [hcseq]
  exact ⟨rfl, trivial⟩

omit [OsipParser] in
theorem findExisting_asks (selector : ContactBindingSelector) (contacts : List ContactBinding) :
    Asks (findExisting (G := registrarOps) selector contacts) fun _ => True := by
  intro count
  induction contacts with
  | nil => exact ⟨rfl, trivial⟩
  | cons candidate candidates ih =>
      refine ⟨trivial, fun now _ => ?_⟩
      change Program.Meets answering count
        (if candidate.live now && matchesSelector candidate selector then
          Pure.pure (some candidate) else findExisting selector candidates) _
      split
      · exact ⟨rfl, trivial⟩
      · exact ih

theorem refresh_answers (hcseq : ∃ cseq, request.cseq = .ok cseq) (binding : RegistrationBinding)
    (contact : Bytes) (existing : ContactBinding) :
    Answers ((remote providers domain).refresh request txn binding contact existing) := by
  refine (makeContactBinding_asks hcseq _ _ _).bind fun made _ count => ?_
  refine ⟨trivial, fun saa _ => ⟨trivial, fun result _ => ?_⟩⟩
  match result with
  | .ok (n + 1) => exact sendRegisterOk_answers _ _ count
  | .ok 0 => exact respond_answers 500 "Internal Server Error" count
  | .error _ => exact respond_answers 500 "Internal Server Error" count

/-- A request that is handled has been answered. -/
theorem tryHandleReregister_meets_answering
    (h : request.contact = none ∨ ∃ cseq, request.cseq = .ok cseq) (count : Nat) :
    ((remote providers domain).tryHandleReregister request txn).Meets answering count
      fun count' handled => count' = if handled then count + 1 else count := by
  refine ⟨trivial, fun found _ => ?_⟩
  cases found with
  | error error => exact rfl
  | ok binding =>
      change Program.Meets answering count
        (if binding.state ≠ .registered then Pure.pure false else _) _
      split
      · exact rfl
      · cases hcontact : request.contact with
        | none => exact rfl
        | some contact =>
            have hcseq := h.resolve_left (by rw [hcontact]; exact Option.some_ne_none contact)
            refine Program.Meets.bind (findExisting_asks _ _ count) ?_
            rintro count' existing ⟨rfl, -⟩
            cases existing with
            | none => exact rfl
            | some existing =>
                refine Program.Meets.bind (refresh_answers hcseq _ _ _ count') ?_
                rintro count'' _ rfl
                exact rfl

theorem register_answers (hcseq : ∃ cseq, request.cseq = .ok cseq)
    (verification : AuthVerificationResult) (profile : UserProfile) :
    Answers ((remote providers domain).register request txn verification profile) := by
  refine (makeContactBinding_asks hcseq _ _ _).bind fun made _ count => ?_
  refine ⟨trivial, fun result _ => ?_⟩
  cases result with
  | error error => exact respond_answers 500 "Internal Server Error" count
  | ok n => exact sendRegisterOk_answers _ _ count

theorem verifyAndRegister_answers (h : providers = [] ∨ ∃ cseq, request.cseq = .ok cseq) :
    Answers ((remote providers domain).verifyAndRegister request txn) := by
  have hselect : Asks ((remote providers domain).selectProviderForAuthorization request)
      fun provider => ∀ p, provider = some p → ∃ n, p = .remote n ∧ n ∈ providers :=
    findProvider_asks providers fun n count => ⟨trivial, fun _ _ => ⟨rfl, trivial⟩⟩
  refine hselect.bind fun found hremote => ?_
  cases found with
  | none => exact respond_answers 400 "Bad Request"
  | some provider =>
      obtain ⟨n, rfl, hmem⟩ := hremote provider rfl
      have hcseq := h.resolve_left (List.ne_nil_of_mem hmem)
      refine fun count => ⟨trivial, fun verified _ => ?_⟩
      cases verified with
      | error error =>
          change Program.Meets answering count
            (if error.message = bytes "no pending auth state" then
              (remote providers domain).sendChallenge request txn
            else respond request txn 403 "Forbidden") _
          split
          · exact sendChallenge_answers count
          · exact respond_answers 403 "Forbidden" count
      | ok verification =>
          refine ⟨trivial, fun saa _ => ?_⟩
          cases saa with
          | error error => exact respond_answers 500 "Internal Server Error" count
          | ok profile => exact register_answers hcseq verification profile count

theorem handleDeregister_answers
    (h : (∀ contact, request.contact = some contact → contact = bytes "*") ∨ ∃ cseq,
      request.cseq = .ok cseq) :
    Answers ((remote providers domain).handleDeregister request txn) := by
  refine fun count => ⟨trivial, fun saa _ => ?_⟩
  let confirm : Program registrarOps Exception Unit := do
    let tag ← generateTag
    let resp := createResponse request 200 (bytes "OK") tag
    let date ← formatGmtDate
    sendResponse txn (resp.addHeader (bytes "Date") date)
  have hconfirm : Answers confirm := fun _ => ⟨trivial, fun _ _ => ⟨trivial, fun _ _ =>
    ⟨trivial, fun _ _ => rfl⟩⟩⟩
  cases hcontact : request.contact with
  | none => exact ⟨trivial, fun _ _ => hconfirm count⟩
  | some contact =>
      by_cases hwildcard : contact = bytes "*"
      · simp only [if_pos hwildcard]
        exact ⟨trivial, fun _ _ => hconfirm count⟩
      · obtain ⟨cseq, hcseq⟩ := h.resolve_left fun hall => hwildcard (hall contact hcontact)
        simp only [if_neg hwildcard, hcseq]
        exact ⟨trivial, fun _ _ => hconfirm count⟩

/-- The request does not come to a CSeq that cannot be read. -/
def CseqUnused (providers : List Nat) (request : SipMessage) : Prop :=
  if isDeregister request then ∀ contact, request.contact = some contact → contact = bytes "*"
  else request.contact = none ∧ (hasAuthorization request = true → providers = [])

theorem handleRegister_answers
    (h : CseqUnused providers request ∨ ∃ cseq, request.cseq = .ok cseq) :
    Answers ((remote providers domain).handleRegister request txn) := by
  rw [handleRegister]
  rw [CseqUnused] at h
  cases hderegister : isDeregister request with
  | true =>
      rw [hderegister, if_pos rfl] at h
      exact handleDeregister_answers h
  | false =>
      rw [hderegister, if_neg (by decide)] at h
      intro count
      refine Program.Meets.bind (tryHandleReregister_meets_answering (h.imp_left And.left) count) ?_
      rintro count' handled rfl
      cases handled with
      | true => exact rfl
      | false =>
          change Program.Meets answering count
            (if hasAuthorization request then (remote providers domain).verifyAndRegister request
              txn
            else (remote providers domain).sendChallenge request txn) _
          split
          · rename_i hauthorized
            exact verifyAndRegister_answers (h.imp_left fun hnone => hnone.2 hauthorized) count
          · exact sendChallenge_answers count

/-! ### What an ill-formed CSeq leads to -/

section

variable {e : Exception} (hcseq : request.cseq = .error e)

include hcseq

omit [OsipParser] in
theorem makeContactBinding_mayThrow (contact : Option Bytes) (expires : UInt32)
    (previous : Option ContactBinding) :
    (makeContactBinding (G := registrarOps) request contact expires previous).MayEnd
      (.error e) := by
  refine ⟨(0 : Nat), ?_⟩
  change (Program.ofExcept request.cseq >>= fun cseq =>
    (Pure.pure (madeContact request contact expires previous 0 cseq) :
      Program registrarOps Exception ContactBinding)).MayEnd (.error e)
  rw [hcseq]
  rfl

/-- The contact of the request is a registered one. -/
theorem tryHandleReregister_mayThrow {contact : Bytes} (hcontact : request.contact = some contact) :
    ((remote providers domain).tryHandleReregister request txn).MayEnd (.error e) := by
  let existing := madeContact request (some contact) 1 none 0 0
  let binding : RegistrationBinding :=
    { impu := [], impi := [], scscfUri := [], contacts := [existing], state := .registered }
  have hfound : (findExisting (G := registrarOps) (makeContactSelector request (some contact))
      binding.contacts).MayEnd (.ok (some existing)) := by
    refine ⟨(0 : Nat), ?_⟩
    have hlive : existing.live 0 = true := rfl
    have hmatches : matchesSelector existing (makeContactSelector request (some contact)) = true :=
      matchesSelector_madeContact request contact 1 none 0 0
    change Program.MayEnd (if existing.live 0 && matchesSelector existing
      (makeContactSelector request (some contact)) then Pure.pure (some existing) else _) _
    rw [hlive, hmatches]
    rfl
  refine ⟨Except.ok binding, ?_⟩
  simp only [hcontact]
  refine hfound.bind ?_
  exact ((makeContactBinding_mayThrow hcseq _ _ _).bind_error).bind_error

theorem verifyAndRegister_mayThrow (hne : providers ≠ []) :
    ((remote providers domain).verifyAndRegister request txn).MayEnd (.error e) := by
  obtain ⟨n, rest, rfl⟩ := List.exists_cons_of_ne_nil hne
  have hfound : ((remote (n :: rest) domain).selectProviderForAuthorization request).MayEnd
      (.ok (some (.remote n))) := ⟨true, rfl⟩
  refine hfound.bind ⟨Except.ok ⟨[], [], [], []⟩, Except.ok ⟨[], []⟩, ?_⟩
  exact (makeContactBinding_mayThrow hcseq _ _ _).bind_error

theorem handleDeregister_mayThrow {contact : Bytes} (hcontact : request.contact = some contact)
    (hnamed : contact ≠ bytes "*") :
    ((remote providers domain).handleDeregister request txn).MayEnd (.error e) := by
  refine ⟨Except.ok ⟨[], []⟩, ?_⟩
  simp only [hcontact, if_neg hnamed, hcseq]
  rfl

theorem handleRegister_mayThrow (h : ¬ CseqUnused providers request) :
    ((remote providers domain).handleRegister request txn).MayEnd (.error e) := by
  rw [handleRegister]
  rw [CseqUnused] at h
  cases hderegister : isDeregister request with
  | true =>
      rw [hderegister, if_pos rfl] at h
      obtain ⟨contact, h⟩ := not_forall.mp h
      obtain ⟨hcontact, hnamed⟩ := Classical.not_imp.mp h
      exact handleDeregister_mayThrow hcseq hcontact hnamed
  | false =>
      rw [hderegister, if_neg (by decide)] at h
      cases hcontact : request.contact with
      | some contact => exact (tryHandleReregister_mayThrow hcseq hcontact).bind_error
      | none =>
          -- Nothing is registered, and the credentials are verified.
          have hauthorized : hasAuthorization request = true ∧ providers ≠ [] := by
            by_contra hnot
            refine h ⟨hcontact, fun hauthorized => ?_⟩
            by_contra hne
            exact hnot ⟨hauthorized, hne⟩
          have hpassed : ((remote providers domain).tryHandleReregister request txn).MayEnd
              (.ok false) := ⟨Except.error { code := .registrationNotFound, message := [] }, rfl⟩
          refine hpassed.bind ?_
          change Program.MayEnd (if hasAuthorization request then
            (remote providers domain).verifyAndRegister request txn
              else (remote providers domain).sendChallenge request txn) _
          rw [if_pos hauthorized.1]
          exact verifyAndRegister_mayThrow hcseq hauthorized.2

end

theorem handleRegister_answers_iff :
    Answers ((remote providers domain).handleRegister request txn) ↔
      CseqUnused providers request ∨ ∃ cseq, request.cseq = .ok cseq := by
  refine ⟨fun h => ?_, handleRegister_answers⟩
  cases hcseq : request.cseq with
  | ok cseq => exact .inr ⟨cseq, rfl⟩
  | error e =>
      left
      by_contra hused
      exact not_mayEnd_error_of_answers h e (handleRegister_mayThrow hcseq hused)

end Registrar

/-! ## All readers of numbers -/

/-- Max-Forwards is missing, or a number that fits. -/
def HopsReadable (msg : SipMessage) : Prop :=
  ∀ text, msg.maxForwardsField = some text → ∃ mf, stoi text = .ok mf

/-- So is the number of the CSeq. -/
def CseqReadable (msg : SipMessage) : Prop :=
  ∀ text, msg.cseqField.bind CSeq.number = some text → ∃ cseq, stoul text = .ok cseq

theorem hopsReadable_iff {msg : SipMessage} :
    HopsReadable msg ↔ ∃ mf, msg.maxForwards = .ok mf := by
  rw [HopsReadable, SipMessage.maxForwards_eq]
  cases msg.maxForwardsField with
  | none => exact ⟨fun _ => ⟨-1, rfl⟩, fun _ _ h => by cases h⟩
  | some text =>
      refine ⟨fun h => h text rfl, fun h other heq => ?_⟩
      cases heq
      exact h

theorem cseqReadable_iff {msg : SipMessage} :
    CseqReadable msg ↔ ∃ cseq, msg.cseq = .ok cseq := by
  rw [CseqReadable, SipMessage.cseq]
  cases msg.cseqField.bind CSeq.number with
  | none => exact ⟨fun _ => ⟨0, rfl⟩, fun _ _ h => by cases h⟩
  | some text =>
      constructor
      · intro h
        obtain ⟨cseq, hcseq⟩ := h text rfl
        simp only [hcseq]
        exact ⟨_, rfl⟩
      · rintro ⟨cseq, hcseq⟩ other heq
        cases heq
        simp only at hcseq
        cases hread : stoul text with
        | error e =>
            rw [hread] at hcseq
            cases hcseq
        | ok n => exact ⟨n, rfl⟩

/-- A handler at work on a request. -/
inductive NumberReader where
  | prepareRequestForForward (proxy : ProxyCore) (request : SipMessage) (transport branch : Bytes)
  | forwardStateful (proxy : ProxyCore) (sendRequest : SipMessage → Endpoint → Result Unit)
      (request : SipMessage) (dest : Endpoint) (options : ForwardOptions) (branch : Bytes)
  | buildForwardedCancel (proxy : ProxyCore) (request : SipMessage)
      (context : CancelForwardContext) (branch : Bytes)
  | handleRegister (providers : List Nat) (domain : Bytes) (request : SipMessage) (txn : Nat)

namespace NumberReader

variable [OsipParser]

/-- It returns, whatever it is answered, and what is to be answered has been answered once. -/
def Survives [OsipAccessor] : NumberReader → Prop
  | prepareRequestForForward proxy request transport branch =>
      ∃ result, proxy.prepareRequestForForward request transport branch = .ok result
  | forwardStateful proxy sendRequest request dest options branch =>
      ∃ outcome, proxy.forwardStateful sendRequest request dest options branch = .ok outcome
  | buildForwardedCancel proxy request context branch =>
      ∃ cancel, proxy.buildForwardedCancel request context branch = .ok cancel
  | handleRegister providers domain request txn =>
      Answers ((Registrar.remote providers domain).handleRegister request txn)

/-- The number is not looked at, or can be read. -/
def ReadsNumbers : NumberReader → Prop
  | prepareRequestForForward _ request _ _ => HopsReadable request
  | forwardStateful proxy _ request _ options _ =>
      (options.detectLoop && request.vias.head?.any proxy.isOwnVia) = true ∨ HopsReadable request
  | buildForwardedCancel _ request context _ =>
      context.decrementMaxForwards = false ∨ HopsReadable request
  | handleRegister providers _ request _ =>
      Registrar.CseqUnused providers request ∨ CseqReadable request

theorem survives_iff [OsipAccessor] (hpos : OsipAccessor.ReturnsPosition) (reader : NumberReader) :
    reader.Survives ↔ reader.ReadsNumbers := by
  cases reader with
  | prepareRequestForForward proxy request transport branch =>
      exact (prepareRequestForForward_returns_iff proxy transport branch).trans
        hopsReadable_iff.symm
  | forwardStateful proxy sendRequest request dest options branch =>
      rw [ReadsNumbers, ← proxy.isLoopDetected_of_returnsPosition hpos]
      exact forwardStateful_returns_iff.trans (or_congr_right hopsReadable_iff.symm)
  | buildForwardedCancel proxy request context branch =>
      exact buildForwardedCancel_returns_iff.trans (or_congr_right hopsReadable_iff.symm)
  | handleRegister providers domain request txn =>
      exact Registrar.handleRegister_answers_iff.trans (or_congr_right cseqReadable_iff.symm)

end NumberReader

/-! ## A number that is none -/

/-- `Max-Forwards: abc`. -/
def unreadableHops : SipMessage :=
  { SipMessage.register "sip:alice@ims.local" "sip:alice@ims.local" with
    headers := [⟨bytes "max-forwards", some (bytes "abc")⟩] }

/-- `CSeq: abc REGISTER`. -/
def unreadableCseq : SipMessage :=
  { SipMessage.register "sip:alice@ims.local" "sip:alice@ims.local"
      [contactAt "sip:alice@10.0.0.9"] with
    cseqField := some ⟨some (bytes "abc"), some (bytes "REGISTER")⟩ }

/-- A proxy that forwards the request with these `Via`s. -/
def loopReader (vias : List Via) : NumberReader :=
  .forwardStateful ⟨bytes "10.0.0.1", 5060⟩ (fun _ _ => .ok ()) { unreadableHops with vias }
    ⟨bytes "10.0.0.5", 5060, bytes "udp"⟩ {} (bytes "z9hG4bK1")

/-- The own address in the top `Via` spares the proxy the number, in a lower one it does not. -/
theorem survives_iff_looped :
    @NumberReader.Survives plainUris _ (loopReader [⟨bytes "UDP", bytes "10.0.0.1", none, []⟩,
        ⟨bytes "UDP", bytes "10.0.0.9", none, []⟩]) ∧
      ¬ @NumberReader.Survives plainUris _ (loopReader [⟨bytes "UDP", bytes "10.0.0.9", none, []⟩,
        ⟨bytes "UDP", bytes "10.0.0.1", none, []⟩]) := by
  have hsurvives := fun vias =>
    @NumberReader.survives_iff plainUris _ returnsPosition_returnedPositions (loopReader vias)
  constructor
  · exact (hsurvives _).mpr (.inl (by decide))
  · intro h
    obtain hloop | hreadable := (hsurvives _).mp h
    · exact absurd hloop (by decide)
    · have hread : unreadableHops.maxForwards = .error .invalidArgument := by decide +kernel
      obtain ⟨mf, hmf⟩ := hopsReadable_iff.mp hreadable
      cases hread.symm.trans hmf

/-- The one request is not forwarded, and the other one, whose contact may be a registered one, is
not answered. -/
theorem not_survives_unreadable :
    ¬ @NumberReader.Survives plainUris _ (.prepareRequestForForward ⟨bytes "10.0.0.1", 5060⟩
        unreadableHops (bytes "udp") (bytes "z9hG4bK1")) ∧
      ¬ @NumberReader.Survives plainUris _
        (.handleRegister [] (bytes "ims.local") unreadableCseq 0) := by
  constructor
  · intro h
    obtain ⟨mf, hmf⟩ := (prepareRequestForForward_returns_iff _ _ _).mp h
    have hread : unreadableHops.maxForwards = .error .invalidArgument := by decide +kernel
    cases hread.symm.trans hmf
  · intro h
    have hcseq : unreadableCseq.cseq = .error .invalidArgument := by decide +kernel
    have hused : ¬ Registrar.CseqUnused [] unreadableCseq := by
      have hregisters : isDeregister unreadableCseq = false := by decide +kernel
      rw [Registrar.CseqUnused, hregisters, if_neg (by decide)]
      rintro ⟨hnone, -⟩
      cases hnone
    exact not_mayEnd_error_of_answers h .invalidArgument
      (@Registrar.handleRegister_mayThrow _ _ plainUris _ _ _ hcseq hused)

end SimIms.SCscf
