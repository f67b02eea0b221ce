import SimIms.Diameter.MilenageVectors
import SimIms.SCscf.AkaCoordination
import SimIms.SCscf.IssuedNonces

/-!
# The exchange with a card

The network's half of AKA is the vector of the HSS, the challenge that the S-CSCF builds from it and
the check of the response. A `Card` is the other half: what somebody with the same key does with the
nonce of the challenge. Whatever calls of the provider interleave, every challenge that waits is one
that the card of its subscriber can answer.
-/

namespace SimIms.SCscf

open Cxx Lib Sip Db Diameter AuthManager

/-! ## The card -/

/-- The key and the operator code that a card shares with the record of its subscriber. -/
structure Card where
  k : Bytes
  opc : Bytes

namespace Card

variable [MilenageFunctions] (card : Card) (rand autn : Bytes)

/-- The number is concealed with the anonymity key. -/
def number : Bytes := (autn.take 6).zipWith (· ^^^ ·)
    (MilenageFunctions.f2345 card.opc card.k rand).ak

def managementField : Bytes := (autn.drop 6).take 2

/-- The token is the network's: its code is the one that the card computes. -/
def Accepts : Prop :=
  autn.drop 8 = MilenageFunctions.f1 card.opc card.k rand (card.number rand autn)
    (managementField autn)

def response : Bytes := (MilenageFunctions.f2345 card.opc card.k rand).res

/-- RAND and AUTN of a nonce. -/
def challengeOf (nonce : Bytes) : Bytes × Bytes :=
  let decoded := base64Decode nonce
  (decoded.take 16, decoded.drop 16)

variable {card rand autn} {sqn amf : Bytes}

omit [MilenageFunctions] in
theorem zipWith_xor_zipWith_xor : ∀ {a b : Bytes}, a.length = b.length →
    (a.zipWith (· ^^^ ·) b).zipWith (· ^^^ ·) b = a
  | [], _, _ => by simp
  | x :: a, [], h => by cases h
  | x :: a, y :: b, h => by
      rw [List.zipWith_cons_cons, List.zipWith_cons_cons, UInt8.xor_assoc, UInt8.xor_self,
        UInt8.xor_zero, zipWith_xor_zipWith_xor (Nat.succ.inj h)]

/-- The number is concealed in six bytes. -/
theorem length_concealed (hsqn : sqn.length = 6) :
    (sqn.zipWith (· ^^^ ·) (MilenageFunctions.f2345 card.opc card.k rand).ak).length = 6 := by
  rw [List.length_zipWith, F2345.length_ak, hsqn]
  rfl

/-- The card reads the number that the token was made with. -/
theorem number_autnOf (hsqn : sqn.length = 6) :
    card.number rand (autnOf card.opc card.k sqn amf rand) = sqn := by
  have hconcealed : (sqn.zipWith (· ^^^ ·)
      (MilenageFunctions.f2345 card.opc card.k rand).ak).length = 6 := length_concealed hsqn
  rw [number, autnOf, List.append_assoc, ← hconcealed, List.take_left]
  apply zipWith_xor_zipWith_xor
  rw [hsqn, F2345.length_ak]

theorem managementField_autnOf (hsqn : sqn.length = 6) (hamf : amf.length = 2) :
    managementField (autnOf card.opc card.k sqn amf rand) = amf := by
  have hconcealed : (sqn.zipWith (· ^^^ ·)
      (MilenageFunctions.f2345 card.opc card.k rand).ak).length = 6 := length_concealed hsqn
  rw [managementField, autnOf, List.append_assoc, ← hconcealed, List.drop_left, ← hamf,
    List.take_left]

/-- It accepts every token that was made with its own key. -/
theorem accepts_autnOf (hsqn : sqn.length = 6) (hamf : amf.length = 2) :
    card.Accepts rand (autnOf card.opc card.k sqn amf rand) := by
  have hconcealed : (sqn.zipWith (· ^^^ ·) (MilenageFunctions.f2345 card.opc card.k rand).ak ++
      amf).length = 8 := by
    rw [List.length_append, length_concealed hsqn, hamf]
  rw [Accepts, number_autnOf hsqn, managementField_autnOf hsqn hamf]
  rw [autnOf, ← hconcealed, List.drop_left]

omit [MilenageFunctions] in
/-- A nonce is taken apart where it was put together. -/
theorem challengeOf_base64Encode (hrand : rand.length = 16) :
    challengeOf (base64Encode (rand ++ autn)) = (rand, autn) := by
  rw [challengeOf, base64Decode_base64Encode, ← hrand, List.take_left, List.drop_left]

end Card

/-! ## The vectors of the HSS -/

section

variable [MilenageFunctions]

/-- The answer has been made for this subscriber, with a random number of sixteen bytes. -/
def Genuine (params : MarParams) (maa : MaaResult) : Prop :=
  ∃ sqn k opc amf rand, KeyMaterial maa.subscriber.auth k opc amf ∧ rand.length = 16 ∧
    maa = answered params maa.subscriber k opc (bigEndian 6 (sqn % 2 ^ 48)) amf rand

variable {σ : Type} {G : Interface} [OsipParser] [Includes repository G] [Includes environment G]
variable {world : σ → (op : G.Op) → σ × G.Answer op} {params : MarParams} {s : σ} {maa : MaaResult}

/-- What the HSS answers over a repository is genuine, whatever the repository answers. -/
theorem genuine_of_requested
    (hrandom : ∀ s, (Includes.answer (F := environment) EnvironmentOp.randomBytes
      (world s (Includes.embed (F := environment) EnvironmentOp.randomBytes)).2 : Bytes).length =
        16)
    (h : (requested world params s).result = .ok (.ok maa)) : Genuine params maa := by
  rw [requested, multimediaAuth_eq] at h
  obtain ⟨subscriber, -, h⟩ := Program.result_andThen_eq_ok_iff.mp h
  obtain ⟨sqn, -, h⟩ := Program.result_andThen_eq_ok_iff.mp h
  obtain ⟨k, opc, amf, hkey, rfl⟩ := result_answerWith_eq_ok_iff.mp h
  exact ⟨sqn.toNat, k, opc, amf, _, hkey, hrandom _, rfl⟩

end

/-! ## The card passes -/

/-- The card with this key answers the challenge, which has this nonce: it finds the token in the
nonce, accepts it and reads the number, computes the response and the session keys of the vector,
and whoever answers with this response is verified. -/
structure Card.Passes [MilenageFunctions] [Md5] (card : Card) (sqn : Bytes) (pending : PendingAuth)
    (nonce : Bytes) : Prop where
  scheme : pending.scheme = bytes "Digest-AKAv1-MD5"
  challenged : expectedNonce pending.vector pending.scheme = some nonce
  accepts : card.Accepts (Card.challengeOf nonce).1 (Card.challengeOf nonce).2
  readsNumber : card.number (Card.challengeOf nonce).1 (Card.challengeOf nonce).2 = sqn
  answers : card.response (Card.challengeOf nonce).1 = pending.vector.xres
  sharesKeys : (MilenageFunctions.f2345 card.opc card.k (Card.challengeOf nonce).1).ck =
      pending.vector.ck ∧
    (MilenageFunctions.f2345 card.opc card.k (Card.challengeOf nonce).1).ik = pending.vector.ik
  verifies : ∀ authHeader method credentials, parseAuthorization authHeader = .ok credentials →
    CorrectResponse credentials (card.response (Card.challengeOf nonce).1) nonce method →
    credentials.response ≠ [] → credentials.uri ≠ [] →
      verifyResponse authHeader pending.vector method pending.scheme = true

theorem base64Encode_ne_nil {b : Bytes} (h : b ≠ []) : base64Encode b ≠ [] := by
  intro hempty
  apply h
  rw [← base64Decode_base64Encode b, hempty]
  rfl

/-- Every genuine vector is answered by the card of its subscriber. -/
theorem passes_of_answered [MilenageFunctions] [Md5] {params : MarParams}
    {subscriber : SubscriberRecord} {k opc sqn amf rand : Bytes} {pending : PendingAuth}
    (hscheme : pending.scheme = bytes "Digest-AKAv1-MD5") (hsqn : sqn.length = 6)
    (hamf : amf.length = 2) (hrand : rand.length = 16)
    (hvector : pending.vector = (answered params subscriber k opc sqn amf rand).authVector) :
    Card.Passes ⟨k, opc⟩ sqn pending (base64Encode (rand ++ autnOf opc k sqn amf rand)) := by
  have haka : IsAka pending.scheme := .inr hscheme
  have hexpected : expectedNonce pending.vector pending.scheme =
      some (base64Encode (rand ++ autnOf opc k sqn amf rand)) := by
    rw [expectedNonce, if_neg haka.ne_digest, if_pos (Or.inr hscheme), hvector]
    rfl
  have hnonempty : rand ++ autnOf opc k sqn amf rand ≠ [] := by
    intro hempty
    have hlength := congrArg List.length hempty
    rw [List.length_append, hrand] at hlength
    simp at hlength
  have hchallenge : Card.challengeOf (base64Encode (rand ++ autnOf opc k sqn amf rand)) =
      (rand, autnOf opc k sqn amf rand) := Card.challengeOf_base64Encode hrand
  constructor
  case scheme => exact hscheme
  case challenged => exact hexpected
  case accepts =>
    rw [hchallenge]
    have haccepts : Card.Accepts ⟨k, opc⟩ rand (autnOf opc k sqn amf rand) :=
      Card.accepts_autnOf hsqn hamf
    exact haccepts
  case readsNumber =>
    rw [hchallenge]
    have hnumber : Card.number ⟨k, opc⟩ rand (autnOf opc k sqn amf rand) = sqn :=
      Card.number_autnOf hsqn
    exact hnumber
  case answers =>
    rw [hchallenge, hvector]
    rfl
  case sharesKeys =>
    rw [hchallenge, hvector]
    exact ⟨rfl, rfl⟩
  case verifies =>
    intro authHeader method credentials hparse hcorrect hresponse huri
    rw [hchallenge] at hcorrect
    refine verifyResponse_eq_true_iff.mpr
      ⟨credentials, _, hparse, hexpected, ?_, hresponse, ?_, huri⟩
    · rw [hvector]
      exact hcorrect
    · rw [hcorrect.nonce]
      exact base64Encode_ne_nil hnonempty

/-! ## Calls of the provider -/

section

variable [MilenageFunctions]

/-- The HSS answers with genuine vectors. -/
def GenuineAnswer : (op : AkaOp) → op.Answer → Prop
  | .hss (.multimediaAuth params), answer => ∀ maa, answer = .ok maa → Genuine params maa
  | _, _ => True

/-- The challenge has a genuine vector. -/
def Answerable (pending : PendingAuth) : Prop :=
  ∃ params maa, Genuine params maa ∧ params.sipAuthScheme = bytes "Digest-AKAv1-MD5" ∧
    pending.vector = maa.authVector ∧ pending.scheme = maa.sipAuthScheme ∧
      pending.subscriber = maa.subscriber

/-- Only answerable challenges are stored. -/
def genuineContract : Contract akaOps AkaThread where
  Allows _
    | .pendingAuths (.complete _ result) => ∀ pending, result = .ok pending → Answerable pending
    | _ => True
  Expects := GenuineAnswer
  Throws _ := True
  track := AkaThread.track

/-- The card of its subscriber passes an answerable challenge. -/
theorem Answerable.passes [Md5] {pending : PendingAuth} (h : Answerable pending) :
    ∃ k opc amf sqn nonce rand, KeyMaterial pending.subscriber.auth k opc amf ∧
      Card.Passes ⟨k, opc⟩ (bigEndian 6 (sqn % 2 ^ 48)) pending nonce ∧
      pending.vector.ck = (MilenageFunctions.f2345 opc k rand).ck ∧
      pending.vector.ik = (MilenageFunctions.f2345 opc k rand).ik := by
  obtain ⟨params, maa, ⟨sqn, k, opc, amf, rand, hkey, hrand, hanswered⟩, hscheme, hvector,
    hpending, hsubscriber⟩ := h
  rw [hanswered] at hvector hpending
  have hdigest : pending.scheme = bytes "Digest-AKAv1-MD5" := hpending.trans hscheme
  have hpasses := passes_of_answered hdigest (length_bigEndian 6 _)
    (length_of_hexBytes hkey.readsAmf)
    hrand hvector
  refine ⟨k, opc, amf, sqn, _, rand, hsubscriber ▸ hkey, hpasses, ?_, ?_⟩
  · rw [hvector]
    rfl
  · rw [hvector]
    rfl

variable [OsipParser] [Md5] {domain : Bytes}

namespace ImsAkaAuthProvider

theorem begin_meets_genuineContract (call : AkaCall) :
    (begin domain call).Meets genuineContract ⟨call, .fresh⟩ fun _ _ => True := by
  cases call with
  | canHandleAuthorization request =>
      change (canHandleAuthorization domain request >>= fun value =>
        Pure.pure (AkaResult.flag value)).Meets _ _ _
      rw [canHandleAuthorization]
      cases request.getHeader (bytes "Authorization") with
      | none => exact trivial
      | some header =>
          cases hparse : AuthManager.parseAuthorization header with
          | error error =>
              simp only [hparse]
              exact trivial
          | ok params =>
              simp only [hparse]
              exact ⟨trivial, fun _ _ => trivial⟩
  | createChallenge request =>
      refine ⟨trivial, fun begun _ => ?_⟩
      cases begun with
      | pending pending => exact trivial
      | inFlight promise => exact ⟨trivial, fun result _ => trivial⟩
      | owner promise =>
          refine ⟨trivial, fun answer hanswer => ?_⟩
          cases answer with
          | error error =>
              refine ⟨?_, fun _ _ => ⟨trivial, fun _ _ => trivial⟩⟩
              intro pending hpending
              cases hpending
          | ok maa =>
              refine ⟨trivial, fun now _ => ⟨?_, fun _ _ => ⟨trivial, fun _ _ => trivial⟩⟩⟩
              intro pending hpending
              cases hpending
              exact ⟨_, maa, hanswer maa rfl, rfl, rfl, rfl, rfl⟩
  | verifyAuthorization request =>
      change (verifyAuthorization domain request >>= fun result =>
        Pure.pure (AkaResult.verification result)).Meets _ _ _
      rw [verifyAuthorization]
      cases request.getHeader (bytes "Authorization") with
      | none => exact trivial
      | some header =>
          cases hparse : AuthManager.parseAuthorization header with
          | error error =>
              simp only [hparse]
              exact trivial
          | ok params =>
              simp only [hparse]
              refine ⟨trivial, fun found _ => ?_⟩
              obtain _ | ⟨key, pending⟩ := found
              · exact trivial
              · change (verifyPending request header key pending >>= fun result =>
                  Pure.pure (AkaResult.verification result)).Meets _ _ _
                rw [verifyPending]
                split
                · refine ⟨trivial, fun consumed _ => ?_⟩
                  cases consumed with
                  | false => exact trivial
                  | true => exact trivial
                · exact trivial

end ImsAkaAuthProvider

/-- Every challenge that waits is answerable. -/
def AllAnswerable (s : AkaState) : Prop :=
  ∀ key pending, s.auths.pendingAuth.find key = some pending → Answerable pending

omit [OsipParser] [Md5] in
theorem AllAnswerable.serve {s t : AkaState} (h : AllAnswerable s) {thread : AkaThread} {op : AkaOp}
    (hallows : genuineContract.Allows thread op) {environment : AkaEnvironment} {answer : op.Answer}
    {out : List PendingAuthEvent} (hserve : s.serve op environment = some (t, answer, out)) :
    AllAnswerable t := by
  have hpurge : AllAnswerable { s with auths := s.auths.purgeExpiredLocked s.now } :=
    fun key pending hfind => h key pending (Table.find_eraseIf_eq_some_iff.mp hfind).1
  cases op with
  | environment op | hss op =>
      cases hserve
      exact h
  | pendingAuths op =>
      obtain ⟨⟨auths, result⟩, hresult, heq⟩ := Option.map_eq_some_iff.mp hserve
      cases heq
      cases op with
      | hasPending callId impi | findPending callId impi =>
          cases hresult
          exact hpurge
      | begin key =>
          obtain ⟨_, rfl, rfl, -⟩ | ⟨_, rfl, rfl, -⟩ | ⟨rfl, -, -, rfl⟩ :=
            PendingAuths.serve_begin_cases hresult
          · exact hpurge
          · exact hpurge
          · exact hpurge
      | complete key result =>
          cases hresult
          intro other pending hfind
          cases result with
          | error error => exact h other pending hfind
          | ok completed =>
              simp only [Table.find_insert] at hfind
              split at hfind
              · cases hfind
                exact hallows pending rfl
              · exact h other pending hfind
      | setValue promise result =>
          cases hresult
          exact h
      | get promise =>
          rw [PendingAuths.serve] at hresult
          split at hresult
          · cases hresult
          · cases hresult
            exact h
      | consume key pending =>
          obtain ⟨-, rfl⟩ | ⟨found, -, -, -, rfl⟩ := PendingAuths.serve_consume_cases hresult
          · exact h
          · intro other waiting hfind
            exact h other waiting (Table.find_of_find_erase hfind).2

def genuineDiscipline : Discipline AkaState akaOps AkaThread AkaResult PendingAuthEvent where
  contract := genuineContract
  assumes := GenuineAnswer
  shared s _ := AllAnswerable s
  linked _ _ _ _ := True
  result _ _ := True

theorem genuineDiscipline_sound :
    genuineDiscipline.Sound (ImsAkaAuthProvider.service domain) where
  track _ _ _ := rfl
  begins call := ImsAkaAuthProvider.begin_meets_genuineContract call
  fresh _ _ _ _ _ _ := trivial
  serves s log id thread op environment t answer out hshared _ hallows hserve hassumes :=
    ⟨hshared.serve hallows hserve, hassumes, trivial, fun _ _ _ _ => trivial⟩
  background s log elapsed t hshared hstep := by
    cases hstep
    exact ⟨hshared, fun _ _ _ => trivial⟩

end

/-! ## With the functions of the library -/

theorem ck_ne_ik (opc k rand : Bytes) :
    (MilenageFunctions.f2345 opc k rand).ck ≠ (MilenageFunctions.f2345 opc k rand).ik := by
  have hdistinct := Crypt.nodup_outputs (span 16 k) (span 16 opc) (span 16 rand) (.replicate 6 0)
    (.replicate 2 0)
  intro heq
  simp only [MilenageFunctions.f2345, computed, Crypt.run_f2345, Vector.toList_inj] at heq
  rw [Crypt.outputs, heq] at hdistinct
  simp at hdistinct

/-- In whatever order calls of the provider interleave: if the HSS answers with what Milenage makes
of its records, every challenge that waits has two different session keys and is passed by the card
with the key of its subscriber. -/
theorem waiting_challenges_passed [OsipParser] [Md5] (domain : Bytes) (now : Nat)
    (as : List (ThreadAction AkaEnvironment AkaCall Nat)) (s : AkaThreads)
    (log : List (Nat × PendingAuthEvent))
    (genuine : (threadsMachine (ImsAkaAuthProvider.service domain)).Along
      (fun s a _ _ => s.Respects (ImsAkaAuthProvider.service domain) GenuineAnswer a)
      (.init ⟨.init, now⟩) as)
    (hrun : (threadsMachine (ImsAkaAuthProvider.service domain)).exec (.init ⟨.init, now⟩) as =
      some (s, log)) :
    ∀ key pending, s.shared.auths.pendingAuth.find key = some pending →
      pending.vector.ck ≠ pending.vector.ik ∧
        ∃ k opc amf sqn nonce, KeyMaterial pending.subscriber.auth k opc amf ∧
          Card.Passes ⟨k, opc⟩ (bigEndian 6 (sqn % 2 ^ 48)) pending nonce := by
  have hinv : s.Inv genuineDiscipline log := by
    refine genuineDiscipline_sound.exec ?_ genuine hrun
    intro key pending hfind
    cases hfind
  intro key pending hfind
  obtain ⟨k, opc, amf, sqn, nonce, rand, hkey, hpasses, hck, hik⟩ :=
    (hinv.shared key pending hfind).passes
  rw [hck, hik]
  exact ⟨ck_ne_ik opc k rand, k, opc, amf, sqn, nonce, hkey, hpasses⟩

/-- The HSS that has this subscriber only. -/
def keyedHss : AkaEnvironment where
  hss
    | .multimediaAuth params =>
        .ok (answered params keyedSubscriber (List.replicate 16 0) (List.replicate 16 0)
          (bigEndian 6 (32 % 2 ^ 48)) [0x80, 0] (List.replicate 16 7))
    | .serverAssignment params => .ok { impu := params.impu, associatedImpus := [] }

theorem genuineAnswer_keyedHss (op : HssOp) : GenuineAnswer (.hss op) (keyedHss.hss op) := by
  cases op with
  | serverAssignment params => trivial
  | multimediaAuth params =>
      intro maa hmaa
      cases hmaa
      exact ⟨32, _, _, _, _, keyMaterial_keyedSubscriber, rfl, rfl⟩

theorem respects_keyedHss [OsipParser] [Md5] {domain : Bytes} (s : AkaThreads) :
    s.Respects (ImsAkaAuthProvider.service domain) GenuineAnswer (.run 0 keyedHss) := by
  intro history op next shared answer events _ hserve
  cases op with
  | hss op =>
      cases hserve
      exact genuineAnswer_keyedHss op
  | environment op | pendingAuths op => trivial

def keyedChallenge : List (ThreadAction AkaEnvironment AkaCall Nat) :=
  .start (.createChallenge (.register "sip:001@ims.local" "sip:001@ims.local")) ::
    List.replicate 5 (.run 0 keyedHss)

/-- A challenge waits for this subscriber, and its card passes. -/
theorem waiting_challenges_passed_keyed :
    ∃ s log key pending, (threadsMachine (@ImsAkaAuthProvider.service plainUris (.ofTable [])
        (bytes "ims.local"))).exec (.init ⟨.init, 0⟩) keyedChallenge = some (s, log) ∧
      s.shared.auths.pendingAuth.find key = some pending ∧
      pending.vector.ck ≠ pending.vector.ik ∧
        ∃ k opc amf sqn nonce, KeyMaterial pending.subscriber.auth k opc amf ∧
          @Card.Passes milenageFunctions (.ofTable []) ⟨k, opc⟩ (bigEndian 6 (sqn % 2 ^ 48))
            pending nonce := by
  have hrun : ∃ s log key pending, (threadsMachine (@ImsAkaAuthProvider.service plainUris
      (.ofTable []) (bytes "ims.local"))).exec (.init ⟨.init, 0⟩) keyedChallenge = some (s, log) ∧
      s.shared.auths.pendingAuth.find key = some pending :=
    ⟨_, _, @pendingKey plainUris (.register "sip:001@ims.local" "sip:001@ims.local"), _, by rfl,
      by rfl⟩
  obtain ⟨s, log, key, pending, hrun, hfind⟩ := hrun
  refine ⟨s, log, key, pending, hrun, hfind, ?_⟩
  refine @waiting_challenges_passed plainUris (.ofTable []) (bytes "ims.local") 0
    keyedChallenge s log
    ?_ hrun key pending hfind
  apply Machine.along_iff.mpr
  intro before a after t u first out heq _ _
  have hmem : a ∈ keyedChallenge := heq ▸ List.mem_append_right _ List.mem_cons_self
  obtain rfl | hmem := List.mem_cons.mp hmem
  · trivial
  · obtain rfl := List.eq_of_mem_replicate hmem
    exact @respects_keyedHss plainUris (.ofTable []) (bytes "ims.local") t

end SimIms.SCscf
