import SimIms.Db.Aliases
import SimIms.SCscf.MongoDigestCredentialStore

/-!
# Answers under any name

A challenge is stored under the private identity of the subscriber that some identity of the
request has led to, and an answer looks for it under the private identity of the subscriber that
its username leads to. Both come from the record, and private identities are told apart by the
IMSI that they begin with, so that an answer finds the challenge of its subscriber and no other
one, whichever name was used in either request.
-/

namespace SimIms.SCscf

open Cxx Lib Sip Db MongoDigestCredentialStore

variable [OsipParser]

/-! ## The store as a credential store -/

/-- What the store answers while no operation fails. -/
def storedCredential (collection : Collection) : (op : CredentialOp) → CredentialAnswer op
  | .findByUsername username realm =>
      .ok (((collection.findRecord (usernameCandidates username realm)).map toDigestCredential).or
        (if retriesTel username then
          (collection.findRecord (usernameCandidates (bytes "tel:" ++ username) realm)).map
            toDigestCredential
        else none))
  | .findByIdentity identity =>
      .ok ((collection.findRecord (identityCandidates (normalizeImpuUri identity))).map
        toDigestCredential)

section

variable {s : MongoDigestState} {environment : MongoDigestEnvironment}

open MongoSubscriberRepository (findFirst findOneByImsiOrTel)

omit [OsipParser] in
theorem findFirst_alone (hfailure : environment.failure = none) (field : Field)
    (values : List Bytes) :
    (findFirst (G := mongoDigestOps) field values).alone MongoDigestState.serve environment s =
      some (s, .ok (.ok (values.findSome? fun value =>
        s.collection.find? fun record => field.value record == value)), []) := by
  induction values with
  | nil => rfl
  | cons value values ih =>
      have hserve : s.serve (.repository (.findOneByField field value)) environment =
          some (s, .ok (s.collection.find? fun record => field.value record == value), []) := by
        rw [MongoDigestState.serve, hfailure]
        rfl
      rw [List.findSome?_cons]
      refine (Program.alone_call hserve ?_).trans (by rw [List.append_nil])
      cases s.collection.find? fun record => field.value record == value with
      | none => exact ih
      | some record => rfl

omit [OsipParser] in
theorem findOneByImsiOrTel_alone (hfailure : environment.failure = none) (imsis tels : List Bytes) :
    (findOneByImsiOrTel (G := mongoDigestOps) imsis tels).alone MongoDigestState.serve environment
      s = some (s, .ok (.ok (s.collection.findRecord (imsis, tels))), []) := by
  refine Program.alone_andThen_quiet (findFirst_alone hfailure .imsi imsis) ?_
  rw [Collection.findRecord]
  simp only [Field.value]
  cases imsis.findSome? fun value => s.collection.find? fun record => record.imsi == value with
  | none => exact findFirst_alone hfailure .tel tels
  | some record => rfl

theorem tryLookup_alone (hfailure : environment.failure = none) (candidate realm : Bytes) :
    (tryLookup (G := mongoDigestOps) candidate realm).alone MongoDigestState.serve environment s =
      some (s, .ok (.ok ((s.collection.findRecord (usernameCandidates candidate realm)).map
        toDigestCredential)), []) :=
  Program.alone_andThen (findOneByImsiOrTel_alone hfailure _ _) rfl

theorem findByUsername_alone (hfailure : environment.failure = none) (username realm : Bytes) :
    (MongoDigestCredentialStore.findByUsername (G := mongoDigestOps) username realm).alone
      MongoDigestState.serve environment s =
      some (s, .ok (storedCredential s.collection (.findByUsername username realm)), []) := by
  refine Program.alone_andThen_quiet (tryLookup_alone hfailure username realm) ?_
  rw [storedCredential]
  cases (s.collection.findRecord (usernameCandidates username realm)).map toDigestCredential with
  | some credential => rfl
  | none =>
      by_cases hretries : retriesTel username = true
      · simp only [if_pos hretries]
        exact tryLookup_alone hfailure _ realm
      · simp only [if_neg hretries]
        rfl

theorem findByIdentity_alone (hfailure : environment.failure = none) (identity : Bytes) :
    (MongoDigestCredentialStore.findByIdentity (G := mongoDigestOps) identity).alone
      MongoDigestState.serve environment s =
      some (s, .ok (storedCredential s.collection (.findByIdentity identity)), []) :=
  Program.alone_andThen (findOneByImsiOrTel_alone hfailure _ _) rfl

/-- The same state for the provider over a store of which only the answers are known. -/
def MongoDigestState.provider (s : MongoDigestState) : DigestState := ⟨s.pendingAuth, s.now⟩

def MongoDigestEnvironment.provider (environment : MongoDigestEnvironment)
    (collection : Collection) : DigestEnvironment where
  surroundings := environment.surroundings
  credentials := storedCredential collection

/-- While no operation fails and nothing interferes, the provider over this store does what it does
over a store with the answers of this one. -/
theorem alone_storeOps {α : Type} {p : Program digestOps Exception α} {t : DigestState}
    {result : Except Exception α} {out : List PendingDigestEvent}
    (hfailure : environment.failure = none)
    (hrun : p.alone DigestState.serve (environment.provider s.collection) s.provider =
      some (t, result, out)) :
    ∃ t' out', (p.translate DigestAuthProvider.storeOps).alone MongoDigestState.serve environment
      s = some (t', result, out') := by
  have hoperations : ∀ (u : DigestState) (u' : MongoDigestState) (op : DigestOp)
      (v : DigestState) (answer : op.Answer) (out : List PendingDigestEvent),
      (u'.provider = u ∧ u'.collection = s.collection) →
      u.serve op (environment.provider s.collection) = some (v, answer, out) →
      ∃ v' out', (DigestAuthProvider.storeOps op).alone MongoDigestState.serve environment u' =
        some (v', .ok answer, out') ∧ v'.provider = v ∧ v'.collection = s.collection := by
    intro u u' op v answer out hsame hserve
    obtain ⟨rfl, hcollection⟩ := hsame
    cases op with
    | pendingDigests op =>
        cases hserve
        exact ⟨_, _, Program.alone_call rfl rfl, rfl, hcollection⟩
    | environment op =>
        cases hserve
        exact ⟨_, _, Program.alone_call rfl rfl, rfl, hcollection⟩
    | credentials op =>
        cases hserve
        cases op with
        | findByUsername username realm =>
            refine ⟨u', [], ?_, rfl, hcollection⟩
            rw [MongoDigestEnvironment.provider, ← hcollection]
            exact findByUsername_alone hfailure username realm
        | findByIdentity identity =>
            refine ⟨u', [], ?_, rfl, hcollection⟩
            rw [MongoDigestEnvironment.provider, ← hcollection]
            exact findByIdentity_alone hfailure identity
  obtain ⟨t', out', hrun', -⟩ := Program.alone_translate
    (R := fun u u' => MongoDigestState.provider u' = u ∧ u'.collection = s.collection)
    ⟨rfl, rfl⟩ hoperations hrun
  exact ⟨t', out', hrun'⟩

end

/-! ## What a call may do -/

/-- A challenge for a subscriber of the collection, under the key that is made for it. -/
def ChallengeFor (records : Collection) (key : Bytes) (credential : DigestCredential) : Prop :=
  ∃ callId, ∃ record ∈ records,
    key = DigestAuthProvider.makePendingKey callId record.identities.impi ∧
    credential = toDigestCredential record

def AllowsPending (records : Collection) : PendingDigestOp → Prop
  | .store key _ credential => ChallengeFor records key credential
  | _ => True

/-- The credentials of an identity are those of a subscriber. -/
def ExpectsCredential (records : Collection) : (op : CredentialOp) → CredentialAnswer op → Prop
  | .findByIdentity _, answer => ∀ credential, answer = .ok (some credential) →
      ∃ record ∈ records, credential = toDigestCredential record
  | .findByUsername _ _, _ => True

def ExpectsRecord (records : Collection) : (op : RepositoryOp) → RepositoryAnswer op → Prop
  | .findOneByField _ _, answer => ∀ record, answer = .ok (some record) → record.fixed ∈ records
  | .updateSqn _ _ _, _ => True
  | .updateServing _ _, _ => True

/-- What the provider does, whatever store it has. -/
def challengeContract (records : Collection) : Contract digestOps MongoDigestThread where
  Allows _
    | .pendingDigests op => AllowsPending records op
    | _ => True
  Expects
    | .credentials op, answer => ExpectsCredential records op answer
    | .pendingDigests _, _ => True
    | .environment _, _ => True
  Throws _ := False
  track thread
    | .pendingDigests op, answer => thread.trackPending op answer
    | .environment _, _ => thread
    | .credentials _, _ => thread

def mongoContract (records : Collection) : Contract mongoDigestOps MongoDigestThread where
  Allows _
    | .pendingDigests op => AllowsPending records op
    | _ => True
  Expects
    | .repository op, answer => ExpectsRecord records op answer
    | .pendingDigests _, _ => True
    | .environment _, _ => True
  Throws _ := False
  track := MongoDigestThread.track

/-- A challenge has been built from what was found, or stored, under the key of a subscriber. -/
def MongoDigestThread.Ends (realm : Bytes) (records : Collection) (thread : MongoDigestThread) :
    DigestResult → Prop
  | .challenge (.ok challenge) => ∃ request nonce credential, ∃ record ∈ records,
      thread.call = .createChallenge request ∧
      thread.shown = some (DigestAuthProvider.makePendingKey request.callId record.identities.impi,
        nonce, credential) ∧
      challenge = DigestAuthProvider.buildChallenge realm request.callId nonce credential
  | _ => True

namespace DigestAuthProvider

variable [Md5] (realm : Bytes) (records : Collection)

theorem createChallenge_ends (request : SipMessage) :
    (begin realm (.createChallenge request)).Meets (challengeContract records)
      { call := .createChallenge request } (MongoDigestThread.Ends realm records) := by
  refine ⟨trivial, fun credential hcredential => ?_⟩
  match credential, hcredential with
  | .error error, _ => exact trivial
  | .ok none, _ => exact trivial
  | .ok (some credential), hcredential =>
      obtain ⟨record, hmem, rfl⟩ := hcredential credential rfl
      refine ⟨trivial, fun found _ => ?_⟩
      match found with
      | some pending =>
          exact ⟨request, pending.nonce, pending.credential, record, hmem, rfl, rfl, rfl⟩
      | none =>
          refine ⟨trivial, fun first _ => ⟨trivial, fun second _ => ?_⟩⟩
          refine ⟨⟨request.callId, record, hmem, rfl, rfl⟩, fun stored _ => ?_⟩
          match stored with
          | some pending =>
              exact ⟨request, pending.nonce, pending.credential, record, hmem, rfl, rfl, rfl⟩
          | none => exact ⟨request, _, toDigestCredential record, record, hmem, rfl, rfl, rfl⟩

theorem canHandleInitialRegister_ends (request : SipMessage) :
    (begin realm (.canHandleInitialRegister request)).Meets (challengeContract records)
      { call := .canHandleInitialRegister request } (MongoDigestThread.Ends realm records) := by
  change (canHandleInitialRegister request >>= fun value =>
    Pure.pure (DigestResult.flag value)).Meets _ _ _
  rw [canHandleInitialRegister]
  split
  · exact trivial
  · split
    · exact trivial
    · refine ⟨trivial, fun found _ => ?_⟩
      cases found with
      | error error => exact trivial
      | ok found =>
          cases found with
          | none => exact trivial
          | some credential => exact trivial

theorem canHandleAuthorization_ends (request : SipMessage) :
    (begin realm (.canHandleAuthorization request)).Meets (challengeContract records)
      { call := .canHandleAuthorization request } (MongoDigestThread.Ends realm records) := by
  change (canHandleAuthorization request >>= fun value =>
    Pure.pure (DigestResult.flag value)).Meets _ _ _
  rw [canHandleAuthorization]
  cases request.getHeader (bytes "Authorization") with
  | none => exact trivial
  | some header =>
      cases hparse : AuthManager.parseAuthorization header with
      | error error =>
          simp only [hparse]
          exact trivial
      | ok params =>
          simp only [hparse]
          split
          · exact trivial
          · refine ⟨trivial, fun found _ => ?_⟩
            cases found with
            | error error => exact trivial
            | ok found =>
                cases found with
                | none => exact trivial
                | some credential => exact ⟨trivial, fun _ _ => trivial⟩

theorem verifyAuthorization_ends (request : SipMessage) :
    (begin realm (.verifyAuthorization request)).Meets (challengeContract records)
      { call := .verifyAuthorization request } (MongoDigestThread.Ends realm records) := by
  change (verifyAuthorization request >>= fun result =>
    Pure.pure (DigestResult.verification result)).Meets _ _ _
  rw [verifyAuthorization]
  cases request.getHeader (bytes "Authorization") with
  | none => exact trivial
  | some header =>
      cases hparse : AuthManager.parseAuthorization header with
      | error error =>
          simp only [hparse]
          exact trivial
      | ok params =>
          simp only [hparse]
          refine ⟨trivial, fun credential _ => ?_⟩
          cases credential with
          | error error => exact trivial
          | ok credential =>
              cases credential with
              | none => exact trivial
              | some credential =>
                  refine ⟨trivial, fun found _ => ?_⟩
                  cases found with
                  | none => exact trivial
                  | some pending =>
                      change (verifyPending request header _ pending >>= fun result =>
                        Pure.pure (DigestResult.verification result)).Meets _ _ _
                      rw [verifyPending]
                      split
                      · refine ⟨trivial, fun consumed _ => ?_⟩
                        cases consumed with
                        | false => exact trivial
                        | true => exact trivial
                      · exact trivial

end DigestAuthProvider

section

variable {records : Collection} {thread : MongoDigestThread}

open MongoSubscriberRepository (findFirst findOneByImsiOrTel)

/-- A call is where it was, and what it has found is a record of the collection. -/
def FoundRecord (records : Collection) (thread : MongoDigestThread) (later : MongoDigestThread)
    (result : Result (Option SubscriberRecord)) : Prop :=
  later = thread ∧ ∀ record, result = .ok (some record) → record.fixed ∈ records

def FoundCredential (records : Collection) (thread : MongoDigestThread) (later : MongoDigestThread)
    (result : Result (Option DigestCredential)) : Prop :=
  later = thread ∧ ∀ credential, result = .ok (some credential) →
    ∃ record ∈ records, credential = toDigestCredential record

theorem findFirst_meets (field : Field) (values : List Bytes) :
    (findFirst (G := mongoDigestOps) field values).Meets (mongoContract records) thread
      (FoundRecord records thread) := by
  induction values with
  | nil => exact ⟨rfl, fun _ h => by cases h⟩
  | cons value values ih =>
      refine ⟨trivial, fun found hfound => ?_⟩
      match found, hfound with
      | .error error, _ => exact ⟨rfl, fun _ h => by cases h⟩
      | .ok none, _ => exact ih
      | .ok (some record), hfound => exact ⟨rfl, hfound⟩

theorem findOneByImsiOrTel_meets (imsis tels : List Bytes) :
    (findOneByImsiOrTel (G := mongoDigestOps) imsis tels).Meets (mongoContract records) thread
      (FoundRecord records thread) := by
  refine (findFirst_meets .imsi imsis).bind fun later found hfound => ?_
  obtain ⟨rfl, hrecord⟩ := hfound
  match found, hrecord with
  | .error error, _ => exact ⟨rfl, fun _ h => by cases h⟩
  | .ok none, _ => exact findFirst_meets .tel tels
  | .ok (some record), hrecord => exact ⟨rfl, hrecord⟩

/-- The credentials of a record that has been looked for. -/
theorem FoundRecord.credential {p : MongoSubscriberRepository.Query mongoDigestOps
      (Option SubscriberRecord)}
    (h : p.Meets (mongoContract records) thread (FoundRecord records thread)) :
    (p.andThen fun record => .pure (.ok (record.map toDigestCredential))).Meets
      (mongoContract records) thread (FoundCredential records thread) := by
  refine h.bind fun later found hfound => ?_
  obtain ⟨rfl, hrecord⟩ := hfound
  match found, hrecord with
  | .error error, _ => exact ⟨rfl, fun _ h => by cases h⟩
  | .ok none, _ => exact ⟨rfl, fun _ h => by cases h⟩
  | .ok (some record), hrecord =>
      refine ⟨rfl, fun credential hcredential => ?_⟩
      cases hcredential
      exact ⟨record.fixed, hrecord record rfl, rfl⟩

theorem tryLookup_meets (candidate realm : Bytes) :
    (tryLookup (G := mongoDigestOps) candidate realm).Meets (mongoContract records) thread
      (FoundCredential records thread) := FoundRecord.credential (findOneByImsiOrTel_meets _ _)

theorem findByUsername_meets (username realm : Bytes) :
    (MongoDigestCredentialStore.findByUsername (G := mongoDigestOps) username realm).Meets
      (mongoContract records) thread (FoundCredential records thread) := by
  refine (tryLookup_meets username realm).bind fun later found hfound => ?_
  obtain ⟨rfl, hcredential⟩ := hfound
  match found, hcredential with
  | .error error, _ => exact ⟨rfl, fun _ h => by cases h⟩
  | .ok (some credential), hcredential => exact ⟨rfl, hcredential⟩
  | .ok none, _ =>
      change (if retriesTel username then tryLookup (bytes "tel:" ++ username) realm
        else .pure (.ok none)).Meets _ _ _
      split
      · exact tryLookup_meets _ realm
      · exact ⟨rfl, fun _ h => by cases h⟩

/-- Over the store, each operation of the provider does what is expected of it. -/
theorem storeOps_meets (op : DigestOp) (hallows : (challengeContract records).Allows thread op) :
    (DigestAuthProvider.storeOps op).Meets (mongoContract records) thread fun later answer =>
      (challengeContract records).Expects op answer ∧
        later = (challengeContract records).track thread op answer := by
  cases op with
  | pendingDigests op => exact ⟨hallows, fun _ _ => ⟨trivial, rfl⟩⟩
  | environment op => exact ⟨trivial, fun _ _ => ⟨trivial, rfl⟩⟩
  | credentials op =>
      cases op with
      | findByUsername username realm =>
          exact (findByUsername_meets username realm).mono fun _ _ h => ⟨trivial, h.1⟩
      | findByIdentity identity =>
          have hmeets : (MongoDigestCredentialStore.findByIdentity (G := mongoDigestOps)
              identity).Meets (mongoContract records) thread (FoundCredential records thread) :=
            FoundRecord.credential (findOneByImsiOrTel_meets _ _)
          exact hmeets.mono fun _ _ h => ⟨h.2, h.1⟩

end

/-! ## The table -/

/-- The challenges are the tokens of a ledger, and each is for a subscriber of the collection. -/
structure MongoDigestState.Keeps (records : Collection) (s : MongoDigestState)
    (log : List (Nat × PendingDigestEvent)) : Prop where
  collection : s.collection.fixed = records
  ledger : Ledger PendingDigest.nonce PendingDigest.expiresAt (digestTokens.issued log)
    (digestTokens.taken log) s.now s.pendingAuth
  challenges : ∀ entry ∈ digestTokens.issued log, ChallengeFor records entry.1 entry.2.credential

/-- What a challenge has been built from is in the table, or was. -/
def MongoDigestThread.Linked (log : List (Nat × PendingDigestEvent)) (thread : MongoDigestThread) :
    Prop :=
  ∀ key nonce credential, thread.shown = some (key, nonce, credential) →
    ∃ pending, (key, pending) ∈ digestTokens.issued log ∧ pending.nonce = nonce ∧
      pending.credential = credential

def aliasDiscipline (realm : Bytes) (records : Collection) : Discipline MongoDigestState
    mongoDigestOps MongoDigestThread DigestResult PendingDigestEvent where
  contract := mongoContract records
  assumes _ _ := True
  shared := MongoDigestState.Keeps records
  linked _ log _ thread := thread.Linked log
  result := MongoDigestThread.Ends realm records

section

variable {records : Collection} {s t : MongoDigestState} {log : List (Nat × PendingDigestEvent)}
variable {id : Nat} {thread : MongoDigestThread}

omit [OsipParser] in
theorem MongoDigestThread.Linked.append (h : thread.Linked log)
    (out : List (Nat × PendingDigestEvent)) : thread.Linked (log ++ out) := by
  intro key nonce credential hshown
  obtain ⟨pending, hissued, hsame⟩ := h key nonce credential hshown
  refine ⟨pending, ?_, hsame⟩
  rw [digestTokens.issued_append]
  exact List.mem_append_left _ hissued

/-- What an operation on the table shows has been issued. -/
theorem MongoDigestThread.Linked.trackPending {after : PendingDigests} {op : PendingDigestOp}
    {answer : PendingDigestAnswer op} (h : thread.Linked log) (hkeeps : s.Keeps records log)
    (hserve : s.pendingAuth.serve s.now op = (after, answer)) :
    (thread.trackPending op answer).Linked
      (log ++ (s.pendingAuth.occurred s.now op answer).map (id, ·)) := by
  have hfound : ∀ {key : Bytes} {pending : PendingDigest} {out : List (Nat × PendingDigestEvent)},
      Table.find (s.pendingAuth.purgeExpiredLocked s.now) key = some pending →
      { thread with shown := some (key, pending.nonce, pending.credential) }.Linked
        (log ++ out) := by
    intro key pending out hfind key' nonce credential hshown
    cases hshown
    refine ⟨pending, ?_, rfl, rfl⟩
    rw [digestTokens.issued_append]
    exact List.mem_append_left _ (hkeeps.ledger.purge.issued_of_find key pending hfind)
  cases op with
  | contains key => exact h.append _
  | consume key nonce => exact h.append _
  | find key =>
      cases hserve
      cases hfind : Table.find (s.pendingAuth.purgeExpiredLocked s.now) key with
      | none => exact h.append _
      | some pending => exact hfound hfind
  | store key nonce credential =>
      obtain ⟨pending, rfl, hfind, -⟩ | ⟨rfl, -, -⟩ := PendingDigests.serve_store_cases hserve
      · exact hfound hfind
      · intro key' nonce' credential' hshown
        cases hshown
        refine ⟨{ nonce, credential, expiresAt := s.now + PendingDigests.kPendingAuthTtl }, ?_,
          rfl, rfl⟩
        rw [digestTokens.issued_append]
        exact List.mem_append_right _ (List.mem_singleton.mpr rfl)

/-- Whatever is issued is for a subscriber. -/
theorem challengeFor_of_issued {op : PendingDigestOp} {answer : PendingDigestAnswer op}
    (hkeeps : s.Keeps records log) (hallows : AllowsPending records op) :
    ∀ entry ∈ digestTokens.issued
        (log ++ (s.pendingAuth.occurred s.now op answer).map (id, ·)),
      ChallengeFor records entry.1 entry.2.credential := by
  intro entry hmem
  rw [digestTokens.issued_append] at hmem
  obtain hmem | hmem := List.mem_append.mp hmem
  · exact hkeeps.challenges entry hmem
  · obtain ⟨⟨_, event⟩, hevent, hissues⟩ := List.mem_filterMap.mp hmem
    obtain ⟨_, hoccurred, heq⟩ := List.mem_map.mp hevent
    cases heq
    cases op with
    | contains key => cases hoccurred
    | find key => cases hoccurred
    | store key nonce credential =>
        cases answer with
        | none =>
            rw [List.mem_singleton.mp hoccurred] at hissues
            cases hissues
            exact hallows
        | some pending => cases hoccurred
    | consume key nonce =>
        cases answer with
        | false => cases hoccurred
        | true =>
            cases hfind : Table.find s.pendingAuth key with
            | none =>
                simp only [PendingDigests.occurred, hfind] at hoccurred
                cases hoccurred
            | some found =>
                simp only [PendingDigests.occurred, hfind] at hoccurred
                rw [List.mem_singleton.mp hoccurred] at hissues
                cases hissues

end

theorem aliasDiscipline_sound [Md5] (realm : Bytes) (records : Collection) :
    (aliasDiscipline realm records).Sound (DigestAuthProvider.mongoService realm) where
  track _ _ _ := rfl
  begins call := by
    have hbegins : (DigestAuthProvider.begin realm call).Meets (challengeContract records)
        { call } (MongoDigestThread.Ends realm records) :=
      match call with
      | .canHandleInitialRegister request =>
          DigestAuthProvider.canHandleInitialRegister_ends realm records request
      | .canHandleAuthorization request =>
          DigestAuthProvider.canHandleAuthorization_ends realm records request
      | .createChallenge request => DigestAuthProvider.createChallenge_ends realm records request
      | .verifyAuthorization request =>
          DigestAuthProvider.verifyAuthorization_ends realm records request
    exact hbegins.translate (fun _ op hallows => storeOps_meets op hallows) fun _ h => h
  fresh s log id call _ _ := fun _ _ _ hshown => by cases hshown
  serves s log id thread op environment t answer out h hlinked hallows hserve _ := by
    cases op with
    | environment op =>
        cases hserve
        rw [List.map_nil, List.append_nil]
        exact ⟨h, trivial, hlinked, fun _ _ _ hother => hother⟩
    | repository op =>
        cases hserve
        rw [List.map_nil, List.append_nil]
        refine ⟨⟨?_, h.ledger, h.challenges⟩, ?_, hlinked, fun _ _ _ hother => hother⟩
        · exact (s.collection.fixed_serve op environment.failure).trans h.collection
        · cases op with
          | updateSqn imsi oldSqn newSqn => exact trivial
          | updateServing imsi scscfUri => exact trivial
          | findOneByField field value =>
              intro record hrecord
              cases hfailure : environment.failure with
              | some error =>
                  rw [hfailure] at hrecord
                  cases hrecord
              | none =>
                  rw [hfailure] at hrecord
                  have hfind := Except.ok.inj hrecord
                  rw [← h.collection]
                  exact List.mem_map_of_mem (List.mem_of_find?_eq_some hfind)
    | pendingDigests op =>
        obtain ⟨after, found, hafter⟩ :
            ∃ after found, s.pendingAuth.serve s.now op = (after, found) := ⟨_, _, rfl⟩
        change s.serve (.pendingDigests op) environment = _ at hserve
        rw [MongoDigestState.serve, hafter] at hserve
        cases hserve
        exact ⟨⟨h.collection, PendingDigests.ledger_serve id h.ledger hafter,
          challengeFor_of_issued h hallows⟩, trivial, hlinked.trackPending h hafter,
          fun _ _ _ hother => hother.append _⟩
  background s log event t h hbackground := by
    cases hbackground
    cases event with
    | elapse duration =>
        exact ⟨⟨h.collection, h.ledger.elapse (Nat.le_add_right s.now duration), h.challenges⟩,
          fun _ _ hlinked => hlinked⟩
    | update op failure =>
        exact ⟨⟨(s.collection.fixed_serve op failure).trans h.collection, h.ledger, h.challenges⟩,
          fun _ _ hlinked => hlinked⟩

/-! ## Challenges and answers -/

abbrev MongoDigestThreads :=
  Threads MongoDigestState mongoDigestOps Exception MongoDigestThread DigestResult

/-- This request has been answered with a challenge for this subscriber, with this nonce, which is
neither consumed nor expired. -/
structure ChallengeStands (realm : Bytes) (s : MongoDigestThreads)
    (log : List (Nat × PendingDigestEvent)) (record : SubscriberRecord) (request : SipMessage)
    (nonce : Bytes) : Prop where
  answered : ∃ id thread challenge, s.outcome id = some (thread, .challenge (.ok challenge)) ∧
    thread.call = .createChallenge request ∧ challenge.impi = record.identities.impi ∧
    challenge.wwwAuthenticate = AuthManager.buildDigestChallenge realm nonce
  stands : ∀ pending,
    (DigestAuthProvider.makePendingKey request.callId record.identities.impi, pending) ∈
      digestTokens.issued log → pending.nonce = nonce →
    (DigestAuthProvider.makePendingKey request.callId record.identities.impi, pending) ∉
      digestTokens.taken log ∧ s.shared.now < pending.expiresAt

/-- What an answer to it carries. -/
structure AnswersUnderName [Md5] (record : SubscriberRecord) (request answer : SipMessage)
    (nonce header : Bytes) (params : DigestAuthFields) : Prop where
  callId : answer.callId = request.callId
  carries : answer.getHeader (bytes "Authorization") = some header
  parses : AuthManager.parseAuthorization header = .ok params
  username : record.HasUsername params.username
  realm : params.realm = record.identities.realm
  complete : params.realm ≠ [] ∧ params.uri ≠ [] ∧ params.response ≠ []
  correct : AuthManager.CorrectResponse params record.auth.password nonce answer.method

/-- A challenge that stands under the private identity of the credentials is what an answer is
verified for. -/
theorem verifyAuthorization_digest [Md5] {s : DigestState} (environment : DigestEnvironment)
    {answer : SipMessage} {header : Bytes} {params : DigestAuthFields}
    {credential : DigestCredential} {pending : PendingDigest}
    (hcarries : answer.getHeader (bytes "Authorization") = some header)
    (hparses : AuthManager.parseAuthorization header = .ok params)
    (hcredential : environment.credentials (.findByUsername params.username params.realm) =
      .ok (some credential))
    (hstored : Table.find s.pendingAuth
      (DigestAuthProvider.makePendingKey answer.callId credential.impi) = some pending)
    (hunexpired : s.now < pending.expiresAt)
    (hverify : AuthManager.verifyDigestPassword header pending.credential.password answer.method
      pending.nonce = true) :
    ∃ t out, (DigestAuthProvider.verifyAuthorization (G := digestOps) answer).alone
      DigestState.serve environment s = some (t, .ok (.ok
        { sessionKey := answer.callId, impi := pending.credential.impi
          impu := pending.credential.impu, scheme := bytes "Digest-MD5" }), out) := by
  let key := DigestAuthProvider.makePendingKey answer.callId credential.impi
  let purged : DigestState := { s with pendingAuth := s.pendingAuth.purgeExpiredLocked s.now }
  have hfind : Table.find purged.pendingAuth key = some pending :=
    Table.find_eraseIf_eq_some_iff.mpr ⟨hstored, decide_eq_false (Nat.not_le_of_lt hunexpired)⟩
  have hlookup : s.serve (.credentials (.findByUsername params.username params.realm))
      environment = some (s, .ok (some credential), []) := by
    rw [DigestState.serve, hcredential]
  have hfound : s.serve (.pendingDigests (.find key)) environment =
      some (purged, some pending, []) := by
    rw [DigestState.serve, PendingDigests.serve]
    exact congrArg (fun found => some (purged, found, [])) hfind
  have hconsumed : ∃ t out, purged.serve (.pendingDigests (.consume key pending.nonce))
      environment = some (t, true, out) := by
    rw [DigestState.serve, PendingDigests.serve, hfind]
    simp only [ne_eq, not_true_eq_false, if_false]
    exact ⟨_, _, rfl⟩
  obtain ⟨t, out, hconsumed⟩ := hconsumed
  have hpending : (DigestAuthProvider.verifyPending (G := digestOps) answer header key
    pending).alone
      DigestState.serve environment purged = some (t, .ok (.ok
        { sessionKey := answer.callId, impi := pending.credential.impi
          impu := pending.credential.impu, scheme := bytes "Digest-MD5" }), out ++ []) := by
    rw [DigestAuthProvider.verifyPending, if_pos hverify]
    exact Program.alone_call hconsumed rfl
  refine ⟨t, [] ++ ([] ++ (out ++ [])), ?_⟩
  rw [DigestAuthProvider.verifyAuthorization, hcarries]
  simp only [hparses]
  exact Program.alone_call hlookup (Program.alone_call hfound hpending)

/-- A key is made for one subscriber only. -/
theorem eq_of_makePendingKey_eq (hparser : SchemesComeFirst) {records : Collection}
    (h : records.Provisioned) {record other : SubscriberRecord} (hmem : record ∈ records)
    (hother : other ∈ records) {callId callId' : Bytes}
    (heq : DigestAuthProvider.makePendingKey callId other.identities.impi =
      DigestAuthProvider.makePendingKey callId' record.identities.impi) : other = record := by
  obtain ⟨rest, hnormal, hseparator⟩ := h.normalizeImpuUri_impi hparser hmem
  obtain ⟨rest', hnormal', hseparator'⟩ := h.normalizeImpuUri_impi hparser hother
  have hkey : callId ++ 0x1f :: userAtHostText other.imsi rest' =
      callId' ++ 0x1f :: userAtHostText record.imsi rest := by
    rwa [DigestAuthProvider.makePendingKey, DigestAuthProvider.makePendingKey, hnormal, hnormal',
      List.append_assoc, List.append_assoc] at heq
  exact h.eq_of_userAtHostText_eq hmem hother (append_cons_inj_right hseparator' hseparator hkey)

/-- A challenge that stands is in the table, with the credentials of its subscriber. -/
theorem find_of_challengeStands [Md5] (hparser : SchemesComeFirst) {realm : Bytes}
    {records : Collection} (hrecords : records.Provisioned) {s : MongoDigestThreads}
    {log : List (Nat × PendingDigestEvent)} (h : s.Inv (aliasDiscipline realm records) log)
    {record : SubscriberRecord} (hmem : record ∈ records) {request : SipMessage} {nonce : Bytes}
    (hstands : ChallengeStands realm s log record request nonce) :
    ∃ pending, Table.find s.shared.pendingAuth
        (DigestAuthProvider.makePendingKey request.callId record.identities.impi) = some pending ∧
      s.shared.now < pending.expiresAt ∧ pending.nonce = nonce ∧
      pending.credential = toDigestCredential record := by
  obtain ⟨id, thread, challenge, houtcome, hcall, himpi, htext⟩ := hstands.answered
  have hends : thread.Ends realm records (.challenge (.ok challenge)) := h.result houtcome
  have hlinked : thread.Linked log := h.linked_outcome houtcome
  obtain ⟨request', nonce', credential, owner, howner, hcall', hshown, rfl⟩ := hends
  rw [hcall] at hcall'
  cases hcall'
  cases AuthManager.buildDigestChallenge_injective htext
  obtain ⟨pending, hissued, rfl, rfl⟩ := hlinked _ _ _ hshown
  -- What is stored under the key of a subscriber is for this subscriber.
  obtain ⟨callId, subscriber, hsubscriber, hkey, hcredential⟩ := h.shared.challenges _ hissued
  cases eq_of_makePendingKey_eq hparser hrecords hsubscriber howner hkey
  have himpi' : pending.credential.impi = record.identities.impi := himpi
  rw [hcredential] at himpi'
  cases hrecords.eq_of_impi_eq hmem howner himpi'
  obtain ⟨huntaken, hunexpired⟩ := hstands.stands pending hissued rfl
  exact ⟨pending, h.shared.ledger.kept _ pending hissued huntaken hunexpired, hunexpired, rfl,
    hcredential⟩

/-- In every state that calls of the provider over the repository reach, a challenge that stands
can be answered under every name of its subscriber. -/
theorem verifyAuthorization_accepts_every_name [Md5] (hparser : SchemesComeFirst) (realm : Bytes)
    (collection : Collection) (hcollection : collection.Provisioned) (now : Nat)
    (as : List (ThreadAction MongoDigestEnvironment DigestCall MongoDigestBackground))
    (s : MongoDigestThreads) (log : List (Nat × PendingDigestEvent))
    (hrun : (threadsMachine (DigestAuthProvider.mongoService realm)).exec
      (.init ⟨.empty, now, collection⟩) as = some (s, log))
    (record : SubscriberRecord) (hmem : record ∈ collection) (request answer : SipMessage)
    (nonce header : Bytes) (params : DigestAuthFields)
    (hstands : ChallengeStands realm s log record request nonce)
    (hanswers : AnswersUnderName record request answer nonce header params)
    (environment : MongoDigestEnvironment) (hfailure : environment.failure = none) :
    ∃ t out, ((DigestAuthProvider.verifyAuthorization (G := digestOps) answer).translate
        DigestAuthProvider.storeOps).alone MongoDigestState.serve environment s.shared =
      some (t, .ok (.ok
        { sessionKey := request.callId, impi := record.identities.impi
          impu := record.identities.canonicalImpu, scheme := bytes "Digest-MD5" }), out) := by
  have hinit : MongoDigestState.Keeps collection.fixed ⟨.empty, now, collection⟩ [] :=
    ⟨rfl, Ledger.empty, fun _ hin => by cases hin⟩
  have h : s.Inv (aliasDiscipline realm collection.fixed) log :=
    (aliasDiscipline_sound realm collection.fixed).exec_of_forall (fun _ _ => trivial) hinit hrun
  have hfixed : collection.fixed.Provisioned := hcollection.of_fixed (by
    rw [Collection.fixed, Collection.fixed, List.map_map]
    rfl)
  have hstandsFixed : ChallengeStands realm s log record.fixed request nonce :=
    ⟨hstands.answered, hstands.stands⟩
  obtain ⟨pending, hfind, hunexpired, rfl, hcredential⟩ :=
    find_of_challengeStands hparser hfixed h (List.mem_map_of_mem hmem) hstandsFixed
  -- The record as it is by now.
  have hsame : s.shared.collection.fixed = collection.fixed := h.shared.collection
  obtain ⟨current, hcurrent, heq⟩ : ∃ current ∈ s.shared.collection, current.fixed = record.fixed :=
    List.mem_map.mp (hsame ▸ List.mem_map_of_mem hmem :
      record.fixed ∈ Collection.fixed s.shared.collection)
  have hcurrentCredential : toDigestCredential current = toDigestCredential record := by
    change toDigestCredential current.fixed = toDigestCredential record.fixed
    rw [heq]
  have hrealm : current.identities.realm = record.identities.realm := by
    change current.fixed.identities.realm = record.fixed.identities.realm
    rw [heq]
  have husername : current.HasUsername params.username := by
    change current.fixed.HasUsername params.username
    rw [heq]
    exact hanswers.username
  have hlookup : storedCredential s.shared.collection
      (.findByUsername params.username params.realm) = .ok (some (toDigestCredential record)) := by
    rw [storedCredential, hanswers.realm, ← hrealm,
      (hcollection.of_fixed hsame).findRecord_usernameCandidates hparser hcurrent husername,
      Option.map_some, hcurrentCredential]
    rfl
  have hverify : AuthManager.verifyDigestPassword header pending.credential.password answer.method
      pending.nonce = true := by
    rw [hcredential]
    exact AuthManager.verifyDigestPassword_of_correctResponse hanswers.parses
      ⟨hanswers.username.ne_nil hcollection hmem, hanswers.complete⟩ hanswers.correct
  obtain ⟨t, out, hverified⟩ := verifyAuthorization_digest (s := s.shared.provider)
    (environment.provider s.shared.collection) hanswers.carries hanswers.parses
    hlookup (by rw [hanswers.callId]; exact hfind) hunexpired hverify
  rw [hcredential, hanswers.callId] at hverified
  exact alone_storeOps hfailure hverified

/-! ### Carol registers under her number, and answers under her IMSI -/

def carol : SubscriberRecord where
  imsi := bytes "460001"
  tel := bytes "+8613"
  identities :=
    { impi := bytes "460001@ims.local", canonicalImpu := bytes "sip:460001@ims.local"
      associatedImpus := [bytes "sip:+8613@ims.local"], realm := bytes "ims.local" }
  auth := { password := bytes "secret", ki := [], operatorCodeType := [], opc := [], op := []
            sqn := 0, amf := [] }
  assignedScscf := []

def carolRegister : SipMessage := .register "sip:+8613@ims.local" "sip:+8613@ims.local"

def carolNonce : Bytes := bytes "00000000000000010000000000000002"

def carolHeader : Bytes :=
  bytes "Digest username=460001,realm=ims.local,nonce=" ++ carolNonce ++
    bytes ",uri=sip:ims,response=61a4f0371e4f0d32bf53479d049c1c87"

def carolAnswer : SipMessage := { carolRegister with authorizations := [carolHeader] }

def carolParams : DigestAuthFields :=
  { username := bytes "460001", realm := bytes "ims.local", nonce := carolNonce
    uri := bytes "sip:ims", response := bytes "61a4f0371e4f0d32bf53479d049c1c87" }

@[reducible] def carolDigests : Md5 := .ofTable
  [(bytes "460001:ims.local:secret", "8717592a95685c6d1dd625e6d4c4b3cd"),
    (bytes "REGISTER:sip:ims", "70669cdb31465552b99cd8a2ce6533df"),
    (bytes "8717592a95685c6d1dd625e6d4c4b3cd:00000000000000010000000000000002:" ++
      bytes "70669cdb31465552b99cd8a2ce6533df", "61a4f0371e4f0d32bf53479d049c1c87")]

def carolRun : List (ThreadAction MongoDigestEnvironment DigestCall MongoDigestBackground) :=
  let word (value : UInt64) : MongoDigestEnvironment := { surroundings := { randomWord := value } }
  [.start (.createChallenge carolRegister), .run 0 {}, .run 0 {}, .run 0 (word 1), .run 0 (word 2),
    .run 0 {}]

deriving instance DecidableEq for DigestCall, DigestResult

/-- Carol has been challenged, and nobody else. -/
def carolOutcome (s : MongoDigestThreads) (log : List (Nat × PendingDigestEvent)) : Bool :=
  ((s.outcome 0).map fun outcome => (outcome.1.call, outcome.2)) ==
    some (.createChallenge carolRegister, .challenge (.ok (DigestAuthProvider.buildChallenge
      (bytes "ims.local") (bytes "call") carolNonce (toDigestCredential carol)))) &&
  (digestTokens.issued log).all (fun entry => s.shared.now < entry.2.expiresAt) &&
  (digestTokens.taken log).isEmpty

omit [OsipParser] in
theorem provisioned_carol : Collection.Provisioned [carol] where
  imsi := by decide +kernel
  tel record hmem _ := by
    cases List.mem_singleton.mp hmem
    exact ⟨bytes "8613", by decide +kernel, by decide +kernel⟩
  impi := by decide +kernel
  realm := by decide +kernel
  imsis := by decide +kernel
  tels := by decide +kernel

theorem challengeStands_of_carolOutcome {s : MongoDigestThreads}
    {log : List (Nat × PendingDigestEvent)} (h : carolOutcome s log = true) :
    ChallengeStands (bytes "ims.local") s log carol carolRegister carolNonce := by
  simp only [carolOutcome, Bool.and_eq_true, beq_iff_eq, List.isEmpty_iff, List.all_eq_true,
    decide_eq_true_eq, Option.map_eq_some_iff, Prod.mk.injEq] at h
  obtain ⟨⟨⟨⟨thread, answer⟩, houtcome, hcall, rfl⟩, hlive⟩, hnone⟩ := h
  refine ⟨⟨0, thread, _, houtcome, hcall, rfl, rfl⟩, fun pending hissued _ => ⟨?_, ?_⟩⟩
  · rw [hnone]
    exact List.not_mem_nil
  · exact hlive _ hissued

omit [OsipParser] in
/-- Challenged as `+8613@ims.local`, verified as `460001`. -/
theorem verifyAuthorization_accepts_every_name_carol :
    ∃ s log t out, (threadsMachine (@DigestAuthProvider.mongoService plainUris carolDigests
        (bytes "ims.local"))).exec (.init ⟨.empty, 0, [carol]⟩) carolRun = some (s, log) ∧
      ((@DigestAuthProvider.verifyAuthorization plainUris carolDigests digestOps _ _
          carolAnswer).translate (@DigestAuthProvider.storeOps plainUris)).alone
        MongoDigestState.serve {} s.shared = some (t, .ok (.ok
          { sessionKey := bytes "call", impi := bytes "460001@ims.local"
            impu := bytes "sip:460001@ims.local", scheme := bytes "Digest-MD5" }), out) := by
  let _ : OsipParser := plainUris
  let _ : Md5 := carolDigests
  have hsummary : ((threadsMachine (DigestAuthProvider.mongoService (bytes "ims.local"))).exec
      (.init ⟨.empty, 0, [carol]⟩) carolRun).map (fun run => carolOutcome run.1 run.2) =
        some true := by decide +kernel
  obtain ⟨⟨s, log⟩, hrun, houtcome⟩ := Option.map_eq_some_iff.mp hsummary
  have hanswers : AnswersUnderName carol carolRegister carolAnswer carolNonce carolHeader
      carolParams :=
    { callId := rfl
      carries := by decide +kernel
      parses := by decide +kernel
      username := ⟨carol.imsi, .inl rfl, .inl rfl⟩
      realm := rfl
      complete := by decide +kernel
      correct := ⟨rfl, bytes "61a4f0371e4f0d32bf53479d049c1c87", by decide +kernel,
        by decide +kernel⟩ }
  obtain ⟨t, out, hverified⟩ := verifyAuthorization_accepts_every_name plainUris_schemesComeFirst
    (bytes "ims.local") [carol] provisioned_carol 0 carolRun s log hrun carol List.mem_cons_self
    carolRegister carolAnswer carolNonce carolHeader carolParams
    (challengeStands_of_carolOutcome houtcome) hanswers {} rfl
  exact ⟨s, log, t, out, hrun, hverified⟩

end SimIms.SCscf
