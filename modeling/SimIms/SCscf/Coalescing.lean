import SimIms.SCscf.AkaCoordination

/-!
# One request to the HSS for each key

Calls of `createChallenge` for one key share a request to the HSS. The first becomes the owner
of the key, the later ones join it and wait for its promise.
-/

namespace SimIms.SCscf

open Cxx Lib Sip Diameter

/-! ## How far a call has come -/

namespace AkaProgress

/-- The call has joined a key or owns one, and has no result yet. -/
def Underway : AkaProgress → Prop
  | .joined _ _ => True
  | .owner _ _ => True
  | .completed _ _ _ => True
  | _ => False

variable {progress : AkaProgress} {events : List PendingAuthEvent} {key : Bytes} {promise : Nat}
variable {result : Result PendingAuth}

theorem joined_cases (h : progress.Caused events) (hmem : .joined key promise ∈ events) :
    progress = .joined key promise ∨ ∃ result, progress = .received key promise result := by
  cases progress with
  | joined other promise' =>
      rw [show events = [.joined other promise'] from h] at hmem
      cases List.mem_singleton.mp hmem
      exact .inl rfl
  | received other promise' result =>
      rw [show events = [.joined other promise'] from h] at hmem
      cases List.mem_singleton.mp hmem
      exact .inr ⟨result, rfl⟩
  | fresh | challenged | found =>
      rw [show events = [] from h] at hmem
      cases hmem
  | owner | completed | published =>
      rw [show events = _ from h] at hmem
      simp at hmem
  | consumed =>
      obtain ⟨found, rfl, -⟩ := h
      simp at hmem

theorem published_cases (h : progress.Caused events) (hmem : .published promise result ∈ events) :
    ∃ key, progress = .published key promise result ∧ .began key promise ∈ events ∧
      .completed key result ∈ events := by
  cases progress with
  | published key promise' result' =>
      have heq : events = [.began key promise', .completed key result',
        .published promise' result'] := h
      subst heq
      simp only [List.mem_cons, reduceCtorEq, PendingAuthEvent.published.injEq, List.not_mem_nil,
        or_false, false_or] at hmem
      obtain ⟨rfl, rfl⟩ := hmem
      exact ⟨key, rfl, by simp, by simp⟩
  | fresh | challenged | found =>
      rw [show events = [] from h] at hmem
      cases hmem
  | joined | received | owner | completed =>
      rw [show events = _ from h] at hmem
      simp at hmem
  | consumed =>
      obtain ⟨found, rfl, -⟩ := h
      simp at hmem

/-- A call that owns a key has ended only after it has published. -/
theorem began_cases (h : progress.Caused events) (hmem : .began key promise ∈ events) :
    progress = .owner key promise ∨ (∃ result, progress = .completed key promise result) ∨
      ∃ result, progress = .published key promise result ∧ .published promise result ∈ events := by
  cases progress with
  | owner other promise' =>
      rw [show events = [.began other promise'] from h] at hmem
      cases List.mem_singleton.mp hmem
      exact .inl rfl
  | completed other promise' result =>
      rw [show events = [.began other promise', .completed other result] from h] at hmem
      simp only [List.mem_cons, PendingAuthEvent.began.injEq, reduceCtorEq, List.not_mem_nil,
        or_false] at hmem
      obtain ⟨rfl, rfl⟩ := hmem
      exact .inr (.inl ⟨result, rfl⟩)
  | published other promise' result =>
      have heq : events = [.began other promise', .completed other result,
        .published promise' result] := h
      subst heq
      simp only [List.mem_cons, PendingAuthEvent.began.injEq, reduceCtorEq, List.not_mem_nil,
        or_false] at hmem
      obtain ⟨rfl, rfl⟩ := hmem
      exact .inr (.inr ⟨result, rfl, by simp⟩)
  | fresh | challenged | found =>
      rw [show events = [] from h] at hmem
      cases hmem
  | joined | received =>
      rw [show events = _ from h] at hmem
      simp at hmem
  | consumed =>
      obtain ⟨found, rfl, -⟩ := h
      simp at hmem

end AkaProgress

/-- The answer of `createChallenge` to a request for which the HSS has given this. -/
def challengeAnswer (domain : Bytes) (thread : AkaThread) (result : Result PendingAuth) :
    AkaResult :=
  .challenge (result.map
    (ImsAkaAuthProvider.buildChallenge domain thread.call.request.callId))

section

variable [OsipParser] [Md5]

theorem AkaThread.Ends.eq_challengeAnswer {domain : Bytes} {thread : AkaThread}
    {answer : AkaResult} {result : Result PendingAuth} (h : thread.Ends domain answer)
    (hresult : thread.progress.result = some result) :
    answer = challengeAnswer domain thread result := by
  obtain ⟨call, progress⟩ := thread
  cases answer with
  | flag value =>
      cases h
      cases hresult
  | challenge answer =>
      obtain ⟨request, found, rfl, -, hfound, rfl⟩ := h
      rw [hresult] at hfound
      cases hfound
      rfl
  | verification verification =>
      cases verification with
      | ok verification =>
          obtain ⟨_, _, _, _, rfl, _⟩ := h
          cases hresult
      | error error =>
          obtain rfl | ⟨_, _, rfl⟩ := h <;> cases hresult

/-- A call does not end while it waits for its promise or owns one. -/
theorem AkaThread.Ends.not_underway {domain : Bytes} {thread : AkaThread} {answer : AkaResult}
    (h : thread.Ends domain answer) : ¬ thread.progress.Underway := by
  obtain ⟨call, progress⟩ := thread
  intro hunderway
  cases answer with
  | flag value =>
      cases h
      exact hunderway
  | challenge answer =>
      obtain ⟨request, found, -, -, hfound, -⟩ := h
      cases progress <;> first | exact hunderway | cases hfound
  | verification verification =>
      cases verification with
      | ok verification =>
          obtain ⟨_, _, _, _, rfl, _⟩ := h
          exact hunderway
      | error error =>
          obtain rfl | ⟨_, _, rfl⟩ := h <;> exact hunderway

end

/-! ## What callers get -/

section

variable [OsipParser]

/-- Once a call has its result it issues no more operations. -/
theorem AkaThread.Allows.result_eq_none {thread : AkaThread} {op : AkaOp}
    (h : thread.Allows op) : thread.progress.result = none := by
  obtain hprogress | ⟨_, _, hprogress, -⟩ | ⟨_, _, hprogress⟩ | ⟨_, _, _, hprogress⟩ |
    ⟨_, _, hprogress⟩ := h.progress_cases <;>
  · rw [hprogress]
    rfl

/-- A call that has joined only asks for its promise. -/
theorem AkaThread.Allows.eq_get {thread : AkaThread} {op : AkaOp} (h : thread.Allows op)
    {key : Bytes} {promise : Nat} (hjoined : thread.progress = .joined key promise) :
    op = .pendingAuths (.get promise) := by
  obtain hprogress | ⟨_, _, hprogress, hop⟩ | ⟨_, _, hprogress⟩ | ⟨_, _, _, hprogress⟩ |
    ⟨_, _, hprogress⟩ := h.progress_cases <;> rw [hjoined] at hprogress <;> cases hprogress
  exact hop

/-- A call has asked the HSS for a vector under this key, or is about to. -/
def AkaThreads.AwaitsHss (s : AkaThreads) (id : Nat) (key : Bytes) : Prop :=
  ∃ thread params next, s.operation id = some (thread, ⟨.hss (.multimediaAuth params), next⟩) ∧
    key = pendingKey thread.call.request

variable [Md5] (domain : Bytes)

structure Coalesces (s : AkaThreads) (log : List (Nat × PendingAuthEvent)) : Prop where
  oneRequest : ∀ id id' key, s.AwaitsHss id key → s.AwaitsHss id' key → id = id'
  exclusive : ∀ key, s.shared.auths.pendingAuth.find key = none ∨
    s.shared.auths.inFlightAuth.find key = none
  /-- A call that has joined ends with what the owner has completed, and so does the owner. -/
  sameResult : ∀ joiner key promise, (joiner, .joined key promise) ∈ log →
    ∃ owner, (owner, .began key promise) ∈ log ∧
      ∀ thread answer, s.outcome joiner = some (thread, answer) →
        ∃ result, (owner, .completed key result) ∈ log ∧
          answer = challengeAnswer domain thread result ∧
          ∀ thread' answer', s.outcome owner = some (thread', answer') →
            answer' = challengeAnswer domain thread' result ∧
            (thread.call.request.callId = thread'.call.request.callId → answer = answer')
  /-- Once the owner has ended, a call that has joined can end in its next step. -/
  delivered : ∀ joiner owner key promise, (joiner, .joined key promise) ∈ log →
    (owner, .began key promise) ∈ log → (s.outcome owner).isSome →
    (s.outcome joiner).isSome ∨ ∀ environment, ∃ t out,
      (threadsMachine (ImsAkaAuthProvider.service domain)).step s (.run joiner environment) =
        some (t, out) ∧ (t.outcome joiner).isSome
  /-- The completion takes the key out of flight, and leaves it to the next call if it failed. -/
  completes : ∀ id thread key result next environment t out,
    s.operation id = some (thread, ⟨.pendingAuths (.complete key result), next⟩) →
    (threadsMachine (ImsAkaAuthProvider.service domain)).step s (.run id environment) =
      some (t, out) →
    t.shared.auths.inFlightAuth.find key = none ∧
      ((∃ error, result = .error error) → ∀ now choice, ∃ auths,
        t.shared.auths.serve now choice (.begin key) =
          some (auths, .owner t.shared.auths.nextPromise))

/-! ## Calls that share a key -/

section

variable {s : AkaThreads} {log : List (Nat × PendingAuthEvent)}
variable (h : s.Inv (akaDiscipline domain) log)

include h

/-- Who has caused an event is a call with the history that says so. -/
theorem caused_of_mem {id : Nat} {event : PendingAuthEvent} (hmem : (id, event) ∈ log) :
    ∃ thread, s.threads.find id = some thread ∧
      thread.history.progress.Caused (eventsOf log id) ∧ event ∈ eventsOf log id := by
  obtain ⟨thread, hfind⟩ := (h.started id).mp (h.numbered _ hmem)
  exact ⟨thread, hfind, (h.linked id thread hfind).caused, mem_eventsOf.mpr hmem⟩

/-- A call that waits for the HSS owns its key. -/
theorem owner_of_awaitsHss {id : Nat} {key : Bytes} (hawaits : s.AwaitsHss id key) :
    ∃ promise, s.shared.auths.inFlightAuth.find key = some promise ∧
      (id, .began key promise) ∈ log := by
  obtain ⟨thread, params, next, hoperation, rfl⟩ := hawaits
  obtain ⟨promise, howner⟩ := h.allows hoperation
  have hlinked : thread.Linked s.shared log id := h.linked_operation hoperation
  have hrelies := hlinked.relies
  rw [howner] at hrelies
  exact ⟨promise, hrelies, hlinked.began howner⟩

theorem eq_of_awaitsHss {id id' : Nat} {key : Bytes} (hawaits : s.AwaitsHss id key)
    (hawaits' : s.AwaitsHss id' key) : id = id' := by
  obtain ⟨promise, hfind, hbegan⟩ := owner_of_awaitsHss domain h hawaits
  obtain ⟨promise', hfind', hbegan'⟩ := owner_of_awaitsHss domain h hawaits'
  rw [hfind] at hfind'
  cases hfind'
  exact (h.shared.unique id id' key key promise hbegan hbegan').1

/-- A call with a result can do nothing but end. -/
theorem ended_of_result {id : Nat} {thread : AkaThread} {result : Result PendingAuth}
    {program : Program akaOps Exception AkaResult}
    (hfind : s.threads.find id = some ⟨thread, program⟩)
    (hresult : thread.progress.result = some result) :
    s.outcome id = some (thread, challengeAnswer domain thread result) := by
  have hmeets : program.Meets AkaThread.contract thread (AkaThread.Ends domain) :=
    h.meets id _ hfind
  rw [Threads.outcome, hfind]
  cases program with
  | pure answer => rw [AkaThread.Ends.eq_challengeAnswer hmeets hresult]
  | throw error => exact hmeets.elim
  | call op next =>
      have hallows : thread.Allows op := hmeets.1
      rw [hallows.result_eq_none] at hresult
      cases hresult

/-- The progress of a call that has joined: it waits, or has ended with what was published. -/
theorem joined_progress {joiner : Nat} {key : Bytes} {promise : Nat}
    (hmem : (joiner, .joined key promise) ∈ log) : ∃ thread,
      s.threads.find joiner = some thread ∧ (∃ owner, (owner, .began key promise) ∈ log) ∧
      (thread.history.progress = .joined key promise ∨ ∃ publisher result,
        thread.history.progress = .received key promise result ∧
        (publisher, .published promise result) ∈ log) := by
  obtain ⟨thread, hfind, hcaused, hevent⟩ := caused_of_mem domain h hmem
  have hrelies := (h.linked joiner thread hfind).relies
  refine ⟨thread, hfind, ?_⟩
  obtain hjoined | ⟨result, hreceived⟩ := AkaProgress.joined_cases hcaused hevent
  · rw [hjoined] at hrelies
    exact ⟨hrelies, .inl hjoined⟩
  · rw [hreceived] at hrelies
    obtain ⟨hbegan, publisher, hpublished⟩ := hrelies
    exact ⟨hbegan, .inr ⟨publisher, result, hreceived, hpublished⟩⟩

/-- What is published for a promise, its owner has completed and ended with. -/
theorem owner_published {owner publisher : Nat} {key : Bytes} {promise : Nat}
    {result : Result PendingAuth} (hbegan : (owner, .began key promise) ∈ log)
    (hpublished : (publisher, .published promise result) ∈ log) :
    (owner, .completed key result) ∈ log ∧ ∃ thread program,
      s.threads.find owner = some ⟨thread, program⟩ ∧ thread.progress.result = some result := by
  obtain ⟨⟨thread, program⟩, hfind, hcaused, hevent⟩ := caused_of_mem domain h hpublished
  obtain ⟨key', hprogress, hbegan', hcompleted⟩ := AkaProgress.published_cases hcaused hevent
  obtain ⟨rfl, rfl⟩ := h.shared.unique owner publisher key key' promise hbegan
    (mem_eventsOf.mp hbegan')
  refine ⟨mem_eventsOf.mp hcompleted, thread, program, hfind, ?_⟩
  have hprogress : thread.progress = .published key promise result := hprogress
  rw [hprogress]
  rfl

theorem sameResult {joiner : Nat} {key : Bytes} {promise : Nat}
    (hmem : (joiner, .joined key promise) ∈ log) :
    ∃ owner, (owner, .began key promise) ∈ log ∧
      ∀ thread answer, s.outcome joiner = some (thread, answer) →
        ∃ result, (owner, .completed key result) ∈ log ∧
          answer = challengeAnswer domain thread result ∧
          ∀ thread' answer', s.outcome owner = some (thread', answer') →
            answer' = challengeAnswer domain thread' result ∧
            (thread.call.request.callId = thread'.call.request.callId → answer = answer') := by
  obtain ⟨found, hfind, ⟨owner, hbegan⟩, hprogress⟩ := joined_progress domain h hmem
  refine ⟨owner, hbegan, ?_⟩
  intro thread answer houtcome
  rw [Threads.outcome_eq_some houtcome] at hfind
  cases hfind
  have hends : thread.Ends domain answer := h.result houtcome
  obtain hjoined | ⟨publisher, result, hreceived, hpublished⟩ := hprogress
  · have hjoined : thread.progress = .joined key promise := hjoined
    exact (hends.not_underway (by rw [hjoined]; trivial)).elim
  · obtain ⟨hcompleted, ownerThread, program, hfind, hresult⟩ :=
      owner_published domain h hbegan hpublished
    have hown := ended_of_result domain h hfind hresult
    have hanswer : answer = challengeAnswer domain thread result :=
      hends.eq_challengeAnswer (by rw [show thread.progress = _ from hreceived]; rfl)
    refine ⟨result, hcompleted, hanswer, ?_⟩
    intro thread' answer' houtcome'
    rw [hown] at houtcome'
    cases houtcome'
    refine ⟨rfl, fun hcallId => ?_⟩
    rw [hanswer, challengeAnswer, challengeAnswer, hcallId]

theorem delivered {joiner owner : Nat} {key : Bytes} {promise : Nat}
    (hjoined : (joiner, .joined key promise) ∈ log) (hbegan : (owner, .began key promise) ∈ log)
    (hended : (s.outcome owner).isSome) :
    (s.outcome joiner).isSome ∨ ∀ environment, ∃ t out,
      (threadsMachine (ImsAkaAuthProvider.service domain)).step s (.run joiner environment) =
        some (t, out) ∧ (t.outcome joiner).isSome := by
  obtain ⟨⟨thread, program⟩, hfind, -, hprogress⟩ := joined_progress domain h hjoined
  obtain hwaits | ⟨publisher, result, hreceived, -⟩ := hprogress
  swap
  · have hresult : thread.progress.result = some result := by
      rw [show thread.progress = _ from hreceived]
      rfl
    rw [ended_of_result domain h hfind hresult]
    exact .inl rfl
  -- The owner has ended, so its result is in the promise.
  obtain ⟨result, hpromise⟩ : ∃ result,
      s.shared.auths.promises.find promise = some result := by
    obtain ⟨⟨ownerThread, answer⟩, houtcome⟩ := Option.isSome_iff_exists.mp hended
    obtain ⟨found, hfound, hcaused, hevent⟩ := caused_of_mem domain h hbegan
    rw [Threads.outcome_eq_some houtcome] at hfound
    cases hfound
    have hends : ownerThread.Ends domain answer := h.result houtcome
    obtain howner | ⟨_, howner⟩ | ⟨result, -, hpublished⟩ :=
      AkaProgress.began_cases hcaused hevent
    · have howner : ownerThread.progress = _ := howner
      exact (hends.not_underway (by rw [howner]; trivial)).elim
    · have howner : ownerThread.progress = _ := howner
      exact (hends.not_underway (by rw [howner]; trivial)).elim
    · exact ⟨result, (h.shared.delivered owner promise result (mem_eventsOf.mp hpublished)).1⟩
  have hwaits : thread.progress = .joined key promise := hwaits
  have hmeets : program.Meets AkaThread.contract thread (AkaThread.Ends domain) :=
    h.meets joiner _ hfind
  cases program with
  | pure answer =>
      exact (AkaThread.Ends.not_underway hmeets (by rw [hwaits]; trivial)).elim
  | throw error => exact hmeets.elim
  | call op next =>
      cases AkaThread.Allows.eq_get hmeets.1 hwaits
      right
      intro environment
      have hserve : s.shared.serve (.pendingAuths (.get promise)) environment =
          some (s.shared, result, []) := by
        rw [AkaState.serve, PendingAuths.serve, hpromise]
        rfl
      have hstep : (threadsMachine (ImsAkaAuthProvider.service domain)).step s
          (.run joiner environment) = _ := Threads.runThread_of_serve hfind hserve
      have hnext := h.next (akaDiscipline_sound domain) (fun _ _ => trivial) hstep
      refine ⟨_, _, hstep, ?_⟩
      have hresult : (thread.track (.pendingAuths (.get promise)) result).progress.result =
          some result := by
        obtain ⟨call, progress⟩ := thread
        cases hwaits
        rfl
      rw [ended_of_result domain hnext (Table.find_insert_self _ _ _) hresult]
      rfl

/-- The completion of a key, whoever owns it. -/
theorem completes {id : Nat} {thread : AkaThread} {key : Bytes} {result : Result PendingAuth}
    {next : Unit → Program akaOps Exception AkaResult} {environment : AkaEnvironment}
    {t : AkaThreads} {out : List (Nat × PendingAuthEvent)}
    (hoperation : s.operation id = some (thread, ⟨.pendingAuths (.complete key result), next⟩))
    (hstep : (threadsMachine (ImsAkaAuthProvider.service domain)).step s (.run id environment) =
      some (t, out)) :
    t.shared.auths.inFlightAuth.find key = none ∧
      ((∃ error, result = .error error) → ∀ now choice, ∃ auths,
        t.shared.auths.serve now choice (.begin key) =
          some (auths, .owner t.shared.auths.nextPromise)) := by
  obtain ⟨promise, howner⟩ := h.allows hoperation
  have hlinked : thread.Linked s.shared log id := h.linked_operation hoperation
  have hinFlight : s.shared.auths.inFlightAuth.find key = some promise := by
    have hrelies := hlinked.relies
    rwa [howner] at hrelies
  have hfree := h.shared.exclusive key promise hinFlight
  obtain ⟨thread', op, next', shared, answer, events, hoperation', hserve, -, rfl⟩ :=
    Threads.runThread_eq_some hstep
  rw [hoperation] at hoperation'
  cases hoperation'
  cases result with
  | ok pending =>
      cases hserve
      exact ⟨Table.find_erase_self _ _, fun ⟨_, herror⟩ => by cases herror⟩
  | error error =>
      cases hserve
      exact ⟨Table.find_erase_self _ _, fun _ now choice =>
        PendingAuths.serve_begin_of_free now choice hfree (Table.find_erase_self _ _)⟩

end

/-- Whatever calls of the provider interleave, whenever the HSS answers and whatever it says. -/
theorem createChallenge_coalesces (now : Nat)
    (as : List (ThreadAction AkaEnvironment AkaCall Nat)) (s : AkaThreads)
    (log : List (Nat × PendingAuthEvent))
    (hrun : (threadsMachine (ImsAkaAuthProvider.service domain)).exec (.init ⟨.init, now⟩) as =
      some (s, log)) : Coalesces domain s log := by
  have h := (akaDiscipline_sound domain).exec_of_forall (fun _ _ => trivial)
    (Coordinated.init now) hrun
  refine ⟨fun _ _ _ => eq_of_awaitsHss domain h, ?_, fun _ _ _ => sameResult domain h,
    fun _ _ _ _ => delivered domain h, fun _ _ _ _ _ _ _ _ => completes domain h⟩
  intro key
  cases hinFlight : s.shared.auths.inFlightAuth.find key with
  | none => exact .inr rfl
  | some promise => exact .inl (h.shared.exclusive key promise hinFlight)

end

/-! ## Two calls for one key -/

/-- The second call joins the first while the HSS is busy. -/
def joiningCalls : List (ThreadAction AkaEnvironment AkaCall Nat) :=
  let request := SipMessage.register "sip:alice@ims.local" "sip:alice@ims.local"
  let environment : AkaEnvironment := .ofVector ⟨[1], [2], [3], [4], [5]⟩
  [.start (.createChallenge request), .start (.createChallenge request), .run 0 environment,
    .run 1 environment, .run 0 environment, .run 0 environment, .run 0 environment,
    .run 0 environment, .run 1 environment]

/-- Both calls answer with the same challenge, and the HSS was asked once. -/
theorem createChallenge_coalesces_joining :
    ∃ s log, (threadsMachine (@ImsAkaAuthProvider.service plainUris (.ofTable [])
        (bytes "ims.local"))).exec (.init ⟨.init, 0⟩) joiningCalls = some (s, log) ∧
      (∃ key, (1, .joined key 0) ∈ log) ∧
      (s.outcome 0).map Prod.snd = (s.outcome 1).map Prod.snd ∧ (s.outcome 1).isSome ∧
      @Coalesces plainUris (.ofTable []) (bytes "ims.local") s log := by
  have hrun : ∃ s log, (threadsMachine (@ImsAkaAuthProvider.service plainUris (.ofTable [])
      (bytes "ims.local"))).exec (.init ⟨.init, 0⟩) joiningCalls = some (s, log) ∧
      (∃ key, (1, .joined key 0) ∈ log) ∧
      (s.outcome 0).map Prod.snd = (s.outcome 1).map Prod.snd ∧ (s.outcome 1).isSome :=
    ⟨_, _, by rfl, ⟨_, .tail _ (.head _)⟩, by rfl, by rfl⟩
  obtain ⟨s, log, hrun, hjoined, hsame, hended⟩ := hrun
  refine ⟨s, log, hrun, hjoined, hsame, hended, ?_⟩
  exact @createChallenge_coalesces plainUris (.ofTable []) (bytes "ims.local") 0 joiningCalls s log
    hrun

end SimIms.SCscf
