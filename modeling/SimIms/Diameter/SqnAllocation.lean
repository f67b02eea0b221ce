import SimIms.Diameter.MongoHssClient
import SimIms.Lib.Threads

/-!
# Sequence numbers are handed out once

Any number of calls of `advanceSqn` read and write one collection. A number is taken by the
conditional update: it finds the number that was read still there and puts the next one. So the
numbers that are taken, in the order in which that happens, are those the record goes through.
-/

namespace SimIms.Diameter

open Cxx Lib Sip Db

/-- A conditional update that found its record: the number that it has replaced. -/
structure SqnCommit where
  imsi : Bytes
  sqn : UInt64

/-- The updates among the operations that went through. -/
def committed : (op : RepositoryOp) → RepositoryAnswer op → List SqnCommit
  | .updateSqn imsi oldSqn _, answer =>
      match answer with
      | .ok true => [⟨imsi, oldSqn⟩]
      | _ => []
  | .findOneByField _ _, _ => []
  | .updateServing _ _, _ => []

/-- A call of `advanceSqn`: the subscriber that it is for, and the numbers it has taken. -/
structure SqnCall where
  imsi : Bytes
  taken : List UInt64

def SqnCall.track (call : SqnCall) (op : RepositoryOp) (answer : RepositoryAnswer op) : SqnCall :=
  { call with taken := call.taken ++ (committed op answer).map SqnCommit.sqn }

/-- The numbers taken for a subscriber, each with the call that has taken it. -/
def sqnsTaken (imsi : Bytes) (log : List (Nat × SqnCommit)) : List (Nat × UInt64) :=
  (log.filter fun event => event.2.imsi = imsi).map fun event => (event.1, event.2.sqn)

/-- The i-th number of a subscriber that starts with this one. -/
def nthSqn (s0 i : Nat) : Nat := (s0 + 32 * i) % 2 ^ 48

/-- That the numbers of a subscriber are handed out one after the other. -/
structure AllocatesInOrder (imsi : Bytes) (s0 : Nat)
    (s : Threads Collection repository Exception SqnCall (Result UInt64))
    (log : List (Nat × SqnCommit)) : Prop where
  sequence : (sqnsTaken imsi log).map (·.2.toNat) =
    (List.range (sqnsTaken imsi log).length).map (nthSqn s0)
  /-- A call has taken a number exactly if it returns it, and takes no other. -/
  returned : ∀ id sqn, (id, sqn) ∈ sqnsTaken imsi log ↔
    ∃ call, s.outcome id = some (call, .ok sqn) ∧ call.imsi = imsi
  once : ((sqnsTaken imsi log).map Prod.fst).Nodup
  distinct : (sqnsTaken imsi log).length ≤ 2 ^ 43 → ((sqnsTaken imsi log).map Prod.snd).Nodup
  /-- The number stored has moved by what was taken, and by nothing else. -/
  stored : ∃ subscriber, s.shared.filter (·.imsi == imsi) = [subscriber] ∧
    subscriber.auth.sqn.toNat = nthSqn s0 (sqnsTaken imsi log).length

theorem toNat_nextSqn (sqn : UInt64) :
    ((sqn + kSqnStep) &&& kSqnMask).toNat = (sqn.toNat + 32) % 2 ^ 48 := by
  rw [UInt64.toNat_and, UInt64.toNat_add]
  change (sqn.toNat + 32) % 2 ^ 64 &&& (2 ^ 48 - 1) = _
  rw [Nat.and_two_pow_sub_one_eq_mod, Nat.mod_mod_of_dvd _ (by decide)]

theorem nthSqn_succ (s0 i : Nat) : nthSqn s0 (i + 1) = (nthSqn s0 i + 32) % 2 ^ 48 := by
  rw [nthSqn, nthSqn, Nat.mod_add_mod]
  congr 1

/-- The sequence comes back to a number only after `2 ^ 43` steps. -/
theorem nthSqn_injective {s0 i j : Nat} (hi : i < 2 ^ 43) (hj : j < 2 ^ 43)
    (h : nthSqn s0 i = nthSqn s0 j) : i = j := by
  rw [nthSqn, nthSqn] at h
  omega

/-! ## One call -/

/-- A call issues its update with the number that follows the one it has read, and nothing once
the update went through. -/
def sqnContract : Contract repository SqnCall where
  Allows call op := call.taken = [] ∧
    match op with
    | .findOneByField _ _ => True
    | .updateSqn imsi oldSqn newSqn => imsi = call.imsi ∧ newSqn = (oldSqn + kSqnStep) &&& kSqnMask
    | .updateServing _ _ => False
  Expects _ _ := True
  Throws _ := False
  track := SqnCall.track

/-- The call returns the number that it has taken. -/
def returnsTaken (call : SqnCall) : Result UInt64 → Prop
  | .ok sqn => call.taken = [sqn]
  | .error _ => call.taken = []

theorem advanceSqnRounds_meets {call : SqnCall} (htaken : call.taken = []) (rounds : Nat) :
    (MongoSubscriberRepository.advanceSqnRounds call.imsi kSqnStep kSqnMask rounds :
      Program repository Exception _).Meets sqnContract call returnsTaken := by
  obtain ⟨imsi, taken⟩ := call
  cases htaken
  induction rounds with
  | zero => rfl
  | succ rounds ih =>
      refine ⟨⟨rfl, trivial⟩, fun found _ => ?_⟩
      cases found with
      | error error => rfl
      | ok record =>
          cases record with
          | none => rfl
          | some record =>
              refine ⟨⟨rfl, rfl, rfl⟩, fun updated _ => ?_⟩
              cases updated with
              | error error => rfl
              | ok matched =>
                  cases matched with
                  | true => rfl
                  | false => exact ih

/-- What a call commits, it commits for its own subscriber. -/
theorem committed_of_allows {call : SqnCall} {op : RepositoryOp}
    (hallows : sqnContract.Allows call op) (answer : RepositoryAnswer op) :
    committed op answer =
      ((committed op answer).map SqnCommit.sqn).map fun sqn => ⟨call.imsi, sqn⟩ := by
  cases op with
  | findOneByField field value => rfl
  | updateServing imsi scscfUri => rfl
  | updateSqn imsi oldSqn newSqn =>
      obtain ⟨-, rfl, -⟩ := hallows
      cases answer with
      | error error => rfl
      | ok matched => cases matched <;> rfl

/-! ## The collection -/

/-- The record of a subscriber and the numbers taken for it so far. -/
def Allocated (imsi : Bytes) (s0 : Nat) (collection : Collection)
    (log : List (Nat × SqnCommit)) : Prop :=
  (sqnsTaken imsi log).map (·.2.toNat) =
      (List.range (sqnsTaken imsi log).length).map (nthSqn s0) ∧
    ∃ subscriber, collection.filter (·.imsi == imsi) = [subscriber] ∧
      subscriber.auth.sqn.toNat = nthSqn s0 (sqnsTaken imsi log).length

theorem sqnsTaken_append (imsi : Bytes) (log events : List (Nat × SqnCommit)) :
    sqnsTaken imsi (log ++ events) = sqnsTaken imsi log ++ sqnsTaken imsi events := by
  rw [sqnsTaken, List.filter_append, List.map_append]
  rfl

theorem sqnsTaken_singleton (imsi : Bytes) (id : Nat) (commit : SqnCommit) :
    sqnsTaken imsi [(id, commit)] = if commit.imsi = imsi then [(id, commit.sqn)] else [] := by
  rw [sqnsTaken, List.filter_singleton]
  by_cases heq : commit.imsi = imsi
  · simp [heq]
  · simp [heq]

/-- The number that the record of a subscriber holds is taken, and the next one put there. -/
theorem Allocated.take {imsi : Bytes} {s0 id : Nat} {before after : Collection}
    {subscriber : SubscriberRecord} {log : List (Nat × SqnCommit)}
    (h : Allocated imsi s0 (before ++ subscriber :: after) log) :
    Allocated imsi s0
      (before ++ { subscriber with auth := { subscriber.auth with
        sqn := (subscriber.auth.sqn + kSqnStep) &&& kSqnMask } } :: after)
      (log ++ [(id, ⟨subscriber.imsi, subscriber.auth.sqn⟩)]) := by
  obtain ⟨hsequence, record, hfilter, hsqn⟩ := h
  rw [List.filter_append, List.filter_cons] at hfilter
  rw [Allocated, sqnsTaken_append, sqnsTaken_singleton, List.filter_append, List.filter_cons]
  by_cases heq : subscriber.imsi = imsi
  · -- The record is the one of this subscriber, the only one.
    have hkey : (subscriber.imsi == imsi) = true := beq_iff_eq.mpr heq
    simp only [hkey, if_true, List.append_eq_singleton_iff, List.cons_eq_cons, reduceCtorEq,
      and_false, or_false] at hfilter
    obtain ⟨hbefore, rfl, hafter⟩ := hfilter
    simp only [heq, if_true, List.map_append, List.map_cons, List.map_nil, List.length_append,
      List.length_singleton, List.range_succ, beq_self_eq_true, hbefore, hafter, List.nil_append,
      List.cons.injEq, and_true, exists_eq_left', hsequence, hsqn, toNat_nextSqn, nthSqn_succ]
  · have hkey : (subscriber.imsi == imsi) = false := beq_eq_false_iff_ne.mpr heq
    simp only [hkey, Bool.false_eq_true, if_false] at hfilter
    simp only [heq, hkey, Bool.false_eq_true, if_false, List.append_nil]
    exact ⟨hsequence, record, hfilter, hsqn⟩

theorem Allocated.updateSqn {imsi other : Bytes} {s0 id : Nat} {collection : Collection}
    {log : List (Nat × SqnCommit)} (h : Allocated imsi s0 collection log) (oldSqn : UInt64) :
    Allocated imsi s0
      (collection.serve (.updateSqn other oldSqn ((oldSqn + kSqnStep) &&& kSqnMask)) none).1
      (log ++ (committed (.updateSqn other oldSqn ((oldSqn + kSqnStep) &&& kSqnMask))
        (collection.serve (.updateSqn other oldSqn ((oldSqn + kSqnStep) &&& kSqnMask)) none).2).map
          (id, ·)) := by
  rw [Collection.serve]
  obtain hnone | ⟨before, subscriber, after, rfl, hfound, hupdate⟩ := collection.updateOne_cases
    (fun subscriber => subscriber.imsi == other && subscriber.auth.sqn == oldSqn)
    (fun subscriber => { subscriber with
      auth := { subscriber.auth with sqn := (oldSqn + kSqnStep) &&& kSqnMask } })
  · rw [hnone]
    simp only [committed, List.map_nil, List.append_nil]
    exact h
  · rw [Bool.and_eq_true, beq_iff_eq, beq_iff_eq] at hfound
    obtain ⟨rfl, rfl⟩ := hfound
    rw [hupdate]
    exact h.take

/-- Any operation that a call issues keeps the allocation. -/
theorem Allocated.serve {imsi : Bytes} {s0 id : Nat} {collection : Collection}
    {log : List (Nat × SqnCommit)} {call : SqnCall} {op : RepositoryOp}
    (h : Allocated imsi s0 collection log) (hallows : sqnContract.Allows call op)
    (error? : Option ErrorInfo) :
    Allocated imsi s0 (collection.serve op error?).1
      (log ++ (committed op (collection.serve op error?).2).map (id, ·)) := by
  cases error? with
  | some error =>
      cases op <;> exact (List.append_nil log).symm ▸ h
  | none =>
      cases op with
      | findOneByField field value => exact (List.append_nil log).symm ▸ h
      | updateSqn other oldSqn newSqn =>
          obtain ⟨-, -, rfl⟩ := hallows
          exact h.updateSqn oldSqn
      | updateServing other scscfUri => exact hallows.2.elim

/-! ## What the events say -/

/-- The events of a call are the numbers that it has taken. -/
def TakesLogged (log : List (Nat × SqnCommit)) (id : Nat) (call : SqnCall) : Prop :=
  eventsOf log id = call.taken.map fun sqn => ⟨call.imsi, sqn⟩

def sqnDiscipline (imsi : Bytes) (s0 : Nat) :
    Discipline Collection repository SqnCall (Result UInt64) SqnCommit where
  contract := sqnContract
  assumes _ _ := True
  shared := Allocated imsi s0
  linked _ := TakesLogged
  result := returnsTaken

section

variable {imsi : Bytes} {s0 : Nat}
    {s : Threads Collection repository Exception SqnCall (Result UInt64)}
variable {log : List (Nat × SqnCommit)} (h : s.Inv (sqnDiscipline imsi s0) log)

include h

/-- A call that has taken a number has ended, and returns it. -/
theorem taken_cases {id : Nat} {thread : Thread repository Exception SqnCall (Result UInt64)}
    (hfind : s.threads.find id = some thread) :
    thread.history.taken = [] ∨
      ∃ sqn, thread.history.taken = [sqn] ∧ s.outcome id = some (thread.history, .ok sqn) := by
  obtain ⟨call, program⟩ := thread
  have hmeets := h.meets id _ hfind
  rw [Threads.outcome, hfind]
  cases program with
  | pure result =>
      cases result with
      | ok sqn => exact .inr ⟨sqn, hmeets, rfl⟩
      | error error => exact .inl hmeets
  | throw error => exact hmeets.elim
  | call op next => exact .inl hmeets.1.1

theorem length_eventsOf_le_one (id : Nat) : (eventsOf log id).length ≤ 1 := by
  by_cases hid : id < s.nextThread
  · obtain ⟨thread, hfind⟩ := (h.started id).mp hid
    have hlogged : eventsOf log id = thread.history.taken.map fun sqn =>
      ⟨thread.history.imsi, sqn⟩ := h.linked id thread hfind
    rw [hlogged, List.length_map]
    obtain htaken | ⟨sqn, htaken, -⟩ := taken_cases h hfind
    · rw [htaken]
      exact Nat.zero_le 1
    · rw [htaken]
      exact le_refl 1
  · rw [eventsOf_eq_nil fun event hmem =>
      Nat.lt_of_lt_of_le (h.numbered event hmem) (Nat.le_of_not_lt hid)]
    exact Nat.zero_le 1

theorem mem_sqnsTaken_iff (id : Nat) (sqn : UInt64) :
    (id, sqn) ∈ sqnsTaken imsi log ↔
      ∃ call, s.outcome id = some (call, .ok sqn) ∧ call.imsi = imsi := by
  have hmem_iff : (id, sqn) ∈ sqnsTaken imsi log ↔ ⟨imsi, sqn⟩ ∈ eventsOf log id := by
    rw [mem_eventsOf, sqnsTaken, List.mem_map]
    constructor
    · rintro ⟨⟨id', commit⟩, hmem, heq⟩
      obtain ⟨hmem, himsi⟩ := List.mem_filter.mp hmem
      cases heq
      rwa [← of_decide_eq_true himsi]
    · exact fun hmem => ⟨_, List.mem_filter.mpr ⟨hmem, decide_eq_true rfl⟩, rfl⟩
  rw [hmem_iff]
  constructor
  · intro hmem
    have hid := h.numbered _ (mem_eventsOf.mp hmem)
    obtain ⟨thread, hfind⟩ := (h.started id).mp hid
    have hlogged : eventsOf log id = thread.history.taken.map fun sqn =>
      ⟨thread.history.imsi, sqn⟩ := h.linked id thread hfind
    rw [hlogged] at hmem
    obtain ⟨taken, htaken, heq⟩ := List.mem_map.mp hmem
    cases heq
    obtain hnil | ⟨other, hother, houtcome⟩ := taken_cases h hfind
    · rw [hnil] at htaken
      cases htaken
    · rw [hother, List.mem_singleton] at htaken
      exact ⟨thread.history, htaken ▸ houtcome, rfl⟩
  · rintro ⟨call, houtcome, rfl⟩
    have hlogged : eventsOf log id = call.taken.map fun sqn => ⟨call.imsi, sqn⟩ :=
      h.linked_outcome houtcome
    have htaken : call.taken = [sqn] := h.result houtcome
    rw [hlogged, htaken]
    exact List.mem_singleton.mpr rfl

theorem nodup_callers : ((sqnsTaken imsi log).map Prod.fst).Nodup := by
  rw [List.nodup_iff_count_le_one]
  intro id
  refine Nat.le_trans ?_ (length_eventsOf_le_one h id)
  rw [sqnsTaken, List.map_map, List.count, List.countP_map, eventsOf, List.length_map,
    List.countP_filter, List.countP_eq_length_filter]
  apply List.Sublist.length_le
  apply List.monotone_filter_right
  intro event hevent
  rw [Bool.and_eq_true] at hevent
  exact decide_eq_true (beq_iff_eq.mp hevent.1)

end

/-! ## Runs -/

section

variable [OsipParser]

/-- The key under which `advanceSqn` looks for the subscriber. -/
def sqnKey (impi : Bytes) : Bytes := (privateIdentityImsi impi).getD impi

/-- Calls of `advanceSqn` with the step and the mask of the HSS, from any number of processes.
Any operation may fail. -/
def sqnService : Service Collection repository Exception SqnCall (Result UInt64)
    (Option ErrorInfo) Bytes Empty SqnCommit where
  serve collection op error? :=
    some ((collection.serve op error?).1, (collection.serve op error?).2,
      committed op (collection.serve op error?).2)
  begin impi := MongoSubscriberRepository.advanceSqn impi kSqnStep kSqnMask
  background _ event := event.elim
  fresh impi := ⟨sqnKey impi, []⟩
  track := SqnCall.track

theorem sqnDiscipline_sound (imsi : Bytes) (s0 : Nat) :
    (sqnDiscipline imsi s0).Sound sqnService where
  track _ _ _ := rfl
  begins impi := advanceSqnRounds_meets rfl 5
  fresh s log id impi _ hnumbered := eventsOf_eq_nil hnumbered
  serves s log id call op error? t answer out hshared hlinked hallows hserve _ := by
    cases hserve
    refine ⟨hshared.serve hallows error?, trivial, ?_, ?_⟩
    · have hown : eventsOf log id = call.taken.map fun sqn => ⟨call.imsi, sqn⟩ := hlinked
      calc eventsOf (log ++ (committed op (Collection.serve s op error?).2).map (id, ·)) id
          = eventsOf log id ++ committed op (Collection.serve s op error?).2 :=
            eventsOf_append_self
        _ = (call.taken.map fun sqn => ⟨call.imsi, sqn⟩) ++
              ((committed op (Collection.serve s op error?).2).map SqnCommit.sqn).map
                fun sqn => ⟨call.imsi, sqn⟩ :=
            congrArg₂ (· ++ ·) hown (committed_of_allows hallows _)
        _ = (call.track op (Collection.serve s op error?).2).taken.map
              fun sqn => ⟨call.imsi, sqn⟩ := List.map_append.symm
    · intro other call' hne hother
      exact (eventsOf_append_of_ne hne).trans hother
  background _ _ event _ _ _ := event.elim

/-- Whatever calls of `advanceSqn` interleave, from whatever processes: the numbers of a
subscriber are handed out in order, each to the call that returns it. -/
theorem advanceSqn_allocatesInOrder (imsi : Bytes) (collection : Collection)
    (subscriber : SubscriberRecord) (hunique : collection.filter (·.imsi == imsi) = [subscriber])
    (hsqn : subscriber.auth.sqn.toNat < 2 ^ 48)
    (as : List (ThreadAction (Option ErrorInfo) Bytes Empty))
    (s : Threads Collection repository Exception SqnCall (Result UInt64))
    (log : List (Nat × SqnCommit))
    (hrun : (threadsMachine sqnService).exec (.init collection) as = some (s, log)) :
    AllocatesInOrder imsi subscriber.auth.sqn.toNat s log := by
  have hinit : Allocated imsi subscriber.auth.sqn.toNat collection [] :=
    ⟨rfl, subscriber, hunique, (Nat.mod_eq_of_lt hsqn).symm⟩
  have h := (sqnDiscipline_sound imsi subscriber.auth.sqn.toNat).exec_of_forall
    (fun _ _ => trivial) hinit hrun
  obtain ⟨hsequence, hstored⟩ := h.shared
  refine ⟨hsequence, mem_sqnsTaken_iff h, nodup_callers h, ?_, hstored⟩
  intro hlength
  have hvalues : ((sqnsTaken imsi log).map (·.2.toNat)).Nodup := by
    rw [hsequence]
    apply List.Nodup.map_on ?_ List.nodup_range
    intro i hi j hj heq
    rw [List.mem_range] at hi hj
    exact nthSqn_injective (by omega) (by omega) heq
  apply List.Nodup.of_map UInt64.toNat
  rwa [List.map_map]

end

/-- The subscriber with the last number before the sequence starts again. -/
def lastNumberSubscriber : SubscriberRecord where
  imsi := bytes "001"
  tel := []
  identities :=
    { impi := bytes "001@ims.example", canonicalImpu := [], associatedImpus := [], realm := [] }
  auth :=
    { ki := [], operatorCodeType := [], opc := [], op := [], sqn := 0xFFFFFFFFFFE0, amf := [] }
  assignedScscf := []

/-- Two calls read the same number. The second takes it, the first comes too late, reads again and
takes the next one. -/
def crossingCalls : List (ThreadAction (Option ErrorInfo) Bytes Empty) :=
  [.start (bytes "001@ims.example"), .start (bytes "001@ims.example"), .run 0 none, .run 1 none,
    .run 1 none, .run 0 none, .run 0 none, .run 0 none]

/-- The two calls of the run take the last number and the first. -/
theorem advanceSqn_allocatesInOrder_crossing :
    ∃ s log, (threadsMachine (@sqnService plainUris)).exec (.init [lastNumberSubscriber])
        crossingCalls = some (s, log) ∧
      sqnsTaken (bytes "001") log = [(1, 0xFFFFFFFFFFE0), (0, 0)] ∧
      AllocatesInOrder (bytes "001") 0xFFFFFFFFFFE0 s log := by
  have hrun : ∃ s log, (threadsMachine (@sqnService plainUris)).exec (.init [lastNumberSubscriber])
      crossingCalls = some (s, log) ∧ sqnsTaken (bytes "001") log = [(1, 0xFFFFFFFFFFE0), (0, 0)] :=
    ⟨_, _, by rfl, by rfl⟩
  obtain ⟨s, log, hrun, htaken⟩ := hrun
  refine ⟨s, log, hrun, htaken, ?_⟩
  exact @advanceSqn_allocatesInOrder plainUris (bytes "001") [lastNumberSubscriber]
    lastNumberSubscriber rfl (by decide) crossingCalls s log hrun

end SimIms.Diameter
