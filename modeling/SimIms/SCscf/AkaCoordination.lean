import SimIms.SCscf.AkaCalls

/-!
# The tables of the AKA provider

What the events say of the tables, and of every call on its way. A key is in flight from the
moment its owner has begun until it completes, and then it may have a challenge; a promise has
one owner and one value; the challenges are the tokens of a ledger.
-/

namespace SimIms.SCscf

open Cxx Lib Sip Diameter

/-- Challenges as tokens, which are issued where they are completed. -/
def akaTokens : TokenEvents PendingAuthEvent Bytes PendingAuth where
  issues
    | .completed key (.ok pending) => some (key, pending)
    | _ => none
  takes
    | .consumed key pending => some (key, pending)
    | _ => none

/-- By what challenges are told apart. -/
def PendingAuth.ident (pending : PendingAuth) : Bytes × Bytes :=
  (pending.vector.rand, pending.vector.autn)

/-! ## What the operations do -/

namespace PendingAuths

variable {s t : PendingAuths} {now choice : Nat} {key : Bytes}

theorem serve_begin_cases {begun : Begun}
    (h : s.serve now choice (.begin key) = some (t, begun)) :
    (∃ pending, begun = .pending pending ∧ t = s.purgeExpiredLocked now ∧
      t.pendingAuth.find key = some pending) ∨
    (∃ promise, begun = .inFlight promise ∧ t = s.purgeExpiredLocked now ∧
      t.inFlightAuth.find key = some promise) ∨
    (begun = .owner s.nextPromise ∧ (s.purgeExpiredLocked now).pendingAuth.find key = none ∧
      s.inFlightAuth.find key = none ∧
      t = { s.purgeExpiredLocked now with
        inFlightAuth := s.inFlightAuth.insert key s.nextPromise
        nextPromise := s.nextPromise + 1 }) := by
  rw [serve] at h
  cases hpending : (s.purgeExpiredLocked now).pendingAuth.find key with
  | some pending =>
      rw [hpending] at h
      cases h
      exact .inl ⟨pending, rfl, rfl, hpending⟩
  | none =>
      rw [hpending] at h
      cases hinFlight : (s.purgeExpiredLocked now).inFlightAuth.find key with
      | some promise =>
          rw [hinFlight] at h
          cases h
          exact .inr (.inl ⟨promise, rfl, rfl, hinFlight⟩)
      | none =>
          rw [hinFlight] at h
          cases h
          exact .inr (.inr ⟨rfl, rfl, hinFlight, rfl⟩)

theorem serve_begin_of_free (now choice : Nat) (hpending : s.pendingAuth.find key = none)
    (hinFlight : s.inFlightAuth.find key = none) :
    ∃ auths, s.serve now choice (.begin key) = some (auths, .owner s.nextPromise) := by
  have hpurged : (s.purgeExpiredLocked now).pendingAuth.find key = none :=
    Table.find_eraseIf_of_eq_none _ hpending
  have hkept : (s.purgeExpiredLocked now).inFlightAuth.find key = none := hinFlight
  rw [serve]
  simp only [hpurged, hkept]
  exact ⟨_, rfl⟩

theorem serve_consume_cases {pending : PendingAuth} {consumed : Bool}
    (h : s.serve now choice (.consume key pending) = some (t, consumed)) :
    (consumed = false ∧ t = s) ∨
    ∃ found, consumed = true ∧ s.pendingAuth.find key = some found ∧
      found.ident = pending.ident ∧ t = { s with pendingAuth := s.pendingAuth.erase key } := by
  rw [serve] at h
  cases hfound : s.pendingAuth.find key with
  | none =>
      rw [hfound] at h
      cases h
      exact .inl ⟨rfl, rfl⟩
  | some found =>
      rw [hfound] at h
      by_cases hsame : found.vector.rand = pending.vector.rand ∧
          found.vector.autn = pending.vector.autn
      · simp only [if_pos hsame] at h
        cases h
        exact .inr ⟨found, rfl, rfl, Prod.ext hsame.1 hsame.2, rfl⟩
      · simp only [if_neg hsame] at h
        cases h
        exact .inl ⟨rfl, rfl⟩

theorem find_candidates {callId impi : Bytes} {entry : Bytes × PendingAuth}
    (hfind : s.findPendingForAuthorizationLocked callId impi choice = some entry) :
    s.pendingAuth.find entry.1 = some entry.2 := by
  have hcandidate : entry ∈ s.candidates callId impi := List.mem_of_getElem? hfind
  obtain ⟨⟨key, pending⟩, hstored, rfl⟩ := List.mem_map.mp (List.mem_filter.mp hcandidate).1
  exact Table.find_eq_some_iff_mem.mpr hstored

end PendingAuths

/-! ## Invariants -/

/-- What holds of the tables. -/
structure Coordinated (s : AkaState) (log : List (Nat × PendingAuthEvent)) : Prop where
  exclusive : ∀ key promise, s.auths.inFlightAuth.find key = some promise →
    s.auths.pendingAuth.find key = none
  begun : ∀ key promise, s.auths.inFlightAuth.find key = some promise →
    ∃ owner, (owner, .began key promise) ∈ log
  older : ∀ owner key promise, (owner, .began key promise) ∈ log → promise < s.auths.nextPromise
  unique : ∀ owner owner' key key' promise, (owner, .began key promise) ∈ log →
    (owner', .began key' promise) ∈ log → owner = owner' ∧ key = key'
  published : ∀ promise result, s.auths.promises.find promise = some result →
    ∃ owner, (owner, .published promise result) ∈ log
  delivered : ∀ owner promise result, (owner, .published promise result) ∈ log →
    s.auths.promises.find promise = some result ∧ ∃ key, (owner, .began key promise) ∈ log
  ledger : Ledger PendingAuth.ident PendingAuth.expiresAt (akaTokens.issued log)
    (akaTokens.taken log) s.now s.auths.pendingAuth

/-- What a call may rely on. -/
def AkaProgress.Relies (s : AkaState) (log : List (Nat × PendingAuthEvent)) :
    AkaProgress → Prop
  | .owner key promise => s.auths.inFlightAuth.find key = some promise
  | .joined key promise => ∃ owner, (owner, .began key promise) ∈ log
  | .received key promise result => (∃ owner, (owner, .began key promise) ∈ log) ∧
      ∃ owner, (owner, .published promise result) ∈ log
  | .challenged key pending => (key, pending) ∈ akaTokens.issued log
  | .found key pending => (key, pending) ∈ akaTokens.issued log
  | .consumed key pending => (key, pending) ∈ akaTokens.issued log
  | _ => True

/-- What a call has caused. -/
def AkaProgress.Caused (events : List PendingAuthEvent) : AkaProgress → Prop
  | .joined key promise => events = [.joined key promise]
  | .received key promise _ => events = [.joined key promise]
  | .owner key promise => events = [.began key promise]
  | .completed key promise result => events = [.began key promise, .completed key result]
  | .published key promise result =>
      events = [.began key promise, .completed key result, .published promise result]
  | .consumed key pending => ∃ found, events = [.consumed key found] ∧ found.ident = pending.ident
  | _ => events = []

structure AkaThread.Linked (s : AkaState) (log : List (Nat × PendingAuthEvent)) (id : Nat)
    (thread : AkaThread) : Prop where
  relies : thread.progress.Relies s log
  caused : thread.progress.Caused (eventsOf log id)

section

variable {s t : AkaState} {log out : List (Nat × PendingAuthEvent)} {id : Nat}

/-- Events in the log stay there, so a call loses at most the promise that it owns. -/
theorem AkaProgress.Relies.mono {progress : AkaProgress} (h : progress.Relies s log)
    (hkeeps : ∀ key promise, progress = .owner key promise →
      t.auths.inFlightAuth.find key = some promise) : progress.Relies t (log ++ out) := by
  cases progress with
  | owner key promise => exact hkeeps key promise rfl
  | joined key promise =>
      obtain ⟨owner, hmem⟩ := h
      exact ⟨owner, List.mem_append_left _ hmem⟩
  | received key promise result =>
      obtain ⟨⟨owner, hbegan⟩, publisher, hpublished⟩ := h
      exact ⟨⟨owner, List.mem_append_left _ hbegan⟩, publisher, List.mem_append_left _ hpublished⟩
  | challenged key pending | found key pending | consumed key pending =>
      rw [Relies, akaTokens.issued_append]
      exact List.mem_append_left _ h
  | fresh | completed | published => trivial

theorem AkaThread.Linked.other {events : List PendingAuthEvent} {other : Nat}
    {thread : AkaThread} (h : thread.Linked s log other) (hne : other ≠ id)
    (hkeeps : ∀ key promise, thread.progress = .owner key promise →
      t.auths.inFlightAuth.find key = some promise) :
    thread.Linked t (log ++ events.map (id, ·)) other := by
  refine ⟨h.relies.mono hkeeps, ?_⟩
  rw [eventsOf_append_of_ne hne]
  exact h.caused

/-- Where no key leaves the flight, all the calls keep what they rely on. -/
theorem AkaThread.Linked.other_of_kept {events : List PendingAuthEvent} {other : Nat}
    {thread : AkaThread} (h : thread.Linked s log other) (hne : other ≠ id)
    (hkept : ∀ key promise, s.auths.inFlightAuth.find key = some promise →
      t.auths.inFlightAuth.find key = some promise) :
    thread.Linked t (log ++ events.map (id, ·)) other := by
  apply h.other hne
  intro key promise howner
  have hrelies := h.relies
  rw [howner] at hrelies
  exact hkept key promise hrelies

/-- The owner of a key has begun. -/
theorem AkaThread.Linked.began {thread : AkaThread} (h : thread.Linked s log id) {key : Bytes}
    {promise : Nat} (howner : thread.progress = .owner key promise) :
    (id, .began key promise) ∈ log := by
  have hcaused := h.caused
  rw [howner] at hcaused
  have hevents : eventsOf log id = [.began key promise] := hcaused
  rw [← mem_eventsOf, hevents]
  exact List.mem_singleton.mpr rfl

/-! ### The tables -/

namespace Coordinated

theorem init (now : Nat) : Coordinated ⟨.init, now⟩ [] where
  exclusive _ _ hfind := by cases hfind
  begun _ _ hfind := by cases hfind
  older _ _ _ hmem := by cases hmem
  unique _ _ _ _ _ hmem := by cases hmem
  published _ _ hfind := by cases hfind
  delivered _ _ _ hmem := by cases hmem
  ledger := .empty

variable (h : Coordinated s log)

include h

theorem elapse (elapsed : Nat) : Coordinated { s with now := s.now + elapsed } log :=
  { h with ledger := h.ledger.elapse (Nat.le_add_right s.now elapsed) }

theorem purge : Coordinated { s with auths := s.auths.purgeExpiredLocked s.now } log :=
  { h with
    exclusive := fun key promise hfind =>
      Table.find_eraseIf_of_eq_none _ (h.exclusive key promise hfind)
    ledger := h.ledger.purge }

/-- Any event that neither begins nor publishes, after which no further key is in flight. -/
theorem of_event {e : PendingAuthEvent} (hbegan : ∀ key promise, e ≠ .began key promise)
    (hpublished : ∀ promise result, e ≠ .published promise result)
    (hnext : t.auths.nextPromise = s.auths.nextPromise)
    (hpromises : t.auths.promises = s.auths.promises)
    (hinFlight : ∀ key promise, t.auths.inFlightAuth.find key = some promise →
      s.auths.inFlightAuth.find key = some promise ∧ t.auths.pendingAuth.find key = none)
    (hledger : Ledger PendingAuth.ident PendingAuth.expiresAt (akaTokens.issued (log ++ [(id, e)]))
      (akaTokens.taken (log ++ [(id, e)])) t.now t.auths.pendingAuth) :
    Coordinated t (log ++ [(id, e)]) := by
  have hbegan_iff : ∀ owner key promise, (owner, .began key promise) ∈ log ++ [(id, e)] ↔
      (owner, .began key promise) ∈ log := by
    intro owner key promise
    rw [List.mem_append, List.mem_singleton, or_iff_left]
    exact fun heq => hbegan key promise (Prod.mk.inj heq).2.symm
  refine ⟨fun key promise hfind => (hinFlight key promise hfind).2, ?_, ?_, ?_, ?_, ?_, hledger⟩
  · intro key promise hfind
    obtain ⟨owner, hmem⟩ := h.begun key promise (hinFlight key promise hfind).1
    exact ⟨owner, (hbegan_iff owner key promise).mpr hmem⟩
  · intro owner key promise hmem
    rw [hnext]
    exact h.older owner key promise ((hbegan_iff owner key promise).mp hmem)
  · intro owner owner' key key' promise hmem hmem'
    exact h.unique owner owner' key key' promise ((hbegan_iff owner key promise).mp hmem)
      ((hbegan_iff owner' key' promise).mp hmem')
  · intro promise result hfind
    rw [hpromises] at hfind
    obtain ⟨owner, hmem⟩ := h.published promise result hfind
    exact ⟨owner, List.mem_append_left _ hmem⟩
  · intro owner promise result hmem
    rw [List.mem_append, List.mem_singleton, or_iff_left] at hmem
    · obtain ⟨hfind, key, hmem⟩ := h.delivered owner promise result hmem
      rw [hpromises]
      exact ⟨hfind, key, List.mem_append_left _ hmem⟩
    · exact fun heq => hpublished promise result (Prod.mk.inj heq).2.symm

theorem join (key : Bytes) (promise : Nat) :
    Coordinated s (log ++ [(id, .joined key promise)]) := by
  refine h.of_event (e := .joined key promise) (fun _ _ => nofun) (fun _ _ => nofun) rfl rfl
    (fun key promise hfind => ⟨hfind, h.exclusive key promise hfind⟩) ?_
  rw [akaTokens.issued_append, akaTokens.taken_append]
  exact h.ledger.append_nil

/-- A key goes in flight, with a promise of its own. -/
theorem begin {key : Bytes} (hpending : s.auths.pendingAuth.find key = none) :
    Coordinated
      { s with auths := { s.auths with
        inFlightAuth := s.auths.inFlightAuth.insert key s.auths.nextPromise
        nextPromise := s.auths.nextPromise + 1 } }
      (log ++ [(id, .began key s.auths.nextPromise)]) := by
  have hbegan : ∀ owner other promise, (owner, .began other promise) ∈
      log ++ [(id, .began key s.auths.nextPromise)] → (owner, .began other promise) ∈ log ∨
        owner = id ∧ other = key ∧ promise = s.auths.nextPromise := by
    intro owner other promise hmem
    obtain hmem | hmem := List.mem_append.mp hmem
    · exact .inl hmem
    · cases List.mem_singleton.mp hmem
      exact .inr ⟨rfl, rfl, rfl⟩
  refine ⟨?_, ?_, ?_, ?_, ?_, ?_, ?_⟩
  · intro other promise hfind
    rw [Table.find_insert] at hfind
    split at hfind
    · rename_i heq
      rw [heq]
      exact hpending
    · exact h.exclusive other promise hfind
  · intro other promise hfind
    rw [Table.find_insert] at hfind
    split at hfind
    · rename_i heq
      cases hfind
      exact ⟨id, List.mem_append_right _ (heq ▸ List.mem_singleton.mpr rfl)⟩
    · obtain ⟨owner, hmem⟩ := h.begun other promise hfind
      exact ⟨owner, List.mem_append_left _ hmem⟩
  · intro owner other promise hmem
    obtain hmem | ⟨-, -, rfl⟩ := hbegan owner other promise hmem
    · exact Nat.lt_succ_of_lt (h.older owner other promise hmem)
    · exact Nat.lt_succ_self _
  · intro owner owner' other other' promise hmem hmem'
    obtain hmem | ⟨rfl, rfl, rfl⟩ := hbegan owner other promise hmem
    · obtain hmem' | ⟨-, -, rfl⟩ := hbegan owner' other' promise hmem'
      · exact h.unique owner owner' other other' promise hmem hmem'
      · exact (Nat.lt_irrefl _ (h.older owner other _ hmem)).elim
    · obtain hmem' | ⟨rfl, rfl, -⟩ := hbegan owner' other' _ hmem'
      · exact (Nat.lt_irrefl _ (h.older owner' other' _ hmem')).elim
      · exact ⟨rfl, rfl⟩
  · intro promise result hfind
    obtain ⟨owner, hmem⟩ := h.published promise result hfind
    exact ⟨owner, List.mem_append_left _ hmem⟩
  · intro owner promise result hmem
    obtain hmem | hmem := List.mem_append.mp hmem
    · obtain ⟨hfind, other, hmem⟩ := h.delivered owner promise result hmem
      exact ⟨hfind, other, List.mem_append_left _ hmem⟩
    · cases List.mem_singleton.mp hmem
  · rw [akaTokens.issued_append, akaTokens.taken_append]
    exact h.ledger.append_nil

/-- The owner of a key completes it. -/
theorem complete {key : Bytes} {promise choice : Nat} {result : Result PendingAuth}
    {auths : PendingAuths} (hinFlight : s.auths.inFlightAuth.find key = some promise)
    (hserve : s.auths.serve s.now choice (.complete key result) = some (auths, ())) :
    Coordinated { s with auths } (log ++ [(id, .completed key result)]) := by
  have hfree := h.exclusive key promise hinFlight
  cases result with
  | error error =>
      cases hserve
      refine h.of_event (e := .completed key (.error error)) (fun _ _ => nofun)
        (fun _ _ => nofun) rfl rfl ?_ ?_
      · intro other promise hfind
        obtain ⟨-, hfind⟩ := Table.find_of_find_erase hfind
        exact ⟨hfind, h.exclusive other promise hfind⟩
      · rw [akaTokens.issued_append, akaTokens.taken_append]
        exact (List.append_nil (akaTokens.issued log)).symm ▸
          (List.append_nil (akaTokens.taken log)).symm ▸ h.ledger
  | ok pending =>
      cases hserve
      refine h.of_event (e := .completed key (.ok pending)) (fun _ _ => nofun)
        (fun _ _ => nofun) rfl rfl ?_ ?_
      · intro other promise hfind
        obtain ⟨hne, hfind⟩ := Table.find_of_find_erase hfind
        exact ⟨hfind, (Table.find_insert_of_ne _ _ hne).trans (h.exclusive other promise hfind)⟩
      · rw [akaTokens.issued_append, akaTokens.taken_append]
        exact (List.append_nil (akaTokens.taken log)).symm ▸ h.ledger.issue hfree

/-- The owner of a promise keeps it, once. -/
theorem setValue {key : Bytes} {promise : Nat} {result : Result PendingAuth}
    (hown : (id, .began key promise) ∈ log)
    (hfirst : ∀ result, (id, .published promise result) ∉ log) :
    Coordinated
      { s with auths := { s.auths with promises := s.auths.promises.insert promise result } }
      (log ++ [(id, .published promise result)]) := by
  have hbegan : ∀ owner key other, (owner, .began key other) ∈
      log ++ [(id, .published promise result)] → (owner, .began key other) ∈ log := by
    intro owner key other hmem
    obtain hmem | hmem := List.mem_append.mp hmem
    · exact hmem
    · cases List.mem_singleton.mp hmem
  refine ⟨h.exclusive, ?_, ?_, ?_, ?_, ?_, ?_⟩
  · intro key promise hfind
    obtain ⟨owner, hmem⟩ := h.begun key promise hfind
    exact ⟨owner, List.mem_append_left _ hmem⟩
  · exact fun owner key other hmem => h.older owner key other (hbegan owner key other hmem)
  · exact fun owner owner' key key' other hmem hmem' =>
      h.unique owner owner' key key' other (hbegan owner key other hmem)
        (hbegan owner' key' other hmem')
  · intro other found hfind
    rw [Table.find_insert] at hfind
    split at hfind
    · rename_i heq
      cases hfind
      exact ⟨id, List.mem_append_right _ (heq ▸ List.mem_singleton.mpr rfl)⟩
    · obtain ⟨owner, hmem⟩ := h.published other found hfind
      exact ⟨owner, List.mem_append_left _ hmem⟩
  · intro owner other found hmem
    obtain hold | hmem := List.mem_append.mp hmem
    · obtain ⟨hfind, otherKey, hother⟩ := h.delivered owner other found hold
      refine ⟨(Table.find_insert_of_ne _ _ ?_).trans hfind, otherKey,
        List.mem_append_left _ hother⟩
      rintro rfl
      obtain ⟨rfl, -⟩ := h.unique owner id otherKey key other hother hown
      exact hfirst found hold
    · cases List.mem_singleton.mp hmem
      exact ⟨Table.find_insert_self _ _ _, key, List.mem_append_left _ hown⟩
  · rw [akaTokens.issued_append, akaTokens.taken_append]
    exact h.ledger.append_nil

theorem consume {key : Bytes} {found : PendingAuth}
    (hfound : s.auths.pendingAuth.find key = some found) :
    Coordinated
      { s with auths := { s.auths with pendingAuth := s.auths.pendingAuth.erase key } }
      (log ++ [(id, .consumed key found)]) := by
  refine h.of_event (e := .consumed key found) (fun _ _ => nofun) (fun _ _ => nofun) rfl rfl ?_ ?_
  · intro other promise hfind
    refine ⟨hfind, ?_⟩
    change (s.auths.pendingAuth.erase key).find other = none
    rw [Table.find_erase]
    split
    · rfl
    · exact h.exclusive other promise hfind
  · rw [akaTokens.issued_append, akaTokens.taken_append]
    exact (List.append_nil (akaTokens.issued log)).symm ▸ h.ledger.take hfound

end Coordinated

/-! ### One operation -/

/-- What an operation has to keep. -/
def AkaThread.Served (thread : AkaThread) (s t : AkaState) (log : List (Nat × PendingAuthEvent))
    (id : Nat) (op : AkaOp) (answer : op.Answer) (out : List PendingAuthEvent) : Prop :=
  Coordinated t (log ++ out.map (id, ·)) ∧
    (thread.track op answer).Linked t (log ++ out.map (id, ·)) id ∧
    ∀ other (thread' : AkaThread), other ≠ id → thread'.Linked s log other →
      thread'.Linked t (log ++ out.map (id, ·)) other

variable {call : AkaCall} {progress : AkaProgress}

/-- Of an operation without an event, which takes no key out of flight. -/
theorem AkaThread.Served.of_quiet {op : AkaOp} {answer : op.Answer} {thread : AkaThread}
    (hshared : Coordinated t log) (hkept : t.auths.inFlightAuth = s.auths.inFlightAuth)
    (hrelies : (thread.track op answer).progress.Relies t log)
    (hcaused : (thread.track op answer).progress.Caused (eventsOf log id)) :
    thread.Served s t log id op answer [] := by
  rw [Served, List.map_nil, List.append_nil]
  refine ⟨hshared, ⟨hrelies, hcaused⟩, ?_⟩
  intro other thread' hne h
  have hlinked : thread'.Linked t (log ++ ([] : List PendingAuthEvent).map (id, ·)) other :=
    h.other_of_kept hne fun key promise hfind => by rwa [hkept]
  rwa [List.map_nil, List.append_nil] at hlinked

theorem serves_begin {key : Bytes} {begun : Begun} {auths : PendingAuths} {choice : Nat}
    (h : Coordinated s log) (hlinked : AkaThread.Linked s log id ⟨call, .fresh⟩)
    (hserve : s.auths.serve s.now choice (.begin key) = some (auths, begun)) :
    AkaThread.Served ⟨call, .fresh⟩ s { s with auths } log id (.pendingAuths (.begin key)) begun
      (s.auths.occurred (.begin key) begun) := by
  have hnone : eventsOf log id = [] := hlinked.caused
  obtain ⟨pending, rfl, rfl, hfind⟩ | ⟨promise, rfl, rfl, hfind⟩ |
      ⟨rfl, hpending, hinFlight, rfl⟩ :=
    PendingAuths.serve_begin_cases hserve
  · exact .of_quiet h.purge rfl (h.purge.ledger.issued_of_find key pending hfind) hnone
  · refine ⟨h.purge.join key promise, ⟨?_, ?_⟩, ?_⟩
    · obtain ⟨owner, hmem⟩ := h.begun key promise hfind
      exact ⟨owner, List.mem_append_left _ hmem⟩
    · change eventsOf _ id = [PendingAuthEvent.joined key promise]
      rw [eventsOf_append_self, hnone]
      rfl
    · exact fun other thread' hne hother => hother.other_of_kept hne fun _ _ hfind => hfind
  · refine ⟨h.purge.begin hpending, ⟨Table.find_insert_self _ _ _, ?_⟩, ?_⟩
    · change eventsOf _ id = [PendingAuthEvent.began key s.auths.nextPromise]
      rw [eventsOf_append_self, hnone]
      rfl
    · intro other thread' hne hother
      apply hother.other_of_kept hne
      intro other promise hfind
      refine (Table.find_insert_of_ne _ _ ?_).trans hfind
      rintro rfl
      rw [hinFlight] at hfind
      cases hfind

theorem serves_complete {key : Bytes} {promise choice : Nat} {result : Result PendingAuth}
    {auths : PendingAuths} (h : Coordinated s log)
    (hlinked : AkaThread.Linked s log id ⟨call, .owner key promise⟩)
    (hserve : s.auths.serve s.now choice (.complete key result) = some (auths, ())) :
    AkaThread.Served ⟨call, .owner key promise⟩ s { s with auths } log id
      (.pendingAuths (.complete key result)) () (s.auths.occurred (.complete key result) ()) := by
  have hown : eventsOf log id = [.began key promise] := hlinked.caused
  refine ⟨h.complete hlinked.relies hserve, ⟨trivial, ?_⟩, ?_⟩
  · change eventsOf _ id = [PendingAuthEvent.began key promise, .completed key result]
    rw [eventsOf_append_self, hown]
    rfl
  · intro other thread' hne hother
    apply hother.other hne
    intro key' promise' howner
    have hrelies := hother.relies
    rw [howner] at hrelies
    have hfind : s.auths.inFlightAuth.find key' = some promise' := hrelies
    have herased : auths.inFlightAuth = s.auths.inFlightAuth.erase key := by
      cases result <;> cases hserve <;> rfl
    change auths.inFlightAuth.find key' = some promise'
    rw [herased, Table.find_erase_of_ne _ ?_, hfind]
    rintro rfl
    -- Two owners of one key have one promise, so they are one call.
    have hinFlight : s.auths.inFlightAuth.find key' = some promise := hlinked.relies
    rw [hinFlight] at hfind
    cases hfind
    exact hne (h.unique other id key' key' promise (hother.began howner) (hlinked.began rfl)).1

theorem serves_setValue {key : Bytes} {promise choice : Nat} {result : Result PendingAuth}
    {auths : PendingAuths} (h : Coordinated s log)
    (hlinked : AkaThread.Linked s log id ⟨call, .completed key promise result⟩)
    (hserve : s.auths.serve s.now choice (.setValue promise result) = some (auths, ())) :
    AkaThread.Served ⟨call, .completed key promise result⟩ s { s with auths } log id
      (.pendingAuths (.setValue promise result)) ()
      (s.auths.occurred (.setValue promise result) ()) := by
  have hown : eventsOf log id = [.began key promise, .completed key result] := hlinked.caused
  cases hserve
  have hbegan : (id, .began key promise) ∈ log := by
    rw [← mem_eventsOf, hown]
    exact List.mem_cons_self
  have hfirst : ∀ result, (id, .published promise result) ∉ log := by
    intro result hmem
    rw [← mem_eventsOf, hown] at hmem
    obtain ⟨⟩ | ⟨_, ⟨⟩ | ⟨_, ⟨⟩⟩⟩ := hmem
  refine ⟨h.setValue hbegan hfirst, ⟨trivial, ?_⟩, ?_⟩
  · change eventsOf _ id =
      [PendingAuthEvent.began key promise, .completed key result, .published promise result]
    rw [eventsOf_append_self, hown]
    rfl
  · exact fun other thread' hne hother => hother.other_of_kept hne fun _ _ hfind => hfind

theorem serves_get {key : Bytes} {promise choice : Nat} {result : Result PendingAuth}
    {auths : PendingAuths} (h : Coordinated s log)
    (hlinked : AkaThread.Linked s log id ⟨call, .joined key promise⟩)
    (hserve : s.auths.serve s.now choice (.get promise) = some (auths, result)) :
    AkaThread.Served ⟨call, .joined key promise⟩ s { s with auths } log id
      (.pendingAuths (.get promise)) result (s.auths.occurred (.get promise) result) := by
  rw [PendingAuths.serve] at hserve
  cases hfind : s.auths.promises.find promise with
  | none =>
      rw [hfind] at hserve
      cases hserve
  | some found =>
      rw [hfind] at hserve
      cases hserve
      exact .of_quiet h rfl ⟨hlinked.relies, h.published promise result hfind⟩ hlinked.caused

theorem serves_findPending {callId impi : Bytes} {choice : Nat}
    {found : Option (Bytes × PendingAuth)} {auths : PendingAuths} (h : Coordinated s log)
    (hlinked : AkaThread.Linked s log id ⟨call, .fresh⟩)
    (hserve : s.auths.serve s.now choice (.findPending callId impi) = some (auths, found)) :
    AkaThread.Served ⟨call, .fresh⟩ s { s with auths } log id
      (.pendingAuths (.findPending callId impi)) found
      (s.auths.occurred (.findPending callId impi) found) := by
  cases hserve
  cases hfound : (s.auths.purgeExpiredLocked s.now).findPendingForAuthorizationLocked callId impi
      choice with
  | none => exact .of_quiet h.purge rfl trivial hlinked.caused
  | some entry =>
      exact .of_quiet h.purge rfl
        (h.purge.ledger.issued_of_find entry.1 entry.2 (PendingAuths.find_candidates hfound))
        hlinked.caused

theorem serves_consume {key : Bytes} {pending : PendingAuth} {choice : Nat} {consumed : Bool}
    {auths : PendingAuths} (h : Coordinated s log)
    (hlinked : AkaThread.Linked s log id ⟨call, .found key pending⟩)
    (hserve : s.auths.serve s.now choice (.consume key pending) = some (auths, consumed)) :
    AkaThread.Served ⟨call, .found key pending⟩ s { s with auths } log id
      (.pendingAuths (.consume key pending)) consumed
      (s.auths.occurred (.consume key pending) consumed) := by
  obtain ⟨rfl, rfl⟩ | ⟨found, rfl, hfound, hsame, rfl⟩ := PendingAuths.serve_consume_cases hserve
  · exact .of_quiet h rfl hlinked.relies hlinked.caused
  · have hown : eventsOf log id = [] := hlinked.caused
    have hout : s.auths.occurred (.consume key pending) true = [.consumed key found] := by
      simp only [PendingAuths.occurred, hfound]
    rw [hout]
    refine ⟨h.consume hfound, ⟨?_, found, ?_, hsame⟩, ?_⟩
    · have hrelies : (AkaProgress.found key pending).Relies s log := hlinked.relies
      exact hrelies.mono (t := s) fun _ _ => nofun
    · rw [eventsOf_append_self, hown]
      rfl
    · exact fun other thread' hne hother => hother.other_of_kept hne fun _ _ hfind => hfind

end

section

variable [OsipParser]

/-- Every operation that a call issues keeps the tables and what all the calls rely on. -/
theorem AkaThread.serves {s t : AkaState} {log : List (Nat × PendingAuthEvent)} {id : Nat}
    {thread : AkaThread} {op : AkaOp} {environment : AkaEnvironment} {answer : op.Answer}
    {out : List PendingAuthEvent} (h : Coordinated s log) (hlinked : thread.Linked s log id)
    (hallows : thread.Allows op) (hserve : s.serve op environment = some (t, answer, out)) :
    thread.Served s t log id op answer out := by
  obtain ⟨call, progress⟩ := thread
  cases op with
  | environment op =>
      cases hserve
      exact .of_quiet h rfl hlinked.relies hlinked.caused
  | hss op =>
      cases hserve
      exact .of_quiet h rfl hlinked.relies hlinked.caused
  | pendingAuths op =>
      obtain ⟨⟨auths, answer⟩, hauths, heq⟩ := Option.map_eq_some_iff.mp hserve
      cases heq
      cases op with
      | hasPending callId impi =>
          cases hauths
          exact .of_quiet h.purge rfl hlinked.relies hlinked.caused
      | begin key =>
          obtain ⟨rfl, -⟩ := hallows
          exact serves_begin h hlinked hauths
      | complete key result =>
          obtain ⟨promise, rfl⟩ := hallows
          exact serves_complete h hlinked hauths
      | setValue promise result =>
          obtain ⟨key, rfl⟩ := hallows
          exact serves_setValue h hlinked hauths
      | get promise =>
          obtain ⟨key, rfl⟩ := hallows
          exact serves_get h hlinked hauths
      | findPending callId impi =>
          cases hallows
          exact serves_findPending h hlinked hauths
      | consume key pending =>
          cases hallows
          exact serves_consume h hlinked hauths

variable [Md5] (domain : Bytes)

def akaDiscipline : Discipline AkaState akaOps AkaThread AkaResult PendingAuthEvent where
  contract := AkaThread.contract
  assumes _ _ := True
  shared := Coordinated
  linked := AkaThread.Linked
  result := AkaThread.Ends domain

theorem akaDiscipline_sound : (akaDiscipline domain).Sound (ImsAkaAuthProvider.service domain) where
  track _ _ _ := rfl
  begins call :=
    match call with
    | .canHandleAuthorization request =>
        ImsAkaAuthProvider.canHandleAuthorization_meets domain request
    | .createChallenge request => ImsAkaAuthProvider.createChallenge_meets domain request
    | .verifyAuthorization request => ImsAkaAuthProvider.verifyAuthorization_meets domain request
  fresh s log id call _ hnumbered := ⟨trivial, eventsOf_eq_nil hnumbered⟩
  serves s log id thread op environment t answer out h hlinked hallows hserve _ := by
    obtain ⟨hshared, hown, hothers⟩ := AkaThread.serves h hlinked hallows hserve
    exact ⟨hshared, trivial, hown, hothers⟩
  background s log elapsed t h hbackground := by
    cases hbackground
    refine ⟨h.elapse elapsed, fun id thread hlinked => ⟨?_, hlinked.caused⟩⟩
    have hrelies := hlinked.relies
    generalize thread.progress = progress at hrelies ⊢
    cases progress <;> exact hrelies

end

end SimIms.SCscf
