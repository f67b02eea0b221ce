import SimIms.Lib.Marks
import SimIms.Sip.SharedConnections

/-!
# The marks of connecting senders

While a sender connects, its key is marked, and the other senders for the key wait. Whatever the
network does, the sender comes to take its mark back, so nobody waits for ever. As long as a stopped
transport is not started again, at most one sender connects for a key.
-/

namespace SimIms.Sip

open Cxx Lib

variable [MakeAddress] {s t : TcpState} {thread : TcpThread} {op : TcpOp} {key : Bytes}
variable {environment : TcpEnvironment} {answer : TcpAnswer op} {out : List TcpEvent}

omit [MakeAddress] in
/-- What an operation does to the marks: a sender marks its key where nobody has, or takes its mark
back, or all marks are cleared. -/
theorem TcpState.marks_serve (hserve : s.serve op environment = some (t, answer, out))
    (thread : TcpThread) :
    (t.connecting = s.connecting ∧ (thread.track op answer).marked = thread.marked) ∨
    (∃ key, op = .claim key ∧ s.stopped = false ∧ s.connecting.contains key = false ∧
      t.connecting = s.connecting.insert key () ∧ (thread.track op answer).marked = some key) ∨
    (∃ key, (op = .release key ∨ ∃ remote, op = .register key remote) ∧
      t.connecting = s.connecting.erase key ∧ (thread.track op answer).marked = none) ∨
    (op = .drain ∧ t.connecting = .empty ∧ (thread.track op answer).marked = thread.marked) := by
  cases op with
  | claim key =>
      obtain ⟨⟨u, found⟩, hclaim, heq⟩ := Option.map_eq_some_iff.mp hserve
      cases heq
      obtain ⟨rfl, rfl, -⟩ | ⟨_, rfl, rfl, -⟩ | ⟨rfl, hrunning, hfree, rfl⟩ := claim_eq_some hclaim
      · exact .inl ⟨rfl, rfl⟩
      · exact .inl ⟨rfl, rfl⟩
      · exact .inr (.inl ⟨key, rfl, hrunning, hfree, rfl, rfl⟩)
  | release key =>
      cases hserve
      exact .inr (.inr (.inl ⟨key, .inl rfl, rfl, rfl⟩))
  | register key remote =>
      cases hserve
      refine .inr (.inr (.inl ⟨key, .inr ⟨remote, rfl⟩, ?_⟩))
      obtain ⟨heq, -⟩ | ⟨_, heq, -⟩ | ⟨heq, -⟩ := s.register_cases key remote
      all_goals
        rw [heq]
        exact ⟨rfl, rfl⟩
  | drain =>
      cases hserve
      exact .inr (.inr (.inr ⟨rfl, rfl, rfl⟩))
  | unregister connection =>
      cases hserve
      refine .inl ⟨?_, rfl⟩
      rw [unregister]
      repeat' split
      all_goals rfl
  | write connection payload =>
      obtain ⟨rfl, -⟩ := serve_write hserve
      refine .inl ⟨rfl, ?_⟩
      rw [TcpThread.track]
      split <;> rfl
  | received connection =>
      rw [serve] at hserve
      repeat' split at hserve
      all_goals cases hserve
      refine .inl ⟨rfl, ?_⟩
      rw [TcpThread.track]
      split <;> rfl
  | doRead | openAcceptor | doAccept | accepted =>
      rw [serve] at hserve
      repeat' split at hserve
      all_goals cases hserve <;> exact .inl ⟨rfl, rfl⟩
  | isStopped | connect | close | insert | beginStop | stopRunning | closeAcceptor =>
      cases hserve
      exact .inl ⟨rfl, rfl⟩

def connectionMarks : Marking TcpState TcpThread Bytes where
  marked := TcpThread.marked
  held s key := s.connecting.contains key = true

/-- The operations of a sender that has a mark never wait. -/
theorem TcpThread.exists_serve (hallows : thread.Allows op) (hmarked : thread.marked = some key)
    (s : TcpState) (environment : TcpEnvironment) :
    ∃ t answer out, s.serve op environment = some (t, answer, out) := by
  cases op with
  | claim other => simp [hallows.1] at hmarked
  | write connection payload => simp [hallows.1] at hmarked
  | accepted =>
      have hnone : thread.marked = none := hallows
      simp [hnone] at hmarked
  | received connection => simp [hallows.1] at hmarked
  | doRead connection =>
      rw [TcpState.serve]
      split <;> exact ⟨_, _, _, rfl⟩
  | openAcceptor =>
      rw [TcpState.serve]
      split <;> exact ⟨_, _, _, rfl⟩
  | doAccept =>
      rw [TcpState.serve]
      split <;> exact ⟨_, _, _, rfl⟩
  | isStopped | connect | release | register | unregister | close | insert |
    beginStop | stopRunning |
    closeAcceptor | drain => exact ⟨_, _, _, rfl⟩

theorem connectionMarks_lawful : connectionMarks.Lawful tcpDiscipline TcpTransport.service where
  kept s thread op environment t answer out key hallows hserve hheld := by
    show (thread.track op answer).marked = some key ∨
      s.connecting.contains key = true ∧ thread.marked ≠ some key
    have hheld : t.connecting.contains key = true := hheld
    obtain ⟨hsame, hmarked⟩ | ⟨other, rfl, -, -, hinsert, hmarked⟩ | ⟨other, hop, herase, -⟩ |
      ⟨-, hempty, -⟩ := TcpState.marks_serve hserve thread
    · rw [hsame] at hheld
      rw [hmarked]
      exact (Classical.em _).imp_right fun hother => ⟨hheld, hother⟩
    · rw [hinsert, Table.contains_insert] at hheld
      obtain rfl | hheld := hheld
      · exact .inl hmarked
      · exact .inr ⟨hheld, by simp [hallows.1]⟩
    · have hown : thread.marked = some other := by
        obtain rfl | ⟨remote, rfl⟩ := hop
        · exact hallows
        · exact hallows.1
      rw [herase, Table.contains_erase] at hheld
      refine .inr ⟨hheld.2, ?_⟩
      rw [hown]
      exact fun heq => hheld.1 (Option.some.inj heq).symm
    · rw [hempty] at hheld
      cases hheld
  background s event := event.elim
  served s thread op key environment hallows hmarked :=
    TcpThread.exists_serve hallows hmarked s environment
  ends thread result hends := hends.1
  throws thread hthrows := hthrows.elim

omit [MakeAddress] in
theorem TcpState.claim_eq_none (h : s.claim key = none) :
    s.connecting.contains key = true := by
  rw [claim] at h
  split at h
  · cases h
  · split at h
    · assumption
    · split at h <;> cases h

omit [MakeAddress] in
theorem TcpThread.stopping_track {s t : TcpState}
    (hserve : s.serve op environment = some (t, answer, out))
    (hstopping : (thread.track op answer).stopping = true) :
    thread.stopping = true ∨ t.stopped = true := by
  cases op with
  | beginStop =>
      cases hserve
      exact .inr rfl
  | claim | register | write | received =>
      simp only [track] at hstopping
      split at hstopping <;> exact .inl hstopping
  | isStopped | connect | release | doRead | unregister | close | openAcceptor |
    doAccept | accepted |
    insert | stopRunning | closeAcceptor | drain => exact .inl hstopping

section

variable {as : List (ThreadAction TcpEnvironment TcpTask Empty)} {s t : TcpThreads}
variable {log out : List (Nat × TcpEvent)} {id : Nat} {history : TcpThread}

/-- Where a sender waits for a mark, another one has it, and whatever the network does in the steps
of this other one, the first can go on after some of them. -/
theorem waiting_sender_goes_on
    (hrun : (threadsMachine TcpTransport.service).exec (.init .init) as = some (s, log))
    {next : Claimed → TcpTransport.Method TcpResult}
    (hoperation : s.operation id = some (history, ⟨.claim key, next⟩))
    (hwaits : s.shared.claim key = none) :
    ∃ holder thread, holder ≠ id ∧ s.threads.find holder = some thread ∧
      thread.history.marked = some key ∧ ∀ environments : Nat → TcpEnvironment, ∃ n t out,
        (threadsMachine TcpTransport.service).exec s
          ((List.range n).map fun i => .run holder (environments i)) = some (t, out) ∧
        ∀ environment, ∃ u events,
          (threadsMachine TcpTransport.service).step t (.run id environment) =
            some (u, events) := by
  have hinv := tcpDiscipline_exec hrun
  have hmarks : s.Marked connectionMarks := .exec tcpDiscipline_sound (fun _ _ => trivial)
    connectionMarks_lawful TcpState.wired_init (fun _ hheld => by cases hheld) hrun
  obtain ⟨holder, thread, hfind, hmarked⟩ := hmarks key (TcpState.claim_eq_none hwaits)
  have hne : holder ≠ id := by
    rintro rfl
    have hallows : history.Allows (.claim key) := hinv.allows hoperation
    rw [Threads.operation_eq_some hoperation] at hfind
    cases hfind
    cases hallows.1.symm.trans hmarked
  refine ⟨holder, thread, hne, hfind, hmarked, fun environments => ?_⟩
  obtain ⟨n, t, out, hexec, hreleased, hothers⟩ := hinv.exists_release tcpDiscipline_sound
    (fun _ _ => trivial) connectionMarks_lawful hfind hmarked environments
  refine ⟨n, t, out, hexec, fun environment => ?_⟩
  have hserved : ∃ served, t.shared.claim key = some served := by
    rw [← Option.ne_none_iff_exists']
    exact fun hnone => hreleased (TcpState.claim_eq_none hnone)
  obtain ⟨⟨u, found⟩, hclaim⟩ := hserved
  have hfound := (hothers id hne.symm).trans (Threads.operation_eq_some hoperation)
  have hserve : t.shared.serve (.claim key) environment = some (u, found, []) := by
    rw [TcpState.serve, hclaim]
    rfl
  exact ⟨_, _, Threads.runThread_of_serve hfound hserve⟩

/-- Two senders for the same key, of which the first has marked it. -/
def markedSends : List (ThreadAction TcpEnvironment TcpTask Empty) :=
  [.start (.send (.ok (bytes "A")) proxy), .start (.send (.ok (bytes "B")) proxy),
    .run 0 {}, .run 0 {}, .run 1 {}]

omit [MakeAddress] in
/-- The second one waits for the first. -/
theorem waiting_sender_goes_on_second : ∃ (s : TcpThreads) (log : List (Nat × TcpEvent))
    (holder : Nat), (threadsMachine (@TcpTransport.service plainAddresses)).exec (.init .init)
      markedSends = some (s, log) ∧ s.shared.claim (endpointKey proxy) = none ∧ holder ≠ 1 ∧
    ∀ environments : Nat → TcpEnvironment, ∃ n t out,
      (threadsMachine (@TcpTransport.service plainAddresses)).exec s
        ((List.range n).map fun i => .run holder (environments i)) = some (t, out) ∧
      ∀ environment, ∃ u events, (threadsMachine (@TcpTransport.service plainAddresses)).step t
        (.run 1 environment) = some (u, events) := by
  have hrun : ∃ (s : TcpThreads) (log : List (Nat × TcpEvent)) (history : TcpThread)
      (next : Claimed → TcpTransport.Method TcpResult),
      (threadsMachine (@TcpTransport.service plainAddresses)).exec (.init .init) markedSends =
        some (s, log) ∧ s.operation 1 = some (history, ⟨.claim (endpointKey proxy), next⟩) ∧
      s.shared.claim (endpointKey proxy) = none := ⟨_, _, _, _, by rfl, by rfl, by rfl⟩
  obtain ⟨s, log, history, next, hrun, hoperation, hwaits⟩ := hrun
  obtain ⟨holder, thread, hne, -, -, hgoes⟩ :=
    @waiting_sender_goes_on plainAddresses _ markedSends s log 1 history hrun next hoperation hwaits
  exact ⟨s, log, holder, hrun, hwaits, hne, hgoes⟩

/-- Once the transport has been stopped it stays so. -/
def StaysStopped (s t : TcpThreads) : Prop := s.shared.stopped = true → t.shared.stopped = true

/-- As long as the transport is not started again. -/
structure TcpThreads.Exclusive (s : TcpThreads) : Prop where
  stopping : ∀ id thread, s.threads.find id = some thread → thread.history.stopping = true →
    s.shared.stopped = true
  held : ∀ id thread key, s.threads.find id = some thread → thread.history.marked = some key →
    s.shared.stopped = true ∨ s.shared.connecting.contains key = true
  single : ∀ id other thread thread' key, s.threads.find id = some thread →
    s.threads.find other = some thread' → thread.history.marked = some key →
    thread'.history.marked = some key → id = other

namespace TcpThreads.Exclusive

theorem start (h : s.Exclusive) (task : TcpTask) :
    TcpThreads.Exclusive { s with
      threads := s.threads.insert s.nextThread ⟨{ task }, TcpTransport.begin task⟩
      nextThread := s.nextThread + 1 } := by
  constructor
  · intro id thread hfind hstopping
    rw [Table.find_insert] at hfind
    split at hfind
    · cases hfind
      cases hstopping
    · exact h.stopping id thread hfind hstopping
  · intro id thread key hfind hmarked
    rw [Table.find_insert] at hfind
    split at hfind
    · cases hfind
      cases hmarked
    · exact h.held id thread key hfind hmarked
  · intro id other thread thread' key hfind hfind' hmarked hmarked'
    rw [Table.find_insert] at hfind hfind'
    split at hfind
    · cases hfind
      cases hmarked
    · split at hfind'
      · cases hfind'
        cases hmarked'
      · exact h.single id other thread thread' key hfind hfind' hmarked hmarked'

/-- A thread that goes on gets no mark that another one has, and takes none away from it. -/
theorem run (h : s.Exclusive) (hinv : s.Inv tcpDiscipline log) {op : TcpOp}
    {next : TcpAnswer op → TcpTransport.Method TcpResult} {shared : TcpState}
    {answer : TcpAnswer op}
    {events : List TcpEvent} (hoperation : s.operation id = some (history, ⟨op, next⟩))
    (hserve : s.shared.serve op environment = some (shared, answer, events))
    (hstays : s.shared.stopped = true → shared.stopped = true) :
    TcpThreads.Exclusive { s with
      shared
      threads := s.threads.insert id ⟨history.track op answer, next answer⟩ } := by
  have hfound := Threads.operation_eq_some hoperation
  have hallows : history.Allows op := hinv.allows hoperation
  have hmarks := TcpState.marks_serve hserve history
  -- The runner has the mark that it had, or one that nobody has.
  have hown : ∀ key, (history.track op answer).marked = some key →
      history.marked = some key ∨ shared.connecting.contains key = true ∧ ∀ other thread,
        s.threads.find other = some thread → thread.history.marked ≠ some key := by
    intro key hmarked
    obtain ⟨-, hsame⟩ | ⟨key', rfl, hrunning, hfree, hinsert, hnew⟩ | ⟨_, -, -, hnone⟩ |
      ⟨-, -, hsame⟩ := hmarks
    · exact .inl (hsame.symm.trans hmarked)
    · cases hnew.symm.trans hmarked
      refine .inr ⟨hinsert ▸ (Table.contains_insert _ _ _ _).mpr (.inl rfl), ?_⟩
      intro other thread hfind hother
      obtain hstopped | hheld := h.held other thread key hfind hother
      · simp [hrunning] at hstopped
      · simp [hfree] at hheld
    · cases hnone.symm.trans hmarked
    · exact .inl (hsame.symm.trans hmarked)
  have hheld : ∀ key, (∀ thread, s.threads.find id = some thread →
    thread.history.marked = some key →
      (history.track op answer).marked = some key) → s.shared.connecting.contains key = true →
        shared.stopped = true ∨ shared.connecting.contains key = true := by
    intro key hkept hcontains
    obtain ⟨hsame, -⟩ | ⟨key', -, -, -, hinsert, -⟩ | ⟨key', hop, herase, hnone⟩ | ⟨rfl, -, -⟩ :=
      hmarks
    · exact .inr (hsame ▸ hcontains)
    · exact .inr (hinsert ▸ (Table.contains_insert _ _ _ _).mpr (.inr hcontains))
    · have hmine : history.marked = some key' := by
        obtain rfl | ⟨remote, rfl⟩ := hop
        · exact hallows
        · exact hallows.1
      refine .inr (herase ▸ (Table.contains_erase _ _ _).mpr ⟨?_, hcontains⟩)
      rintro rfl
      cases hnone.symm.trans (hkept _ hfound hmine)
    · exact .inl (hstays (h.stopping id _ hfound hallows.1))
  constructor
  · intro other thread hfind hstopping
    rw [Table.find_insert] at hfind
    split at hfind
    · cases hfind
      obtain hstopping | hstopped := TcpThread.stopping_track hserve hstopping
      · exact hstays (h.stopping id _ hfound hstopping)
      · exact hstopped
    · exact hstays (h.stopping other thread hfind hstopping)
  · intro other thread key hfind hmarked
    rw [Table.find_insert] at hfind
    split at hfind
    · cases hfind
      obtain hsame | ⟨hcontains, -⟩ := hown key hmarked
      · obtain hstopped | hcontains := h.held id _ key hfound hsame
        · exact .inl (hstays hstopped)
        · exact hheld key (fun _ _ _ => hmarked) hcontains
      · exact .inr hcontains
    · rename_i hne
      obtain hstopped | hcontains := h.held other thread key hfind hmarked
      · exact .inl (hstays hstopped)
      · refine hheld key (fun thread' hfind' hmine => ?_) hcontains
        exact (hne (h.single other id thread thread' key hfind hfind' hmarked hmine)).elim
  · intro first second thread thread' key hfind hfind' hmarked hmarked'
    rw [Table.find_insert] at hfind hfind'
    split at hfind
    · rename_i heq
      cases hfind
      split at hfind'
      · rename_i heq'
        exact heq.trans heq'.symm
      · obtain hsame | hnobody := hown key hmarked
        · rw [heq]
          exact h.single id second _ thread' key hfound hfind' hsame hmarked'
        · exact (hnobody.2 second thread' hfind' hmarked').elim
    · split at hfind'
      · rename_i heq'
        cases hfind'
        obtain hsame | hnobody := hown key hmarked'
        · rw [heq']
          exact h.single first id thread _ key hfind hfound hmarked hsame
        · exact (hnobody.2 first thread hfind hmarked).elim
      · exact h.single first second thread thread' key hfind hfind' hmarked hmarked'

theorem step (h : s.Exclusive) (hinv : s.Inv tcpDiscipline log)
    {a : ThreadAction TcpEnvironment TcpTask Empty}
    (hstep : (threadsMachine TcpTransport.service).step s a = some (t, out))
    (hstays : StaysStopped s t) : t.Exclusive := by
  cases a with
  | start task =>
      cases hstep
      exact h.start task
  | run id environment =>
      obtain ⟨history, op, next, shared, answer, events, hoperation, hserve, -, rfl⟩ :=
        Threads.runThread_eq_some hstep
      exact h.run hinv hoperation hserve hstays
  | background event => exact event.elim

omit [MakeAddress] in
theorem init : TcpThreads.Exclusive (.init .init) := by
  constructor
  · intro id thread hfind
    cases hfind
  · intro id thread key hfind
    cases hfind
  · intro id other thread thread' key hfind
    cases hfind

end TcpThreads.Exclusive

theorem TcpThreads.exclusive_exec
    (hrun : (threadsMachine TcpTransport.service).exec (.init .init) as = some (s, log))
    (hstays : (threadsMachine TcpTransport.service).Along (fun s _ t _ => StaysStopped s t)
      (.init .init) as) : s.Exclusive := by
  have hboth : s.Inv tcpDiscipline ([] ++ log) ∧ s.Exclusive := by
    refine Machine.exec_preserves_log
      (I := fun (s : TcpThreads) log => s.Inv tcpDiscipline log ∧ s.Exclusive) ?_
      ⟨.init TcpState.wired_init, .init⟩ hstays hrun
    intro s a t out log h hstep hstays
    exact ⟨h.1.next tcpDiscipline_sound (fun _ _ => trivial) hstep, h.2.step h.1 hstep hstays⟩
  exact hboth.2

/-- At most one sender at a time is connecting for a key, as long as the transport is not started
again after a stop. -/
theorem one_sender_connects
    (hrun : (threadsMachine TcpTransport.service).exec (.init .init) as = some (s, log))
    (hstays : (threadsMachine TcpTransport.service).Along (fun s _ t _ => StaysStopped s t)
      (.init .init) as) {first second : Nat}
    {thread thread' : Thread tcpOps Exception TcpThread TcpResult}
    (hfirst : s.threads.find first = some thread) (hsecond : s.threads.find second = some thread')
    (hmarked : thread.history.marked = some key) (hmarked' : thread'.history.marked = some key) :
    first = second :=
  (TcpThreads.exclusive_exec hrun hstays).single first second thread thread' key hfirst
    hsecond hmarked
    hmarked'

omit [MakeAddress] in
theorem one_sender_connects_second : ∃ (s : TcpThreads) (log : List (Nat × TcpEvent)),
    (threadsMachine (@TcpTransport.service plainAddresses)).exec (.init .init) markedSends =
      some (s, log) ∧
    (∃ thread, s.threads.find 0 = some thread ∧
      thread.history.marked = some (endpointKey proxy)) ∧
    ∀ other thread, s.threads.find other = some thread →
      thread.history.marked = some (endpointKey proxy) → other = 0 := by
  have hrun : ∃ (s : TcpThreads) (log : List (Nat × TcpEvent))
      (thread : Thread tcpOps Exception TcpThread TcpResult),
      (threadsMachine (@TcpTransport.service plainAddresses)).exec (.init .init) markedSends =
        some (s, log) ∧ s.threads.find 0 = some thread ∧
      thread.history.marked = some (endpointKey proxy) := ⟨_, _, _, by rfl, by rfl, by rfl⟩
  obtain ⟨s, log, thread, hrun, hfind, hmarked⟩ := hrun
  refine ⟨s, log, hrun, ⟨thread, hfind, hmarked⟩, fun other thread' hfind' hmarked' => ?_⟩
  exact @one_sender_connects plainAddresses _ markedSends s log hrun
    ⟨id, id, id, id, id, trivial⟩ other
    0 thread' thread hfind' hfind hmarked' hmarked

end

end SimIms.Sip
