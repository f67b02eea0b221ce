import SimIms.Sip.ConnectionMarks

/-!
# Open connections

No open connection is forgotten unless another one has been accepted in its place, or a sender has
failed on it: it is in the table, or a task is about to close it. So a stop closes everything but
these, and what is accepted after it.
-/

namespace SimIms.Sip

open Cxx Lib

/-- The connection has been replaced, or a sender has failed on it. -/
def Lost (log : List (Nat × TcpEvent)) (connection : Nat) : Prop :=
  ∃ id, (id, .displaced connection) ∈ log ∨ (id, .dropped connection) ∈ log

theorem Lost.append {log : List (Nat × TcpEvent)} {connection : Nat} (h : Lost log connection)
    (out : List (Nat × TcpEvent)) : Lost (log ++ out) connection := by
  obtain ⟨id, h⟩ := h
  exact ⟨id, h.imp (List.mem_append_left _) (List.mem_append_left _)⟩

section

variable [MakeAddress] {s t : TcpState} {log : List (Nat × TcpEvent)} {id : Nat}
    {thread : TcpThread}
variable {op : TcpOp} {environment : TcpEnvironment} {answer : TcpAnswer op} {out : List TcpEvent}
variable {connection : Nat} {key : Bytes}

omit [MakeAddress] in
/-- A new connection is in the table. -/
theorem TcpState.Effect.new (h : s.Effect op t) (hopen : t.isOpen s.nextConnection = true) :
    s.isOpen s.nextConnection = true ∨ ∃ key, t.table.find key = some s.nextConnection := by
  cases h with
  | kept table connections next =>
      rw [TcpState.isOpen, connections] at hopen
      exact .inl hopen
  | reading other reading =>
      have hsame : (s.modify other ({ · with reading })).isOpen s.nextConnection =
          s.isOpen s.nextConnection :=
        congrArg (Option.getD · false) (map_find_modify (fun _ => by rfl) other s.nextConnection)
      exact .inl (hsame ▸ hopen)
  | closed other =>
      rw [isOpen_close, Bool.and_eq_true] at hopen
      exact .inl hopen.1
  | unregistered other =>
      rw [TcpState.isOpen, (s.connections_unregister other).1] at hopen
      exact .inl hopen
  | registered | inserted => exact .inr ⟨_, Table.find_insert_self _ _ _⟩
  | drained => exact .inl hopen

/-- What a thread has to close it keeps until it is closed. -/
theorem TcpThread.closing_kept (hallows : thread.Allows op) (hclosing : connection ∈ thread.closing)
    (answer : TcpAnswer op) :
    connection ∈ (thread.track op answer).closing ∨ op = .close connection := by
  cases op with
  | close other =>
      by_cases heq : connection = other
      · exact .inr (heq ▸ rfl)
      · exact .inl (List.mem_filter.mpr ⟨hclosing, decide_eq_true heq⟩)
  | received other => simp [hallows.2] at hclosing
  | drain => simp [hallows.2] at hclosing
  | claim | register | write =>
      simp only [track]
      split <;> exact .inl hclosing
  | isStopped | connect | release | doRead | unregister | openAcceptor | doAccept |
    accepted | insert |
    beginStop | stopRunning | closeAcceptor => exact .inl hclosing

/-- What leaves the table is closed, is lost or is taken over. -/
theorem TcpThread.Linked.leaves (hlinked : thread.Linked s log id) (hallows : thread.Allows op)
    (hserve : s.serve op environment = some (t, answer, out))
    (hfind : s.table.find key = some connection) (hopen : s.isOpen connection = true) :
    (∃ key, t.table.find key = some connection) ∨ Lost (log ++ out.map (id, ·)) connection ∨
      connection ∈ (thread.track op answer).closing := by
  cases TcpState.serve_effect hserve with
  | kept table connections next => exact .inl ⟨key, table ▸ hfind⟩
  | reading | closed => exact .inl ⟨key, hfind⟩
  | unregistered other =>
      by_cases heq : connection = other
      · subst heq
        obtain ⟨hgiven, hfailed⟩ | hclosing := hallows
        · obtain hclosed | hdropped := hlinked.failed hfailed connection hgiven
          · rw [hopen] at hclosed
            cases hclosed
          · exact .inr (.inl (Lost.append ⟨id, .inr (mem_eventsOf.mp hdropped)⟩ _))
        · exact .inr (.inr hclosing)
      · refine .inl ⟨key, ?_⟩
        cases hremote : s.remoteOf other with
        | none => exact (TcpState.unregister_of_none hremote).symm ▸ hfind
        | some remote =>
            exact (TcpState.find_unregister hremote key connection).mpr ⟨hfind, fun h => heq h.2⟩
  | registered running free =>
      refine .inl ⟨key, ?_⟩
      rw [TcpState.find_add, if_neg]
      · exact hfind
      · rintro rfl
        cases hfind.symm.trans free
  | inserted remote =>
      by_cases heq : key = endpointKey remote
      · subst heq
        cases hserve
        rw [hfind]
        refine .inr (.inl ⟨id, .inl ?_⟩)
        simp
      · refine .inl ⟨key, ?_⟩
        rw [TcpState.find_add, if_neg heq]
        exact hfind
  | drained =>
      cases hserve
      exact .inr (.inr (Table.mem_values_of_find hfind))

end

section

variable [MakeAddress] {as : List (ThreadAction TcpEnvironment TcpTask Empty)} {s t : TcpThreads}
variable {log out : List (Nat × TcpEvent)} {a : ThreadAction TcpEnvironment TcpTask Empty}

/-- Open connections are in the table, are lost, or are about to be closed. -/
def TcpThreads.Accounted (s : TcpThreads) (log : List (Nat × TcpEvent)) : Prop :=
  ∀ connection, s.shared.isOpen connection = true →
    (∃ key, s.shared.table.find key = some connection) ∨ Lost log connection ∨
      ∃ id thread, s.threads.find id = some thread ∧ connection ∈ thread.history.closing

theorem TcpThreads.Accounted.step (h : s.Accounted log) (hinv : s.Inv tcpDiscipline log)
    (hstep : (threadsMachine TcpTransport.service).step s a = some (t, out)) :
    t.Accounted (log ++ out) := by
  intro connection hopen
  cases a with
  | background event => exact event.elim
  | start task =>
      cases hstep
      obtain htable | hlost | ⟨id, thread, hfind, hclosing⟩ := h connection hopen
      · exact .inl htable
      · exact .inr (.inl (hlost.append []))
      · have hne : id ≠ s.nextThread := Nat.ne_of_lt ((hinv.started id).mpr ⟨thread, hfind⟩)
        exact .inr (.inr ⟨id, thread, (Table.find_insert_of_ne _ _ hne).trans hfind, hclosing⟩)
  | run runner environment =>
      obtain ⟨history, op, next, shared, answer, events, hoperation, hserve, rfl, rfl⟩ :=
        Threads.runThread_eq_some hstep
      have hallows : history.Allows op := hinv.allows hoperation
      have hlinked : history.Linked s.shared log runner := hinv.linked_operation hoperation
      have heffect := TcpState.serve_effect hserve
      have hself := Table.find_insert_self s.threads runner
        (⟨history.track op answer, next answer⟩ : Thread tcpOps Exception TcpThread TcpResult)
      have hold : s.shared.isOpen connection = true ∨
          ∃ key, shared.table.find key = some connection := by
        by_cases hnew : connection = s.shared.nextConnection
        · subst hnew
          exact heffect.new hopen
        · exact .inl ((heffect.old hnew).2.2.1 hopen)
      obtain hold | htable := hold
      · obtain ⟨key, hfind⟩ | hlost | ⟨id, thread, hfind, hclosing⟩ := h connection hold
        · obtain htable | hlost | hclosing := hlinked.leaves hallows hserve hfind hold
          · exact .inl htable
          · exact .inr (.inl hlost)
          · exact .inr (.inr ⟨runner, _, hself, hclosing⟩)
        · exact .inr (.inl (hlost.append _))
        · by_cases heq : id = runner
          · subst heq
            rw [Threads.operation_eq_some hoperation] at hfind
            cases hfind
            obtain hclosing | rfl := TcpThread.closing_kept hallows hclosing answer
            · exact .inr (.inr ⟨id, _, hself, hclosing⟩)
            · cases hserve
              simp at hopen
          · exact .inr (.inr ⟨id, thread, (Table.find_insert_of_ne _ _ heq).trans hfind, hclosing⟩)
      · exact .inl htable

theorem TcpThreads.accounted_exec
    (hrun : (threadsMachine TcpTransport.service).exec (.init .init) as = some (s, log)) :
    s.Accounted log := by
  have hboth : s.Inv tcpDiscipline log ∧ s.Accounted log := by
    refine Machine.exec_invariant_log
      (I := fun (s : TcpThreads) log => s.Inv tcpDiscipline log ∧ s.Accounted log) ?_ ?_ hrun
    · intro s a t out log h hstep
      exact ⟨h.1.next tcpDiscipline_sound (fun _ _ => trivial) hstep, h.2.step h.1 hstep⟩
    · refine ⟨.init TcpState.wired_init, fun connection hopen => ?_⟩
      cases hopen
  exact hboth.2

/-- A thread that has something to close has not ended. -/
theorem exists_operation_of_closing (hinv : s.Inv tcpDiscipline log) {id : Nat}
    {thread : Thread tcpOps Exception TcpThread TcpResult} (hfind : s.threads.find id = some thread)
    {connection : Nat} (hclosing : connection ∈ thread.history.closing) :
    ∃ history op next, s.operation id = some (history, ⟨op, next⟩) ∧
      connection ∈ history.closing := by
  obtain ⟨history, program⟩ := thread
  have hmeets := hinv.meets id _ hfind
  cases program with
  | pure result =>
      have hends : history.Ends result := hmeets
      have hclosing : connection ∈ history.closing := hclosing
      rw [hends.2.1] at hclosing
      cases hclosing
  | throw e => exact (hmeets : False).elim
  | call op next =>
      refine ⟨history, op, next, ?_, hclosing⟩
      rw [Threads.operation, hfind]

/-- An open connection is in the table, or has been replaced or failed on, or a thread that is on
its way is going to close it. -/
theorem open_connections_accounted
    (hrun : (threadsMachine TcpTransport.service).exec (.init .init) as = some (s, log))
    {connection : Nat} (hopen : s.shared.isOpen connection = true) :
    (∃ key, s.shared.table.find key = some connection) ∨ Lost log connection ∨
      ∃ id history op next, s.operation id = some (history, ⟨op, next⟩) ∧
        connection ∈ history.closing := by
  obtain htable | hlost | ⟨id, thread, hfind, hclosing⟩ :=
    TcpThreads.accounted_exec hrun connection hopen
  · exact .inl htable
  · exact .inr (.inl hlost)
  · exact .inr (.inr ⟨id, exists_operation_of_closing (tcpDiscipline_exec hrun) hfind hclosing⟩)

/-! ## After a stop -/

/-- Once the table has been cleared by a stop, only what is accepted later gets into it. -/
structure TcpState.Halted (s : TcpState) : Prop where
  stopped : s.drained = true → s.stopped = true
  late : s.drained = true → ∀ key connection, s.table.find key = some connection →
    s.lateOf connection = some true

omit [MakeAddress] in
theorem TcpState.drained_serve {s t : TcpState} {op : TcpOp} {environment : TcpEnvironment}
    {answer : TcpAnswer op} {out : List TcpEvent}
    (hserve : s.serve op environment = some (t, answer, out)) :
    op = .drain ∧ t.table = .empty ∨ t.drained = s.drained := by
  cases op with
  | drain =>
      cases hserve
      exact .inl ⟨rfl, rfl⟩
  | claim key =>
      obtain ⟨⟨u, found⟩, hclaim, heq⟩ := Option.map_eq_some_iff.mp hserve
      cases heq
      obtain ⟨-, rfl, -⟩ | ⟨_, -, rfl, -⟩ | ⟨-, -, -, rfl⟩ := claim_eq_some hclaim
      all_goals exact .inr rfl
  | register key remote =>
      cases hserve
      obtain ⟨heq, -⟩ | ⟨_, heq, -⟩ | ⟨heq, -⟩ := s.register_cases key remote
      all_goals
        rw [heq]
        exact .inr rfl
  | unregister connection =>
      cases hserve
      rw [unregister]
      repeat' split
      all_goals exact .inr rfl
  | doRead | write | received | openAcceptor | doAccept | accepted =>
      rw [serve] at hserve
      repeat' split at hserve
      all_goals cases hserve <;> exact .inr rfl
  | isStopped | connect | release | close | insert | beginStop | stopRunning | closeAcceptor =>
      cases hserve
      exact .inr rfl

theorem TcpState.Halted.serve {s t : TcpState} (h : s.Halted) (hwired : s.Wired) {op : TcpOp}
    {environment : TcpEnvironment} {answer : TcpAnswer op} {out : List TcpEvent}
    (hserve : s.serve op environment = some (t, answer, out))
    (hstays : s.stopped = true → t.stopped = true) (hdrains : op = .drain → s.stopped = true) :
    t.Halted := by
  obtain ⟨hop, hempty⟩ | hsame := drained_serve hserve
  · refine ⟨fun _ => hstays (hdrains hop), fun _ key connection hfind => ?_⟩
    rw [hempty] at hfind
    cases hfind
  · refine ⟨fun hdrained => hstays (h.stopped (hsame ▸ hdrained)), ?_⟩
    intro hdrained key connection hfind
    have hdrained : s.drained = true := hsame ▸ hdrained
    have heffect := serve_effect hserve
    obtain hfind | ⟨-, -, remote, -, ⟨-, hrunning⟩ | ⟨-, hlate⟩⟩ := heffect.find hfind
    · obtain ⟨remote, hremote⟩ := hwired.remote_of_find hfind
      exact (heffect.old (hwired.ne_next hremote)).2.1.trans (h.late hdrained key connection hfind)
    · rw [h.stopped hdrained] at hrunning
      cases hrunning
    · rw [hlate, hdrained]

theorem TcpThreads.halted_exec
    (hrun : (threadsMachine TcpTransport.service).exec (.init .init) as = some (s, log))
    (hstays : (threadsMachine TcpTransport.service).Along (fun s _ t _ => StaysStopped s t)
      (.init .init) as) : s.shared.Halted := by
  have hall : s.Inv tcpDiscipline ([] ++ log) ∧ s.Exclusive ∧ s.shared.Halted := by
    refine Machine.exec_preserves_log (I := fun (s : TcpThreads) log =>
      s.Inv tcpDiscipline log ∧ s.Exclusive ∧ s.shared.Halted) ?_ ?_ hstays hrun
    · intro s a t out log h hstep hstays
      refine ⟨h.1.next tcpDiscipline_sound (fun _ _ => trivial) hstep,
        h.2.1.step h.1 hstep hstays, ?_⟩
      cases a with
      | background event => exact event.elim
      | start task =>
          cases hstep
          exact h.2.2
      | run id environment =>
          obtain ⟨history, op, next, shared, answer, events, hoperation, hserve, -, rfl⟩ :=
            Threads.runThread_eq_some hstep
          refine h.2.2.serve h.1.shared hserve hstays ?_
          rintro rfl
          have hallows : history.Allows .drain := h.1.allows hoperation
          exact h.2.1.stopping id _ (Threads.operation_eq_some hoperation) hallows.1
    · refine ⟨.init TcpState.wired_init, .init, ⟨?_, ?_⟩⟩
      · intro hdrained
        cases hdrained
      · intro hdrained
        cases hdrained
  exact hall.2.2

/-- A stop that has cleared the table leaves nothing open but what is accepted afterwards, and what
has been replaced in the table or has failed a sender, once the tasks on their way have closed what
they have taken over. -/
theorem stopped_transport_closes
    (hrun : (threadsMachine TcpTransport.service).exec (.init .init) as = some (s, log))
    (hstays : (threadsMachine TcpTransport.service).Along (fun s _ t _ => StaysStopped s t)
      (.init .init) as) (hdrained : s.shared.drained = true) {connection : Nat}
    (hopen : s.shared.isOpen connection = true) :
    s.shared.lateOf connection = some true ∨ Lost log connection ∨
      ∃ id history op next, s.operation id = some (history, ⟨op, next⟩) ∧
        connection ∈ history.closing := by
  obtain ⟨key, hfind⟩ | hlost | ⟨id, thread, hfind, hclosing⟩ :=
    TcpThreads.accounted_exec hrun connection hopen
  · exact .inl ((TcpThreads.halted_exec hrun hstays).late hdrained key connection hfind)
  · exact .inr (.inl hlost)
  · exact .inr (.inr ⟨id, exists_operation_of_closing (tcpDiscipline_exec hrun) hfind hclosing⟩)

omit [MakeAddress] in
/-- The connection of two senders is in the table. -/
theorem open_connections_accounted_shared : ∃ (s : TcpThreads) (log : List (Nat × TcpEvent)),
    (threadsMachine (@TcpTransport.service plainAddresses)).exec (.init .init) twoSends =
      some (s, log) ∧ s.shared.isOpen 0 = true ∧
    ((∃ key, s.shared.table.find key = some 0) ∨ Lost log 0 ∨
      ∃ id history op next, s.operation id = some (history, ⟨op, next⟩) ∧ 0 ∈ history.closing) := by
  have hrun : ∃ (s : TcpThreads) (log : List (Nat × TcpEvent)),
      (threadsMachine (@TcpTransport.service plainAddresses)).exec (.init .init) twoSends =
        some (s, log) ∧ s.shared.isOpen 0 = true := ⟨_, _, by rfl, by rfl⟩
  obtain ⟨s, log, hrun, hopen⟩ := hrun
  exact ⟨s, log, hrun, hopen, @open_connections_accounted plainAddresses twoSends s
    log hrun 0 hopen⟩

/-- A stop, and then the handler of a connection that has been accepted before. -/
def lateAccept : List (ThreadAction TcpEnvironment TcpTask Empty) :=
  [.start .start, .run 0 {}, .run 0 {}, .start .stop, .run 1 {}, .run 1 {}, .run 1 {}, .run 1 {},
    .start .onAccept, .run 2 { accepted := some proxy }, .run 2 {}, .run 2 {}, .run 2 {}]

omit [MakeAddress] in
/-- The connection stays open. -/
theorem stopped_transport_closes_late : ∃ (s : TcpThreads) (log : List (Nat × TcpEvent)),
    (threadsMachine (@TcpTransport.service plainAddresses)).exec (.init .init) lateAccept =
      some (s, log) ∧ s.shared.isOpen 0 = true ∧
    (s.shared.lateOf 0 = some true ∨ Lost log 0 ∨
      ∃ id history op next, s.operation id = some (history, ⟨op, next⟩) ∧ 0 ∈ history.closing) := by
  have hrun : ∃ (s : TcpThreads) (log : List (Nat × TcpEvent)),
      (threadsMachine (@TcpTransport.service plainAddresses)).exec (.init .init) lateAccept =
        some (s, log) ∧ s.shared.drained = true ∧ s.shared.isOpen 0 = true :=
    ⟨_, _, by rfl, by rfl, by rfl⟩
  obtain ⟨s, log, hrun, hdrained, hopen⟩ := hrun
  refine ⟨s, log, hrun, hopen,
    @stopped_transport_closes plainAddresses lateAccept s log hrun ?_ hdrained 0 hopen⟩
  exact ⟨id, id, id, id, fun _ => rfl, id, id, id, id, id, id, id, id, trivial⟩

end

end SimIms.Sip
