import SimIms.Sip.SharedConnections

/-!
# Closed connections in the table

The entry of a connection that is closed is looked for under the endpoint that it goes to. A
destination that is written otherwise keeps its entry, and every later send to it fails on the
closed connection, until the transport stops.
-/

namespace SimIms.Sip

open Cxx Lib

section

variable [MakeAddress] {as bs : List (ThreadAction TcpEnvironment TcpTask Empty)} {s t : TcpThreads}
variable {log out : List (Nat × TcpEvent)} {connection : Nat} {key : Bytes}

/-- A closed connection is found only where the destination is not written as the library writes
it. -/
theorem closed_under_other_spelling
    (hrun : (threadsMachine TcpTransport.service).exec (.init .init) as = some (s, log))
    {dest : Endpoint} (hfind : s.shared.table.find (endpointKey dest) = some connection)
    (hclosed : s.shared.isOpen connection = false) :
    ∃ address, MakeAddress.canonical dest.address = .ok address ∧ address ≠ dest.address := by
  have hwired : s.shared.Wired := (tcpDiscipline_exec hrun).shared
  obtain ⟨remote, other, hremote, hkey, hreaches⟩ := hwired.entries _ connection hfind
  obtain ⟨hport, hsame | hcanonical⟩ := hreaches.of_key hkey
  · have hopen := hwired.live connection remote hremote (by rwa [endpointKey, hsame, hport])
    simp [hclosed] at hopen
  · refine ⟨remote.address, hcanonical, fun heq => ?_⟩
    have hopen := hwired.isOpen_of_canonical (heq ▸ hcanonical) hfind
    simp [hclosed] at hopen

/-- The digits of the addresses of version 6 are written in lower case. -/
@[reducible] def lowercaseAddresses : MakeAddress := ⟨fun address => .ok (lowercase address)⟩

def spelled : Endpoint := { address := bytes "2001:DB8::1", port := 5060, transport := bytes "tcp" }

/-- A message is sent, and then the connection is closed by the other side. -/
def closedByPeer : List (ThreadAction TcpEnvironment TcpTask Empty) :=
  [.start .start, .run 0 {}, .run 0 {}, .start (.send (.ok (bytes "A")) spelled)] ++
    (List.replicate 6 (.run 1 {}) ++ [.start (.onRead 0),
      .run 2 { failure := some { code := .sipTransportError, message := bytes "eof" } }, .run 2 {},
      .run 2 {}])

omit [MakeAddress] in
theorem exec_closedByPeer : ∃ (s : TcpThreads) (log : List (Nat × TcpEvent)),
    (threadsMachine (@TcpTransport.service lowercaseAddresses)).exec (.init .init) closedByPeer =
      some (s, log) ∧ s.shared.table.find (endpointKey spelled) = some 0 ∧
      s.shared.isOpen 0 = false := ⟨_, _, by rfl, by rfl, by rfl⟩

omit [MakeAddress] in
theorem closed_under_other_spelling_peer : ∃ (s : TcpThreads) (log : List (Nat × TcpEvent)),
    (threadsMachine (@TcpTransport.service lowercaseAddresses)).exec (.init .init) closedByPeer =
      some (s, log) ∧ s.shared.isOpen 0 = false ∧ ∃ address,
        lowercaseAddresses.canonical spelled.address = .ok address ∧ address ≠ spelled.address := by
  obtain ⟨s, log, hrun, hfind, hclosed⟩ := exec_closedByPeer
  exact ⟨s, log, hrun, hclosed,
    @closed_under_other_spelling lowercaseAddresses closedByPeer s log 0 hrun spelled hfind hclosed⟩

/-- The operation neither clears the table nor puts an accepted connection under the key. -/
def TcpOp.Leaves (key : Bytes) : TcpOp → Prop
  | .drain => False
  | .insert remote => endpointKey remote ≠ key
  | _ => True

def LeavesEntry (key : Bytes) (s : TcpThreads) : ThreadAction TcpEnvironment TcpTask Empty → Prop
  | .run id _ => (s.operation id).elim True fun operation => TcpOp.Leaves key operation.2.1
  | _ => True

/-- There is a closed connection under the key, and a sender that has started since then has not got
beyond it. -/
structure Stale (key : Bytes) (connection first : Nat) (s : TcpThreads) : Prop where
  entry : s.shared.table.find key = some connection
  closed : s.shared.isOpen connection = false
  numbered : first ≤ s.nextThread
  senders : ∀ id thread data dest, first ≤ id → s.threads.find id = some thread →
    thread.history.task = .send data dest → endpointKey dest = key →
      thread.history.sent = false ∧ ∀ other, thread.history.given = some other → other = connection

/-- Nobody removes the entry: it is not looked for here. -/
theorem TcpState.Wired.keeps_entry {s t : TcpState} (h : s.Wired) {op : TcpOp}
    (heffect : s.Effect op t)
    (hentry : s.table.find key = some connection) (hclosed : s.isOpen connection = false)
    (hleaves : op.Leaves key) :
    t.table.find key = some connection := by
  cases heffect with
  | kept table connections next => exact table ▸ hentry
  | reading | closed => exact hentry
  | unregistered other =>
      cases hremote : s.remoteOf other with
      | none => exact (unregister_of_none hremote).symm ▸ hentry
      | some remote =>
          refine (find_unregister hremote key connection).mpr ⟨hentry, ?_⟩
          rintro ⟨rfl, rfl⟩
          have hopen := h.live connection remote hremote hentry
          simp [hclosed] at hopen
  | registered running free =>
      rw [find_add, if_neg]
      · exact hentry
      · rintro rfl
        cases hentry.symm.trans free
  | inserted remote =>
      rw [find_add, if_neg]
      · exact hentry
      · exact Ne.symm hleaves
  | drained => exact (hleaves : False).elim

/-- A sender that has been given nothing but the closed connection sends nothing, and is given
nothing else. -/
theorem TcpThread.keeps_failing {s t : TcpState} {thread : TcpThread} {op : TcpOp}
    {environment : TcpEnvironment} {answer : TcpAnswer op} {events : List TcpEvent}
    (hallows : thread.Allows op) (hserve : s.serve op environment = some (t, answer, events))
    (hclosed : s.isOpen connection = false) (hentry : t.table.find key = some connection)
    {data : Result Bytes} {dest : Endpoint} (htask : thread.task = .send data dest)
    (hdest : endpointKey dest = key) (hsent : thread.sent = false)
    (hgiven : ∀ other, thread.given = some other → other = connection) :
    (thread.track op answer).sent = false ∧
      ∀ other, (thread.track op answer).given = some other → other = connection := by
  constructor
  · by_cases hwrite : ∃ other payload, op = .write other payload
    · obtain ⟨other, payload, rfl⟩ := hwrite
      obtain rfl := hgiven other hallows.2.2.1
      obtain ⟨-, ⟨_, -, -, hopen, -⟩ | ⟨hne, -⟩⟩ := TcpState.serve_write hserve
      · simp [hclosed] at hopen
      · have htrack : thread.track (.write other payload) answer = { thread with failed := true } :=
          if_neg hne
        rw [htrack]
        exact hsent
    · simp only [not_exists] at hwrite
      rw [(sent_track hwrite answer).1]
      exact hsent
  · intro other hother
    obtain hother | ⟨-, data', dest', htask', hfind⟩ := given_track hallows hserve hother
    · exact hgiven other hother
    · cases htask.symm.trans htask'
      rw [hdest, hentry] at hfind
      exact (Option.some.inj hfind).symm

theorem Stale.step {first : Nat} (h : Stale key connection first s) (hinv : s.Inv tcpDiscipline log)
    {a : ThreadAction TcpEnvironment TcpTask Empty}
    (hstep : (threadsMachine TcpTransport.service).step s a = some (t, out))
    (hleaves : LeavesEntry key s a) : Stale key connection first t := by
  cases a with
  | background event => exact event.elim
  | start task =>
      cases hstep
      refine ⟨h.entry, h.closed, Nat.le_succ_of_le h.numbered, ?_⟩
      intro id thread data dest hfirst hfind htask hdest
      rw [Table.find_insert] at hfind
      split at hfind
      · cases hfind
        exact ⟨rfl, fun other hgiven => by cases hgiven⟩
      · exact h.senders id thread data dest hfirst hfind htask hdest
  | run runner environment =>
      obtain ⟨history, op, next, shared, answer, events, hoperation, hserve, -, rfl⟩ :=
        Threads.runThread_eq_some hstep
      have hfound := Threads.operation_eq_some hoperation
      have hallows : history.Allows op := hinv.allows hoperation
      have hwired : s.shared.Wired := hinv.shared
      have heffect := TcpState.serve_effect hserve
      have hleaves : TcpOp.Leaves key op := by
        rw [LeavesEntry, hoperation] at hleaves
        exact hleaves
      have hentry := hwired.keeps_entry heffect h.entry h.closed hleaves
      obtain ⟨remote, hremote⟩ := hwired.remote_of_find h.entry
      refine ⟨hentry, heffect.stays_closed (hwired.ne_next hremote) h.closed, h.numbered, ?_⟩
      intro id thread data dest hfirst hfind htask hdest
      rw [Table.find_insert] at hfind
      split at hfind
      · rename_i heq
        subst heq
        cases hfind
        have htask : history.task = .send data dest :=
          (TcpThread.task_track history op answer).symm.trans htask
        obtain ⟨hsent, hgiven⟩ := h.senders id _ data dest hfirst hfound htask hdest
        exact TcpThread.keeps_failing hallows hserve h.closed hentry htask hdest hsent hgiven
      · exact h.senders id thread data dest hfirst hfind htask hdest

/-- Until the table is cleared or a connection is accepted under the key, a closed connection stays
there, and every send that starts afterwards for this key fails. -/
theorem stale_connection_kept
    (hrun : (threadsMachine TcpTransport.service).exec (.init .init) as = some (s, log))
    (hfind : s.shared.table.find key = some connection)
    (hclosed : s.shared.isOpen connection = false)
    (hmore : (threadsMachine TcpTransport.service).exec s bs = some (t, out))
    (hleaves : (threadsMachine TcpTransport.service).Along
      (fun s a _ _ => LeavesEntry key s a) s bs) :
    t.shared.table.find key = some connection ∧ t.shared.isOpen connection = false ∧
      ∀ id history data dest result, s.nextThread ≤ id →
        t.outcome id = some (history, .sent result) → history.task = .send data dest →
        endpointKey dest = key → ∃ error, result = .error error := by
  have hinv := tcpDiscipline_exec hrun
  have hstart : Stale key connection s.nextThread s := by
    refine ⟨hfind, hclosed, Nat.le_refl _, ?_⟩
    intro id thread data dest hfirst hfound
    exact (Nat.not_lt_of_le hfirst ((hinv.started id).mpr ⟨thread, hfound⟩)).elim
  have hboth : t.Inv tcpDiscipline (log ++ out) ∧ Stale key connection s.nextThread t :=
    Machine.exec_preserves_log
      (I := fun (t : TcpThreads) log => t.Inv tcpDiscipline log ∧
        Stale key connection s.nextThread t)
      (fun _ _ _ _ _ h hstep hleaves => ⟨h.1.next tcpDiscipline_sound (fun _ _ => trivial) hstep,
        h.2.step h.1 hstep hleaves⟩) ⟨hinv, hstart⟩ hleaves hmore
  refine ⟨hboth.2.entry, hboth.2.closed, ?_⟩
  intro id history data dest result hlater houtcome htask hdest
  have hends : history.Ends (.sent result) := hboth.1.result houtcome
  obtain ⟨hsent, -⟩ := hboth.2.senders id _ data dest hlater
    (Threads.outcome_eq_some houtcome) htask
    hdest
  have hsent : history.sent = false := hsent
  cases result with
  | error error => exact ⟨error, rfl⟩
  | ok =>
      have hsuccess : history.sent = true := hends.2.2.mpr rfl
      cases hsent.symm.trans hsuccess

/-- The next message for the same destination. -/
def nextSend : List (ThreadAction TcpEnvironment TcpTask Empty) :=
  .start (.send (.ok (bytes "B")) spelled) :: List.replicate 4 (.run 3 {})

omit [MakeAddress] in
/-- It is not sent. -/
theorem stale_connection_kept_peer : ∃ (t : TcpThreads) (out : List (Nat × TcpEvent))
    (history : TcpThread) (result : Result Unit) (error : ErrorInfo),
    (threadsMachine (@TcpTransport.service lowercaseAddresses)).exec (.init .init)
      (closedByPeer ++ nextSend) = some (t, out) ∧
    t.shared.table.find (endpointKey spelled) = some 0 ∧
    t.outcome 3 = some (history, .sent result) ∧ result = .error error := by
  have hrun : ∃ (s : TcpThreads) (log : List (Nat × TcpEvent)) (t : TcpThreads)
      (out : List (Nat × TcpEvent)) (history : TcpThread) (result : Result Unit),
      (threadsMachine (@TcpTransport.service lowercaseAddresses)).exec (.init .init) closedByPeer =
        some (s, log) ∧ s.shared.table.find (endpointKey spelled) = some 0 ∧
      s.shared.isOpen 0 = false ∧
      (threadsMachine (@TcpTransport.service lowercaseAddresses)).exec s nextSend = some (t, out) ∧
      (threadsMachine (@TcpTransport.service lowercaseAddresses)).Along
        (fun s a _ _ => LeavesEntry (endpointKey spelled) s a) s nextSend ∧
      s.nextThread = 3 ∧ t.outcome 3 = some (history, .sent result) ∧
      history.task = .send (.ok (bytes "B")) spelled := by
    refine ⟨_, _, _, _, _, _, by rfl, by rfl, by rfl, by rfl, ?_, by rfl, by rfl, by rfl⟩
    exact ⟨trivial, trivial, trivial, trivial, trivial, trivial⟩
  obtain ⟨s, log, t, out, history, result, hrun, hfind, hclosed, hmore, hleaves, hnext,
      houtcome, htask⟩ :=
    hrun
  obtain ⟨hentry, -, hfails⟩ := @stale_connection_kept lowercaseAddresses closedByPeer
    nextSend s t log
    out 0 (endpointKey spelled) hrun hfind hclosed hmore hleaves
  obtain ⟨error, herror⟩ :=
    hfails 3 history _ spelled result (Nat.le_of_eq hnext) houtcome htask rfl
  exact ⟨t, log ++ out, history, result, error, Machine.exec_append hrun hmore, hentry,
    houtcome, herror⟩

end

end SimIms.Sip
