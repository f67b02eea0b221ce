import SimIms.Sip.TcpTasks

/-!
# Connections shared by their senders

What is found under the key of a destination is a connection to this destination, whoever has put it
there, and whatever happens in between. Where the key is also that of the endpoint that the
connection goes to, it is open.
-/

namespace SimIms.Sip

open Cxx Lib

variable [MakeAddress] {s t : TcpState} {log : List (Nat × TcpEvent)} {id : Nat}
    {thread : TcpThread}
variable {op : TcpOp} {connection : Nat} {key : Bytes}

/-- The entries of the table are for the endpoints that their connections go to. A connection that
is closed has lost the entry under its own endpoint before. -/
structure TcpState.Wired (s : TcpState) : Prop where
  entries : ∀ key connection, s.table.find key = some connection → ∃ remote dest,
    s.remoteOf connection = some remote ∧ endpointKey dest = key ∧ Reaches remote dest
  numbered : ∀ connection remote, s.remoteOf connection = some remote →
    connection < s.nextConnection
  live : ∀ connection remote, s.remoteOf connection = some remote →
    s.table.find (endpointKey remote) = some connection → s.isOpen connection = true

def TcpEvent.write : TcpEvent → Option (Endpoint × Bytes)
  | .wrote remote payload => some (remote, payload)
  | .cut _ _ | .displaced _ | .dropped _ => none

/-- What a thread has written, and to which endpoints. -/
def writesOf (log : List (Nat × TcpEvent)) (id : Nat) : List (Endpoint × Bytes) :=
  (eventsOf log id).filterMap TcpEvent.write

/-- A sender has been given a connection to its destination, has found it closed or dropped it where
it has failed, and has written its message once to such a connection where it has been sent. What it
has transferred before it failed is the beginning of its message. -/
structure TcpThread.Linked (s : TcpState) (log : List (Nat × TcpEvent)) (id : Nat)
    (thread : TcpThread) : Prop where
  given : ∀ connection, thread.given = some connection → ∃ data dest remote,
    thread.task = .send data dest ∧ s.remoteOf connection = some remote ∧ Reaches remote dest
  failed : thread.failed = true → ∀ connection, thread.given = some connection →
    s.isOpen connection = false ∨ .dropped connection ∈ eventsOf log id
  closing : ∀ connection ∈ thread.closing, ∃ remote, s.remoteOf connection = some remote
  cleared : ∀ connection ∈ thread.cleared, ∃ remote, s.remoteOf connection = some remote ∧
    s.table.find (endpointKey remote) ≠ some connection
  silent : thread.sent = false → writesOf log id = []
  wrote : thread.sent = true → ∃ remote payload dest, writesOf log id = [(remote, payload)] ∧
    thread.task = .send (.ok payload) dest ∧ Reaches remote dest
  cut : ∀ remote transferred, .cut remote transferred ∈ eventsOf log id → ∃ payload dest,
    thread.task = .send (.ok payload) dest ∧ Reaches remote dest ∧ transferred <+: payload

namespace TcpState.Wired

theorem ne_next (h : s.Wired) {remote : Endpoint} (hremote : s.remoteOf connection = some remote) :
    connection ≠ s.nextConnection := Nat.ne_of_lt (h.numbered connection remote hremote)

theorem remote_of_find (h : s.Wired) (hfind : s.table.find key = some connection) :
    ∃ remote, s.remoteOf connection = some remote := by
  obtain ⟨remote, -, hremote, -⟩ := h.entries key connection hfind
  exact ⟨remote, hremote⟩

/-- Connections keep their endpoints. -/
theorem keeps (h : s.Wired) (heffect : s.Effect op t) {remote : Endpoint}
    (hremote : s.remoteOf connection = some remote) : t.remoteOf connection = some remote :=
  (heffect.old (h.ne_next hremote)).1.trans hremote

/-- An entry that a connection did not have it does not get. -/
theorem keeps_cleared (h : s.Wired) (heffect : s.Effect op t) {remote : Endpoint}
    (hremote : s.remoteOf connection = some remote)
    (hcleared : s.table.find key ≠ some connection) : t.table.find key ≠ some connection := by
  intro hfind
  obtain hfind | ⟨hnew, -⟩ := heffect.find hfind
  · exact hcleared hfind
  · exact h.ne_next hremote hnew

/-- What a task may do keeps the table wired: what it closes has lost its entry. -/
theorem step (h : s.Wired) (hlinked : thread.Linked s log id) (hallows : thread.Allows op)
    (heffect : s.Effect op t) : t.Wired := by
  obtain ⟨hnext, hfresh⟩ := heffect.next
  constructor
  · intro key connection hfind
    obtain hfind | ⟨-, -, remote, hremote, hkey⟩ := heffect.find hfind
    · obtain ⟨remote, dest, hremote, hkey, hreaches⟩ := h.entries key connection hfind
      exact ⟨remote, dest, h.keeps heffect hremote, hkey, hreaches⟩
    · cases hkey with
      | inl hop =>
          obtain ⟨rfl, -⟩ := hop
          obtain ⟨-, -, data, dest, -, hdest, hreaches⟩ := hallows
          exact ⟨remote, dest, hremote, hdest.symm, hreaches⟩
      | inr hkey => exact ⟨remote, remote, hremote, hkey.1.symm, rfl, .inl rfl⟩
  · intro connection remote hremote
    by_cases heq : connection = s.nextConnection
    · subst heq
      obtain hsame | hlt := hfresh
      · exact (h.ne_next (hsame.symm.trans hremote) rfl).elim
      · exact hlt
    · have hold := (heffect.old heq).1.symm.trans hremote
      exact Nat.lt_of_lt_of_le (h.numbered connection remote hold) hnext
  · intro connection remote hremote hfind
    obtain hfind | ⟨-, hopen, -⟩ := heffect.find hfind
    · obtain ⟨remote', hremote'⟩ := h.remote_of_find hfind
      have hold := heffect.old (h.ne_next hremote')
      have hremote := hold.1.symm.trans hremote
      obtain hopen | rfl := hold.2.2.2 (h.live connection remote hremote hfind)
      · exact hopen
      · obtain ⟨other, hother, hcleared⟩ := hlinked.cleared connection hallows
        cases hremote.symm.trans hother
        exact (hcleared hfind).elim
    · exact hopen

/-- A destination that is written as the library writes it finds an open connection. -/
theorem isOpen_of_canonical (h : s.Wired) {dest : Endpoint}
    (hcanonical : MakeAddress.canonical dest.address = .ok dest.address)
    (hfind : s.table.find (endpointKey dest) = some connection) : s.isOpen connection = true := by
  obtain ⟨remote, other, hremote, hkey, hreaches⟩ := h.entries _ connection hfind
  obtain ⟨hport, haddress⟩ := hreaches.of_key hkey
  have hsame : remote.address = dest.address := by
    obtain haddress | haddress := haddress
    · exact haddress
    · rw [hcanonical] at haddress
      exact (Except.ok.inj haddress).symm
  apply h.live connection remote hremote
  rwa [endpointKey, hsame, hport]

end TcpState.Wired

namespace TcpThread

omit [MakeAddress] in
theorem task_track (thread : TcpThread) (op : TcpOp) (answer : TcpAnswer op) :
    (thread.track op answer).task = thread.task := by
  cases op <;> simp only [track] <;> split <;> rfl

section

variable {environment : TcpEnvironment} {answer : TcpAnswer op} {out : List TcpEvent}

/-- What a sender is given is the entry under its key. -/
theorem given_track (hallows : thread.Allows op)
    (hserve : s.serve op environment = some (t, answer, out))
    (hgiven : (thread.track op answer).given = some connection) :
    thread.given = some connection ∨ thread.failed = false ∧ ∃ data dest,
      thread.task = .send data dest ∧ t.table.find (endpointKey dest) = some connection := by
  cases op with
  | claim key =>
      obtain ⟨-, hfailed, data, dest, htask, rfl⟩ := hallows
      obtain ⟨⟨u, found⟩, hclaim, heq⟩ := Option.map_eq_some_iff.mp hserve
      cases heq
      obtain ⟨rfl, -, -⟩ | ⟨_, rfl, rfl, -, hfind⟩ | ⟨rfl, -, -, -⟩ := TcpState.claim_eq_some hclaim
      · exact .inl hgiven
      · cases hgiven
        exact .inr ⟨hfailed, data, dest, htask, hfind⟩
      · exact .inl hgiven
  | register key remote =>
      obtain ⟨-, hfailed, data, dest, htask, rfl, -⟩ := hallows
      cases hserve
      obtain ⟨heq, -⟩ | ⟨_, heq, -, hfind⟩ | ⟨heq, -, -⟩ :=
        s.register_cases (endpointKey dest) remote
      · rw [heq] at hgiven
        exact .inl hgiven
      · rw [heq] at hgiven ⊢
        cases hgiven
        exact .inr ⟨hfailed, data, dest, htask, hfind⟩
      · rw [heq] at hgiven ⊢
        cases hgiven
        exact .inr ⟨hfailed, data, dest, htask, Table.find_insert_self _ _ _⟩
  | write connection payload =>
      have hsame : (thread.track (.write connection payload) answer).given = thread.given := by
        rw [track]
        split <;> rfl
      exact .inl (hsame ▸ hgiven)
  | received connection =>
      have hsame : (thread.track (.received connection) answer).given = thread.given := by
        rw [track]
        split <;> rfl
      exact .inl (hsame ▸ hgiven)
  | isStopped | connect | release | doRead | unregister | close | openAcceptor |
    doAccept | accepted |
    insert | beginStop | stopRunning | closeAcceptor | drain => exact .inl hgiven

omit [MakeAddress] in
/-- Only a write sends or fails. -/
theorem sent_track (hwrite : ∀ connection payload, op ≠ .write connection payload)
    (answer : TcpAnswer op) :
    (thread.track op answer).sent = thread.sent ∧
      (thread.track op answer).failed = thread.failed := by
  cases op with
  | write connection payload => exact (hwrite connection payload rfl).elim
  | claim | register | received =>
      simp only [track]
      split <;> exact ⟨rfl, rfl⟩
  | isStopped | connect | release | doRead | unregister | close | openAcceptor |
    doAccept | accepted |
    insert | beginStop | stopRunning | closeAcceptor | drain => exact ⟨rfl, rfl⟩

/-- What is taken over is in the table, or fails to be read. -/
theorem closing_track (hwired : s.Wired) (hserve : s.serve op environment = some (t, answer, out))
    (hclosing : connection ∈ (thread.track op answer).closing) :
    connection ∈ thread.closing ∨ ∃ remote, s.remoteOf connection = some remote := by
  cases op with
  | received other =>
      rw [TcpState.serve] at hserve
      split at hserve
      · cases hserve
      · rename_i found hfound
        rw [track] at hclosing
        split at hclosing
        · exact .inl hclosing
        · cases List.mem_singleton.mp hclosing
          refine .inr ⟨found.remote, ?_⟩
          rw [TcpState.remoteOf, hfound]
          rfl
  | drain =>
      cases hserve
      obtain ⟨key, hfind⟩ := Table.exists_find_of_mem_values hclosing
      exact .inr (hwired.remote_of_find hfind)
  | close other => exact .inl (List.mem_filter.mp hclosing).1
  | claim | register | write =>
      simp only [track] at hclosing
      split at hclosing <;> exact .inl hclosing
  | isStopped | connect | release | doRead | unregister | openAcceptor | doAccept | accepted |
    insert | beginStop | stopRunning | closeAcceptor => exact .inl hclosing

omit [MakeAddress] in
theorem cleared_track (hserve : s.serve op environment = some (t, answer, out))
    (hcleared : connection ∈ (thread.track op answer).cleared) :
    connection ∈ thread.cleared ∨ (op = .unregister connection ∧ t = s.unregister connection) ∨
      t.table = .empty ∧ ∃ key, s.table.find key = some connection := by
  cases op with
  | unregister other =>
      cases hserve
      cases List.mem_singleton.mp hcleared
      exact .inr (.inl ⟨rfl, rfl⟩)
  | drain =>
      cases hserve
      exact .inr (.inr ⟨rfl, Table.exists_find_of_mem_values hcleared⟩)
  | claim | register | write | received =>
      simp only [track] at hcleared
      split at hcleared <;> exact .inl hcleared
  | isStopped | connect | release | doRead | close | openAcceptor | doAccept | accepted |
    insert | beginStop | stopRunning | closeAcceptor => exact .inl hcleared

omit [MakeAddress] in
/-- Apart from a write, only an accepted connection is an event. -/
theorem displaced_of_serve (hserve : s.serve op environment = some (t, answer, out))
    (hwrite : ∀ connection payload, op ≠ .write connection payload) :
    out = [] ∨ ∃ displaced, out = [.displaced displaced] := by
  cases op with
  | write connection payload => exact (hwrite connection payload rfl).elim
  | insert added =>
      cases hserve
      split
      · exact .inl rfl
      · exact .inr ⟨_, rfl⟩
  | claim key =>
      obtain ⟨result, -, heq⟩ := Option.map_eq_some_iff.mp hserve
      cases heq
      exact .inl rfl
  | doRead | received | openAcceptor | doAccept | accepted =>
      rw [TcpState.serve] at hserve
      repeat' split at hserve
      all_goals cases hserve <;> exact .inl rfl
  | isStopped | connect | release | register | unregister | close | beginStop | stopRunning |
    closeAcceptor | drain =>
      cases hserve
      exact .inl rfl

omit [MakeAddress] in
theorem writes_serve (hserve : s.serve op environment = some (t, answer, out))
    (hwrite : ∀ connection payload, op ≠ .write connection payload) :
    out.filterMap TcpEvent.write = [] := by
  obtain rfl | ⟨displaced, rfl⟩ := displaced_of_serve hserve hwrite
  · rfl
  · rfl

omit [MakeAddress] in
theorem writesOf_append_self :
    writesOf (log ++ out.map (id, ·)) id = writesOf log id ++ out.filterMap TcpEvent.write := by
  rw [writesOf, eventsOf_append_self, List.filterMap_append, writesOf]

namespace Linked

/-- What another thread does breaks no link. -/
theorem other (h : thread.Linked s log id) (hwired : s.Wired) (heffect : s.Effect op t)
    {writer : Nat} (hne : id ≠ writer) : thread.Linked t (log ++ out.map (writer, ·)) id := by
  have hevents : eventsOf (log ++ out.map (writer, ·)) id = eventsOf log id :=
    eventsOf_append_of_ne hne
  constructor
  · intro connection hgiven
    obtain ⟨data, dest, remote, htask, hremote, hreaches⟩ := h.given connection hgiven
    exact ⟨data, dest, remote, htask, hwired.keeps heffect hremote, hreaches⟩
  · intro hfailed connection hgiven
    rw [hevents]
    obtain ⟨-, -, remote, -, hremote, -⟩ := h.given connection hgiven
    refine (h.failed hfailed connection hgiven).imp_left fun hclosed => ?_
    exact heffect.stays_closed (hwired.ne_next hremote) hclosed
  · intro connection hclosing
    obtain ⟨remote, hremote⟩ := h.closing connection hclosing
    exact ⟨remote, hwired.keeps heffect hremote⟩
  · intro connection hcleared
    obtain ⟨remote, hremote, hnone⟩ := h.cleared connection hcleared
    exact ⟨remote, hwired.keeps heffect hremote, hwired.keeps_cleared heffect hremote hnone⟩
  · rw [writesOf, hevents]
    exact h.silent
  · rw [writesOf, hevents]
    exact h.wrote
  · rw [hevents]
    exact h.cut

theorem serve (h : thread.Linked s log id) (hwired : s.Wired) (hallows : thread.Allows op)
    (hserve : s.serve op environment = some (t, answer, out)) :
    (thread.track op answer).Linked t (log ++ out.map (id, ·)) id := by
  have heffect := TcpState.serve_effect hserve
  have hwired' := hwired.step h hallows heffect
  constructor
  · intro connection hgiven
    rw [task_track]
    obtain hgiven | ⟨-, data, dest, htask, hfind⟩ := given_track hallows hserve hgiven
    · obtain ⟨data, dest, remote, htask, hremote, hreaches⟩ := h.given connection hgiven
      exact ⟨data, dest, remote, htask, hwired.keeps heffect hremote, hreaches⟩
    · obtain ⟨remote, other, hremote, hkey, hreaches⟩ := hwired'.entries _ connection hfind
      exact ⟨data, dest, remote, htask, hremote, hreaches.of_key hkey⟩
  · intro hfailed connection hgiven
    rw [eventsOf_append_self, List.mem_append]
    by_cases hwrite : ∃ other payload, op = .write other payload
    · obtain ⟨other, payload, rfl⟩ := hwrite
      obtain ⟨rfl, ⟨_, rfl, -⟩ | ⟨hne, hlost⟩⟩ := TcpState.serve_write hserve
      · exact (h.failed hfailed connection hgiven).imp_right .inl
      · have htrack : thread.track (.write other payload) answer = { thread with failed := true } :=
          if_neg hne
        rw [htrack] at hgiven
        cases hgiven.symm.trans hallows.2.2.1
        obtain ⟨hclosed, -⟩ | rfl | ⟨remote, transferred, -, -, rfl⟩ := hlost
        · exact .inl hclosed
        · exact .inr (.inr (List.mem_singleton_self _))
        · exact .inr (.inr (List.mem_cons_of_mem _ (List.mem_singleton_self _)))
    · simp only [not_exists] at hwrite
      rw [(sent_track hwrite answer).2] at hfailed
      obtain hgiven | ⟨hfalse, -⟩ := given_track hallows hserve hgiven
      · obtain ⟨-, -, remote, -, hremote, -⟩ := h.given connection hgiven
        refine (h.failed hfailed connection hgiven).imp (fun hclosed => ?_) .inl
        exact heffect.stays_closed (hwired.ne_next hremote) hclosed
      · rw [hfailed] at hfalse
        cases hfalse
  · intro connection hclosing
    obtain hclosing | ⟨remote, hremote⟩ := closing_track hwired hserve hclosing
    · obtain ⟨remote, hremote⟩ := h.closing connection hclosing
      exact ⟨remote, hwired.keeps heffect hremote⟩
    · exact ⟨remote, hwired.keeps heffect hremote⟩
  · intro connection hcleared
    obtain hcleared | ⟨rfl, rfl⟩ | ⟨hempty, key, hfind⟩ := cleared_track hserve hcleared
    · obtain ⟨remote, hremote, hnone⟩ := h.cleared connection hcleared
      exact ⟨remote, hwired.keeps heffect hremote, hwired.keeps_cleared heffect hremote hnone⟩
    · obtain ⟨remote, hremote⟩ : ∃ remote, s.remoteOf connection = some remote := by
        obtain ⟨hgiven, -⟩ | hclosing := hallows
        · obtain ⟨-, -, remote, -, hremote, -⟩ := h.given connection hgiven
          exact ⟨remote, hremote⟩
        · exact h.closing connection hclosing
      refine ⟨remote, hwired.keeps heffect hremote, fun hfind => ?_⟩
      exact ((TcpState.find_unregister hremote _ _).mp hfind).2 ⟨rfl, rfl⟩
    · obtain ⟨remote, hremote⟩ := hwired.remote_of_find hfind
      refine ⟨remote, hwired.keeps heffect hremote, ?_⟩
      simp [hempty]
  · intro hsent
    rw [writesOf_append_self]
    by_cases hwrite : ∃ other payload, op = .write other payload
    · obtain ⟨other, payload, rfl⟩ := hwrite
      obtain ⟨-, ⟨_, rfl, -⟩ | ⟨-, ⟨-, rfl⟩ | rfl | ⟨_, _, -, -, rfl⟩⟩⟩ :=
        TcpState.serve_write hserve
      · cases hsent
      · simp [h.silent hallows.2.1]
      · simp [h.silent hallows.2.1, TcpEvent.write]
      · simp [h.silent hallows.2.1, TcpEvent.write]
    · simp only [not_exists] at hwrite
      rw [(sent_track hwrite answer).1] at hsent
      rw [h.silent hsent, writes_serve hserve hwrite, List.append_nil]
  · intro hsent
    rw [writesOf_append_self, task_track]
    by_cases hwrite : ∃ other payload, op = .write other payload
    · obtain ⟨other, payload, rfl⟩ := hwrite
      obtain ⟨-, hold, hgiven, dest, htask⟩ := hallows
      obtain ⟨-, ⟨remote, -, hremote, -, -, rfl⟩ | ⟨hne, -⟩⟩ := TcpState.serve_write hserve
      · obtain ⟨data, dest', _, htask', hother, hreaches⟩ := h.given other hgiven
        cases hremote.symm.trans hother
        cases htask.symm.trans htask'
        refine ⟨remote, payload, dest, ?_, htask, hreaches⟩
        simp [h.silent hold, TcpEvent.write]
      · have htrack : thread.track (.write other payload) answer = { thread with failed := true } :=
          if_neg hne
        rw [htrack] at hsent
        rw [hold] at hsent
        cases hsent
    · simp only [not_exists] at hwrite
      rw [(sent_track hwrite answer).1] at hsent
      rw [writes_serve hserve hwrite, List.append_nil]
      exact h.wrote hsent
  · intro remote transferred hmem
    rw [eventsOf_append_self, List.mem_append] at hmem
    rw [task_track]
    obtain hold | hnew := hmem
    · exact h.cut remote transferred hold
    by_cases hwrite : ∃ other payload, op = .write other payload
    · obtain ⟨other, payload, rfl⟩ := hwrite
      obtain ⟨-, -, hgiven, dest, htask⟩ := hallows
      obtain ⟨-, ⟨_, -, -, -, -, rfl⟩ | ⟨-, ⟨-, rfl⟩ | rfl |
        ⟨remote', transferred', hremote, hprefix, rfl⟩⟩⟩ := TcpState.serve_write hserve
      · cases List.mem_singleton.mp hnew
      · cases hnew
      · cases List.mem_singleton.mp hnew
      · obtain hcut | hdropped := List.mem_cons.mp hnew
        · cases hcut
          obtain ⟨data, dest', _, htask', hother, hreaches⟩ := h.given other hgiven
          cases hremote.symm.trans hother
          cases htask.symm.trans htask'
          exact ⟨payload, dest, htask, hreaches, hprefix⟩
        · cases List.mem_singleton.mp hdropped
    · simp only [not_exists] at hwrite
      obtain rfl | ⟨displaced, rfl⟩ := displaced_of_serve hserve hwrite
      · cases hnew
      · cases List.mem_singleton.mp hnew

end Linked

end

end TcpThread

/-! ## Runs -/

def tcpDiscipline : Discipline TcpState tcpOps TcpThread TcpResult TcpEvent where
  contract := TcpThread.contract
  assumes _ _ := True
  shared s _ := s.Wired
  linked := TcpThread.Linked
  result := TcpThread.Ends

theorem tcpDiscipline_sound : tcpDiscipline.Sound TcpTransport.service where
  track _ _ _ := rfl
  begins task := TcpTransport.begin_meets task
  fresh s log id task _ hnumbered := by
    constructor
    · intro connection hgiven
      cases hgiven
    · intro hfailed
      cases hfailed
    · simp [TcpTransport.service]
    · simp [TcpTransport.service]
    · simp [writesOf, eventsOf_eq_nil hnumbered]
    · intro hsent
      cases hsent
    · intro remote transferred hmem
      rw [eventsOf_eq_nil hnumbered] at hmem
      cases hmem
  serves s log id thread op environment t answer out hwired hlinked hallows hserve _ := by
    have heffect := TcpState.serve_effect hserve
    exact ⟨hwired.step hlinked hallows heffect, trivial, hlinked.serve hwired hallows hserve,
      fun other thread' hne hother => hother.other hwired heffect hne⟩
  background _ _ event := event.elim

section

variable {as : List (ThreadAction TcpEnvironment TcpTask Empty)} {s : TcpThreads}

theorem TcpState.wired_init : Wired .init := by
  constructor
  · intro key connection hfind
    cases hfind
  · intro connection remote hremote
    cases hremote
  · intro connection remote hremote
    cases hremote

theorem tcpDiscipline_exec
    (hrun : (threadsMachine TcpTransport.service).exec (.init .init) as = some (s, log)) :
    s.Inv tcpDiscipline log :=
  tcpDiscipline_sound.exec_of_forall (fun _ _ => trivial) TcpState.wired_init hrun

/-- In whatever order calls and handlers interleave: a sender that has returned success has written
its message once, to a connection that was made to its destination or accepted from it, and a sender
that has failed, or has been given nothing yet, has completed no write. What a write has transferred
before it failed is the beginning of the message, and has gone to such a connection, too. -/
theorem sends_reach_destination
    (hrun : (threadsMachine TcpTransport.service).exec (.init .init) as = some (s, log)) :
    (∀ id write, write ∈ writesOf log id → ∃ thread dest, s.threads.find id = some thread ∧
      thread.history.task = .send (.ok write.2) dest ∧ Reaches write.1 dest ∧
        writesOf log id = [write]) ∧
    (∀ id history result, s.outcome id = some (history, .sent result) →
      ((∃ write, writesOf log id = [write]) ↔ result = .ok ())) ∧
    ∀ id remote transferred, .cut remote transferred ∈ eventsOf log id →
      ∃ thread payload dest, s.threads.find id = some thread ∧
        thread.history.task = .send (.ok payload) dest ∧ Reaches remote dest ∧
          transferred <+: payload := by
  have hinv := tcpDiscipline_exec hrun
  refine ⟨?_, ?_, ?_⟩
  · intro id write hmem
    have hevents : eventsOf log id ≠ [] := by
      intro hnil
      rw [writesOf, hnil] at hmem
      cases hmem
    obtain ⟨thread, hfind⟩ := hinv.exists_of_eventsOf_ne_nil hevents
    have hlinked : thread.history.Linked s.shared log id := hinv.linked id thread hfind
    cases hsent : thread.history.sent with
    | false =>
        rw [hlinked.silent hsent] at hmem
        cases hmem
    | true =>
        obtain ⟨remote, payload, dest, hwrites, htask, hreaches⟩ := hlinked.wrote hsent
        rw [hwrites] at hmem
        cases List.mem_singleton.mp hmem
        exact ⟨thread, dest, hfind, htask, hreaches, hwrites⟩
  · intro id history result houtcome
    have hlinked : history.Linked s.shared log id := hinv.linked_outcome houtcome
    have hends : history.Ends (.sent result) := hinv.result houtcome
    have hsuccess : TcpResult.sent result = .sent (.ok ()) ↔ result = .ok () := by simp
    rw [← hsuccess, ← hends.2.2]
    constructor
    · rintro ⟨write, hwrites⟩
      by_contra hsent
      rw [hlinked.silent (Bool.eq_false_iff.mpr hsent)] at hwrites
      cases hwrites
    · intro hsent
      obtain ⟨remote, payload, -, hwrites, -⟩ := hlinked.wrote hsent
      exact ⟨(remote, payload), hwrites⟩
  · intro id remote transferred hmem
    obtain ⟨thread, hfind⟩ := hinv.exists_of_eventsOf_ne_nil (List.ne_nil_of_mem hmem)
    have hlinked : thread.history.Linked s.shared log id := hinv.linked id thread hfind
    obtain ⟨payload, dest, htask, hreaches, hprefix⟩ := hlinked.cut remote transferred hmem
    exact ⟨thread, payload, dest, hfind, htask, hreaches, hprefix⟩

/-- Numeric addresses are written as they are. -/
@[reducible] def plainAddresses : MakeAddress := ⟨.ok⟩

def proxy : Endpoint := { address := bytes "10.0.0.1", port := 5060, transport := bytes "tcp" }

/-- Two senders, one after the other. -/
def twoSends : List (ThreadAction TcpEnvironment TcpTask Empty) :=
  .start (.send (.ok (bytes "A")) proxy) :: .start (.send (.ok (bytes "B")) proxy) ::
    (List.replicate 6 (.run 0 {}) ++ List.replicate 3 (.run 1 {}))

omit [MakeAddress] in
/-- The second one writes to the connection of the first. -/
theorem sends_reach_destination_shared : ∃ s log,
    (threadsMachine (@TcpTransport.service plainAddresses)).exec (.init .init) twoSends =
      some (s, log) ∧ s.shared.nextConnection = 1 ∧ ∃ thread dest, s.threads.find 1 = some thread ∧
        thread.history.task = .send (.ok (bytes "B")) dest ∧ @Reaches plainAddresses proxy dest ∧
          writesOf log 1 = [(proxy, bytes "B")] := by
  have hrun : ∃ s log, (threadsMachine (@TcpTransport.service plainAddresses)).exec (.init .init)
      twoSends = some (s, log) ∧ s.shared.nextConnection = 1 ∧
        (proxy, bytes "B") ∈ writesOf log 1 :=
    ⟨_, _, by rfl, by rfl, by decide⟩
  obtain ⟨s, log, hrun, hnext, hmem⟩ := hrun
  obtain ⟨thread, dest, hfind, htask, hreaches, hwrites⟩ :=
    (@sends_reach_destination plainAddresses log twoSends s hrun).1 1 _ hmem
  exact ⟨s, log, hrun, hnext, thread, dest, hfind, htask, hreaches, hwrites⟩

end

end SimIms.Sip
