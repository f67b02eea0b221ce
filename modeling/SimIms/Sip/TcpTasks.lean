import SimIms.Sip.TcpTransport

/-!
# What the tasks of the TCP transport do

A key is made of an address and a port, and both can be read off it. Each task follows a contract: a
sender marks its key at most once and gives the mark back, and what is taken over is closed. What an
operation does to the table and to the connections is one of few effects.
-/

namespace SimIms.Sip

open Cxx Lib

/-! ## Keys -/

/-- A text is read off what is in front of the last colon. -/
theorem append_colon_injective {front front' back back' : Bytes} {c : UInt8} (hback : c ∉ back)
    (hback' : c ∉ back') (h : front ++ c :: back = front' ++ c :: back') :
    front = front' ∧ back = back' := by
  obtain ⟨middle, hfront, hrest⟩ | ⟨middle, hfront, hrest⟩ := List.append_eq_append_iff.mp h
  · cases middle with
    | nil => simpa [hfront] using hrest
    | cons d middle =>
        obtain ⟨rfl, rfl⟩ := List.cons_eq_cons.mp hrest
        exact (hback (List.mem_append_right _ List.mem_cons_self)).elim
  · cases middle with
    | nil => simpa [hfront, eq_comm] using hrest
    | cons d middle =>
        obtain ⟨rfl, rfl⟩ := List.cons_eq_cons.mp hrest
        exact (hback' (List.mem_append_right _ List.mem_cons_self)).elim

theorem colon_not_mem_decimal (n : Nat) : ':'.toUInt8 ∉ decimal n := by
  intro hmem
  have hdigit := isDigit_of_mem_decimal hmem
  revert hdigit
  decide

theorem endpointKey_injective {endpoint other : Endpoint}
    (h : endpointKey endpoint = endpointKey other) :
    endpoint.address = other.address ∧ endpoint.port = other.port := by
  have hsplit : endpoint.address ++ ':'.toUInt8 :: decimal endpoint.port.toNat =
      other.address ++ ':'.toUInt8 :: decimal other.port.toNat := by
    simpa [endpointKey, bytes] using h
  obtain ⟨haddress, hport⟩ := append_colon_injective (colon_not_mem_decimal _)
    (colon_not_mem_decimal _) hsplit
  refine ⟨haddress, UInt16.toNat_inj.mp ?_⟩
  rw [← digitsValue_decimal endpoint.port.toNat, hport, digitsValue_decimal]

/-! ## What a task may do -/

section

variable [MakeAddress]

/-- The connection goes to this destination: to the address as it is, or as the library writes
it. -/
def Reaches (remote dest : Endpoint) : Prop :=
  remote.port = dest.port ∧
    (remote.address = dest.address ∨ MakeAddress.canonical dest.address = .ok remote.address)

theorem Reaches.of_key {remote dest other : Endpoint} (h : Reaches remote dest)
    (hkey : endpointKey dest = endpointKey other) : Reaches remote other := by
  obtain ⟨haddress, hport⟩ := endpointKey_injective hkey
  rw [Reaches, ← haddress, ← hport]
  exact h

def TcpThread.Allows (thread : TcpThread) : TcpOp → Prop
  | .claim key => thread.marked = none ∧ thread.failed = false ∧ ∃ data dest,
      thread.task = .send data dest ∧ key = endpointKey dest
  | .release key => thread.marked = some key
  | .register key remote => thread.marked = some key ∧ thread.failed = false ∧ ∃ data dest,
      thread.task = .send data dest ∧ key = endpointKey dest ∧ Reaches remote dest
  | .write connection payload => thread.marked = none ∧ thread.sent = false ∧
      thread.given = some connection ∧ ∃ dest, thread.task = .send (.ok payload) dest
  | .unregister connection =>
      thread.given = some connection ∧ thread.failed = true ∨ connection ∈ thread.closing
  | .close connection => connection ∈ thread.cleared
  | .accepted => thread.marked = none
  | .received _ => thread.marked = none ∧ thread.closing = []
  | .drain => thread.stopping = true ∧ thread.closing = []
  | _ => True

/-- A task that has ended has neither marks nor connections to close, and success is returned for a
message that has been sent. -/
def TcpThread.Ends (thread : TcpThread) (result : TcpResult) : Prop :=
  thread.marked = none ∧ thread.closing = [] ∧ (thread.sent = true ↔ result = .sent (.ok ()))

def TcpThread.contract : Contract tcpOps TcpThread where
  Allows := TcpThread.Allows
  Expects _ _ := True
  Throws _ := False
  track := TcpThread.track

namespace TcpTransport

/-- Goes on with a connection and without a mark. -/
theorem connect_meets {data : Result Bytes} {dest : Endpoint} {Q : TcpThread → Result Nat → Prop}
    (herror : ∀ error, Q { task := .send data dest } (.error error))
    (hok : ∀ connection, Q { task := .send data dest, given := some connection } (.ok connection)) :
    (connect dest).Meets TcpThread.contract
      { task := .send data dest, marked := some (endpointKey dest) } Q := by
  rw [connect]
  cases hcanonical : MakeAddress.canonical dest.address with
  | error message =>
      simp only
      exact ⟨rfl, fun _ _ => herror _⟩
  | ok address =>
      simp only
      refine ⟨trivial, fun failure _ => ?_⟩
      cases failure with
      | some ec => exact ⟨rfl, fun _ _ => herror _⟩
      | none =>
          refine ⟨⟨rfl, rfl, data, dest, rfl, rfl, rfl, .inr hcanonical⟩, fun registered _ => ?_⟩
          cases registered with
          | stopped => exact herror _
          | other connection => exact hok connection
          | own connection => exact ⟨trivial, fun _ _ => hok connection⟩

theorem getOrCreateConnection_meets {data : Result Bytes} {dest : Endpoint}
    {Q : TcpThread → Result Nat → Prop}
    (herror : ∀ error, Q { task := .send data dest } (.error error))
    (hok : ∀ connection, Q { task := .send data dest, given := some connection } (.ok connection)) :
    (getOrCreateConnection dest).Meets TcpThread.contract { task := .send data dest } Q := by
  refine ⟨trivial, fun stopped _ => ?_⟩
  cases stopped with
  | true => exact herror _
  | false =>
      refine ⟨⟨rfl, rfl, data, dest, rfl, rfl⟩, fun answer _ => ?_⟩
      cases answer with
      | stopped => exact herror _
      | found connection => exact hok connection
      | claimed => exact connect_meets herror hok

omit [MakeAddress] in
/-- A task that ends without success for a message has sent none. -/
theorem ends_of_quiet {thread : TcpThread} {result : TcpResult} (hmarked : thread.marked = none)
    (hclosing : thread.closing = []) (hsent : thread.sent = false)
    (hresult : result ≠ .sent (.ok ())) : thread.Ends result :=
  ⟨hmarked, hclosing, by simp [hsent, hresult]⟩

theorem send_meets (data : Result Bytes) (dest : Endpoint) :
    (begin (.send data dest)).Meets TcpThread.contract { task := .send data dest }
      TcpThread.Ends := by
  change (send data dest >>= fun result => Pure.pure (TcpResult.sent result)).Meets _ _ _
  refine Program.Meets.bind (Q := fun thread result => thread.Ends (.sent result)) ?_ ?_
  swap
  · intro thread result h
    exact h
  cases data with
  | error error => exact ends_of_quiet rfl rfl rfl (by simp)
  | ok payload =>
      refine Program.Meets.bind (getOrCreateConnection_meets
        (Q := fun thread result => match result with
          | .error _ => thread = { task := .send (.ok payload) dest }
          | .ok connection =>
              thread = { task := .send (.ok payload) dest, given := some connection })
        (fun _ => rfl) fun _ => rfl) ?_
      rintro thread result hthread
      cases result with
      | error error =>
          cases hthread
          exact ends_of_quiet rfl rfl rfl (by simp)
      | ok connection =>
          cases hthread
          refine ⟨⟨rfl, rfl, rfl, dest, rfl⟩, fun written _ => ?_⟩
          cases written with
          | sent => exact ⟨rfl, rfl, iff_of_true rfl rfl⟩
          | closed => exact ⟨.inl ⟨rfl, rfl⟩, fun _ _ => ends_of_quiet rfl rfl rfl (by simp)⟩
          | failed ec => exact ⟨.inl ⟨rfl, rfl⟩, fun _ _ => ends_of_quiet rfl rfl rfl (by simp)⟩

/-- Every connection that was taken over is closed. -/
theorem closeAll_meets {thread : TcpThread} {active : List Nat} (hmarked : thread.marked = none)
    (hsent : thread.sent = false) (hclosing : ∀ connection ∈ thread.closing, connection ∈ active)
    (hcleared : ∀ connection ∈ active, connection ∈ thread.cleared) :
    (closeAll active).Meets TcpThread.contract thread fun thread _ => thread.Ends .done := by
  induction active generalizing thread with
  | nil =>
      refine ends_of_quiet hmarked ?_ hsent (by simp)
      exact List.eq_nil_iff_forall_not_mem.mpr fun connection hmem =>
        List.not_mem_nil (hclosing connection hmem)
  | cons first active ih =>
      obtain ⟨hfirst, hrest⟩ := List.forall_mem_cons.mp hcleared
      refine ⟨hfirst, fun _ _ => ih hmarked hsent (fun connection hmem => ?_) hrest⟩
      obtain ⟨hmem, hne⟩ := List.mem_filter.mp hmem
      have hne' : connection ≠ first := of_decide_eq_true hne
      exact (List.mem_cons.mp (hclosing connection hmem)).resolve_left hne'

theorem begin_meets (task : TcpTask) :
    (begin task).Meets TcpThread.contract { task } TcpThread.Ends := by
  cases task with
  | send data dest => exact send_meets data dest
  | start =>
      refine ⟨trivial, fun failure _ => ?_⟩
      cases failure with
      | some error => exact ends_of_quiet rfl rfl rfl (by simp)
      | none => exact ⟨trivial, fun _ _ => ends_of_quiet rfl rfl rfl (by simp)⟩
  | stop =>
      refine Program.Meets.bind (Q := fun thread _ => thread.Ends .done) ?_ fun thread _ h => h
      refine ⟨trivial, fun first _ => ?_⟩
      cases first with
      | false => exact ends_of_quiet rfl rfl rfl (by simp)
      | true =>
          refine ⟨trivial, fun _ _ => ⟨trivial, fun _ _ => ⟨⟨rfl, rfl⟩, fun active _ => ?_⟩⟩⟩
          exact closeAll_meets rfl rfl (fun _ hmem => hmem) fun _ hmem => hmem
  | onAccept =>
      refine ⟨rfl, fun accepted _ => ?_⟩
      cases accepted with
      | none => exact ⟨trivial, fun _ _ => ends_of_quiet rfl rfl rfl (by simp)⟩
      | some remote =>
          refine ⟨trivial, fun _ _ => ⟨trivial, fun _ _ => ⟨trivial, fun _ _ => ?_⟩⟩⟩
          exact ends_of_quiet rfl rfl rfl (by simp)
  | onRead connection =>
      refine ⟨⟨rfl, rfl⟩, fun received _ => ?_⟩
      cases received with
      | true => exact ⟨trivial, fun _ _ => ends_of_quiet rfl rfl rfl (by simp)⟩
      | false =>
          refine ⟨.inr List.mem_cons_self, fun _ _ => ⟨List.mem_cons_self, fun _ _ => ?_⟩⟩
          have hclosed : [connection].filter (· ≠ connection) = [] := by simp
          exact ends_of_quiet rfl hclosed rfl (by simp)

end TcpTransport

end

/-! ## Effects -/

namespace TcpState

variable {s t : TcpState} {key : Bytes} {connection : Nat} {remote : Endpoint}

/-- What an operation does to the table and to the connections. -/
inductive Effect (s : TcpState) : TcpOp → TcpState → Prop where
  | kept {op : TcpOp} {t : TcpState} (table : t.table = s.table)
      (connections : t.connections = s.connections)
      (next : t.nextConnection = s.nextConnection) : Effect s op t
  | reading {op : TcpOp} (connection : Nat) (reading : Bool) :
      Effect s op (s.modify connection ({ · with reading }))
  | closed (connection : Nat) :
      Effect s (.close connection) (s.modify connection ({ · with isOpen := false }))
  | unregistered (connection : Nat) : Effect s (.unregister connection) (s.unregister connection)
  | registered {key : Bytes} {remote : Endpoint} (running : s.stopped = false)
      (free : s.table.find key = none) : Effect s (.register key remote)
        ({ s with connecting := s.connecting.erase key }.add key { remote })
  | inserted (remote : Endpoint) :
      Effect s (.insert remote) (s.add (endpointKey remote) { remote, late := s.drained })
  | drained : Effect s .drain { s with connecting := .empty, table := .empty, drained := true }

def remoteOf (s : TcpState) (connection : Nat) : Option Endpoint :=
  (s.connections.find connection).map TcpConnection.remote

/-- A sender that does not get a mark finds things as they are. -/
theorem claim_eq_some {found : Claimed} (h : s.claim key = some (t, found)) :
    (found = .stopped ∧ t = s ∧ s.stopped = true) ∨
    (∃ connection, found = .found connection ∧ t = s ∧ s.stopped = false ∧
      s.table.find key = some connection) ∨
    (found = .claimed ∧ s.stopped = false ∧ s.connecting.contains key = false ∧
      t = { s with connecting := s.connecting.insert key () }) := by
  rw [claim] at h
  split at h
  · rename_i hstopped
    cases h
    exact .inl ⟨rfl, rfl, hstopped⟩
  · rename_i hrunning
    have hstopped : s.stopped = false := Bool.not_eq_true _ ▸ hrunning
    split at h
    · cases h
    · rename_i hfree
      split at h
      · rename_i hfind
        cases h
        exact .inr (.inl ⟨_, rfl, rfl, hstopped, hfind⟩)
      · cases h
        exact .inr (.inr ⟨rfl, hstopped, Bool.not_eq_true _ ▸ hfree, rfl⟩)

theorem register_cases (s : TcpState) (key : Bytes) (remote : Endpoint) :
    let u := { s with connecting := s.connecting.erase key }
    s.register key remote = (u, .stopped) ∧ s.stopped = true ∨
    (∃ connection, s.register key remote = (u, .other connection) ∧ s.stopped = false ∧
      s.table.find key = some connection) ∨
    s.register key remote = (u.add key { remote }, .own s.nextConnection) ∧ s.stopped = false ∧
      s.table.find key = none := by
  simp only [register]
  split
  · rename_i hstopped
    exact .inl ⟨rfl, hstopped⟩
  · rename_i hrunning
    have hstopped : s.stopped = false := Bool.not_eq_true _ ▸ hrunning
    split
    · rename_i hfind
      exact .inr (.inl ⟨_, rfl, hstopped, hfind⟩)
    · rename_i hfree
      exact .inr (.inr ⟨rfl, hstopped, hfree⟩)

/-- A write leaves everything as it is; one that fails finds the connection closed or drops it. -/
theorem serve_write {payload : Bytes} {environment : TcpEnvironment} {written : Written}
    {out : List TcpEvent}
    (hserve : s.serve (.write connection payload) environment = some (t, written, out)) :
    t = s ∧
    ((∃ remote, written = .sent ∧ s.remoteOf connection = some remote ∧
      s.isOpen connection = true ∧ s.stopped = false ∧ out = [.wrote remote payload]) ∨
    written ≠ .sent ∧ (s.isOpen connection = false ∧ out = [] ∨ out = [.dropped connection] ∨
      ∃ remote transferred, s.remoteOf connection = some remote ∧ transferred <+: payload ∧
        out = [.cut remote transferred, .dropped connection])) := by
  rw [serve] at hserve
  split at hserve
  · cases hserve
  · rename_i found hfound
    have hremote : s.remoteOf connection = some found.remote := by rw [remoteOf, hfound]; rfl
    have hopen : s.isOpen connection = found.isOpen := by rw [isOpen, hfound]; rfl
    split at hserve
    · rename_i hclosed
      cases hserve
      simp_all
    · rename_i hopened
      split at hserve
      · cases hserve
        simp
      · rename_i hrunning
        split at hserve
        · cases hserve
          have hfailed : ∀ ec, Written.failed ec ≠ .sent := fun _ hsent => by cases hsent
          exact ⟨rfl, .inr ⟨hfailed _, .inr (.inr ⟨_, _, hremote, List.take_prefix _ _, rfl⟩)⟩⟩
        · cases hserve
          simp_all

theorem serve_effect {op : TcpOp} {environment : TcpEnvironment} {answer : TcpAnswer op}
    {out : List TcpEvent} (hserve : s.serve op environment = some (t, answer, out)) :
    s.Effect op t := by
  cases op with
  | isStopped | connect | release | beginStop | stopRunning | closeAcceptor =>
      cases hserve
      exact .kept rfl rfl rfl
  | claim key =>
      obtain ⟨⟨u, found⟩, hclaim, heq⟩ := Option.map_eq_some_iff.mp hserve
      cases heq
      obtain ⟨-, rfl, -⟩ | ⟨_, -, rfl, -⟩ | ⟨-, -, -, rfl⟩ := claim_eq_some hclaim
      · exact .kept rfl rfl rfl
      · exact .kept rfl rfl rfl
      · exact .kept rfl rfl rfl
  | register key remote =>
      cases hserve
      obtain ⟨heq, -⟩ | ⟨_, heq, -⟩ | ⟨heq, hrunning, hfree⟩ := s.register_cases key remote
      · rw [heq]
        exact .kept rfl rfl rfl
      · rw [heq]
        exact .kept rfl rfl rfl
      · rw [heq]
        exact .registered hrunning hfree
  | doRead connection =>
      rw [serve] at hserve
      split at hserve
      · cases hserve
        exact .reading connection true
      · cases hserve
        exact .kept rfl rfl rfl
  | write connection payload =>
      rw [serve] at hserve
      repeat' split at hserve
      all_goals cases hserve
      all_goals exact .kept rfl rfl rfl
  | unregister connection =>
      cases hserve
      exact .unregistered connection
  | close connection =>
      cases hserve
      exact .closed connection
  | openAcceptor | doAccept | accepted =>
      rw [serve] at hserve
      split at hserve
      · cases hserve <;> exact .kept rfl rfl rfl
      · cases hserve
        exact .kept rfl rfl rfl
  | insert remote =>
      cases hserve
      exact .inserted remote
  | received connection =>
      rw [serve] at hserve
      split at hserve
      · cases hserve
      · split at hserve
        · cases hserve
          exact .reading connection false
        · cases hserve
  | drain =>
      cases hserve
      exact .drained

def lateOf (s : TcpState) (connection : Nat) : Option Bool :=
  (s.connections.find connection).map TcpConnection.late

/-- What a change of a connection leaves alone. -/
theorem map_find_modify {β : Type} {g : TcpConnection → β} {f : TcpConnection → TcpConnection}
    (hf : ∀ found, g (f found) = g found) (connection other : Nat) :
    ((s.modify connection f).connections.find other).map g = (s.connections.find other).map g := by
  rw [modify, Table.find_modify]
  split
  · rename_i heq
    rw [heq, Option.map_map]
    exact congrArg (fun h => (s.connections.find connection).map h) (funext hf)
  · rfl

theorem map_find_add {β : Type} (g : TcpConnection → β) (s : TcpState) (key : Bytes)
    (new : TcpConnection) (other : Nat) : ((s.add key new).connections.find other).map g =
      if other = s.nextConnection then some (g new) else (s.connections.find other).map g := by
  rw [add, Table.find_insert]
  split
  · rfl
  · rfl

@[simp] theorem isOpen_close (s : TcpState) (connection other : Nat) :
    (s.modify connection ({ · with isOpen := false })).isOpen other =
      (s.isOpen other && decide (other ≠ connection)) := by
  rw [isOpen, modify, Table.find_modify]
  split
  · rename_i heq
    rw [heq]
    cases s.connections.find connection <;> simp
  · rename_i hne
    simp [isOpen, hne]

theorem remoteOf_add (s : TcpState) (key : Bytes) (new : TcpConnection) (other : Nat) :
    (s.add key new).remoteOf other =
      if other = s.nextConnection then some new.remote else s.remoteOf other :=
  map_find_add TcpConnection.remote s key new other

theorem lateOf_add (s : TcpState) (key : Bytes) (new : TcpConnection) (other : Nat) :
    (s.add key new).lateOf other =
      if other = s.nextConnection then some new.late else s.lateOf other :=
  map_find_add TcpConnection.late s key new other

theorem isOpen_add (s : TcpState) (key : Bytes) (new : TcpConnection) (other : Nat) :
    (s.add key new).isOpen other =
      if other = s.nextConnection then new.isOpen else s.isOpen other := by
  rw [isOpen, map_find_add, isOpen]
  split
  · rfl
  · rfl

theorem find_add (s : TcpState) (key : Bytes) (new : TcpConnection) (other : Bytes) :
    (s.add key new).table.find other =
      if other = key then some s.nextConnection else s.table.find other := by
  rw [add, Table.find_insert]

theorem connections_unregister (s : TcpState) (connection : Nat) :
    (s.unregister connection).connections = s.connections ∧
      (s.unregister connection).nextConnection = s.nextConnection := by
  rw [unregister]
  split
  · exact ⟨rfl, rfl⟩
  · split
    · exact ⟨rfl, rfl⟩
    · exact ⟨rfl, rfl⟩

/-- Only the entry under the endpoint of the connection is lost, and it is lost. -/
theorem find_unregister (hremote : s.remoteOf connection = some remote) (key : Bytes)
    (other : Nat) :
    (s.unregister connection).table.find key = some other ↔
      s.table.find key = some other ∧ ¬(key = endpointKey remote ∧ other = connection) := by
  obtain ⟨found, hfound, rfl⟩ := Option.map_eq_some_iff.mp hremote
  simp only [unregister, hfound]
  split
  · rename_i hentry
    constructor
    · intro hfind
      obtain ⟨hne, hfind⟩ := Table.find_of_find_erase hfind
      exact ⟨hfind, fun h => hne h.1⟩
    · rintro ⟨hfind, hother⟩
      have hne : key ≠ endpointKey found.remote := by
        intro heq
        rw [heq, hentry] at hfind
        cases hfind
        exact hother ⟨heq, rfl⟩
      rw [Table.find_erase_of_ne _ hne]
      exact hfind
  · rename_i hentry
    refine ⟨fun hfind => ⟨hfind, ?_⟩, And.left⟩
    rintro ⟨rfl, rfl⟩
    exact hentry hfind

theorem unregister_of_none (hremote : s.remoteOf connection = none) :
    s.unregister connection = s := by
  have hnone : s.connections.find connection = none := Option.map_eq_none_iff.mp hremote
  simp only [unregister, hnone]

/-- An entry was there before, or is that of a new connection. -/
theorem Effect.find {op : TcpOp} (h : s.Effect op t) (hfind : t.table.find key = some connection) :
    s.table.find key = some connection ∨
    connection = s.nextConnection ∧ t.isOpen connection = true ∧ ∃ remote,
      t.remoteOf connection = some remote ∧ (op = .register key remote ∧ s.stopped = false ∨
        key = endpointKey remote ∧ t.lateOf connection = some s.drained) := by
  cases h with
  | kept table connections next => exact .inl (table ▸ hfind)
  | reading | closed => exact .inl hfind
  | unregistered other =>
      cases hremote : s.remoteOf other with
      | none => exact .inl (unregister_of_none hremote ▸ hfind)
      | some remote => exact .inl ((find_unregister hremote key connection).mp hfind).1
  | registered running =>
      rw [find_add] at hfind
      split at hfind
      · rename_i heq
        cases hfind
        simp [isOpen_add, remoteOf_add, heq, running]
      · exact .inl hfind
  | inserted remote =>
      rw [find_add] at hfind
      split at hfind
      · rename_i heq
        cases hfind
        simp [isOpen_add, remoteOf_add, lateOf_add, heq]
      · exact .inl hfind
  | drained => cases hfind

theorem Effect.next {op : TcpOp} (h : s.Effect op t) :
    s.nextConnection ≤ t.nextConnection ∧
      (t.remoteOf s.nextConnection = s.remoteOf s.nextConnection ∨
        s.nextConnection < t.nextConnection) := by
  cases h with
  | kept table connections next => simp [remoteOf, connections, next]
  | reading | closed => exact ⟨Nat.le_refl _, .inl (map_find_modify (fun _ => by rfl) _ _)⟩
  | unregistered other =>
      obtain ⟨hconnections, hnext⟩ := s.connections_unregister other
      simp [remoteOf, hconnections, hnext]
  | registered | inserted => exact ⟨Nat.le_succ _, .inr (Nat.lt_succ_self _)⟩
  | drained => exact ⟨Nat.le_refl _, .inl rfl⟩

/-- The endpoints of the connections stay as they are, and closed ones stay closed. -/
theorem Effect.old {op : TcpOp} (h : s.Effect op t) (hold : connection ≠ s.nextConnection) :
    t.remoteOf connection = s.remoteOf connection ∧ t.lateOf connection = s.lateOf connection ∧
      (t.isOpen connection = true → s.isOpen connection = true) ∧
      (s.isOpen connection = true → t.isOpen connection = true ∨ op = .close connection) := by
  cases h with
  | kept table connections next => simp +contextual [remoteOf, lateOf, isOpen, connections]
  | reading other reading =>
      have hopen : (s.modify other ({ · with reading })).isOpen connection = s.isOpen connection :=
        congrArg (Option.getD · false) (map_find_modify (fun _ => by rfl) other connection)
      refine ⟨map_find_modify (fun _ => by rfl) _ _, map_find_modify (fun _ => by rfl) _ _, ?_⟩
      rw [hopen]
      exact ⟨id, .inl⟩
  | closed other =>
      refine ⟨map_find_modify (fun _ => by rfl) _ _, map_find_modify (fun _ => by rfl) _ _, ?_⟩
      rw [isOpen_close]
      by_cases heq : connection = other
      · simp [heq]
      · simp +contextual [heq]
  | unregistered other =>
      obtain ⟨hconnections, -⟩ := s.connections_unregister other
      simp +contextual [remoteOf, lateOf, isOpen, hconnections]
  | registered | inserted =>
      rw [remoteOf_add, lateOf_add, isOpen_add, if_neg hold, if_neg hold, if_neg hold]
      exact ⟨rfl, rfl, id, .inl⟩
  | drained => exact ⟨rfl, rfl, id, .inl⟩

theorem Effect.stays_closed {op : TcpOp} (h : s.Effect op t) (hold : connection ≠ s.nextConnection)
    (hclosed : s.isOpen connection = false) : t.isOpen connection = false := by
  rw [Bool.eq_false_iff]
  intro hopen
  rw [(h.old hold).2.2.1 hopen] at hclosed
  cases hclosed

end TcpState

end SimIms.Sip
