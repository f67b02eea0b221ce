import SimIms.Rtp.RtpengineClient

/-!
# Whether anybody listens

The receiver loop is left after any error of `receive_from`, but its thread can still be joined, and
that is all that `ensure_receiver_running` looks at. So a client that is not shutting down listens
for as long as no such error has occurred, and never again after one.
-/

namespace SimIms.Rtp

open Cxx Lib

/-- The loop has not been left. It comes back to `receive_from`, unless decoding the datagram that
it has received never ends. -/
def Receiver.Listens : Receiver → Prop
  | .looping | .receiving | .received _ | .completing _ _ => True
  | .absent | .receiveFailed _ | .failing _ | .failingAll _ _ | .exited => False

/-- The loop is being left, or has been. -/
def Receiver.Leaves : Receiver → Prop
  | .receiveFailed _ | .failing _ | .failingAll _ _ | .exited => True
  | .absent | .looping | .receiving | .received _ | .completing _ _ => False

/-- The loop is left after an error, or else while the client is shutting down. -/
structure Client.LoopKept (s : Client) : Prop where
  leaves : .receiveFailed ∈ s.history → s.receiver.Leaves
  cause : s.receiver.Leaves → .receiveFailed ∈ s.history ∨ s.shuttingDown = true

namespace Client.LoopKept

variable {rtpengineEp : UdpEndpoint} {s t : Client}

/-- A step that neither leaves the loop nor is about it. -/
theorem of_same (h : s.LoopKept) (hreceiver : t.receiver = s.receiver)
    (hhistory : .receiveFailed ∈ t.history ↔ .receiveFailed ∈ s.history)
    (hshutting : s.shuttingDown = true → t.shuttingDown = true) : t.LoopKept where
  leaves hmem := by
    rw [hreceiver]
    exact h.leaves (hhistory.mp hmem)
  cause hleaves := by
    rw [hreceiver] at hleaves
    exact (h.cause hleaves).imp hhistory.mpr hshutting

/-- A step from within the loop to within the loop. -/
theorem of_stays (h : s.LoopKept) (hbefore : ¬ s.receiver.Leaves) (hafter : ¬ t.receiver.Leaves)
    (hhistory : .receiveFailed ∈ t.history ↔ .receiveFailed ∈ s.history) : t.LoopKept where
  leaves hmem := (hbefore (h.leaves (hhistory.mp hmem))).elim
  cause hleaves := (hafter hleaves).elim

/-- A step while the loop is being left. -/
theorem of_leaves (h : s.LoopKept) (hbefore : s.receiver.Leaves) (hafter : t.receiver.Leaves)
    (hhistory : .receiveFailed ∈ s.history → .receiveFailed ∈ t.history)
    (hshutting : s.shuttingDown = true → t.shuttingDown = true) : t.LoopKept where
  leaves _ := hafter
  cause _ := (h.cause hbefore).imp hhistory hshutting

theorem mem_append_iff {history : List ClientEvent} {event : ClientEvent}
    (hne : event ≠ .receiveFailed) :
    .receiveFailed ∈ history ++ [event] ↔ .receiveFailed ∈ history := by
  rw [List.mem_append, List.mem_singleton, or_iff_left hne.symm]

theorem init : Client.init.LoopKept where
  leaves hmem := by cases hmem
  cause hleaves := hleaves.elim

theorem serve (h : s.LoopKept) {op : ClientOp} {environment : ClientEnvironment}
    {answer : ClientAnswer op} {out : List Nat}
    (hserve : s.serve op environment = some (t, answer, out)) : t.LoopKept := by
  cases op with
  | loadShuttingDown =>
      cases hserve
      exact h
  | generateCookie =>
      cases hserve
      exact h.of_same rfl Iff.rfl id
  | sendTo payload =>
      cases hserve
      exact h
  | erase cookie =>
      cases hserve
      exact h.of_same rfl Iff.rfl id
  | emplace cookie =>
      cases hserve
      exact h.of_same rfl (mem_append_iff (fun heq => by cases heq)) id
  | waitFor request =>
      rw [Client.serve] at hserve
      split at hserve
      · cases hserve
      · split at hserve
        · cases hserve
          exact h
        · split at hserve
          · cases hserve
            exact h
          · cases hserve
  | ensureReceiverRunning =>
      cases hserve
      obtain ⟨-, heq⟩ | ⟨habsent, ⟨error, heq⟩ | heq⟩ :=
        s.ensureReceiverRunning_cases environment.threadError
      · rw [heq]
        exact h
      · rw [heq]
        exact h
      · rw [heq]
        refine h.of_stays ?_ id Iff.rfl
        rw [habsent]
        exact id

theorem takePending (h : s.LoopKept) (hbefore : ¬ s.receiver.Leaves) (cookie : Bytes)
    (dict : BencodeDict) : (s.takePending cookie dict).LoopKept := by
  rw [Client.takePending]
  split
  · exact h.of_stays hbefore id (mem_append_iff fun heq => by cases heq)
  · exact h.of_stays hbefore id (mem_append_iff fun heq => by cases heq)

theorem handle (h : s.LoopKept) (hbefore : ¬ s.receiver.Leaves) {datagram : Datagram} {fuel : Nat}
    (hhandle : s.handle rtpengineEp datagram fuel = some t) : t.LoopKept := by
  rw [Client.handle] at hhandle
  split at hhandle
  · cases hhandle
    exact h.of_stays hbefore id (mem_append_iff fun heq => by cases heq)
  · split at hhandle
    · cases hhandle
    · cases hhandle
      exact h.of_stays hbefore id (mem_append_iff fun heq => by cases heq)
    · cases hhandle
      exact h.takePending hbefore _ _

theorem receiverStep (h : s.LoopKept) {label : ReceiverLabel}
    (hstep : s.receiverStep rtpengineEp label = some t) : t.LoopKept := by
  cases label with
  | datagram datagram =>
      rw [Client.receiverStep] at hstep
      split at hstep
      · rename_i hreceiver
        cases hstep
        refine h.of_stays ?_ id (mem_append_iff fun heq => by cases heq)
        rw [hreceiver]
        exact id
      · cases hstep
  | error error =>
      rw [Client.receiverStep] at hstep
      split at hstep
      · cases hstep
        exact ⟨fun _ => trivial,
          fun _ => .inl (List.mem_append_right _ (List.mem_singleton.mpr rfl))⟩
      · cases hstep
  | proceed fuel choice =>
      rw [Client.receiverStep] at hstep
      cases hreceiver : s.receiver with
      | absent | receiving | exited =>
          simp only [hreceiver] at hstep
          cases hstep
      | looping =>
          simp only [hreceiver] at hstep
          cases hstep
          have hnot : .receiveFailed ∉ s.history := by
            intro hmem
            have hleaves := h.leaves hmem
            rw [hreceiver] at hleaves
            exact hleaves
          by_cases hshutting : s.shuttingDown = true
          · rw [if_pos hshutting]
            exact ⟨fun _ => trivial, fun _ => .inr hshutting⟩
          · rw [if_neg hshutting]
            exact ⟨fun hmem => (hnot hmem).elim, fun hleaves => hleaves.elim⟩
      | received datagram =>
          simp only [hreceiver] at hstep
          refine h.handle ?_ hstep
          rw [hreceiver]
          exact id
      | completing request dict =>
          simp only [hreceiver] at hstep
          cases hstep
          refine h.of_stays ?_ id (mem_append_iff fun heq => by cases heq)
          rw [hreceiver]
          exact id
      | receiveFailed error =>
          simp only [hreceiver] at hstep
          cases hstep
          refine h.of_leaves (by rw [hreceiver]; trivial) ?_ id id
          split
          · trivial
          · trivial
      | failing error =>
          simp only [hreceiver] at hstep
          cases hstep
          exact h.of_leaves (by rw [hreceiver]; trivial) trivial id id
      | failingAll error requests =>
          simp only [hreceiver] at hstep
          split at hstep
          · cases hstep
            exact h.of_leaves (by rw [hreceiver]; trivial) trivial id id
          · cases hstep
            exact h.of_leaves (by rw [hreceiver]; trivial) trivial
              (fun hmem => List.mem_append_left _ hmem) id

theorem destructorStep (h : s.LoopKept) {choice : Nat}
    (hstep : s.destructorStep choice = some t) : t.LoopKept := by
  rw [Client.destructorStep] at hstep
  split at hstep
  · cases hstep
    exact h.of_same rfl Iff.rfl fun _ => rfl
  · cases hstep
    exact h.of_same rfl Iff.rfl id
  · cases hstep
    exact h.of_same rfl Iff.rfl id
  · split at hstep
    · cases hstep
      exact h.of_same rfl Iff.rfl id
    · cases hstep
      exact h.of_same rfl (mem_append_iff fun heq => by cases heq) id
  · split at hstep
    · cases hstep
      exact h.of_same rfl Iff.rfl id
    · cases hstep
      exact h.of_same rfl Iff.rfl id
    · cases hstep
  · cases hstep

end Client.LoopKept

/-! ## Runs -/

/-- In every state that calls, the loop and the destructor reach, the loop is where its errors have
brought it. -/
theorem loopKept_of_run {rtpengineEp : UdpEndpoint}
    {as : List (ThreadAction ClientEnvironment BencodeDict ClientBackground)} {s : ClientThreads}
    {log : List (Nat × Nat)}
    (hrun : (threadsMachine (clientService rtpengineEp)).exec (.init .init) as = some (s, log)) :
    s.shared.LoopKept := by
  refine Machine.exec_invariant (I := fun s : ClientThreads => s.shared.LoopKept) ?_ .init hrun
  intro s a t out h hstep
  refine Threads.step_keeps_shared ?_ ?_ h hstep
  · exact fun _ _ _ _ _ _ h hserve => h.serve hserve
  · intro _ event _ h hbackground
    cases event with
    | receiver label => exact h.receiverStep hbackground
    | destructor choice => exact h.destructorStep hbackground

theorem Receiver.listens_iff {receiver : Receiver} (h : receiver ≠ .absent) :
    receiver.Listens ↔ ¬ receiver.Leaves := by
  cases receiver with
  | absent => exact (h rfl).elim
  | looping | receiving | received | completing =>
      exact ⟨fun _ hleaves => hleaves, fun _ => trivial⟩
  | receiveFailed | failing | failingAll | exited =>
      exact ⟨fun hlistens => hlistens.elim, fun hnot => (hnot trivial).elim⟩

/-- While the client is not shutting down, a call for which the receiver is said to run is heard
just as long as `receive_from` has never failed. -/
theorem ensureReceiverRunning_listens_iff (rtpengineEp : UdpEndpoint)
    (as : List (ThreadAction ClientEnvironment BencodeDict ClientBackground)) (s t : ClientThreads)
    (log out : List (Nat × Nat))
    (hrun : (threadsMachine (clientService rtpengineEp)).exec (.init .init) as = some (s, log))
    (hrunning : s.shared.shuttingDown = false) (id : Nat) (environment : ClientEnvironment)
    (history : CallProgress) (next : Result Unit → Program clientOps Exception (Result BencodeDict))
    (hoperation : s.operation id = some (history, ⟨.ensureReceiverRunning, next⟩))
    (hsucceeds : (s.shared.ensureReceiverRunning environment.threadError).2 = .ok ())
    (hstep : s.runThread (clientService rtpengineEp) id environment = some (t, out)) :
    t.shared.receiver.Listens ↔ .receiveFailed ∉ s.shared.history := by
  have h := loopKept_of_run hrun
  have hshared : t.shared = (s.shared.ensureReceiverRunning environment.threadError).1 := by
    obtain ⟨history', op, next', shared, answer, events, hoperation', hserve, -, rfl⟩ :=
      Threads.runThread_eq_some hstep
    rw [hoperation] at hoperation'
    cases hoperation'
    cases hserve
    rfl
  rw [hshared]
  obtain ⟨hstarted, heq⟩ | ⟨habsent, ⟨error, heq⟩ | heq⟩ :=
    s.shared.ensureReceiverRunning_cases environment.threadError
  · rw [heq, Receiver.listens_iff hstarted]
    refine not_congr ⟨fun hleaves => ?_, h.leaves⟩
    obtain hfailed | hshutting := h.cause hleaves
    · exact hfailed
    · rw [hrunning] at hshutting
      cases hshutting
  · rw [heq] at hsucceeds
    cases hsucceeds
  · rw [heq]
    refine iff_of_true trivial fun hmem => ?_
    have hleaves := h.leaves hmem
    rw [habsent] at hleaves
    exact hleaves

/-- While the loop is in `receive_from`, the response to a request that is waited for is
delivered. -/
theorem response_is_delivered {rtpengineEp : UdpEndpoint} {s : Client} {cookie data : Bytes}
    {request fuel : Nat} {dict : BencodeDict} (hreceiving : s.receiver = .receiving)
    (hpending : s.pendingRequests.find cookie = some request) (hlt : request < s.requests.length)
    (hresponse : parseResponsePayload data fuel = some (.ok (cookie, dict))) :
    ∃ t u v, s.receiverStep rtpengineEp (.datagram ⟨rtpengineEp, data⟩) = some t ∧
      t.receiverStep rtpengineEp (.proceed fuel 0) = some u ∧
      u.receiverStep rtpengineEp (.proceed fuel 0) = some v ∧
      v.requests[request]? = some { completed := true, result := .ok dict } := by
  let t : Client :=
    { s with
      receiver := .received ⟨rtpengineEp, data⟩
      history := s.history ++ [.received ⟨rtpengineEp, data⟩] }
  let u : Client :=
    { t with
      pendingRequests := s.pendingRequests.erase cookie
      receiver := .completing request dict
      history := t.history ++ [.handled] }
  refine ⟨t, u, { u.complete request (.ok dict) with receiver := .looping }, ?_, ?_, rfl, ?_⟩
  · rw [Client.receiverStep, hreceiving]
  · have hsame : ¬(⟨rtpengineEp, data⟩ : Datagram).sender ≠ rtpengineEp := fun hne => hne rfl
    change t.handle rtpengineEp ⟨rtpengineEp, data⟩ fuel = some u
    rw [Client.handle, if_neg hsame]
    simp only [hresponse]
    rw [Client.takePending]
    simp only [t, hpending]
    rfl
  · exact List.getElem?_set_self hlt

/-! ## One error -/

def ping : BencodeDict where
  entries := [(bytes "command", .string (bytes "ping"))]
  ordered := .dict (List.pairwise_singleton _ _)
    fun entry hmem => by
      rw [List.mem_singleton.mp hmem]
      exact .string _

def pingEndpoint : UdpEndpoint := ⟨bytes "127.0.0.1", 2223⟩

/-- The first command starts the loop, the loop is left after an error, and there is another
command. -/
def deafRun : List (ThreadAction ClientEnvironment BencodeDict ClientBackground) :=
  [.start ping, .run 0 {}, .run 0 {}, .background (.receiver (.proceed 0 0)),
    .background (.receiver (.error (.other (bytes "No buffer space available")))),
    .background (.receiver (.proceed 0 0)), .background (.receiver (.proceed 0 0)),
    .background (.receiver (.proceed 0 0)), .start ping, .run 1 {}]

/-- The next operation of this call succeeds. -/
def startsReceiver (s : ClientThreads) (id : Nat) : Bool :=
  match s.operation id with
  | some (_, ⟨.ensureReceiverRunning, _⟩) =>
      match (s.shared.ensureReceiverRunning none).2 with
      | .ok () => true
      | .error _ => false
  | _ => false

def hasExited (s : Client) : Bool :=
  match s.receiver with
  | .exited => true
  | _ => false

theorem exists_operation_of_startsReceiver {s : ClientThreads} {id : Nat}
    (h : startsReceiver s id = true) :
    (∃ history next, s.operation id = some (history, ⟨.ensureReceiverRunning, next⟩)) ∧
      (s.shared.ensureReceiverRunning none).2 = .ok () := by
  unfold startsReceiver at h
  split at h
  · rename_i history next hoperation
    split at h
    · rename_i hresult
      exact ⟨⟨history, next, hoperation⟩, hresult⟩
    · cases h
  · cases h

/-- The receiver is said to run for the second command, but it has exited. -/
theorem receiver_is_not_restarted :
    ∃ s t log out history next,
      (threadsMachine (clientService pingEndpoint)).exec (.init .init) deafRun = some (s, log) ∧
      s.shared.shuttingDown = false ∧
      s.operation 1 = some (history, ⟨.ensureReceiverRunning, next⟩) ∧
      (s.shared.ensureReceiverRunning none).2 = .ok () ∧
      s.runThread (clientService pingEndpoint) 1 {} = some (t, out) ∧
      t.shared.receiver = .exited := by
  have hsummary : ((threadsMachine (clientService pingEndpoint)).exec (.init .init) deafRun).map
      (fun run => (run.1.shared.shuttingDown, startsReceiver run.1 1,
        (run.1.runThread (clientService pingEndpoint) 1 {}).map fun next =>
          hasExited next.1.shared)) = some (false, true, some true) := by decide +kernel
  obtain ⟨⟨s, log⟩, hrun, heq⟩ := Option.map_eq_some_iff.mp hsummary
  simp only [Prod.mk.injEq] at heq
  obtain ⟨hrunning, hstarts, hexits⟩ := heq
  obtain ⟨⟨t, out⟩, hstep, hexited⟩ := Option.map_eq_some_iff.mp hexits
  obtain ⟨⟨history, next, hoperation⟩, hsucceeds⟩ := exists_operation_of_startsReceiver hstarts
  refine ⟨s, t, log, out, history, next, hrun, hrunning, hoperation, hsucceeds, hstep, ?_⟩
  unfold hasExited at hexited
  split at hexited
  · assumption
  · cases hexited

/-- The first command is heard. -/
theorem ensureReceiverRunning_listens_iff_first :
    ∃ s t log out, (threadsMachine (clientService pingEndpoint)).exec (.init .init)
        [.start ping, .run 0 {}] = some (s, log) ∧
      s.runThread (clientService pingEndpoint) 0 {} = some (t, out) ∧
      t.shared.receiver.Listens := by
  have hsummary : ((threadsMachine (clientService pingEndpoint)).exec (.init .init)
      [.start ping, .run 0 {}]).map (fun run => (run.1.shared.shuttingDown, startsReceiver run.1 0,
        run.1.shared.history, (run.1.runThread (clientService pingEndpoint) 0 {}).isSome)) =
      some (false, true, [], true) := by decide +kernel
  obtain ⟨⟨s, log⟩, hrun, heq⟩ := Option.map_eq_some_iff.mp hsummary
  simp only [Prod.mk.injEq] at heq
  obtain ⟨hrunning, hstarts, hhistory, hsteps⟩ := heq
  obtain ⟨⟨t, out⟩, hstep⟩ := Option.isSome_iff_exists.mp hsteps
  obtain ⟨⟨history, next, hoperation⟩, hsucceeds⟩ := exists_operation_of_startsReceiver hstarts
  refine ⟨s, t, log, out, hrun, hstep, ?_⟩
  rw [ensureReceiverRunning_listens_iff pingEndpoint [.start ping, .run 0 {}] s t log out hrun
    hrunning 0 {} history next hoperation hsucceeds hstep, hhistory]
  exact List.not_mem_nil

end SimIms.Rtp
