import SimIms.SCscf.RouterHandlers

/-!
# Who acknowledges failures downstream

The transaction of a forwarded INVITE sends nothing for a final response, and the ACK of the caller
either ends at the server transaction of the INVITE or is forwarded with a branch of its own. So the
callee gets an ACK with the branch of the INVITE only if that branch is drawn a second time.
-/

namespace SimIms.SCscf

open Cxx Lib Sip

abbrev RouterThreads := StackThreads UpstreamCallback Sessions Unit sessionOps

abbrev RouterStackAction := StackAction SessionEnvironment

abbrev RouterLog := StackLog SessionEvent

/-- No session, and nothing under way. -/
def noSessions : RouterThreads := .init (.init .empty)

/-- The S-CSCF as far as it routes sessions. -/
def routerService [OsipAccessor] [OsipParser] (proxy : ProxyCore) :=
  stackService (SessionRouter.handlers proxy) serveSessions (fun _ => ()) fun _ _ _ => ()

/-! ## ACKs that have gone out -/

/-- An ACK with this branch has gone there. -/
def Acknowledged (branch : Bytes) (dest : Endpoint) (log : RouterLog) : Prop :=
  ∃ tid ack, (tid, .sent ack dest) ∈ log ∧ ack.method = bytes "ACK" ∧ ack.viaBranch = branch

section

variable {branch : Bytes} {dest : Endpoint} {log out : RouterLog}

theorem Acknowledged.append_left (h : Acknowledged branch dest log) :
    Acknowledged branch dest (log ++ out) := by
  obtain ⟨tid, ack, hmem, hack⟩ := h
  exact ⟨tid, ack, List.mem_append_left out hmem, hack⟩

theorem Acknowledged.append_right (h : Acknowledged branch dest out) :
    Acknowledged branch dest (log ++ out) := by
  obtain ⟨tid, ack, hmem, hack⟩ := h
  exact ⟨tid, ack, List.mem_append_right log hmem, hack⟩

end

/-- A forwarded INVITE has got a final response above 299. -/
def Failed (invite : SipMessage) (dest : Endpoint) (log : RouterLog) : Prop :=
  invite.method = bytes "INVITE" ∧ (∃ tid, (tid, .sent invite dest) ∈ log) ∧
    ∃ tid code, (tid, .responded invite dest code) ∈ log ∧ 300 ≤ code ∧ code ≤ 699

def FailuresAcknowledged (log : RouterLog) : Prop :=
  ∀ invite dest, Failed invite dest log → Acknowledged invite.viaBranch dest log

/-- Whether `prepareRequestForForward` lets the request through. -/
def mayForward (proxy : ProxyCore) (msg : SipMessage) (transport branch : Bytes) : Bool :=
  match proxy.prepareRequestForForward msg transport branch with
  | .ok (.ok _) => true
  | _ => false

/-- An ACK is forwarded there, and gets this branch. -/
def drawsForAck (branch : Bytes) (dest : Endpoint) (s : RouterThreads) : RouterStackAction → Bool
  | .run tid environment =>
      match s.operation tid with
      | some (_, ⟨.forwardRequest proxy ack dest', _⟩) =>
          ack.method == bytes "ACK" && dest' == dest && environment.branch == branch &&
            environment.refusal.isNone && mayForward proxy ack dest.transport branch
      | _ => false
  | _ => false

/-! ## The router registers no ACK -/

def IsNoAck (request : SipMessage) : Prop := request.method ≠ bytes "ACK"

theorem method_of_start {msg msg' : SipMessage} (h : msg.start = msg'.start) :
    msg.method = msg'.method := by
  rw [SipMessage.method, SipMessage.method, h]

@[simp] theorem method_setRequestUri (msg : SipMessage) (uri : Bytes) :
    (msg.setRequestUri uri).method = msg.method := by
  cases hstart : msg.start with
  | request method uri' => simp only [SipMessage.setRequestUri, SipMessage.method, hstart]
  | response code reason => simp only [SipMessage.setRequestUri, SipMessage.method, hstart]

namespace SessionRouter

open SipStack

variable {p : SipMessage → Prop} {txn : Nat} {request forwarded : SipMessage}
variable {source dest : Endpoint}

theorem keeps_session (op : SessionOp) : Keeps p (session op) := keeps_perform _ trivial

theorem keeps_recordInvite (request : SipMessage) (source : Endpoint) (branch : Bytes)
    (target : Option InviteTarget) : Keeps p (recordInvite request source branch target) := by
  cases target with
  | none => exact keeps_pure _
  | some target => exact keeps_session _

theorem keeps_inviteResponse (callId fromTag : Bytes) (response : SipMessage) (inDialog : Bool) :
    Keeps p (inviteResponse callId fromTag response inDialog) := by
  cases inDialog with
  | true => exact keeps_pure _
  | false => exact keeps_session _

theorem keeps_answerOther (txn : Nat) (request : SipMessage) :
    Keeps p (answerOther txn request) := by
  refine (keeps_session _).bind fun answer => ?_
  cases answer with
  | none => exact keeps_pure _
  | some response => exact (keeps_sendResponse _ _).bind fun _ => keeps_pure _

/-- The callbacks send nothing but responses. -/
theorem keeps_onResponse (captured : UpstreamCallback) (response : SipMessage) :
    Keeps p (onResponse captured response) := by
  obtain ⟨upstream, callback⟩ := captured
  cases callback with
  | invite callId fromTag inDialog =>
      exact (keeps_inviteResponse _ _ _ _).bind fun _ =>
        (keeps_sendResponse _ _).bind fun _ => keeps_pure _
  | bye sessionKey =>
      refine Keeps.bind (keeps_sendResponse upstream (forwardResponseUpstream response))
        fun relayed => ?_
      split
      · split
        · exact keeps_session _
        · exact keeps_pure _
      · exact keeps_pure _
  | prack => exact (keeps_sendResponse _ _).bind fun _ => keeps_pure _
  | cancel => exact keeps_pure _

variable [OsipParser] {proxy : ProxyCore}

/-- What is prepared has the method of the request. -/
theorem prepare_meets (request : SipMessage) (dest : Endpoint) :
    (prepare proxy request dest).Meets (registersOnly p) () fun _ prepared =>
      ∀ msg, prepared = .ok msg → msg.method = request.method := by
  refine Program.Meets.bind (keeps_perform .generateBranch trivial) fun _ branch _ => ?_
  refine Program.meets_ofExcept trivial fun prepared hprepared msg heq => ?_
  rw [heq] at hprepared
  have hstart := ProxyCore.start_of_prepareRequestForForward hprepared
  exact method_of_start (hstart.trans (ProxyCore.start_processRouteHeaders proxy request))

theorem keeps_forwardInvite (h : forwarded.method ≠ bytes "ACK") (txn : Nat)
    (request : SipMessage) (source dest : Endpoint) (target : Option InviteTarget) :
    Keeps IsNoAck (forwardInvite proxy txn request forwarded source dest target) := by
  refine Program.Meets.bind (prepare_meets forwarded dest) fun _ prepared hmethod => ?_
  cases prepared with
  | error error => exact keeps_respond _ _ _ _
  | ok prepared =>
      have hnoAck : IsNoAck prepared := fun hack => h ((hmethod prepared rfl).symm.trans hack)
      exact (keeps_recordInvite _ _ _ _).bind fun _ =>
        (keeps_sendRequest hnoAck _ _).bind fun _ => keeps_pure _

theorem keeps_forwardInDialog (h : request.method ≠ bytes "ACK") (txn : Nat) (dest : Endpoint)
    (callback : RouterCallback) :
    Keeps IsNoAck (forwardInDialog proxy txn request dest callback) := by
  refine Program.Meets.bind (prepare_meets request dest) fun _ prepared hmethod => ?_
  cases prepared with
  | error error => exact keeps_respond _ _ _ _
  | ok prepared =>
      have hnoAck : IsNoAck prepared := fun hack => h ((hmethod prepared rfl).symm.trans hack)
      exact (keeps_sendRequest hnoAck _ _).bind fun _ => keeps_pure _

theorem keeps_handleInvite (h : request.method ≠ bytes "ACK") (txn : Nat) (source : Endpoint) :
    Keeps IsNoAck (handleInvite proxy txn request source) := by
  refine (keeps_respond _ _ _ _).bind fun _ => ?_
  split
  · refine (keeps_session _).bind fun dest => ?_
    cases dest with
    | none => exact keeps_respond _ _ _ _
    | some dest => exact keeps_forwardInvite h txn request source dest none
  · refine (keeps_session _).bind fun routed => ?_
    cases routed with
    | error answer => exact keeps_respond _ _ _ _
    | ok routed =>
        refine keeps_forwardInvite ?_ txn request source _ _
        split
        · exact h
        · rwa [method_setRequestUri]

theorem keeps_handleBye (h : request.method ≠ bytes "ACK") (txn : Nat) :
    Keeps IsNoAck (handleBye proxy txn request) := by
  refine (keeps_session _).bind fun target => ?_
  cases target with
  | none => exact keeps_respond _ _ _ _
  | some target => exact keeps_forwardInDialog h txn _ _

theorem keeps_handlePrack (h : request.method ≠ bytes "ACK") (txn : Nat) :
    Keeps IsNoAck (handlePrack proxy txn request) := by
  refine (keeps_session _).bind fun dest => ?_
  cases dest with
  | none => exact keeps_respond _ _ _ _
  | some dest => exact keeps_forwardInDialog h txn dest _

theorem keeps_handleAck (request : SipMessage) : Keeps p (handleAck proxy request) := by
  refine (keeps_session _).bind fun dest => ?_
  cases dest with
  | none => exact keeps_pure _
  | some dest => exact keeps_forwardRequest _ _ _

theorem keeps_handleCancel (h : request.method ≠ bytes "ACK") (txn : Nat) :
    Keeps IsNoAck (handleCancel proxy txn request) := by
  refine (keeps_respond _ _ _ _).bind fun _ => (keeps_session _).bind fun found => ?_
  cases found with
  | none => exact keeps_pure _
  | some found =>
      refine (keeps_perform .generateBranch trivial).bind fun branch => ?_
      refine Program.Meets.bind (Program.meets_ofExcept
        (Q := fun _ cancel => IsNoAck cancel) trivial
        fun cancel hcancel => ?_) fun _ cancel hnoAck => ?_
      · have hstart := (ProxyCore.buildForwardedCancel_eq_ok hcancel).1
        exact fun hack => h ((method_of_start hstart).symm.trans hack)
      · exact (keeps_sendRequest hnoAck _ _).bind fun _ => keeps_pure _

/-- An ACK is forwarded without a transaction. -/
theorem handlers_keep (proxy : ProxyCore) : HandlersKeep IsNoAck (handlers proxy) where
  onResponse := keeps_onResponse
  onRequest txn request source := by
    change Keeps IsNoAck (onRequest proxy txn request source)
    by_cases hack : request.method = bytes "ACK"
    · rw [onRequest, if_neg (by rw [hack]; decide), if_neg (by rw [hack]; decide), if_pos hack]
      exact keeps_handleAck request
    · rw [onRequest]
      split_ifs
      · exact keeps_handleInvite hack txn source
      · exact keeps_handleBye hack txn
      · exact keeps_handleCancel hack txn
      · exact keeps_handlePrack hack txn
      · exact keeps_answerOther txn request
      · exact keeps_respond _ _ _ _

end SessionRouter

/-! ## Runs -/

section

variable [OsipParser] {proxy : ProxyCore} {branch : Bytes} {dest : Endpoint}
variable {s t : RouterThreads} {log out : RouterLog} {a : RouterStackAction}

abbrev routerStack [OsipAccessor] (proxy : ProxyCore) :
    Machine RouterThreads RouterStackAction (Nat × StackEvent SessionEvent) :=
  threadsMachine (routerService proxy)

abbrev NoAckDiscipline : Discipline (SipStack UpstreamCallback Sessions)
    (stackOps UpstreamCallback sessionOps) Unit Unit (StackEvent SessionEvent) :=
  SipStack.requestDiscipline Sessions SessionEvent IsNoAck

/-- An ACK that goes out is one that is forwarded, with the branch that it has got. -/
theorem drawsForAck_of_sent [OsipAccessor] {ack : SipMessage} {tid : Nat}
    (h : s.Inv NoAckDiscipline log)
    (hstep : (routerStack proxy).step s a = some (t, out)) (hmem : (tid, .sent ack dest) ∈ out)
    (hack : ack.method = bytes "ACK") (hbranch : ack.viaBranch = branch) :
    drawsForAck branch dest s a = true := by
  cases a with
  | start call =>
      cases hstep
      cases hmem
  | background event =>
      obtain ⟨_, -, heq⟩ := Option.map_eq_some_iff.mp hstep
      cases heq
      cases hmem
  | run id environment =>
      obtain ⟨history, op, next, shared, answer, events, hoperation, hserve, rfl, -⟩ :=
        Threads.runThread_eq_some hstep
      obtain ⟨event, hevent, heq⟩ := List.mem_map.mp hmem
      cases heq
      change SipStack.serve serveSessions s.shared op environment = _ at hserve
      obtain ⟨txn, hrequest⟩ | ⟨proxy', msg, rfl, hprepared, haccepted⟩ :=
        SipStack.sent_of_serve hserve hevent
      · exact (h.shared txn ack hrequest hack).elim
      · have hdrawn := ProxyCore.viaBranch_of_prepareRequestForForward hprepared
        have hmethod := method_of_start (ProxyCore.start_of_prepareRequestForForward hprepared)
        have hsame : environment.branch = branch := hdrawn.symm.trans hbranch
        rw [hsame] at hprepared
        have hmay : mayForward proxy' msg dest.transport branch = true := by
          rw [mayForward, hprepared]
        rw [drawsForAck, hoperation]
        simp [hmethod.symm.trans hack, hsame, haccepted, hmay]

/-- Such an ACK goes out. -/
theorem sent_of_drawsForAck [OsipAccessor] (hdraws : drawsForAck branch dest s a = true)
    (hstep : (routerStack proxy).step s a = some (t, out)) : Acknowledged branch dest out := by
  cases a with
  | start call => cases hdraws
  | background event => cases hdraws
  | run id environment =>
      rw [drawsForAck] at hdraws
      split at hdraws
      · rename_i history proxy' ack dest' next hoperation
        simp only [Bool.and_eq_true, beq_iff_eq, Option.isNone_iff_eq_none] at hdraws
        obtain ⟨⟨⟨⟨hack, rfl⟩, rfl⟩, haccepted⟩, hmay⟩ := hdraws
        obtain ⟨_, _, _, shared, answer, events, hoperation', hserve, rfl, -⟩ :=
          Threads.runThread_eq_some hstep
        cases hoperation.symm.trans hoperation'
        cases hserve
        rw [mayForward] at hmay
        split at hmay
        · rename_i prepared hprepared
          have hmethod := method_of_start (ProxyCore.start_of_prepareRequestForForward hprepared)
          refine ⟨id, prepared, ?_, hmethod.trans hack,
            ProxyCore.viaBranch_of_prepareRequestForForward hprepared⟩
          rw [SipStack.forwarded, hprepared, haccepted]
          exact List.mem_singleton.mpr rfl
        · cases hmay
      · cases hdraws

/-- What keeps a branch from being acknowledged. -/
theorem not_acknowledged_of_undrawn [OsipAccessor] {as : List RouterStackAction}
    (hrun : (routerStack proxy).exec noSessions as = some (s, log))
    (hundrawn : (routerStack proxy).Along (fun s a _ _ => drawsForAck branch dest s a = false)
      noSessions as) : ¬ Acknowledged branch dest log := by
  have hsound := SipStack.requestDiscipline_sound (SessionRouter.handlers_keep proxy) serveSessions
  have hinv : s.Inv NoAckDiscipline ([] ++ log) ∧ ¬ Acknowledged branch dest ([] ++ log) := by
    refine Machine.exec_preserves_log
      (I := fun s log => s.Inv NoAckDiscipline log ∧ ¬ Acknowledged branch dest log)
      (fun s a t out log h hstep hdraws => ?_) ⟨.init ClientLayer.requests_init, ?_⟩ hundrawn hrun
    · refine ⟨h.1.next hsound (fun _ _ => trivial) hstep, fun ⟨tid, ack, hmem, hack, hbranch⟩ => ?_⟩
      obtain hmem | hmem := List.mem_append.mp hmem
      · exact h.2 ⟨tid, ack, hmem, hack, hbranch⟩
      · exact Bool.false_ne_true
          (hdraws.symm.trans (drawsForAck_of_sent h.1 hstep hmem hack hbranch))
    · exact fun ⟨_, _, hmem, _⟩ => List.not_mem_nil hmem
  exact hinv.2

/-- In every run a branch is acknowledged just when it has been drawn for an ACK. -/
theorem acknowledged_iff [OsipAccessor] {as : List RouterStackAction}
    (hrun : (routerStack proxy).exec noSessions as = some (s, log)) :
    Acknowledged branch dest log ↔
      ¬ (routerStack proxy).Along (fun s a _ _ => drawsForAck branch dest s a = false)
        noSessions as := by
  refine ⟨fun hacked hundrawn => not_acknowledged_of_undrawn hrun hundrawn hacked, fun hdrawn => ?_⟩
  rw [Machine.along_iff] at hdrawn
  push Not at hdrawn
  obtain ⟨before, a, after, t, u, first, out, rfl, hbefore, hstep, hdraws⟩ := hdrawn
  obtain ⟨t', first', rest, hbefore', hafter, rfl⟩ := Machine.exists_of_exec_append hrun
  cases hbefore.symm.trans hbefore'
  obtain ⟨u', out', later, hstep', -, rfl⟩ := Machine.exec_cons_iff.mp hafter
  cases hstep.symm.trans hstep'
  exact ((sent_of_drawsForAck (eq_true_of_ne_false hdraws) hstep).append_left).append_right

/-- However responses, ACKs and timers fall, a failed INVITE is acknowledged downstream only where
its branch is drawn again, for an ACK that is forwarded to the same place. -/
theorem failuresAcknowledged_iff [OsipAccessor] (proxy : ProxyCore) (as : List RouterStackAction)
    (s : RouterThreads)
    (log : RouterLog) (hrun : (routerStack proxy).exec noSessions as = some (s, log)) :
    FailuresAcknowledged log ↔ ∀ invite dest, Failed invite dest log →
      ¬ (routerStack proxy).Along (fun s a _ _ => drawsForAck invite.viaBranch dest s a = false)
        noSessions as :=
  forall_congr' fun _ => forall_congr' fun _ => imp_congr_right fun _ => acknowledged_iff hrun

end

/-! ## A call that is refused -/

def busyCaller : Endpoint :=
  { address := bytes "10.0.0.3", port := 5060, transport := bytes "udp" }

def busyCallee : Endpoint :=
  { address := bytes "10.0.0.9", port := 5060, transport := bytes "udp" }

def busyProxy : ProxyCore := ⟨bytes "10.0.0.5", 5062⟩

abbrev busyRouter : Machine RouterThreads RouterStackAction (Nat × StackEvent SessionEvent) :=
  @routerStack plainUris _ busyProxy

def busyInvite : SipMessage :=
  { dialogRequest "INVITE" (bytes "a") [] with
    vias := [hopVia (bytes "udp") (bytes "10.0.0.3") 5060 (bytes "z9hG4bK1")] }

/-- What the callee gets of it. -/
def busyForwarded : SipMessage :=
  (busyInvite.setMaxForwards 69).addVia (busyProxy.via (bytes "udp") (bytes "z9hG4bK2"))

def busyResponse (statusCode : Int) : SipMessage :=
  createResponse busyForwarded statusCode (bytes "Busy Here") (bytes "b")

def busyAck (branch : Bytes) : SipMessage :=
  { dialogRequest "ACK" (bytes "a") [⟨bytes "tag", some (bytes "b")⟩] with
    vias := [hopVia (bytes "udp") (bytes "10.0.0.3") 5060 branch] }

/-- A message that is dealt with in so many operations, with no other in between. Every branch that
is drawn is the same one. -/
def dealtWith (tid : Nat) (msg : SipMessage) (source : Endpoint) (operations : Nat) :
    List RouterStackAction :=
  .start (.processMessage msg source) :: List.replicate operations (.run tid
    { branch := bytes "z9hG4bK2"
      service := { target := .ok ⟨⟨bytes "sip:bob@ims.local", busyCallee⟩, []⟩ } })

/-- The callee is busy, the refusal goes to the caller, and the caller acknowledges it. -/
def refusedCall : List RouterStackAction :=
  dealtWith 0 busyInvite busyCaller 15 ++ dealtWith 1 (busyResponse 486) busyCallee 10 ++
    dealtWith 2 (busyAck (bytes "z9hG4bK1")) busyCaller 4

/-- The caller sends an ACK of its own while the callee is still ringing, which gets the branch of
the INVITE. -/
def earlyAckCall : List RouterStackAction :=
  dealtWith 0 busyInvite busyCaller 15 ++ dealtWith 1 (busyResponse 180) busyCallee 8 ++
    dealtWith 2 (busyAck (bytes "z9hG4bK3")) busyCaller 8 ++
    dealtWith 3 (busyResponse 486) busyCallee 10

/-- The requests that have gone out as ACKs. -/
def sentAcks (log : RouterLog) : List SipMessage :=
  log.filterMap fun event => match event.2 with
    | .sent request _ => if request.method = bytes "ACK" then some request else none
    | _ => none

theorem not_acknowledged_of_sentAcks {branch : Bytes} {dest : Endpoint} {log : RouterLog}
    (h : sentAcks log = []) : ¬ Acknowledged branch dest log := by
  rintro ⟨tid, ack, hmem, hack, -⟩
  have hsent : ack ∈ sentAcks log := List.mem_filterMap.mpr ⟨_, hmem, if_pos hack⟩
  rw [h] at hsent
  cases hsent

theorem failed_busyForwarded {log : RouterLog} {tid : Nat}
    (hsent : (0, .sent busyForwarded busyCallee) ∈ log)
    (hresponded : (tid, .responded busyForwarded busyCallee 486) ∈ log) :
    Failed busyForwarded busyCallee log :=
  ⟨rfl, ⟨0, hsent⟩, tid, 486, hresponded, by decide, by decide⟩

/-- The ACK of the caller ends at the router, and nobody acknowledges the refusal to the callee. -/
theorem refusal_not_acknowledged : ∃ s log,
    busyRouter.exec noSessions refusedCall = some (s, log) ∧
      (2, .server (.acknowledged busyInvite.requestId)) ∈ log ∧
      Failed busyForwarded busyCallee log ∧
      ¬ Acknowledged busyForwarded.viaBranch busyCallee log ∧ ¬ FailuresAcknowledged log := by
  have hsummary : (busyRouter.exec noSessions refusedCall).map (fun run => decide
      ((2, StackEvent.server (.acknowledged busyInvite.requestId)) ∈ run.2 ∧
        (0, StackEvent.sent busyForwarded busyCallee) ∈ run.2 ∧
        (1, StackEvent.responded busyForwarded busyCallee 486) ∈ run.2 ∧
        sentAcks run.2 = [])) = some true := by
    decide +kernel
  obtain ⟨⟨s, log⟩, hrun, hsummary⟩ := Option.map_eq_some_iff.mp hsummary
  obtain ⟨hacked, hsent, hresponded, hnone⟩ := of_decide_eq_true hsummary
  have hfailed := failed_busyForwarded hsent hresponded
  have hnot : ¬ Acknowledged busyForwarded.viaBranch busyCallee log :=
    not_acknowledged_of_sentAcks hnone
  exact ⟨s, log, hrun, hacked, hfailed, hnot, fun h => hnot (h _ _ hfailed)⟩

/-- A branch that is drawn twice, by chance. -/
theorem failuresAcknowledged_iff_early : ∃ s log,
    busyRouter.exec noSessions earlyAckCall = some (s, log) ∧
      Failed busyForwarded busyCallee log ∧
      Acknowledged busyForwarded.viaBranch busyCallee log ∧
      (FailuresAcknowledged log ↔ ∀ invite dest, Failed invite dest log →
        ¬ busyRouter.Along (fun s a _ _ => drawsForAck invite.viaBranch dest s a = false)
          noSessions earlyAckCall) := by
  have hsummary : (busyRouter.exec noSessions earlyAckCall).map (fun run => decide
      ((0, StackEvent.sent busyForwarded busyCallee) ∈ run.2 ∧
        (3, StackEvent.responded busyForwarded busyCallee 486) ∈ run.2 ∧
        ∃ event ∈ run.2, ∃ ack ∈ sentAcks run.2, event = (2, .sent ack busyCallee) ∧
          ack.method = bytes "ACK" ∧ ack.viaBranch = busyForwarded.viaBranch)) = some true := by
    decide +kernel
  obtain ⟨⟨s, log⟩, hrun, hsummary⟩ := Option.map_eq_some_iff.mp hsummary
  obtain ⟨hsent, hresponded, _, hmem, ack, -, rfl, hack, hbranch⟩ := of_decide_eq_true hsummary
  exact ⟨s, log, hrun, failed_busyForwarded hsent hresponded, ⟨2, ack, hmem, hack, hbranch⟩,
    @failuresAcknowledged_iff plainUris _ busyProxy earlyAckCall s log hrun⟩

end SimIms.SCscf
