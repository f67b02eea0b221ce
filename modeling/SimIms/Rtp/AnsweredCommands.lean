import SimIms.Rtp.MediaCommands

/-!
# Answers to the own command

A cookie belongs to one call, and what is sent under it is the command of this call. Rtpengine
answers under the cookie of the command, so the response that completes a request has been made for
the command of the call that waits for it.
-/

namespace SimIms.Rtp

open Cxx Lib

/-! ## Payloads -/

section

variable {cookie cookie' : Bytes} {dict dict' : BencodeDict}

theorem blank_not_mem_decimal (n : Nat) : ' '.toUInt8 ∉ decimal n := fun hmem =>
  absurd (isDigit_of_mem_decimal hmem) (by decide)

/-- The client reads what it would have written. -/
theorem parseResponsePayload_payloadOf (hblank : ' '.toUInt8 ∉ cookie)
    (hfits : (payloadOf cookie dict).length ≤ maxDatagram) :
    ∃ fuel, parseResponsePayload (payloadOf cookie dict) fuel = some (.ok (cookie, dict)) := by
  have hsize : (bencodeEncode dict.value).length < 2 ^ 64 := by
    simp only [payloadOf, List.length_append, maxDatagram] at hfits
    omega
  obtain ⟨fuel, hdecode⟩ := bencodeDecode_bencodeEncode dict.value hsize
  refine ⟨fuel, ?_⟩
  have hspace : find (payloadOf cookie dict) ' '.toUInt8 0 = some cookie.length := by
    have hat : At (payloadOf cookie dict) 0 (payloadOf cookie dict) := at_zero _
    have hsplit : payloadOf cookie dict =
        cookie ++ ' '.toUInt8 :: bencodeEncode dict.value := by
      rw [payloadOf, List.append_assoc]
      rfl
    nth_rewrite 2 [hsplit] at hat
    rw [hat.find_eq hblank, Nat.zero_add]
  have hrest : (payloadOf cookie dict).drop (cookie.length + 1) = bencodeEncode dict.value := by
    rw [payloadOf, List.append_assoc, List.drop_append]
    simp [bytes]
  have htake : (payloadOf cookie dict).take cookie.length = cookie := by
    rw [payloadOf, List.append_assoc, List.take_left]
  rw [parseResponsePayload]
  simp only [hspace, hrest, hdecode, htake]
  rfl

/-- What a response that is read consists of. -/
theorem parseResponsePayload_eq_ok {response : Bytes} {fuel : Nat}
    (h : parseResponsePayload response fuel = some (.ok (cookie, dict))) :
    ∃ spacePos, find response ' '.toUInt8 0 = some spacePos ∧ cookie = response.take spacePos ∧
      bencodeDecode (response.drop (spacePos + 1)) fuel = .returns dict.value := by
  rw [parseResponsePayload] at h
  split at h
  · cases h
  · rename_i spacePos hspace
    split at h
    · cases h
    · cases h
    · rename_i entries ordered hdecode
      cases h
      exact ⟨spacePos, hspace, rfl, hdecode⟩
    · cases h

/-- With more fuel or less, a response that is read is the same. -/
theorem parseResponsePayload_unique {response : Bytes} {fuel fuel' : Nat}
    (h : parseResponsePayload response fuel = some (.ok (cookie, dict)))
    (h' : parseResponsePayload response fuel' = some (.ok (cookie', dict'))) :
    cookie = cookie' ∧ dict = dict' := by
  obtain ⟨spacePos, hspace, rfl, hdecode⟩ := parseResponsePayload_eq_ok h
  obtain ⟨spacePos', hspace', rfl, hdecode'⟩ := parseResponsePayload_eq_ok h'
  cases hspace.symm.trans hspace'
  obtain ⟨q, hparse⟩ := bencodeDecode_eq_returns_iff.mp hdecode
  obtain ⟨q', hparse'⟩ := bencodeDecode_eq_returns_iff.mp hdecode'
  have hsame : Outcome.returns (dict.value.tree, q) =
      (.returns (dict'.value.tree, q') : Parsed) := by
    apply Outcome.Settles.unique parse_monotone
    · exact ⟨(fun heq => by cases heq), fuel, hparse⟩
    · exact ⟨(fun heq => by cases heq), fuel', hparse'⟩
  refine ⟨rfl, ?_⟩
  obtain ⟨entries, ordered⟩ := dict
  obtain ⟨entries', ordered'⟩ := dict'
  cases hsame
  rfl

/-- A payload is that of one command only. -/
theorem payloadOf_injective (hblank : ' '.toUInt8 ∉ cookie) (hblank' : ' '.toUInt8 ∉ cookie')
    (hfits : (payloadOf cookie dict).length ≤ maxDatagram)
    (heq : payloadOf cookie dict = payloadOf cookie' dict') : cookie = cookie' ∧ dict = dict' := by
  obtain ⟨fuel, hparse⟩ := parseResponsePayload_payloadOf hblank hfits
  obtain ⟨fuel', hparse'⟩ := parseResponsePayload_payloadOf hblank' (heq ▸ hfits)
  rw [← heq] at hparse'
  exact parseResponsePayload_unique hparse hparse'

/-- Numbers are cookies that no command shares with another. -/
theorem payloadOf_decimal_injective {number number' : Nat}
    (hfits : (payloadOf (decimal number) dict).length ≤ maxDatagram)
    (heq : payloadOf (decimal number) dict = payloadOf (decimal number') dict') :
    number = number' ∧ dict = dict' := by
  obtain ⟨hcookie, hdict⟩ := payloadOf_injective (blank_not_mem_decimal number)
    (blank_not_mem_decimal number') hfits heq
  exact ⟨Client.decimal_injective hcookie, hdict⟩

end

/-! ## What a step of the client leaves -/

/-- Numbers are not given back, and no other datagrams have been read. -/
structure Client.Grows (s t : Client) (heard : List Datagram) : Prop where
  cookieCounter : s.cookieCounter ≤ t.cookieCounter
  received : ∀ datagram, .received datagram ∈ t.history →
    .received datagram ∈ s.history ∨ datagram ∈ heard

namespace Client

variable {s t : Client} {rtpengineEp : UdpEndpoint}

theorem Grows.refl (s : Client) : s.Grows s [] := ⟨Nat.le_refl _, fun _ => .inl⟩

/-- Another event has come to the history. -/
theorem grows_of_event {event : ClientEvent} {heard : List Datagram}
    (hcounter : t.cookieCounter = s.cookieCounter) (hhistory : t.history = s.history ++ [event])
    (hheard : ∀ datagram, event = .received datagram → datagram ∈ heard) : s.Grows t heard := by
  refine ⟨Nat.le_of_eq hcounter.symm, fun datagram hmem => ?_⟩
  rw [hhistory] at hmem
  obtain hmem | hmem := List.mem_append.mp hmem
  · exact .inl hmem
  · exact .inr (hheard datagram (List.mem_singleton.mp hmem).symm)

theorem grows_complete (s : Client) (request : Nat) (result : Result BencodeDict) :
    s.Grows (s.complete request result) [] :=
  grows_of_event rfl rfl fun _ heq => by cases heq

theorem grows_serve {op : ClientOp} {environment : ClientEnvironment} {answer : ClientAnswer op}
    {out : List Nat} (hserve : s.serve op environment = some (t, answer, out)) : s.Grows t [] := by
  cases op with
  | loadShuttingDown | sendTo =>
      cases hserve
      exact .refl s
  | generateCookie =>
      cases hserve
      exact ⟨Nat.le_succ _, fun _ => .inl⟩
  | erase cookie =>
      cases hserve
      exact ⟨Nat.le_refl _, fun _ => .inl⟩
  | emplace cookie =>
      cases hserve
      exact grows_of_event rfl rfl fun _ heq => by cases heq
  | waitFor request =>
      rw [Client.serve] at hserve
      split at hserve
      · cases hserve
      · split at hserve
        · cases hserve
          exact .refl s
        · split at hserve
          · cases hserve
            exact .refl s
          · cases hserve
  | ensureReceiverRunning =>
      cases hserve
      obtain ⟨-, heq⟩ | ⟨-, ⟨error, heq⟩ | heq⟩ :=
        s.ensureReceiverRunning_cases environment.threadError
      · rw [heq]
        exact .refl s
      · rw [heq]
        exact .refl s
      · rw [heq]
        exact ⟨Nat.le_refl _, fun _ => .inl⟩

theorem grows_takePending (s : Client) (cookie : Bytes) (dict : BencodeDict) :
    s.Grows (s.takePending cookie dict) [] := by
  rw [takePending]
  split
  · exact grows_of_event rfl rfl fun _ heq => by cases heq
  · exact grows_of_event rfl rfl fun _ heq => by cases heq

theorem grows_handle {datagram : Datagram} {fuel : Nat}
    (hhandle : s.handle rtpengineEp datagram fuel = some t) : s.Grows t [] := by
  rw [handle] at hhandle
  split at hhandle
  · cases hhandle
    exact grows_of_event rfl rfl fun _ heq => by cases heq
  · split at hhandle
    · cases hhandle
    · cases hhandle
      exact grows_of_event rfl rfl fun _ heq => by cases heq
    · cases hhandle
      exact grows_takePending s _ _

/-- What becomes of the loop and the destructor does not matter. -/
theorem Grows.same {u : Client} {heard : List Datagram} (h : s.Grows t heard)
    (hcounter : u.cookieCounter = t.cookieCounter) (hhistory : u.history = t.history) :
    s.Grows u heard :=
  ⟨hcounter ▸ h.cookieCounter, hhistory ▸ h.received⟩

theorem grows_background {event : ClientBackground}
    (hstep : s.background rtpengineEp event = some t) : s.Grows t event.heard := by
  cases event with
  | receiver label =>
      cases label with
      | datagram datagram =>
          simp only [background, receiverStep] at hstep
          split at hstep
          · cases hstep
            refine grows_of_event rfl rfl fun other heq => ?_
            cases heq
            exact List.mem_singleton.mpr rfl
          · cases hstep
      | error error =>
          simp only [background, receiverStep] at hstep
          split at hstep
          · cases hstep
            exact grows_of_event rfl rfl fun _ heq => by cases heq
          · cases hstep
      | proceed fuel choice =>
          simp only [background, receiverStep] at hstep
          split at hstep
          · cases hstep
          · cases hstep
            exact (Grows.refl s).same rfl rfl
          · cases hstep
          · exact grows_handle hstep
          · rename_i request dict _
            cases hstep
            exact (grows_complete s request (.ok dict)).same rfl rfl
          · cases hstep
            exact (Grows.refl s).same rfl rfl
          · cases hstep
            exact (Grows.refl s).same rfl rfl
          · rename_i error requests _
            split at hstep
            · cases hstep
              exact (Grows.refl s).same rfl rfl
            · rename_i request _
              cases hstep
              exact (grows_complete s request (.error error)).same rfl rfl
          · cases hstep
  | destructor choice =>
      simp only [background, destructorStep] at hstep
      split at hstep
      · cases hstep
        exact (Grows.refl s).same rfl rfl
      · cases hstep
        exact (Grows.refl s).same rfl rfl
      · cases hstep
        exact (Grows.refl s).same rfl rfl
      · split at hstep
        · cases hstep
          exact (Grows.refl s).same rfl rfl
        · rename_i request _
          cases hstep
          exact (grows_complete s request (.error shutdownError)).same rfl rfl
      · split at hstep
        · cases hstep
          exact (Grows.refl s).same rfl rfl
        · cases hstep
          exact (Grows.refl s).same rfl rfl
        · cases hstep
      · cases hstep

end Client

/-! ## Commands by their numbers -/

def CallProgress.number : CallProgress → Option Nat
  | .fresh => none
  | .numbered number => some number
  | .registered number _ => some number
  | .withdrawn number => some number
  | .answered number _ _ => some number

theorem Client.Linked.eventsOf_eq {s : Client} {log : List (Nat × Nat)} {id number : Nat}
    {progress : CallProgress} (h : s.Linked log id progress)
    (hnumber : progress.number = some number) : eventsOf log id = [number] := by
  cases progress with
  | fresh => cases hnumber
  | numbered | registered | withdrawn | answered =>
      cases hnumber
      exact h.1

/-- A payload is sent under the number of the call, and its command is that of the call. -/
def MediaThread.Allows (thread : MediaThread) : ClientOp → Prop
  | .sendTo payload => ∃ number request, thread.progress = .registered number request ∧
      payload = payloadOf (decimal number) thread.call.command
  | op => thread.progress.Allows op

theorem MediaThread.Allows.progress {thread : MediaThread} {op : ClientOp}
    (h : thread.Allows op) : thread.progress.Allows op := by
  cases op with
  | sendTo payload => trivial
  | loadShuttingDown | ensureReceiverRunning | generateCookie | emplace | erase | waitFor => exact h

/-- What a call returns has been read from the dictionary that has completed its request. -/
def MediaThread.Ends (thread : MediaThread) (result : Result MediaAnswer) : Prop :=
  ∀ answer, result = .ok answer → ∃ number request dict,
    thread.progress = .answered number request (.ok dict) ∧ thread.call.read dict = .ok answer

/-- What is on the network: commands under the numbers that have been drawn, and answers to them. -/
structure MediaLink.Keeps (rtpengineEp : UdpEndpoint)
    (rtpengine : Nat → BencodeDict → BencodeDict) (s : MediaLink) (log : List (Nat × Nat)) :
    Prop where
  client : s.client.Keeps rtpengineEp log
  commands : ∀ payload ∈ s.commands, payload.length ≤ maxDatagram ∧
    ∃ number ≤ s.client.cookieCounter, ∃ cmd, payload = payloadOf (decimal number) cmd
  responses : ∀ datagram ∈ s.responses, ∃ cookie cmd choice, ' '.toUInt8 ∉ cookie ∧
    payloadOf cookie cmd ∈ s.commands ∧
    datagram.data = payloadOf cookie (rtpengine choice cmd) ∧ datagram.data.length ≤ maxDatagram
  received : ∀ datagram, .received datagram ∈ s.client.history →
    datagram.sender = rtpengineEp → datagram ∈ s.responses

/-- What is sent under the number of a call is its command. -/
structure MediaLink.Linked (s : MediaLink) (log : List (Nat × Nat)) (id : Nat)
    (thread : MediaThread) : Prop where
  client : s.client.Linked log id thread.progress
  own : ∀ number, thread.progress.number = some number →
    ∀ cmd, payloadOf (decimal number) cmd ∈ s.commands → cmd = thread.call.command

def mediaDiscipline (rtpengineEp : UdpEndpoint) (rtpengine : Nat → BencodeDict → BencodeDict) :
    Discipline MediaLink clientOps MediaThread (Result MediaAnswer) Nat where
  contract := ⟨MediaThread.Allows, ClientOp.Expects, fun _ => False, fun thread op answer =>
    { thread with progress := thread.progress.track op answer }⟩
  assumes _ _ := True
  shared := MediaLink.Keeps rtpengineEp rtpengine
  linked := MediaLink.Linked
  result := MediaThread.Ends

section

variable {rtpengineEp : UdpEndpoint} {rtpengine : Nat → BencodeDict → BencodeDict}

/-- A call that is given a dictionary has it from its request. -/
theorem sendCommand_returns (call : MediaCall) :
    (sendCommand call.command).Returns (mediaDiscipline rtpengineEp rtpengine).contract { call }
      fun thread dict => thread.call = call ∧
        ∃ number request, thread.progress = .answered number request (.ok dict) := by
  refine ⟨rfl, fun shuttingDown _ => ?_⟩
  cases shuttingDown with
  | true => exact fun dict heq => by cases heq
  | false =>
      refine ⟨rfl, fun started _ => ?_⟩
      cases started with
      | error error => exact fun dict heq => by cases heq
      | ok _ =>
          refine ⟨rfl, fun cookie hcookie => ?_⟩
          obtain ⟨number, rfl⟩ := hcookie
          have hvalue : decimal number = decimal (digitsValue (decimal number)) := by
            rw [digitsValue_decimal]
          refine ⟨⟨digitsValue (decimal number), rfl, hvalue⟩, fun request _ => ?_⟩
          refine ⟨⟨digitsValue (decimal number), request, rfl, ?_⟩, fun sent _ => ?_⟩
          · rw [← hvalue]
            rfl
          cases sent with
          | some message =>
              refine ⟨⟨_, request, rfl, hvalue⟩, fun _ _ => ?_⟩
              exact fun dict heq => by cases heq
          | none =>
              refine ⟨⟨_, rfl⟩, fun answer _ => ?_⟩
              cases answer with
              | none =>
                  refine ⟨⟨_, request, rfl, hvalue⟩, fun _ _ => ?_⟩
                  exact fun dict heq => by cases heq
              | some result =>
                  intro dict heq
                  cases heq
                  exact ⟨rfl, _, _, rfl⟩

theorem run_meets (call : MediaCall) :
    call.run.Meets (mediaDiscipline rtpengineEp rtpengine).contract { call } MediaThread.Ends := by
  rw [MediaCall.run_eq]
  apply (sendCommand_returns call).andThen
  intro thread dict h answer hread
  obtain ⟨rfl, number, request, hprogress⟩ := h
  exact ⟨number, request, dict, hprogress, hread⟩

variable {s : MediaLink} {log : List (Nat × Nat)} {id : Nat} {thread : MediaThread}

/-- The cookies of the commands that have been sent are numbers that have been drawn. -/
theorem MediaLink.Keeps.number_le (h : s.Keeps rtpengineEp rtpengine log) {number : Nat}
    {cmd : BencodeDict} (hmem : payloadOf (decimal number) cmd ∈ s.commands) :
    number ≤ s.client.cookieCounter := by
  obtain ⟨hfits, drawn, hle, cmd', heq⟩ := h.commands _ hmem
  obtain ⟨rfl, -⟩ := payloadOf_decimal_injective hfits heq
  exact hle

/-- What is put on the network is the command of the call, under its number. -/
theorem MediaThread.Allows.sent {op : ClientOp} {answer : ClientAnswer op} {payload : Bytes}
    (h : thread.Allows op) (hmem : payload ∈ op.sent answer) :
    payload.length ≤ maxDatagram ∧ ∃ number, thread.progress.number = some number ∧
      payload = payloadOf (decimal number) thread.call.command := by
  cases op with
  | sendTo sent =>
      obtain ⟨number, request, hprogress, rfl⟩ := h
      cases answer with
      | some message => cases hmem
      | none =>
          rw [ClientOp.sent] at hmem
          split at hmem
          · rename_i hfits
            cases List.mem_singleton.mp hmem
            exact ⟨hfits, number, by rw [hprogress]; rfl, rfl⟩
          · cases hmem
  | loadShuttingDown | ensureReceiverRunning | generateCookie | emplace | erase | waitFor =>
      cases hmem

/-- A call keeps its number, or draws one that is new. -/
theorem CallProgress.number_track {s t : Client} {progress : CallProgress} {op : ClientOp}
    {environment : ClientEnvironment} {answer : ClientAnswer op} {out : List Nat} {number : Nat}
    (hserve : s.serve op environment = some (t, answer, out))
    (h : (progress.track op answer).number = some number) :
    progress.number = some number ∨ s.cookieCounter < number := by
  cases op with
  | loadShuttingDown | ensureReceiverRunning | sendTo => exact .inl h
  | generateCookie =>
      cases hserve
      rw [track, digitsValue_decimal] at h
      cases h
      exact .inr (Nat.lt_succ_self _)
  | emplace cookie =>
      cases progress with
      | fresh | numbered | registered | withdrawn | answered => exact .inl h
  | erase cookie =>
      cases progress with
      | fresh | numbered | registered | withdrawn | answered => exact .inl h
  | waitFor request =>
      cases answer with
      | none => exact .inl h
      | some result =>
          cases progress with
          | fresh | numbered | registered | withdrawn | answered => exact .inl h

theorem mediaDiscipline_sound :
    (mediaDiscipline rtpengineEp rtpengine).Sound (mediaService rtpengineEp rtpengine) where
  track _ _ _ := rfl
  begins := run_meets
  fresh s log id call hkeeps hstarted := by
    refine ⟨eventsOf_eq_nil hstarted, fun number hnumber => ?_⟩
    cases hnumber
  serves := by
    intro s log id thread op environment t answer out hkeeps hlinked hallows hserve _
    obtain ⟨⟨client, answer', out'⟩, hclient, heq⟩ := Option.map_eq_some_iff.mp hserve
    cases heq
    obtain ⟨hclientKeeps, hexpects, hclientLinked, hothers⟩ :=
      (clientDiscipline_sound rtpengineEp).serves s.client log id thread.progress op environment
        client answer' out' hkeeps.client hlinked.client hallows.progress hclient trivial
    have hgrows := Client.grows_serve hclient
    refine ⟨⟨hclientKeeps, ?_, ?_, ?_⟩, hexpects, ⟨hclientLinked, ?_⟩, ?_⟩
    · intro payload hmem
      obtain hmem | hmem := List.mem_append.mp hmem
      · obtain ⟨hfits, number, hle, hpayload⟩ := hkeeps.commands payload hmem
        exact ⟨hfits, number, Nat.le_trans hle hgrows.cookieCounter, hpayload⟩
      · obtain ⟨hfits, number, hnumber, hpayload⟩ := hallows.sent hmem
        have hdrawn : (id, number) ∈ log := by
          rw [← mem_eventsOf, hlinked.client.eventsOf_eq hnumber]
          exact List.mem_singleton_self number
        exact ⟨hfits, number, Nat.le_trans (hkeeps.client.counted _ hdrawn) hgrows.cookieCounter,
          _, hpayload⟩
    · intro datagram hmem
      obtain ⟨cookie, cmd, choice, hblank, hsent, hdata, hfits⟩ := hkeeps.responses datagram hmem
      exact ⟨cookie, cmd, choice, hblank, List.mem_append_left _ hsent, hdata, hfits⟩
    · intro datagram hmem
      obtain hmem | hmem := hgrows.received datagram hmem
      · exact hkeeps.received datagram hmem
      · cases hmem
    · intro number hnumber cmd hmem
      obtain hmem | hmem := List.mem_append.mp hmem
      · obtain hbefore | hdrawn := CallProgress.number_track hclient hnumber
        · exact hlinked.own number hbefore cmd hmem
        · have hle := hkeeps.number_le hmem
          omega
      · obtain ⟨hfits, sent, -, hpayload⟩ := hallows.sent hmem
        obtain ⟨-, hcommand⟩ := payloadOf_decimal_injective hfits hpayload
        exact hcommand
    · intro other otherThread hne hother
      refine ⟨hothers other _ hne hother.client, fun number hnumber cmd hmem => ?_⟩
      obtain hmem | hmem := List.mem_append.mp hmem
      · exact hother.own number hnumber cmd hmem
      · obtain ⟨hfits, sent, hsent, hpayload⟩ := hallows.sent hmem
        obtain ⟨rfl, -⟩ := payloadOf_decimal_injective hfits hpayload
        have hevents := hlinked.client.eventsOf_eq hsent
        refine (hkeeps.client.decimal_ne hevents hne number ?_ rfl).elim
        rw [hother.client.eventsOf_eq hnumber]
        exact List.mem_singleton_self number
  background := by
    intro s log event t hkeeps hstep
    cases event with
    | client event =>
        simp only [mediaService, MediaLink.background] at hstep
        split at hstep
        · rename_i hheard
          obtain ⟨client, hclient, rfl⟩ := Option.map_eq_some_iff.mp hstep
          obtain ⟨hclientKeeps, hclientLinked⟩ := (clientDiscipline_sound rtpengineEp).background
            s.client log event client hkeeps.client hclient
          have hgrows := Client.grows_background hclient
          refine ⟨⟨hclientKeeps, ?_, hkeeps.responses, ?_⟩, fun id thread hlinked =>
            ⟨hclientLinked id _ hlinked.client, hlinked.own⟩⟩
          · intro payload hmem
            obtain ⟨hfits, number, hle, hpayload⟩ := hkeeps.commands payload hmem
            exact ⟨hfits, number, Nat.le_trans hle hgrows.cookieCounter, hpayload⟩
          · intro datagram hmem hsender
            obtain hmem | hmem := hgrows.received datagram hmem
            · exact hkeeps.received datagram hmem hsender
            · exact hheard datagram hmem hsender
        · cases hstep
    | rtpengine cookie cmd choice =>
        simp only [mediaService, MediaLink.background] at hstep
        split at hstep
        · rename_i hanswers
          obtain ⟨hblank, hsent, hfits⟩ := hanswers
          cases hstep
          refine ⟨⟨hkeeps.client, hkeeps.commands, ?_, ?_⟩, fun id thread hlinked =>
            ⟨hlinked.client, hlinked.own⟩⟩
          · intro datagram hmem
            obtain hmem | hmem := List.mem_append.mp hmem
            · exact hkeeps.responses datagram hmem
            · cases List.mem_singleton.mp hmem
              exact ⟨cookie, cmd, choice, hblank, List.contains_iff_mem.mp hsent, rfl, hfits⟩
          · intro datagram hmem hsender
            exact List.mem_append_left _ (hkeeps.received datagram hmem hsender)
        · cases hstep

theorem received_of_answered {history : List ClientEvent} {cookie : Bytes} {request : Nat}
    {dict : BencodeDict} (h : Answered rtpengineEp history cookie request dict) :
    ∃ datagram, .received datagram ∈ history ∧ ResponseTo rtpengineEp datagram cookie dict := by
  obtain ⟨before, after, datagram, rfl, hresponse, hread⟩ := h
  refine ⟨datagram, List.mem_append.mpr ?_, hresponse⟩
  obtain hafter | ⟨earlier, later, rfl, -⟩ := hread
  · exact .inr (List.mem_cons_of_mem _ hafter)
  · exact .inl (List.mem_append_right _ List.mem_cons_self)

/-- Whatever the network does with datagrams and whichever calls wait at the same time, as long as
the counter of the cookies does not wrap around: what a function returns has been read from a
response that rtpengine has made for the command of this very call. -/
theorem media_answers_own_command {s : MediaThreads}
    {actions : List (ThreadAction ClientEnvironment MediaCall MediaBackground)}
    (hrun : (threadsMachine (mediaService rtpengineEp rtpengine)).exec (.init {}) actions =
      some (s, log)) {answer : MediaAnswer}
    (houtcome : s.outcome id = some (thread, .ok answer)) :
    ∃ number choice, eventsOf log id = [number] ∧
      payloadOf (decimal number) thread.call.command ∈ s.shared.commands ∧
      thread.call.read (rtpengine choice thread.call.command) = .ok answer := by
  have hinit : (mediaDiscipline rtpengineEp rtpengine).shared {} [] := by
    refine ⟨Client.init_keeps rtpengineEp, ?_, ?_, ?_⟩
    · exact fun _ hmem => (List.not_mem_nil hmem).elim
    · exact fun _ hmem => (List.not_mem_nil hmem).elim
    · exact fun _ hmem => (List.not_mem_nil hmem).elim
  have hinv : s.Inv (mediaDiscipline rtpengineEp rtpengine) log :=
    mediaDiscipline_sound.exec_of_forall (fun _ _ => trivial) hinit hrun
  have hkeeps : s.shared.Keeps rtpengineEp rtpengine log := hinv.shared
  have hlinked : s.shared.Linked log id thread := hinv.linked_outcome houtcome
  have hends : thread.Ends (.ok answer) := hinv.result houtcome
  obtain ⟨number, request, dict, hprogress, hread⟩ := hends answer rfl
  have hnumber : thread.progress.number = some number := by rw [hprogress]; rfl
  have hclient : s.shared.client.Linked log id (.answered number request (.ok dict)) := by
    rw [← hprogress]
    exact hlinked.client
  obtain ⟨datagram, hreceived, hsender, fuel, hparse⟩ :=
    received_of_answered (hkeeps.client.answered hclient)
  obtain ⟨cookie, cmd, choice, hblank, hsent, hdata, hfits⟩ :=
    hkeeps.responses datagram (hkeeps.received datagram hreceived hsender)
  rw [hdata] at hparse hfits
  obtain ⟨fuel', hparse'⟩ := parseResponsePayload_payloadOf hblank hfits
  obtain ⟨rfl, rfl⟩ := parseResponsePayload_unique hparse hparse'
  obtain rfl := hlinked.own number hnumber cmd hsent
  exact ⟨number, choice, hlinked.client.eventsOf_eq hnumber, hsent, hread⟩

end

/-! ## Two offers at the same time -/

/-- Rtpengine puts its mark on the SDP. -/
def relaying (_ : Nat) (cmd : BencodeDict) : BencodeDict :=
  let dict := BencodeDict.empty.set (bytes "result") (stringValue (bytes "ok"))
  match cmd.find (bytes "sdp") with
  | some (.string sdp) => dict.set (bytes "sdp") (stringValue (bytes "relayed " ++ sdp))
  | _ => dict

def offerOf (callId : String) : MediaCall :=
  .offer ⟨bytes callId, bytes "a", []⟩ (bytes callId) {}

def responseTo (cookie callId : String) : MediaBackground :=
  .client (.receiver (.datagram ⟨pingEndpoint,
    payloadOf (bytes cookie) (relaying 0 (offerOf callId).command)⟩))

/-- The second offer is answered first. -/
def twoOffers : List (ThreadAction ClientEnvironment MediaCall MediaBackground) :=
  let proceed : ThreadAction ClientEnvironment MediaCall MediaBackground :=
    .background (.client (.receiver (.proceed 40 0)))
  .start (offerOf "first") :: .start (offerOf "second") ::
    (List.replicate 5 (.run 0 {}) ++ List.replicate 5 (.run 1 {}) ++
      [.background (.rtpengine (bytes "2") (offerOf "second").command 0),
        .background (.rtpengine (bytes "1") (offerOf "first").command 0),
        proceed, .background (responseTo "2" "second"), proceed, proceed,
        proceed, .background (responseTo "1" "first"), proceed, proceed, .run 0 {}, .run 1 {}])

theorem media_answers_own_command_two : ∃ s log thread,
    (threadsMachine (mediaService pingEndpoint relaying)).exec (.init {}) twoOffers =
      some (s, log) ∧
    s.outcome 0 = some (thread, .ok (.media { sdp := bytes "relayed first" })) ∧
    ∃ number choice, eventsOf log 0 = [number] ∧
      payloadOf (decimal number) thread.call.command ∈ s.shared.commands ∧
      thread.call.read (relaying choice thread.call.command) =
        .ok (.media { sdp := bytes "relayed first" }) := by
  have hsummary : (((threadsMachine (mediaService pingEndpoint relaying)).exec (.init {})
      twoOffers).bind fun run => (run.1.outcome 0).map fun outcome => outcome.2.toOption) =
      some (some (.media { sdp := bytes "relayed first" })) := by
    decide +kernel
  obtain ⟨⟨s, log⟩, hrun, hsummary⟩ := Option.bind_eq_some_iff.mp hsummary
  obtain ⟨⟨thread, result⟩, houtcome, hresult⟩ := Option.map_eq_some_iff.mp hsummary
  cases result with
  | error error => cases hresult
  | ok answer =>
      cases hresult
      exact ⟨s, log, thread, hrun, houtcome, media_answers_own_command hrun houtcome⟩

end SimIms.Rtp
