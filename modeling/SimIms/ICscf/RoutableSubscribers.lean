import SimIms.ICscf.ScscfSelector
import SimIms.Lib.Threads

/-!
# Where a subscriber is routed to

The S-CSCF puts itself down as the server of a subscriber with a name made of its domain, the
I-CSCF takes what is put down for an address. The default is used for a subscriber for whom
nothing has been put down yet, so a subscriber is reached at the endpoint of the default until the
first server assignment.
-/

namespace SimIms.ICscf

open Cxx Lib Sip Db Diameter

/-! ## Calls -/

inductive HssRequestOp where
  | repository (op : RepositoryOp)
  | environment (op : EnvironmentOp)

abbrev HssRequestOp.Answer : HssRequestOp → Type
  | .repository op => RepositoryAnswer op
  | .environment op => EnvironmentAnswer op

def hssServerOps : Interface := ⟨HssRequestOp, HssRequestOp.Answer⟩

instance : Includes repository hssServerOps := ⟨.repository, fun _ answer => answer⟩
instance : Includes environment hssServerOps := ⟨.environment, fun _ answer => answer⟩

/-- What the I-CSCF and the S-CSCF ask the HSS. -/
inductive HssCall where
  | selectForRegistration (impi impu : Bytes)
  | selectForRouting (impu : Bytes)
  | multimediaAuth (params : MarParams)
  | serverAssignment (impi impu : Bytes)

def HssCall.selects : HssCall → Bool
  | .selectForRegistration _ _ => true
  | .selectForRouting _ => true
  | _ => false

/-- The URI of the S-CSCF, for who has asked for one. -/
abbrev HssReply := Result (Option Bytes)

section

variable [OsipParser] [Milenage] (defaultScscfUri domain : Bytes)

/-- The name that the registrar gives itself. -/
def serverName : Bytes := bytes "sip:scscf." ++ domain

def HssCall.begin : HssCall → Program hssServerOps Exception HssReply
  | .selectForRegistration impi impu =>
      (ScscfSelector.selectForRegistration defaultScscfUri impi impu).andThen fun uri =>
        .pure (.ok (some uri))
  | .selectForRouting impu =>
      (ScscfSelector.selectForRouting defaultScscfUri impu).andThen fun uri =>
        .pure (.ok (some uri))
  | .multimediaAuth params =>
      (MongoHssClient.multimediaAuth params).andThen fun _ => .pure (.ok none)
  | .serverAssignment impi impu =>
      (MongoHssClient.serverAssignment ⟨impi, impu, serverName domain⟩).andThen fun _ =>
        .pure (.ok none)

end

/-- What becomes of the records, by their places in the collection. -/
inductive HssEvent where
  | found (place : Nat)
  | assigned (place : Nat) (scscfUri : Bytes)
deriving DecidableEq, Repr

/-- What is not determined by the collection: whether an operation fails, and random bytes. -/
structure HssEnvironment where
  failure : Option ErrorInfo := none
  surroundings : Surroundings := {}

def occurred (collection : Collection) : RepositoryOp → Option ErrorInfo → List HssEvent
  | .findOneByField field value, none =>
      ((collection.findIdx? fun subscriber => field.value subscriber == value).map
        HssEvent.found).toList
  | .updateServing imsi scscfUri, none =>
      ((collection.findIdx? fun subscriber => subscriber.imsi == imsi).map
        (HssEvent.assigned · scscfUri)).toList
  | _, _ => []

def serveHss (collection : Collection) : (op : HssRequestOp) → HssEnvironment →
    Option (Collection × op.Answer × List HssEvent)
  | .repository op, environment =>
      some ((collection.serve op environment.failure).1,
        (collection.serve op environment.failure).2, occurred collection op environment.failure)
  | .environment op, environment => some (collection, environment.surroundings.answer 0 op, [])

/-- A call, and the record that it has found last. -/
structure HssThread where
  call : HssCall
  found : Option SubscriberRecord := none

def HssThread.track (thread : HssThread) : (op : HssRequestOp) → op.Answer → HssThread
  | .repository (.findOneByField _ _), .ok (some record) => { thread with found := some record }
  | _, _ => thread

section

variable [OsipParser] [Milenage] (defaultScscfUri domain : Bytes)

/-- The HSS, with any number of calls under way. Nothing happens besides. -/
def hssService : Service Collection hssServerOps Exception HssThread HssReply HssEnvironment HssCall
    Empty HssEvent where
  serve := serveHss
  begin := HssCall.begin defaultScscfUri domain
  background _ event := event.elim
  fresh call := { call }
  track := HssThread.track

end

abbrev HssThreads := Threads Collection hssServerOps Exception HssThread HssReply

abbrev HssAction := ThreadAction HssEnvironment HssCall Empty

abbrev HssLog := List (Nat × HssEvent)

/-! ## Requests at the assigned server -/

section

variable [OsipParser]

/-- Whoever asked for the S-CSCF and got the record at this place was sent to the endpoint. -/
def RoutedTo (endpoint : Endpoint) (place : Nat) (s : HssThreads) (log : HssLog) : Prop :=
  ∀ tid thread uri, s.outcome tid = some (thread, .ok (some uri)) → (tid, .found place) ∈ log →
    parseEndpointFromUri uri = some endpoint

/-- A server is put down in the record at this place that is not at the endpoint. -/
def reassigns (endpoint : Endpoint) (place : Nat) (s : HssThreads) : HssAction → Bool
  | .run tid environment =>
      match s.operation tid with
      | some (_, ⟨.repository (.updateServing imsi scscfUri), _⟩) =>
          environment.failure.isNone &&
            s.shared.findIdx? (fun subscriber => subscriber.imsi == imsi) == some place &&
            parseEndpointFromUri scscfUri != some endpoint
      | _ => false
  | _ => false

/-- What is put down in the record at this place is at the endpoint. -/
def Undisturbed (endpoint : Endpoint) (place : Nat) (log : HssLog) : Prop :=
  ∀ tid uri, (tid, .assigned place uri) ∈ log → parseEndpointFromUri uri = some endpoint

def Routes (defaultScscfUri : Bytes) (endpoint : Endpoint) (subscriber : SubscriberRecord) : Prop :=
  parseEndpointFromUri (MongoHssClient.resolveAssignedScscf defaultScscfUri subscriber) =
    some endpoint

end

/-! ## What a call may do -/

/-- A call that asks for the S-CSCF stops at the first record. -/
def HssThread.Allows (thread : HssThread) : HssRequestOp → Prop
  | .repository (.findOneByField _ _) => thread.call.selects = true → thread.found = none
  | _ => True

/-- The URI that is answered is the one of the record found. -/
def HssThread.Ends (defaultScscfUri : Bytes) (thread : HssThread) (reply : HssReply) : Prop :=
  ∀ uri, reply = .ok (some uri) → thread.call.selects = true ∧ ∃ record,
    thread.found = some record ∧ uri = MongoHssClient.resolveAssignedScscf defaultScscfUri record

theorem HssThread.allows_of_unselected {thread : HssThread} (op : HssRequestOp)
    (h : thread.call.selects = false) : thread.Allows op := by
  cases op with
  | environment op => exact trivial
  | repository op =>
      cases op with
      | findOneByField field value =>
          intro hselects
          cases h.symm.trans hselects
      | updateSqn imsi oldSqn newSqn => exact trivial
      | updateServing imsi scscfUri => exact trivial

theorem HssThread.call_track (thread : HssThread) (op : HssRequestOp) (answer : op.Answer) :
    (thread.track op answer).call = thread.call := by
  rw [HssThread.track.eq_def]
  split
  · rfl
  · rfl

def hssContract : Contract hssServerOps HssThread where
  Allows := HssThread.Allows
  Expects _ _ := True
  Throws _ := True
  track := HssThread.track

/-- A call that asks for the S-CSCF, and the record it has got. -/
def HssThread.Got (thread : HssThread) (record : Option SubscriberRecord) : Prop :=
  thread.call.selects = true ∧ thread.found = record

section

variable {defaultScscfUri : Bytes} {thread : HssThread}

theorem findFirst_returns (field : Field) (values : List Bytes) (h : thread.Got none) :
    Program.Returns hssContract thread
      (MongoSubscriberRepository.findFirst (G := hssServerOps) field values) HssThread.Got := by
  induction values generalizing thread with
  | nil => exact Program.returns_pure fun _ heq => by cases heq; exact h
  | cons value values ih =>
      refine Program.Returns.andThen (Q := HssThread.Got) ⟨fun _ => h.2, fun answer _ => ?_⟩
        fun g record hgot => ?_
      · intro record heq
        cases heq
        cases record with
        | none => exact h
        | some record => exact ⟨h.1, rfl⟩
      · cases record with
        | none => exact ih hgot
        | some record => exact Program.returns_pure fun _ heq => by cases heq; exact hgot

theorem findOneByImsiOrTel_returns (imsis tels : List Bytes) (h : thread.Got none) :
    Program.Returns hssContract thread
      (MongoSubscriberRepository.findOneByImsiOrTel (G := hssServerOps) imsis tels)
      HssThread.Got := by
  refine (findFirst_returns .imsi imsis h).andThen fun g record hgot => ?_
  cases record with
  | none => exact findFirst_returns .tel tels hgot
  | some record => exact Program.returns_pure fun _ heq => by cases heq; exact hgot

/-- A record is answered with its URI. -/
theorem resolved_returns {record : SubscriberRecord} (h : thread.Got (some record)) :
    Program.Returns hssContract thread
      ((.pure (.ok (MongoHssClient.resolveAssignedScscf defaultScscfUri record))) :
        Program hssServerOps Exception (Result Bytes))
      fun thread uri => thread.Ends defaultScscfUri (.ok (some uri)) := by
  refine Program.returns_pure fun uri heq uri' heq' => ?_
  cases heq
  cases heq'
  exact ⟨h.1, record, h.2, rfl⟩

/-- What is answered to a request is the URI that was selected, if there was one. -/
theorem selected_meets {p : Program hssServerOps Exception (Result Bytes)} {error : ErrorInfo}
    (h : Program.Returns hssContract thread p
      fun thread uri => thread.Ends defaultScscfUri (.ok (some uri))) :
    ((p.andThen fun uri => if uri = [] then .pure (.error error) else .pure (.ok uri)).andThen
      fun uri => .pure (.ok (some uri))).Meets hssContract thread
      fun thread reply => thread.Ends defaultScscfUri reply := by
  have hselected : Program.Returns hssContract thread
      (p.andThen fun uri => if uri = [] then .pure (.error error) else .pure (.ok uri))
      fun thread uri => thread.Ends defaultScscfUri (.ok (some uri)) := by
    refine h.andThen fun g uri hends => ?_
    split
    · exact Program.returns_error
    · exact Program.returns_pure fun _ heq => by cases heq; exact hends
  refine Program.Meets.bind hselected fun g result hresult => ?_
  cases result with
  | error error => exact fun uri heq => by cases heq
  | ok uri => exact hresult uri rfl

/-- Other calls do not answer with a URI. -/
theorem unselected_meets {α : Type} {p : Program hssServerOps Exception (Result α)}
    (h : thread.call.selects = false) :
    (p.andThen fun _ => .pure (.ok none)).Meets hssContract thread
      fun thread reply => thread.Ends defaultScscfUri reply := by
  have hp : p.Meets hssContract thread fun _ _ => True := by
    refine Program.meets_of_invariant (I := fun thread => thread.call.selects = false) p h ?_
      (fun _ _ => trivial) ?_ (fun _ _ _ => trivial)
    · exact fun _ op hcall => HssThread.allows_of_unselected op hcall
    · intro thread op answer hcall
      have hsame := HssThread.call_track thread op answer
      exact (congrArg HssCall.selects hsame).trans hcall
  refine Program.Meets.bind hp fun g result _ => ?_
  cases result with
  | error error => exact fun uri heq => by cases heq
  | ok value => exact fun uri heq => by cases heq

end

section

variable [OsipParser] {defaultScscfUri : Bytes} {thread : HssThread}

theorem userAuthorization_returns (impi impu : Bytes) (h : thread.Got none) :
    Program.Returns hssContract thread
      (MongoHssClient.userAuthorization (G := hssServerOps) defaultScscfUri impi impu)
      fun thread uri => thread.Ends defaultScscfUri (.ok (some uri)) := by
  have hfind : Program.Returns hssContract thread
      (MongoHssClient.findSubscriber (G := hssServerOps) "Subscriber not found for UAR" impi impu)
      fun thread record => thread.Got (some record) := by
    refine (findOneByImsiOrTel_returns _ _ h).andThen fun g record hgot => ?_
    cases record with
    | none => exact Program.returns_error
    | some record => exact Program.returns_pure fun _ heq => by cases heq; exact hgot
  exact hfind.andThen fun g record hgot => resolved_returns hgot

theorem locationInfo_returns (impu : Bytes) (h : thread.Got none) :
    Program.Returns hssContract thread
      (MongoHssClient.locationInfo (G := hssServerOps) defaultScscfUri impu)
      fun thread uri => thread.Ends defaultScscfUri (.ok (some uri)) := by
  refine (findOneByImsiOrTel_returns _ _ h).andThen fun g record hgot => ?_
  cases record with
  | none => exact Program.returns_error
  | some record => exact resolved_returns hgot

variable [Milenage] {domain : Bytes}

theorem begin_meets (call : HssCall) :
    (call.begin defaultScscfUri domain).Meets hssContract { call }
      fun thread reply => thread.Ends defaultScscfUri reply := by
  cases call with
  | selectForRegistration impi impu =>
      exact selected_meets (userAuthorization_returns impi impu ⟨rfl, rfl⟩)
  | selectForRouting impu => exact selected_meets (locationInfo_returns impu ⟨rfl, rfl⟩)
  | multimediaAuth params => exact unselected_meets rfl
  | serverAssignment impi impu => exact unselected_meets rfl

end

/-! ## What the records are -/

/-- A call finds a record at a place, or nothing. -/
theorem find_cases (collection : Collection) (field : Field) (value : Bytes) :
    (collection.find? (fun subscriber => field.value subscriber == value) = none ∧
      occurred collection (.findOneByField field value) none = []) ∨
    ∃ place record, collection.find? (fun subscriber => field.value subscriber == value) =
        some record ∧ collection[place]? = some record ∧
      occurred collection (.findOneByField field value) none = [.found place] := by
  rw [List.find?_eq_bind_findIdx?_getElem?, occurred]
  cases hindex : collection.findIdx? fun subscriber => field.value subscriber == value with
  | none => exact .inl ⟨rfl, rfl⟩
  | some place =>
      obtain ⟨hlt, -, -⟩ := List.findIdx?_eq_some_iff_getElem.mp hindex
      exact .inr ⟨place, collection[place], List.getElem?_eq_getElem hlt,
        List.getElem?_eq_getElem hlt, rfl⟩

section

variable [OsipParser] {defaultScscfUri : Bytes} {endpoint : Endpoint} {place tid : Nat}
variable {collection : Collection} {log : HssLog} {thread : HssThread}

/-- The record at this place is one whose URI is at the endpoint. -/
def RoutesAt (defaultScscfUri : Bytes) (endpoint : Endpoint) (place : Nat)
    (collection : Collection) : Prop :=
  ∃ record, collection[place]? = some record ∧ Routes defaultScscfUri endpoint record

theorem Undisturbed.of_append {out : HssLog} (h : Undisturbed endpoint place (log ++ out)) :
    Undisturbed endpoint place log :=
  fun tid uri hmem => h tid uri (List.mem_append_left out hmem)

theorem RoutesAt.updateOne {filter : SubscriberRecord → Bool}
    {update : SubscriberRecord → SubscriberRecord}
    (h : RoutesAt defaultScscfUri endpoint place collection)
    (hupdate : ∀ record, collection.findIdx? filter = some place →
      Routes defaultScscfUri endpoint record → Routes defaultScscfUri endpoint (update record)) :
    RoutesAt defaultScscfUri endpoint place (collection.updateOne filter update).1 := by
  obtain ⟨record, hrecord, hroutes⟩ := h
  rw [Collection.updateOne]
  cases hindex : collection.findIdx? filter with
  | none => exact ⟨record, hrecord, hroutes⟩
  | some i =>
      change ∃ other, (collection.modify i update)[place]? = some other ∧ _
      rw [List.getElem?_modify, hrecord]
      by_cases hsame : i = place
      · rw [hsame] at hindex
        exact ⟨update record, congrArg some (if_pos hsame), hupdate record hindex hroutes⟩
      · exact ⟨record, congrArg some (if_neg hsame), hroutes⟩

/-- A server that is at the endpoint may be put down. -/
theorem routes_of_assigned {scscfUri : Bytes} (record : SubscriberRecord)
    (h : parseEndpointFromUri scscfUri = some endpoint) :
    Routes defaultScscfUri endpoint { record with assignedScscf := scscfUri } := by
  have hne : scscfUri ≠ [] := by
    rintro rfl
    exact Option.some_ne_none endpoint h.symm
  rw [Routes, MongoHssClient.resolveAssignedScscf, if_neg hne]
  exact h

/-- A subscriber for whom nothing is put down, or what is the default anyway. -/
theorem routes_of_default {subscriber : SubscriberRecord}
    (hassigned : subscriber.assignedScscf = [] ∨ subscriber.assignedScscf = defaultScscfUri)
    (hdefault : parseEndpointFromUri defaultScscfUri = some endpoint) :
    Routes defaultScscfUri endpoint subscriber := by
  rw [Routes, MongoHssClient.resolveAssignedScscf]
  split
  · exact hdefault
  · rename_i hne
    rwa [hassigned.resolve_left hne]

/-! ## What a call knows -/

/-- As long as nothing has been disturbed, the record is one at the endpoint, and so is the one
that a call has found there. -/
def routableDiscipline (defaultScscfUri : Bytes) (endpoint : Endpoint) (place : Nat) :
    Discipline Collection hssServerOps HssThread HssReply HssEvent where
  contract := hssContract
  assumes _ _ := True
  shared collection log :=
    Undisturbed endpoint place log → RoutesAt defaultScscfUri endpoint place collection
  linked _ log tid thread :=
    (thread.found = none → (tid, .found place) ∉ log) ∧
      (Undisturbed endpoint place log → thread.call.selects = true → ∀ record,
        thread.found = some record → (tid, .found place) ∈ log →
          Routes defaultScscfUri endpoint record)
  result := HssThread.Ends defaultScscfUri

/-- What is known of a call stays so as long as it does not find anything. -/
theorem linked_append {s t : Collection} {out : HssLog}
    (h : (routableDiscipline defaultScscfUri endpoint place).linked s log tid thread)
    (hquiet : (tid, .found place) ∉ out) :
    (routableDiscipline defaultScscfUri endpoint place).linked t (log ++ out) tid thread := by
  refine ⟨fun hnone hmem => ?_, fun hundisturbed hselects record hfound hmem => ?_⟩
  · exact h.1 hnone ((List.mem_append.mp hmem).resolve_right hquiet)
  · exact h.2 hundisturbed.of_append hselects record hfound
      ((List.mem_append.mp hmem).resolve_right hquiet)

theorem linked_append_of_ne {s t : Collection} {out : List HssEvent} {other : Nat}
    (hne : other ≠ tid)
    (h : (routableDiscipline defaultScscfUri endpoint place).linked s log other thread) :
    (routableDiscipline defaultScscfUri endpoint place).linked t (log ++ out.map (tid, ·)) other
      thread := by
  refine linked_append h fun hmem => ?_
  obtain ⟨event, -, heq⟩ := List.mem_map.mp hmem
  cases heq
  exact hne rfl

/-- The record is left as it is, or changed to one that is at the endpoint as well. -/
theorem RoutesAt.serve {op : RepositoryOp} {failure : Option ErrorInfo}
    (h : RoutesAt defaultScscfUri endpoint place collection)
    (hundisturbed : Undisturbed endpoint place
      (log ++ (occurred collection op failure).map (tid, ·))) :
    RoutesAt defaultScscfUri endpoint place (collection.serve op failure).1 := by
  cases failure with
  | some error =>
      cases op with
      | findOneByField field value => exact h
      | updateSqn imsi oldSqn newSqn => exact h
      | updateServing imsi scscfUri => exact h
  | none =>
      cases op with
      | findOneByField field value => exact h
      | updateSqn imsi oldSqn newSqn => exact h.updateOne fun _ _ hroutes => hroutes
      | updateServing imsi scscfUri =>
          refine h.updateOne fun record hindex _ => routes_of_assigned record ?_
          apply hundisturbed tid scscfUri
          apply List.mem_append_right
          rw [occurred, hindex]
          exact List.mem_singleton.mpr rfl

/-- What a call knows after it has looked for a record. -/
theorem linked_find {field : Field} {value : Bytes}
    (hshared : Undisturbed endpoint place log → RoutesAt defaultScscfUri endpoint place collection)
    (hlinked : (routableDiscipline defaultScscfUri endpoint place).linked collection log tid thread)
    (hallows : thread.Allows (.repository (.findOneByField field value))) :
    (routableDiscipline defaultScscfUri endpoint place).linked collection
      (log ++ (occurred collection (.findOneByField field value) none).map (tid, ·)) tid
      (thread.track (.repository (.findOneByField field value))
        (collection.serve (.findOneByField field value) none).2) := by
  rw [Collection.serve]
  obtain ⟨hnone, hquiet⟩ | ⟨found, record, hfound, hrecord, hoccurred⟩ :=
    find_cases collection field value
  · rw [hnone, hquiet]
    exact linked_append hlinked fun hmem => by cases hmem
  · rw [hfound, hoccurred]
    refine ⟨fun hnone => (Option.some_ne_none record hnone).elim,
      fun hundisturbed hselects _ heq hmem => ?_⟩
    cases heq
    have hplace : found = place := by
      obtain hmem | hmem := List.mem_append.mp hmem
      · exact (hlinked.1 (hallows hselects) hmem).elim
      · cases List.mem_singleton.mp hmem
        rfl
    obtain ⟨_, hat, hroutes⟩ := hshared hundisturbed.of_append
    rw [← hplace, hrecord] at hat
    cases hat
    exact hroutes

theorem linked_serve {op : RepositoryOp} {failure : Option ErrorInfo}
    (hshared : Undisturbed endpoint place log → RoutesAt defaultScscfUri endpoint place collection)
    (hlinked : (routableDiscipline defaultScscfUri endpoint place).linked collection log tid thread)
    (hallows : thread.Allows (.repository op)) :
    (routableDiscipline defaultScscfUri endpoint place).linked (collection.serve op failure).1
      (log ++ (occurred collection op failure).map (tid, ·)) tid
      (thread.track (.repository op) (collection.serve op failure).2) := by
  cases failure with
  | some error =>
      cases op with
      | findOneByField field value => exact linked_append hlinked List.not_mem_nil
      | updateSqn imsi oldSqn newSqn => exact linked_append hlinked List.not_mem_nil
      | updateServing imsi scscfUri => exact linked_append hlinked List.not_mem_nil
  | none =>
      cases op with
      | findOneByField field value => exact linked_find hshared hlinked hallows
      | updateSqn imsi oldSqn newSqn => exact linked_append hlinked List.not_mem_nil
      | updateServing imsi scscfUri =>
          refine linked_append hlinked fun hmem => ?_
          obtain ⟨event, hmem, heq⟩ := List.mem_map.mp hmem
          rw [occurred, Option.mem_toList, Option.map_eq_some_iff] at hmem
          obtain ⟨found, -, rfl⟩ := hmem
          cases heq

/-- An operation that puts down a server for the record at this place is one that reassigns it,
unless the server is at the endpoint. -/
theorem undisturbed_of_occurred {endpoint : Endpoint} {place tid : Nat} {s : HssThreads}
    {history : HssThread} {op : RepositoryOp} {next : RepositoryAnswer op → _}
    {serving : HssEnvironment} {scscfUri : Bytes}
    (hoperation : s.operation tid = some (history, ⟨.repository op, next⟩))
    (hkept : reassigns endpoint place s (.run tid serving) = false)
    (hmem : .assigned place scscfUri ∈ occurred s.shared op serving.failure) :
    parseEndpointFromUri scscfUri = some endpoint := by
  rw [reassigns, hoperation] at hkept
  rw [occurred.eq_def] at hmem
  split at hmem
  · rw [Option.mem_toList, Option.map_eq_some_iff] at hmem
    obtain ⟨_, -, heq⟩ := hmem
    cases heq
  · rename_i imsi uri hfailure
    rw [Option.mem_toList, Option.map_eq_some_iff] at hmem
    obtain ⟨_, hindex, heq⟩ := hmem
    cases heq
    simpa [hfailure, hindex] using hkept
  · cases hmem

end

section

variable [OsipParser] [Milenage]

theorem routableDiscipline_sound (defaultScscfUri domain : Bytes) (endpoint : Endpoint)
    (place : Nat) : (routableDiscipline defaultScscfUri endpoint place).Sound
      (hssService defaultScscfUri domain) where
  track _ _ _ := rfl
  begins := begin_meets
  fresh s log tid call _ hnumbered :=
    ⟨fun _ hmem => Nat.lt_irrefl tid (hnumbered _ hmem), fun _ _ _ heq => by cases heq⟩
  serves s log tid thread op serving t answer out hshared hlinked hallows hserve _ := by
    cases op with
    | repository op =>
        cases hserve
        exact ⟨fun hundisturbed => (hshared hundisturbed.of_append).serve hundisturbed, trivial,
          linked_serve hshared hlinked hallows, fun other _ hne hother =>
            linked_append_of_ne hne hother⟩
    | environment op =>
        cases hserve
        exact ⟨fun hundisturbed => hshared hundisturbed.of_append, trivial,
          linked_append hlinked List.not_mem_nil, fun other _ hne hother =>
            linked_append_of_ne hne hother⟩
  background _ _ event _ _ _ := event.elim

variable {defaultScscfUri domain : Bytes} {endpoint : Endpoint} {place : Nat} {s t : HssThreads}

theorem Undisturbed.step {log out : HssLog} {a : HssAction} (h : Undisturbed endpoint place log)
    (hstep : (threadsMachine (hssService defaultScscfUri domain)).step s a = some (t, out))
    (hkept : reassigns endpoint place s a = false) : Undisturbed endpoint place (log ++ out) := by
  intro tid uri hmem
  obtain hmem | hmem := List.mem_append.mp hmem
  · exact h tid uri hmem
  · cases a with
    | start call =>
        cases hstep
        cases hmem
    | background event => exact event.elim
    | run id serving =>
        obtain ⟨history, op, next, shared, answer, events, hoperation, hserve, rfl, -⟩ :=
          Threads.runThread_eq_some hstep
        obtain ⟨event, hevent, heq⟩ := List.mem_map.mp hmem
        cases heq
        cases op with
        | repository op =>
            cases hserve
            exact undisturbed_of_occurred hoperation hkept hevent
        | environment op =>
            cases hserve
            cases hevent

/-- Whatever is asked of the HSS, in any order: a subscriber that was to be reached at the endpoint
of the default stays there as long as no other server is put down for it. -/
theorem stays_routable {collection : Collection} {subscriber : SubscriberRecord}
    (hplace : collection[place]? = some subscriber)
    (hassigned : subscriber.assignedScscf = [] ∨ subscriber.assignedScscf = defaultScscfUri)
    (hdefault : parseEndpointFromUri defaultScscfUri = some endpoint) {as : List HssAction}
    {log : HssLog}
    (hrun : (threadsMachine (hssService defaultScscfUri domain)).exec (.init collection) as =
      some (s, log))
    (hkept : (threadsMachine (hssService defaultScscfUri domain)).Along
      (fun s a _ _ => reassigns endpoint place s a = false) (.init collection) as) :
    RoutedTo endpoint place s log := by
  have hinv := (routableDiscipline_sound defaultScscfUri domain endpoint place).exec_of_forall
    (fun _ _ => trivial)
    (fun _ => ⟨subscriber, hplace, routes_of_default hassigned hdefault⟩) hrun
  have hundisturbed : Undisturbed endpoint place ([] ++ log) :=
    Machine.exec_preserves_log (I := fun _ log => Undisturbed endpoint place log)
      (fun _ _ _ _ _ h hstep hkept => h.step hstep hkept) (fun _ _ hmem => by cases hmem) hkept hrun
  intro tid thread uri houtcome hmem
  obtain ⟨hselects, record, hfound, rfl⟩ := hinv.result houtcome uri rfl
  exact (hinv.linked_outcome houtcome).2 hundisturbed hselects record hfound hmem

end

/-- Two subscribers for whom no server is put down yet. -/
def twoSubscribers : Collection :=
  let subscriber (imsi : String) : SubscriberRecord :=
    { imsi := bytes imsi, tel := [], assignedScscf := []
      identities :=
        { impi := bytes imsi ++ bytes "@ims.local", canonicalImpu := bytes "sip:" ++ bytes imsi
          associatedImpus := [], realm := bytes "ims.local" }
      auth := { ki := [], operatorCodeType := [], opc := [], op := [], sqn := 0, amf := [] } }
  [subscriber "001010000000001", subscriber "001010000000002"]

/-- The URI of the configuration. -/
def configuredScscfUri : Bytes := bytes "sip:127.0.0.1:5062;transport=udp"

def configuredEndpoint : Endpoint :=
  { address := bytes "127.0.0.1", port := 5062, transport := bytes "udp" }

/-- No vector is asked for in the runs below. -/
@[reducible] def noVectors : Milenage where
  computeOpc _ _ := .error { code := .internalError, message := [] }
  generateVector _ _ _ _ _ := .error { code := .internalError, message := [] }

abbrev localHss : Machine HssThreads HssAction (Nat × HssEvent) :=
  threadsMachine (@hssService addressUris noVectors configuredScscfUri (bytes "ims.local"))

/-- The URI that a call has ended with. -/
def answeredUri (s : HssThreads) (tid : Nat) : Option Bytes :=
  (s.outcome tid).bind fun ended => ended.2.toOption.bind id

/-- The registration of this subscriber is confirmed, and the first one is asked for. -/
def registersAndRoutes (imsi : String) : List HssAction :=
  [.start (.serverAssignment (bytes imsi ++ bytes "@ims.local") (bytes "sip:" ++ bytes imsi)),
    .run 0 {}, .run 0 {}, .start (.selectForRouting (bytes "sip:001010000000001@ims.local")),
    .run 1 {}]

/-- Another subscriber has registered meanwhile. -/
theorem stays_routable_other : ∃ s log,
    localHss.exec (.init twoSubscribers) (registersAndRoutes "001010000000002") = some (s, log) ∧
      answeredUri s 1 = some configuredScscfUri ∧
      log = [(0, .found 1), (0, .assigned 1 (bytes "sip:scscf.ims.local")), (1, .found 0)] ∧
      @RoutedTo addressUris configuredEndpoint 0 s log := by
  have hsummary : (localHss.exec (.init twoSubscribers) (registersAndRoutes "001010000000002")).map
      (fun run => decide (answeredUri run.1 1 = some configuredScscfUri ∧
        run.2 = [(0, .found 1), (0, .assigned 1 (bytes "sip:scscf.ims.local")), (1, .found 0)])) =
      some true := by
    decide +kernel
  obtain ⟨⟨s, log⟩, hrun, hsummary⟩ := Option.map_eq_some_iff.mp hsummary
  obtain ⟨huri, hlog⟩ := of_decide_eq_true hsummary
  refine ⟨s, log, hrun, huri, hlog, ?_⟩
  let _ : OsipParser := addressUris
  let _ : Milenage := noVectors
  exact stays_routable rfl (.inl rfl) (by decide +kernel) hrun (by decide +kernel)

/-- After the first registration a subscriber is not reached any more: what the S-CSCF has put
down for itself is no address, and the port of the default is lost. -/
theorem registered_unroutable : ∃ s log,
    localHss.exec (.init twoSubscribers) (registersAndRoutes "001010000000001") = some (s, log) ∧
      twoSubscribers[0]?.map SubscriberRecord.assignedScscf = some [] ∧
      @parseEndpointFromUri addressUris configuredScscfUri = some configuredEndpoint ∧
      answeredUri s 1 = some (bytes "sip:scscf.ims.local") ∧
      @parseEndpointFromUri addressUris (bytes "sip:scscf.ims.local") =
        some { address := bytes "scscf.ims.local", port := 5060, transport := bytes "udp" } ∧
      ¬ @RoutedTo addressUris configuredEndpoint 0 s log := by
  have hsummary : (localHss.exec (.init twoSubscribers) (registersAndRoutes "001010000000001")).map
      (fun run => decide (answeredUri run.1 1 = some (bytes "sip:scscf.ims.local") ∧
        (1, HssEvent.found 0) ∈ run.2)) = some true := by
    decide +kernel
  obtain ⟨⟨s, log⟩, hrun, hsummary⟩ := Option.map_eq_some_iff.mp hsummary
  obtain ⟨huri, hmem⟩ := of_decide_eq_true hsummary
  have hparsed : @parseEndpointFromUri addressUris (bytes "sip:scscf.ims.local") =
      some { address := bytes "scscf.ims.local", port := 5060, transport := bytes "udp" } := by
    decide +kernel
  refine ⟨s, log, hrun, rfl, by decide +kernel, huri, hparsed, fun hrouted => ?_⟩
  obtain ⟨⟨thread, reply⟩, houtcome, huri⟩ := Option.bind_eq_some_iff.mp huri
  obtain ⟨uri, hreply, rfl⟩ := Option.bind_eq_some_iff.mp huri
  cases reply with
  | error error => cases hreply
  | ok answered =>
      cases hreply
      have hendpoint := hrouted 1 thread _ houtcome hmem
      rw [hparsed] at hendpoint
      revert hendpoint
      decide

end SimIms.ICscf
