import SimIms.Lib.Machine
import SimIms.Lib.Program
import SimIms.Lib.Table

/-!
# Interleaved programs

`Threads` is any number of programs over one state, of which any may perform its next
operation at any time. A `Service` says what the operations do, how requests are taken up and
what happens besides.

A `Discipline` is what holds of a service in every state that it reaches: of the shared state
and the events so far, and of each thread by its history. It may assume something of the
answers that the environment gives. If each operation that a contract allows keeps it, then so
does every run in which the environment answers as assumed.
-/

namespace Lib

/-- A program on its way, with its history. -/
structure Thread (F : Interface) (ε γ α : Type) where
  history : γ
  program : Program F ε α

structure Threads (σ : Type) (F : Interface) (ε γ α : Type) where
  shared : σ
  threads : Table Nat (Thread F ε γ α)
  nextThread : Nat

/-- The operations, with the part that the environment has in them, how requests are taken up
and what happens to the shared state besides. -/
structure Service (σ : Type) (F : Interface) (ε γ α η ρ β ω : Type) where
  serve : σ → (op : F.Op) → η → Option (σ × F.Answer op × List ω)
  begin : ρ → Program F ε α
  background : σ → β → Option σ
  fresh : ρ → γ
  track : γ → (op : F.Op) → F.Answer op → γ

inductive ThreadAction (η ρ β : Type) where
  | start (request : ρ)
  | run (thread : Nat) (environment : η)
  | background (event : β)

namespace Threads

variable {σ : Type} {F : Interface} {ε γ α η ρ β ω : Type}

def init (shared : σ) : Threads σ F ε γ α := { shared, threads := .empty, nextThread := 0 }

/-- The next operation of a thread. -/
def operation (s : Threads σ F ε γ α) (id : Nat) :
    Option (γ × (op : F.Op) × (F.Answer op → Program F ε α)) :=
  match s.threads.find id with
  | some ⟨history, .call op next⟩ => some (history, ⟨op, next⟩)
  | _ => none

/-- What a thread has ended with. -/
def outcome (s : Threads σ F ε γ α) (id : Nat) : Option (γ × α) :=
  match s.threads.find id with
  | some ⟨history, .pure a⟩ => some (history, a)
  | _ => none

/-- Events carry the number of the thread that has caused them. -/
def runThread (service : Service σ F ε γ α η ρ β ω) (s : Threads σ F ε γ α) (id : Nat)
    (environment : η) : Option (Threads σ F ε γ α × List (Nat × ω)) :=
  match s.operation id with
  | none => none
  | some (history, ⟨op, next⟩) =>
      match service.serve s.shared op environment with
      | none => none
      | some (shared, answer, out) =>
          some ({ s with
            shared
            threads := s.threads.insert id ⟨service.track history op answer, next answer⟩ },
            out.map (id, ·))

def step (service : Service σ F ε γ α η ρ β ω) (s : Threads σ F ε γ α) :
    ThreadAction η ρ β → Option (Threads σ F ε γ α × List (Nat × ω))
  | .start request =>
      some ({ s with
        threads := s.threads.insert s.nextThread ⟨service.fresh request, service.begin request⟩
        nextThread := s.nextThread + 1 }, [])
  | .run id environment => s.runThread service id environment
  | .background event =>
      (service.background s.shared event).map fun shared => ({ s with shared }, [])

variable {service : Service σ F ε γ α η ρ β ω} {s t : Threads σ F ε γ α}
variable {log out : List (Nat × ω)} {a : ThreadAction η ρ β}

/-- What a step of a thread is: its next operation, served. -/
theorem runThread_eq_some {id : Nat} {environment : η}
    (hstep : s.runThread service id environment = some (t, out)) :
    ∃ history op next shared answer events, s.operation id = some (history, ⟨op, next⟩) ∧
      service.serve s.shared op environment = some (shared, answer, events) ∧
      out = events.map (id, ·) ∧ t = { s with
        shared
        threads := s.threads.insert id ⟨service.track history op answer, next answer⟩ } := by
  rw [runThread] at hstep
  split at hstep
  · cases hstep
  · rename_i history op next hoperation
    split at hstep
    · cases hstep
    · rename_i shared answer events hserve
      cases hstep
      exact ⟨history, op, next, shared, answer, events, hoperation, hserve, rfl, rfl⟩

/-- A thread whose operation is served goes on. -/
theorem runThread_of_serve {id : Nat} {environment : η} {history : γ} {op : F.Op}
    {next : F.Answer op → Program F ε α} {shared : σ} {answer : F.Answer op} {events : List ω}
    (hfind : s.threads.find id = some ⟨history, .call op next⟩)
    (hserve : service.serve s.shared op environment = some (shared, answer, events)) :
    s.runThread service id environment = some ({ s with
      shared
      threads := s.threads.insert id ⟨service.track history op answer, next answer⟩ },
      events.map (id, ·)) := by
  simp only [runThread, operation, hfind, hserve]

theorem operation_eq_some {id : Nat} {history : γ} {op : F.Op}
    {next : F.Answer op → Program F ε α}
    (h : s.operation id = some (history, ⟨op, next⟩)) :
    s.threads.find id = some ⟨history, .call op next⟩ := by
  rw [operation] at h
  split at h
  · rename_i hfind
    cases h
    exact hfind
  · cases h

theorem outcome_eq_some {id : Nat} {history : γ} {result : α}
    (h : s.outcome id = some (history, result)) :
    s.threads.find id = some ⟨history, .pure result⟩ := by
  rw [outcome] at h
  split at h
  · rename_i hfind
    cases h
    exact hfind
  · cases h

end Threads

/-- What no operation and nothing else breaks holds of the shared state. -/
theorem Threads.step_keeps_shared {σ : Type} {F : Interface} {ε γ α η ρ β ω : Type}
    {service : Service σ F ε γ α η ρ β ω} {I : σ → Prop}
    (hserve : ∀ s op environment t answer out, I s →
      service.serve s op environment = some (t, answer, out) → I t)
    (hbackground : ∀ s event t, I s → service.background s event = some t → I t)
    {s t : Threads σ F ε γ α} {a : ThreadAction η ρ β} {out : List (Nat × ω)} (h : I s.shared)
    (hstep : s.step service a = some (t, out)) : I t.shared := by
  cases a with
  | start request =>
      cases hstep
      exact h
  | run id environment =>
      obtain ⟨history, op, next, shared, answer, events, -, hserved, -, rfl⟩ :=
        Threads.runThread_eq_some hstep
      exact hserve s.shared op environment shared answer events h hserved
  | background event =>
      obtain ⟨shared, hserved, heq⟩ := Option.map_eq_some_iff.mp hstep
      cases heq
      exact hbackground s.shared event shared h hserved

/-! ## Events -/

/-- The events that a thread has caused, in their order. -/
def eventsOf {ω : Type} (log : List (Nat × ω)) (id : Nat) : List ω :=
  (log.filter fun event => event.1 = id).map Prod.snd

section

variable {ω : Type} {log : List (Nat × ω)} {id : Nat} {out : List ω}

theorem mem_eventsOf {event : ω} : event ∈ eventsOf log id ↔ (id, event) ∈ log := by
  rw [eventsOf, List.mem_map]
  constructor
  · rintro ⟨⟨other, event⟩, hmem, rfl⟩
    obtain ⟨hmem, heq⟩ := List.mem_filter.mp hmem
    rwa [← of_decide_eq_true heq]
  · exact fun hmem => ⟨(id, event), List.mem_filter.mpr ⟨hmem, decide_eq_true rfl⟩, rfl⟩

theorem eventsOf_append_self :
    eventsOf (log ++ out.map (id, ·)) id = eventsOf log id ++ out := by
  have hown : (out.map fun event => (id, event)).filter (fun event => event.1 = id) =
      out.map fun event => (id, event) := by
    apply List.filter_eq_self.mpr
    intro event hmem
    obtain ⟨_, _, rfl⟩ := List.mem_map.mp hmem
    exact decide_eq_true rfl
  rw [eventsOf, List.filter_append, List.map_append, hown, List.map_map]
  exact congrArg (eventsOf log id ++ ·) (List.map_id out)

theorem eventsOf_append_of_ne {other : Nat} (h : other ≠ id) :
    eventsOf (log ++ out.map (id, ·)) other = eventsOf log other := by
  have hnone : (out.map fun event => (id, event)).filter (fun event => event.1 = other) = [] := by
    apply List.filter_eq_nil_iff.mpr
    intro event hmem
    obtain ⟨_, _, rfl⟩ := List.mem_map.mp hmem
    rw [decide_eq_true_eq]
    exact fun heq => h heq.symm
  rw [eventsOf, List.filter_append, hnone, List.append_nil]
  rfl

theorem countP_eventsOf (p : ω → Bool) :
    (eventsOf log id).countP p = log.countP fun event => p event.2 && event.1 = id := by
  rw [eventsOf, List.countP_map, List.countP_filter]
  rfl

/-- A thread that has not started has caused nothing. -/
theorem eventsOf_eq_nil (h : ∀ event ∈ log, event.1 < id) : eventsOf log id = [] := by
  rw [eventsOf, List.map_eq_nil_iff, List.filter_eq_nil_iff]
  intro event hmem
  rw [decide_eq_true_eq]
  exact Nat.ne_of_lt (h event hmem)

end

/-! ## Disciplines -/

/-- What a service keeps. -/
structure Discipline (σ : Type) (F : Interface) (γ α ω : Type) where
  contract : Contract F γ
  /-- What the environment is taken to answer. -/
  assumes : (op : F.Op) → F.Answer op → Prop
  shared : σ → List (Nat × ω) → Prop
  linked : σ → List (Nat × ω) → Nat → γ → Prop
  result : γ → α → Prop

variable {σ : Type} {F : Interface} {ε γ α η ρ β ω : Type}

/-- That each part of the service does its share. -/
structure Discipline.Sound (d : Discipline σ F γ α ω) (service : Service σ F ε γ α η ρ β ω) :
    Prop where
  track : ∀ g op answer, service.track g op answer = d.contract.track g op answer
  begins : ∀ request, (service.begin request).Meets d.contract (service.fresh request) d.result
  fresh : ∀ s log id request, d.shared s log → (∀ event ∈ log, event.1 < id) →
    d.linked s log id (service.fresh request)
  serves : ∀ s log id g op environment t answer out, d.shared s log → d.linked s log id g →
    d.contract.Allows g op → service.serve s op environment = some (t, answer, out) →
    d.assumes op answer → d.shared t (log ++ out.map (id, ·)) ∧ d.contract.Expects op answer ∧
      d.linked t (log ++ out.map (id, ·)) id (d.contract.track g op answer) ∧
      ∀ id' g', id' ≠ id → d.linked s log id' g' → d.linked t (log ++ out.map (id, ·)) id' g'
  background : ∀ s log event t, d.shared s log → service.background s event = some t →
    d.shared t log ∧ ∀ id g, d.linked s log id g → d.linked t log id g

namespace Threads

variable {service : Service σ F ε γ α η ρ β ω} {s t : Threads σ F ε γ α}
variable {log out : List (Nat × ω)} {a : ThreadAction η ρ β} {d : Discipline σ F γ α ω}

/-- The environment answers as assumed in this step. -/
def Respects (service : Service σ F ε γ α η ρ β ω)
    (assumes : (op : F.Op) → F.Answer op → Prop) (s : Threads σ F ε γ α) :
    ThreadAction η ρ β → Prop
  | .run id environment => ∀ history op next shared answer events,
      s.operation id = some (history, ⟨op, next⟩) →
      service.serve s.shared op environment = some (shared, answer, events) → assumes op answer
  | _ => True

theorem respects_of_forall {assumes : (op : F.Op) → F.Answer op → Prop}
    (h : ∀ op answer, assumes op answer) : s.Respects service assumes a := by
  cases a with
  | run id environment => exact fun _ op _ _ answer _ _ _ => h op answer
  | start request => trivial
  | background event => trivial

/-- What a discipline says of all the threads. -/
structure Inv (d : Discipline σ F γ α ω) (s : Threads σ F ε γ α) (log : List (Nat × ω)) :
    Prop where
  shared : d.shared s.shared log
  meets : ∀ id thread, s.threads.find id = some thread →
    thread.program.Meets d.contract thread.history d.result
  linked : ∀ id thread, s.threads.find id = some thread → d.linked s.shared log id thread.history
  numbered : ∀ event ∈ log, event.1 < s.nextThread
  started : ∀ id, id < s.nextThread ↔ ∃ thread, s.threads.find id = some thread

/-- A thread may issue its next operation. -/
theorem Inv.allows (h : Inv d s log) {id : Nat} {history : γ} {op : F.Op}
    {next : F.Answer op → Program F ε α}
    (hoperation : s.operation id = some (history, ⟨op, next⟩)) :
    d.contract.Allows history op := (h.meets id _ (operation_eq_some hoperation)).1

theorem Inv.linked_operation (h : Inv d s log) {id : Nat} {history : γ} {op : F.Op}
    {next : F.Answer op → Program F ε α}
    (hoperation : s.operation id = some (history, ⟨op, next⟩)) :
    d.linked s.shared log id history := h.linked id _ (operation_eq_some hoperation)

/-- A thread has ended as its contract says. -/
theorem Inv.result (h : Inv d s log) {id : Nat} {history : γ} {result : α}
    (houtcome : s.outcome id = some (history, result)) : d.result history result :=
  h.meets id _ (outcome_eq_some houtcome)

theorem Inv.linked_outcome (h : Inv d s log) {id : Nat} {history : γ} {result : α}
    (houtcome : s.outcome id = some (history, result)) : d.linked s.shared log id history :=
  h.linked id _ (outcome_eq_some houtcome)

/-- Who has caused events has been started. -/
theorem Inv.exists_of_eventsOf_ne_nil (h : Inv d s log) {id : Nat} (hne : eventsOf log id ≠ []) :
    ∃ thread, s.threads.find id = some thread := by
  rw [← h.started id]
  by_contra hge
  exact hne (eventsOf_eq_nil fun event hmem =>
    Nat.lt_of_lt_of_le (h.numbered event hmem) (Nat.le_of_not_lt hge))

theorem Inv.init {shared : σ} (h : d.shared shared []) :
    Inv d (init shared : Threads σ F ε γ α) [] :=
  have hnone : ∀ (id : Nat) (thread : Thread F ε γ α),
      (Table.empty : Table Nat (Thread F ε γ α)).find id ≠ some thread := by
    intro id thread hfind
    cases hfind
  ⟨h, fun id thread hfind => (hnone id thread hfind).elim,
    fun id thread hfind => (hnone id thread hfind).elim, fun _ hmem => (List.not_mem_nil hmem).elim,
    fun id => ⟨fun hlt => (Nat.not_lt_zero id hlt).elim,
      fun ⟨thread, hfind⟩ => (hnone id thread hfind).elim⟩⟩

theorem Inv.step (h : Inv d s log) (sound : d.Sound service)
    (respects : Respects service d.assumes s a) (hstep : s.step service a = some (t, out)) :
    Inv d t (log ++ out) := by
  cases a with
  | start request =>
      cases hstep
      rw [List.append_nil]
      refine ⟨h.shared, ?_, ?_, fun event hmem => Nat.lt_succ_of_lt (h.numbered event hmem), ?_⟩
      · intro id thread hfind
        rw [Table.find_insert] at hfind
        split at hfind
        · cases hfind
          exact sound.begins request
        · exact h.meets id thread hfind
      · intro id thread hfind
        rw [Table.find_insert] at hfind
        split at hfind
        · rename_i heq
          cases hfind
          rw [heq]
          exact sound.fresh s.shared log s.nextThread request h.shared h.numbered
        · exact h.linked id thread hfind
      · intro id
        rw [Table.find_insert]
        split
        · rename_i heq
          exact iff_of_true (heq ▸ Nat.lt_succ_self _) ⟨_, rfl⟩
        · rename_i hne
          rw [← h.started id, Nat.lt_succ_iff_lt_or_eq, or_iff_left hne]
  | run id environment =>
      obtain ⟨history, op, next, shared, answer, events, hoperation, hserve, rfl, rfl⟩ :=
        runThread_eq_some hstep
      have hfound := operation_eq_some hoperation
      have hmeets := h.meets id _ hfound
      obtain ⟨hshared, hanswer, hlinked, hothers⟩ := sound.serves s.shared log id history op
        environment shared answer events h.shared (h.linked id _ hfound) hmeets.1 hserve
        (respects history op next shared answer events hoperation hserve)
      refine ⟨hshared, ?_, ?_, ?_, ?_⟩
      · intro other thread hfind
        rw [Table.find_insert] at hfind
        split at hfind
        · cases hfind
          rw [sound.track]
          exact hmeets.2 answer hanswer
        · exact h.meets other thread hfind
      · intro other thread hfind
        rw [Table.find_insert] at hfind
        split at hfind
        · rename_i heq
          cases hfind
          rw [heq, sound.track]
          exact hlinked
        · rename_i hne
          exact hothers other _ hne (h.linked other thread hfind)
      · intro event hmem
        obtain hmem | hmem := List.mem_append.mp hmem
        · exact h.numbered event hmem
        · obtain ⟨_, _, rfl⟩ := List.mem_map.mp hmem
          exact (h.started id).mpr ⟨_, hfound⟩
      · intro other
        rw [Table.find_insert]
        split
        · rename_i heq
          exact iff_of_true (heq ▸ (h.started id).mpr ⟨_, hfound⟩) ⟨_, rfl⟩
        · exact h.started other
  | background event =>
      obtain ⟨shared, hbackground, heq⟩ := Option.map_eq_some_iff.mp hstep
      cases heq
      obtain ⟨hshared, hlinked⟩ := sound.background s.shared log event shared h.shared hbackground
      rw [List.append_nil]
      exact ⟨hshared, h.meets, fun id thread hfind => hlinked id _ (h.linked id thread hfind),
        h.numbered, h.started⟩

end Threads

/-- The interleavings of the programs that a service starts. -/
def threadsMachine (service : Service σ F ε γ α η ρ β ω) :
    Machine (Threads σ F ε γ α) (ThreadAction η ρ β) (Nat × ω) := ⟨Threads.step service⟩

theorem Threads.Inv.next {d : Discipline σ F γ α ω} {service : Service σ F ε γ α η ρ β ω}
    {s t : Threads σ F ε γ α} {log out : List (Nat × ω)} {a : ThreadAction η ρ β} (h : s.Inv d log)
    (sound : d.Sound service) (hassumes : ∀ op answer, d.assumes op answer)
    (hstep : (threadsMachine service).step s a = some (t, out)) : t.Inv d (log ++ out) :=
  h.step sound (Threads.respects_of_forall hassumes) hstep

/-- A run in which the environment answers as assumed keeps the discipline. -/
theorem Discipline.Sound.exec {d : Discipline σ F γ α ω} {service : Service σ F ε γ α η ρ β ω}
    (sound : d.Sound service) {shared : σ} {as : List (ThreadAction η ρ β)}
    {s : Threads σ F ε γ α} {log : List (Nat × ω)} (hinit : d.shared shared [])
    (respects : (threadsMachine service).Along
      (fun s a _ _ => s.Respects service d.assumes a) (.init shared) as)
    (hrun : (threadsMachine service).exec (.init shared) as = some (s, log)) :
    s.Inv d log := by
  have hinv : s.Inv d ([] ++ log) :=
    Machine.exec_preserves_log (fun _ _ _ _ _ h hstep hrespects => h.step sound hrespects hstep)
      (.init hinit) respects hrun
  exact hinv

/-- A discipline that assumes nothing is kept in every run. -/
theorem Discipline.Sound.exec_of_forall {d : Discipline σ F γ α ω}
    {service : Service σ F ε γ α η ρ β ω} (sound : d.Sound service)
    (hassumes : ∀ op answer, d.assumes op answer) {shared : σ}
    {as : List (ThreadAction η ρ β)} {s : Threads σ F ε γ α} {log : List (Nat × ω)}
    (hinit : d.shared shared [])
    (hrun : (threadsMachine service).exec (.init shared) as = some (s, log)) : s.Inv d log :=
  sound.exec hinit
    (Machine.along_iff.mpr fun _ _ _ _ _ _ _ _ _ _ => Threads.respects_of_forall hassumes) hrun

/-! ## One thread -/

/-- A step of this thread. -/
def ThreadAction.By (a : ThreadAction η ρ β) (id : Nat) : Prop :=
  ∃ environment, a = .run id environment

namespace Threads

variable {service : Service σ F ε γ α η ρ β ω} {s t : Threads σ F ε γ α} {id : Nat}
variable {thread : Thread F ε γ α} {log out : List (Nat × ω)} {d : Discipline σ F γ α ω}

/-- What every allowed operation keeps of a history, every step keeps of that of a thread. -/
theorem Inv.step_keeps {keeps : γ → Prop} (h : Inv d s log) (sound : d.Sound service)
    (hkeeps : ∀ g op answer, keeps g → d.contract.Allows g op →
      keeps (d.contract.track g op answer))
    (hfind : s.threads.find id = some thread) (hthread : keeps thread.history)
    {a : ThreadAction η ρ β} (hstep : s.step service a = some (t, out)) :
    ∃ later, t.threads.find id = some later ∧ keeps later.history := by
  cases a with
  | start request =>
      cases hstep
      have hne : id ≠ s.nextThread := Nat.ne_of_lt ((h.started id).mpr ⟨thread, hfind⟩)
      exact ⟨thread, (Table.find_insert_of_ne _ _ hne).trans hfind, hthread⟩
  | run other environment =>
      obtain ⟨history, op, next, shared, answer, events, hoperation, -, -, rfl⟩ :=
        runThread_eq_some hstep
      by_cases heq : id = other
      · subst heq
        rw [operation_eq_some hoperation] at hfind
        cases hfind
        refine ⟨_, Table.find_insert_self _ _ _, ?_⟩
        rw [sound.track]
        exact hkeeps history op answer hthread (h.allows hoperation)
      · exact ⟨thread, (Table.find_insert_of_ne _ _ heq).trans hfind, hthread⟩
  | background event =>
      obtain ⟨shared, -, heq⟩ := Option.map_eq_some_iff.mp hstep
      cases heq
      exact ⟨thread, hfind, hthread⟩

/-- From a state of a discipline that assumes nothing, every run keeps it, and what allowed
operations keep of the history of a thread. -/
theorem Inv.exec_keeps {keeps : γ → Prop} (h : Inv d s log) (sound : d.Sound service)
    (hassumes : ∀ op answer, d.assumes op answer)
    (hkeeps : ∀ g op answer, keeps g → d.contract.Allows g op →
      keeps (d.contract.track g op answer))
    (hfind : s.threads.find id = some thread) (hthread : keeps thread.history)
    {as : List (ThreadAction η ρ β)} (run : (threadsMachine service).exec s as = some (t, out)) :
    Inv d t (log ++ out) ∧ ∃ later, t.threads.find id = some later ∧ keeps later.history := by
  induction as generalizing s log out thread with
  | nil =>
      cases run
      rw [List.append_nil]
      exact ⟨h, thread, hfind, hthread⟩
  | cons a as ih =>
      obtain ⟨u, first, rest, hstep, hrun, rfl⟩ := Machine.exec_cons_iff.mp run
      obtain ⟨later, hlater, hkept⟩ := h.step_keeps sound hkeeps hfind hthread hstep
      rw [← List.append_assoc]
      exact ih (h.next sound hassumes hstep) hlater hkept hrun

variable (service) in
/-- A thread that is served whatever it asks for comes to its end by its own steps. -/
theorem exists_end
    (serves : ∀ s op, ∃ environment served, service.serve s op environment = some served)
    (hfind : s.threads.find id = some thread) :
    ∃ as t out history, (∀ a ∈ as, a.By id) ∧
      (threadsMachine service).exec s as = some (t, out) ∧
      ((∃ result, t.threads.find id = some ⟨history, .pure result⟩) ∨
        ∃ e, t.threads.find id = some ⟨history, .throw e⟩) := by
  obtain ⟨history, program⟩ := thread
  induction program generalizing s history with
  | pure result => exact ⟨[], s, [], history, by simp, rfl, .inl ⟨result, hfind⟩⟩
  | throw e => exact ⟨[], s, [], history, by simp, rfl, .inr ⟨e, hfind⟩⟩
  | call op next ih =>
      obtain ⟨environment, ⟨shared, answer, events⟩, hserve⟩ := serves s.shared op
      have hstep := runThread_of_serve hfind hserve
      have hnext : (s.threads.insert id ⟨service.track history op answer, next answer⟩).find id =
        some ⟨service.track history op answer, next answer⟩ := Table.find_insert_self _ _ _
      obtain ⟨as, t, out, last, hby, hrun, hend⟩ :=
        ih answer (s := { s with shared, threads := s.threads.insert id _ }) _ hnext
      refine ⟨.run id environment :: as, t, events.map (id, ·) ++ out, last, ?_,
        Machine.exec_cons_iff.mpr ⟨_, _, _, hstep, hrun, rfl⟩, hend⟩
      exact List.forall_mem_cons.mpr ⟨⟨environment, rfl⟩, hby⟩

end Threads

end Lib
