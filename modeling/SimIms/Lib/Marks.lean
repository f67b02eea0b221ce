import SimIms.Lib.Threads

/-!
# Marks in a shared state

A thread marks a key in the shared state while it works on it, and others wait for the mark to go.
In a `Lawful` marking no mark is forgotten: one that is in the state is that of a thread, and
whatever the environment answers, this thread can go on alone until the mark is gone.
-/

namespace Lib

structure Marking (σ γ κ : Type) where
  marked : γ → Option κ
  held : σ → κ → Prop

variable {σ : Type} {F : Interface} {ε γ α η ρ β ω κ : Type}

/-- A mark that is in the state after an operation is that of the thread, or it has been there
before and is not that of the thread. A thread does not end with its mark, and does not wait with
it. -/
structure Marking.Lawful (m : Marking σ γ κ) (d : Discipline σ F γ α ω)
    (service : Service σ F ε γ α η ρ β ω) : Prop where
  kept : ∀ s g op environment t answer out k, d.contract.Allows g op →
    service.serve s op environment = some (t, answer, out) → m.held t k →
    m.marked (d.contract.track g op answer) = some k ∨ m.held s k ∧ m.marked g ≠ some k
  background : ∀ s event t k, service.background s event = some t → m.held t k → m.held s k
  served : ∀ s g op k environment, d.contract.Allows g op → m.marked g = some k →
    ∃ t answer out, service.serve s op environment = some (t, answer, out)
  ends : ∀ g result, d.result g result → m.marked g = none
  throws : ∀ g, d.contract.Throws g → m.marked g = none

namespace Threads

variable {service : Service σ F ε γ α η ρ β ω} {s t : Threads σ F ε γ α} {d : Discipline σ F γ α ω}
variable {log out : List (Nat × ω)} {m : Marking σ γ κ} {k : κ}

/-- Every mark in the state is that of a thread. -/
def Marked (m : Marking σ γ κ) (s : Threads σ F ε γ α) : Prop :=
  ∀ k, m.held s.shared k →
    ∃ id thread, s.threads.find id = some thread ∧ m.marked thread.history = some k

theorem Marked.step (h : s.Marked m) (hinv : Inv d s log) (sound : d.Sound service)
    (lawful : m.Lawful d service) {a : ThreadAction η ρ β}
    (hstep : s.step service a = some (t, out)) :
    t.Marked m := by
  intro k hheld
  cases a with
  | start request =>
      cases hstep
      obtain ⟨id, thread, hfind, hmarked⟩ := h k hheld
      have hne : id ≠ s.nextThread := Nat.ne_of_lt ((hinv.started id).mpr ⟨thread, hfind⟩)
      exact ⟨id, thread, (Table.find_insert_of_ne _ _ hne).trans hfind, hmarked⟩
  | run runner environment =>
      obtain ⟨history, op, next, shared, answer, events, hoperation, hserve, -, rfl⟩ :=
        runThread_eq_some hstep
      obtain hown | ⟨hheld, hother⟩ := lawful.kept s.shared history op environment
        shared answer events
        k (hinv.allows hoperation) hserve hheld
      · refine ⟨runner, _, Table.find_insert_self _ _ _, ?_⟩
        rw [sound.track]
        exact hown
      · obtain ⟨id, thread, hfind, hmarked⟩ := h k hheld
        have hne : id ≠ runner := by
          rintro rfl
          rw [operation_eq_some hoperation] at hfind
          cases hfind
          exact hother hmarked
        exact ⟨id, thread, (Table.find_insert_of_ne _ _ hne).trans hfind, hmarked⟩
  | background event =>
      obtain ⟨shared, hserved, heq⟩ := Option.map_eq_some_iff.mp hstep
      cases heq
      exact h k (lawful.background s.shared event shared k hserved hheld)

theorem Marked.exec (sound : d.Sound service) (hassumes : ∀ op answer, d.assumes op answer)
    (lawful : m.Lawful d service) {shared : σ} (hinit : d.shared shared [])
    (hnone : ∀ k, ¬m.held shared k) {as : List (ThreadAction η ρ β)}
    (hrun : (threadsMachine service).exec (.init shared) as = some (s, log)) : s.Marked m := by
  have hboth : s.Inv d log ∧ s.Marked m :=
    Machine.exec_invariant_log (I := fun s log => Inv d s log ∧ s.Marked m)
      (fun _ _ _ _ _ h hstep => ⟨h.1.next sound hassumes hstep, h.2.step h.1 sound lawful hstep⟩)
      ⟨.init hinit, fun k hheld => (hnone k hheld).elim⟩ hrun
  exact hboth.2

/-- The thread that has a mark gives it up by its own steps, by induction on what is left of its
program. -/
theorem Inv.exists_release (hinv : Inv d s log) (sound : d.Sound service)
    (hassumes : ∀ op answer, d.assumes op answer) (lawful : m.Lawful d service) {holder : Nat}
    {thread : Thread F ε γ α} (hfind : s.threads.find holder = some thread)
    (hmarked : m.marked thread.history = some k) (environments : Nat → η) :
    ∃ n t out, (threadsMachine service).exec s
      ((List.range n).map fun i => .run holder (environments i)) = some (t, out) ∧
      ¬m.held t.shared k ∧
        ∀ other, other ≠ holder → t.threads.find other = s.threads.find other := by
  obtain ⟨history, program⟩ := thread
  induction program generalizing s log history environments with
  | pure result =>
      have hnone := lawful.ends history result (hinv.meets holder _ hfind)
      rw [hmarked] at hnone
      cases hnone
  | throw e =>
      have hnone := lawful.throws history (hinv.meets holder _ hfind)
      rw [hmarked] at hnone
      cases hnone
  | call op next ih =>
      have hallows : d.contract.Allows history op := (hinv.meets holder _ hfind).1
      obtain ⟨shared, answer, events, hserve⟩ :=
        lawful.served s.shared history op k (environments 0) hallows hmarked
      have hstep := runThread_of_serve hfind hserve
      have hinv' := hinv.next sound hassumes (a := .run holder (environments 0)) hstep
      have hothers : ∀ other, other ≠ holder → (s.threads.insert holder
          ⟨service.track history op answer, next answer⟩).find other = s.threads.find other :=
        fun other hne => Table.find_insert_of_ne _ _ hne
      by_cases hkept : m.marked (d.contract.track history op answer) = some k
      · rw [← sound.track] at hkept
        obtain ⟨n, t, out, hrun, hreleased, hrest⟩ :=
          ih answer hinv' (fun i => environments (i + 1)) _ (Table.find_insert_self _ _ _) hkept
        refine ⟨n + 1, t, events.map (holder, ·) ++ out, ?_, hreleased, fun other hne => ?_⟩
        · rw [List.range_succ_eq_map, List.map_cons, List.map_map]
          exact Machine.exec_cons_iff.mpr ⟨_, _, _, hstep, hrun, rfl⟩
        · exact (hrest other hne).trans (hothers other hne)
      · refine ⟨1, _, _, Machine.exec_cons_iff.mpr ⟨_, _, _, hstep, rfl, rfl⟩,
          fun hheld => ?_, hothers⟩
        obtain hown | ⟨-, hother⟩ := lawful.kept s.shared history op _ shared answer
          events k hallows
          hserve hheld
        · exact hkept hown
        · exact hother hmarked

end Threads

end Lib
