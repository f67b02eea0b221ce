import Mathlib.Data.List.Basic

/-!
# Deterministic labelled machines and their finite runs

A `Machine` takes a label to at most one next state together with the events that
the step emits. Everything that is not determined by the state (a clock reading, an
answer of the environment, which of several enabled steps is taken) is part of the
label, so a run over an arbitrary list of labels is a run over an arbitrary
interleaving.

`exec` runs a list of labels and concatenates the emitted events. `Along` says that
every step actually taken by a run satisfies a predicate on the state before the step,
its label, the state after it and its events. Invariant rules for both are stated once
here; a development supplies the one-step facts.
-/

namespace Lib

/-- At most one successor for each label, with the events emitted on the way. -/
structure Machine (σ α ε : Type*) where
  step : σ → α → Option (σ × List ε)

namespace Machine

variable {σ α ε : Type*} (m : Machine σ α ε)

/-- Run a list of labels from left to right. A label that is not enabled in the
state where its turn comes has no run. -/
def exec : σ → List α → Option (σ × List ε)
  | s, [] => some (s, [])
  | s, a :: as =>
      match m.step s a with
      | none => none
      | some (t, out) =>
          match exec t as with
          | none => none
          | some (u, rest) => some (u, out ++ rest)

/-- Every step taken by the run satisfies `P`. Labels after a disabled one are never
reached, so nothing is required of them. -/
def Along (P : σ → α → σ → List ε → Prop) : σ → List α → Prop
  | _, [] => True
  | s, a :: as =>
      match m.step s a with
      | none => True
      | some (t, out) => P s a t out ∧ Along P t as

variable {m} {s t u : σ} {a : α} {as bs : List α} {out : List ε}
variable {P Q : σ → α → σ → List ε → Prop}

@[simp] theorem exec_nil : m.exec s [] = some (s, []) := rfl

@[simp] theorem along_nil : m.Along P s [] := trivial

/-- Inversion of a nonempty run: its first step and the run that follows. -/
theorem exec_cons_iff :
    m.exec s (a :: as) = some (u, out) ↔
      ∃ t first rest, m.step s a = some (t, first) ∧ m.exec t as = some (u, rest) ∧
        out = first ++ rest := by
  constructor
  · intro h
    unfold exec at h
    cases hstep : m.step s a with
    | none => simp [hstep] at h
    | some next =>
        obtain ⟨t, first⟩ := next
        cases hrest : m.exec t as with
        | none => simp [hstep, hrest] at h
        | some last =>
            obtain ⟨v, rest⟩ := last
            simp only [hstep, hrest, Option.some.injEq, Prod.mk.injEq] at h
            obtain ⟨rfl, rfl⟩ := h
            exact ⟨t, first, rest, rfl, hrest, rfl⟩
  · rintro ⟨t, first, rest, hstep, hrest, rfl⟩
    simp [exec, hstep, hrest]

theorem along_cons (hstep : m.step s a = some (t, out)) :
    m.Along P s (a :: as) ↔ P s a t out ∧ m.Along P t as := by
  simp [Along, hstep]

/-- Runs compose, and their events are concatenated. -/
theorem exec_append {first rest : List ε} (h₁ : m.exec s as = some (t, first))
    (h₂ : m.exec t bs = some (u, rest)) : m.exec s (as ++ bs) = some (u, first ++ rest) := by
  induction as generalizing s first with
  | nil =>
      simp only [exec_nil, Option.some.injEq, Prod.mk.injEq] at h₁
      obtain ⟨rfl, rfl⟩ := h₁
      simpa using h₂
  | cons a as ih =>
      obtain ⟨v, out, later, hstep, hrun, rfl⟩ := exec_cons_iff.mp h₁
      rw [List.cons_append, exec_cons_iff]
      exact ⟨v, out, later ++ rest, hstep, ih hrun, List.append_assoc ..⟩

/-- A run with its last step split off. -/
theorem exec_snoc {first rest : List ε} (hrun : m.exec s as = some (t, first))
    (hstep : m.step t a = some (u, rest)) :
    m.exec s (as ++ [a]) = some (u, first ++ rest) :=
  exec_append hrun (exec_cons_iff.mpr ⟨u, rest, [], hstep, rfl, by simp⟩)

/-- A run in two parts, with the state between them. -/
theorem exists_of_exec_append (h : m.exec s (as ++ bs) = some (u, out)) :
    ∃ t first rest, m.exec s as = some (t, first) ∧ m.exec t bs = some (u, rest) ∧
      out = first ++ rest := by
  induction as generalizing s out with
  | nil => exact ⟨s, [], out, rfl, h, rfl⟩
  | cons a as ih =>
      obtain ⟨v, first, rest, hstep, hrun, rfl⟩ := exec_cons_iff.mp h
      obtain ⟨t, middle, last, hfirst, hlast, rfl⟩ := ih hrun
      exact ⟨t, first ++ middle, last, exec_cons_iff.mpr ⟨v, first, middle, hstep, hfirst, rfl⟩,
        hlast, (List.append_assoc ..).symm⟩

/-- A run is cut into two at a state that it passes. -/
theorem along_append {first : List ε} (hrun : m.exec s as = some (t, first)) :
    m.Along P s (as ++ bs) ↔ m.Along P s as ∧ m.Along P t bs := by
  induction as generalizing s first with
  | nil =>
      cases hrun
      exact ⟨fun h => ⟨trivial, h⟩, And.right⟩
  | cons a as ih =>
      obtain ⟨v, out, later, hstep, hrest, rfl⟩ := exec_cons_iff.mp hrun
      rw [List.cons_append, along_cons hstep, along_cons hstep, ih hrest, and_assoc]

/-- Every step that the run takes, at the place where it takes it. -/
theorem along_iff :
    m.Along P s as ↔ ∀ before a after t u first out, as = before ++ a :: after →
      m.exec s before = some (t, first) → m.step t a = some (u, out) → P t a u out := by
  constructor
  · intro h before a after t u first out heq hrun hstep
    rw [heq, along_append hrun, along_cons hstep] at h
    exact h.2.1
  · intro h
    induction as generalizing s with
    | nil => trivial
    | cons a as ih =>
        cases hstep : m.step s a with
        | none => simp [Along, hstep]
        | some next =>
            obtain ⟨t, out⟩ := next
            rw [along_cons hstep]
            refine ⟨h [] a as s t [] out rfl rfl hstep, ih ?_⟩
            intro before b after v u first out' heq hrun hb
            exact h (a :: before) b after v u (out ++ first) out' (congrArg (a :: ·) heq)
              (exec_cons_iff.mpr ⟨t, out, first, hstep, hrun, rfl⟩) hb

theorem Along.and (h₁ : m.Along P s as) (h₂ : m.Along Q s as) :
    m.Along (fun s a t out => P s a t out ∧ Q s a t out) s as := by
  rw [along_iff] at h₁ h₂ ⊢
  intro before a after t u first out heq hrun hstep
  exact ⟨h₁ before a after t u first out heq hrun hstep,
    h₂ before a after t u first out heq hrun hstep⟩

theorem Along.mono (h : m.Along P s as)
    (imp : ∀ s a t out, m.step s a = some (t, out) → P s a t out → Q s a t out) :
    m.Along Q s as := by
  induction as generalizing s with
  | nil => trivial
  | cons a as ih =>
      cases hstep : m.step s a with
      | none => simp [Along, hstep]
      | some next =>
          obtain ⟨t, out⟩ := next
          rw [along_cons hstep] at h ⊢
          exact ⟨imp s a t out hstep h.1, ih h.2⟩

/-- A predicate preserved by every step that satisfies `P` holds at the end of every
run all of whose steps satisfy `P`. -/
theorem exec_preserves {I : σ → Prop}
    (preserved : ∀ s a t out, I s → m.step s a = some (t, out) → P s a t out → I t)
    (start : I s) (along : m.Along P s as) (run : m.exec s as = some (t, out)) : I t := by
  induction as generalizing s out with
  | nil =>
      simp only [exec_nil, Option.some.injEq, Prod.mk.injEq] at run
      exact run.1 ▸ start
  | cons a as ih =>
      obtain ⟨v, first, rest, hstep, hrun, rfl⟩ := exec_cons_iff.mp run
      rw [along_cons hstep] at along
      exact ih (preserved s a v first start hstep along.1) along.2 hrun

/-- The unconditional case: an invariant of every step is an invariant of every run. -/
theorem exec_invariant {I : σ → Prop}
    (preserved : ∀ s a t out, I s → m.step s a = some (t, out) → I t)
    (start : I s) (run : m.exec s as = some (t, out)) : I t := by
  induction as generalizing s out with
  | nil =>
      simp only [exec_nil, Option.some.injEq, Prod.mk.injEq] at run
      exact run.1 ▸ start
  | cons a as ih =>
      obtain ⟨v, first, rest, hstep, hrun, rfl⟩ := exec_cons_iff.mp run
      exact ih (preserved s a v first start hstep) hrun

/-- Invariants that also speak about the events emitted so far. -/
theorem exec_preserves_log {I : σ → List ε → Prop} {log : List ε}
    (preserved : ∀ s a t out log, I s log → m.step s a = some (t, out) → P s a t out →
      I t (log ++ out))
    (start : I s log) (along : m.Along P s as) (run : m.exec s as = some (t, out)) :
    I t (log ++ out) := by
  induction as generalizing s out log with
  | nil =>
      simp only [exec_nil, Option.some.injEq, Prod.mk.injEq] at run
      obtain ⟨rfl, rfl⟩ := run
      simpa using start
  | cons a as ih =>
      obtain ⟨v, first, rest, hstep, hrun, rfl⟩ := exec_cons_iff.mp run
      rw [along_cons hstep] at along
      rw [← List.append_assoc]
      exact ih (preserved s a v first log start hstep along.1) along.2 hrun

/-- The unconditional case, from the start of a run. -/
theorem exec_invariant_log {I : σ → List ε → Prop}
    (preserved : ∀ s a t out log, I s log → m.step s a = some (t, out) → I t (log ++ out))
    (start : I s []) (run : m.exec s as = some (t, out)) : I t out := by
  have hlog : I t ([] ++ out) := exec_preserves_log (P := fun _ _ _ _ => True)
    (fun s a t out log h hstep _ => preserved s a t out log h hstep) start
    (along_iff.mpr fun _ _ _ _ _ _ _ _ _ _ => trivial) run
  exact hlog

/-- Strengthen the steps of a run by an invariant: where `I` holds at the start and
survives every step satisfying `P`, each step of the run is taken from a state in `I`. -/
theorem Along.with_invariant {I : σ → Prop}
    (preserved : ∀ s a t out, I s → m.step s a = some (t, out) → P s a t out → I t)
    (start : I s) (along : m.Along P s as) :
    m.Along (fun s a t out => I s ∧ P s a t out) s as := by
  induction as generalizing s with
  | nil => trivial
  | cons a as ih =>
      cases hstep : m.step s a with
      | none => simp [Along, hstep]
      | some next =>
          obtain ⟨t, out⟩ := next
          rw [along_cons hstep] at along ⊢
          exact ⟨⟨start, along.1⟩, ih (preserved s a t out start hstep along.1) along.2⟩

/-- Two step predicates that agree on what the first of them keeps hold along the same runs. -/
theorem along_congr_of_kept {I : σ → Prop}
    (preserved : ∀ s a t out, I s → m.step s a = some (t, out) → P s a t out → I t)
    (start : I s)
    (iff : ∀ s a t out, I s → m.step s a = some (t, out) → (P s a t out ↔ Q s a t out)) :
    m.Along P s as ↔ m.Along Q s as := by
  induction as generalizing s with
  | nil => exact Iff.rfl
  | cons a as ih =>
      cases hstep : m.step s a with
      | none => simp [Along, hstep]
      | some next =>
          obtain ⟨t, out⟩ := next
          rw [along_cons hstep, along_cons hstep, ← iff s a t out start hstep]
          exact and_congr_right fun h => ih (preserved s a t out start hstep h)

/-- Under an invariant of all steps, two step predicates that agree on it hold along
the same runs. -/
theorem along_congr {I : σ → Prop}
    (preserved : ∀ s a t out, I s → m.step s a = some (t, out) → I t)
    (start : I s)
    (iff : ∀ s a t out, I s → m.step s a = some (t, out) → (P s a t out ↔ Q s a t out)) :
    m.Along P s as ↔ m.Along Q s as :=
  along_congr_of_kept (fun s a t out h hstep _ => preserved s a t out h hstep) start iff

/-! ## Runs with what has happened in them -/

variable (m) in
/-- The same machine, with a summary of the events so far in its states. -/
def summarized {η : Type*} (f : η → ε → η) : Machine (σ × η) α ε where
  step s a := (m.step s.1 a).map fun next => ((next.1, next.2.foldl f s.2), next.2)

theorem step_of_summarized {η : Type*} {f : η → ε → η} {s t : σ × η}
    (h : (m.summarized f).step s a = some (t, out)) :
    m.step s.1 a = some (t.1, out) ∧ t.2 = out.foldl f s.2 := by
  obtain ⟨next, hnext, heq⟩ := Option.map_eq_some_iff.mp h
  cases heq
  exact ⟨hnext, rfl⟩

/-- Steps of a run that is checked at every one of them. -/
instance decidableAlong (P : σ → α → σ → List ε → Prop) [∀ s a t out, Decidable (P s a t out)] :
    ∀ s as, Decidable (m.Along P s as)
  | _, [] => isTrue trivial
  | s, a :: as =>
      match hstep : m.step s a with
      | none => isTrue (by rw [Along, hstep]; trivial)
      | some (t, out) =>
          have := decidableAlong P t as
          decidable_of_iff (P s a t out ∧ m.Along P t as) (along_cons hstep).symm

end Machine
end Lib
