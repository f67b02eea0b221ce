import Mathlib.Data.List.Basic

/-!
# Loops that extract one item from a state until nothing is left to extract

`step s = some (e, s')` is one iteration: it emits `e` and continues from `s'`;
`step s = none` ends the loop. `run` counts iterations by fuel and returns `none` when
the fuel is used up before the loop has ended, so a loop that ends is one for which
some fuel gives a result. `Visits s t` says that the loop started in `s` passes
through `t`.
-/

namespace Lib.Loop

variable {σ ε : Type*} {step : σ → Option (ε × σ)} {s t u : σ} {e : ε}

/-- Iterate `step`, collecting what the iterations emit and the state that is left. -/
def run (step : σ → Option (ε × σ)) : Nat → σ → Option (List ε × σ)
  | 0, _ => none
  | fuel + 1, s =>
      match step s with
      | none => some ([], s)
      | some (e, t) =>
          match run step fuel t with
          | none => none
          | some (es, u) => some (e :: es, u)

/-- The states the loop passes through, its first state included. -/
inductive Visits (step : σ → Option (ε × σ)) (s : σ) : σ → Prop where
  | start : Visits step s s
  | next {v w : σ} {d : ε} : Visits step s v → step v = some (d, w) → Visits step s w

theorem Visits.trans (h₁ : Visits step s t) (h₂ : Visits step t u) : Visits step s u := by
  induction h₂ with
  | start => exact h₁
  | next _ hstep ih => exact .next ih hstep

theorem Visits.of_step (hstep : step s = some (e, t)) : Visits step s t :=
  .next .start hstep

theorem run_done (hstep : step s = none) (fuel : Nat) :
    run step (fuel + 1) s = some ([], s) := by
  simp [run, hstep]

theorem run_succ_of_some (hstep : step s = some (e, t)) {fuel : Nat} {es : List ε}
    (hrun : run step fuel t = some (es, u)) :
    run step (fuel + 1) s = some (e :: es, u) := by
  simp [run, hstep, hrun]

/-- Inversion of a finished loop at its first iteration. -/
theorem run_succ_cases {fuel : Nat} {es : List ε} (hrun : run step (fuel + 1) s = some (es, u)) :
    (step s = none ∧ es = [] ∧ u = s) ∨
      ∃ e t rest, step s = some (e, t) ∧ run step fuel t = some (rest, u) ∧ es = e :: rest := by
  unfold run at hrun
  cases hstep : step s with
  | none =>
      simp only [hstep, Option.some.injEq, Prod.mk.injEq] at hrun
      exact .inl ⟨rfl, hrun.1.symm, hrun.2.symm⟩
  | some next =>
      obtain ⟨e, t⟩ := next
      cases hrest : run step fuel t with
      | none => simp [hstep, hrest] at hrun
      | some last =>
          obtain ⟨rest, v⟩ := last
          simp only [hstep, hrest, Option.some.injEq, Prod.mk.injEq] at hrun
          obtain ⟨rfl, rfl⟩ := hrun
          exact .inr ⟨e, t, rest, rfl, hrest, rfl⟩

/-- What each iteration conserves, the whole loop conserves: `content` of the state is
split between the emitted items and the state that is left. -/
theorem run_conserves {β : Type*} (content : σ → List β) (weight : ε → List β)
    (conserves : ∀ s e t, step s = some (e, t) → weight e ++ content t = content s)
    {fuel : Nat} {es : List ε} (hrun : run step fuel s = some (es, t)) :
    (es.map weight).flatten ++ content t = content s := by
  induction fuel generalizing s es with
  | zero => simp [run] at hrun
  | succ fuel ih =>
      rcases run_succ_cases hrun with ⟨_, rfl, rfl⟩ | ⟨e, v, rest, hstep, hrest, rfl⟩
      · simp
      · rw [List.map_cons, List.flatten_cons, List.append_assoc, ih hrest,
          conserves s e v hstep]

/-- A loop whose every visited state strictly decreases a natural measure ends. -/
theorem exists_run_of_decreasing (measure : σ → Nat)
    (decreasing : ∀ t e u, Visits step s t → step t = some (e, u) → measure u < measure t) :
    ∃ fuel es u, run step fuel s = some (es, u) := by
  suffices h : ∀ n t, measure t ≤ n → Visits step s t →
      ∃ fuel es u, run step fuel t = some (es, u) from
    h (measure s) s (Nat.le_refl _) .start
  intro n
  induction n with
  | zero =>
      intro t hle visit
      cases hstep : step t with
      | none => exact ⟨1, [], t, run_done hstep 0⟩
      | some next =>
          obtain ⟨e, u⟩ := next
          have := decreasing t e u visit hstep
          omega
  | succ n ih =>
      intro t hle visit
      cases hstep : step t with
      | none => exact ⟨1, [], t, run_done hstep 0⟩
      | some next =>
          obtain ⟨e, u⟩ := next
          have hlt := decreasing t e u visit hstep
          obtain ⟨fuel, es, v, hrun⟩ := ih u (by omega) (visit.next hstep)
          exact ⟨fuel + 1, e :: es, v, run_succ_of_some hstep hrun⟩

/-- An iteration that returns to its own state repeats forever. -/
theorem run_eq_none_of_fixed (hstep : step s = some (e, s)) (fuel : Nat) :
    run step fuel s = none := by
  induction fuel with
  | zero => rfl
  | succ fuel ih => simp [run, hstep, ih]

end Lib.Loop
