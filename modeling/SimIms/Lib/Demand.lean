import Mathlib.Data.Fintype.Card
import Mathlib.Data.Set.Finite.Basic
import Mathlib.Logic.Relation

/-!
# Computations that demand each other

`needs s t` says that finishing `s` requires finishing `t`. A computation over finitely
many such points ends when no point it reaches needs itself. Conversely, when ending is
ranked so that each needed point ends at a smaller rank, there are no cycles.
-/

namespace Lib.Demand

open Relation

variable {σ : Type*} {needs : σ → σ → Prop} {start s t : σ}

/-- The points that finishing `start` may require. -/
def Reached (needs : σ → σ → Prop) (start t : σ) : Prop := ReflTransGen needs start t

/-- No reached point needs itself. -/
def Acyclic (needs : σ → σ → Prop) (start : σ) : Prop :=
  ∀ t, Reached needs start t → ¬ TransGen needs t t

/-- Finitely many reached points without a cycle are well-founded. -/
theorem acc_of_acyclic (finite : {t | Reached needs start t}.Finite)
    (acyclic : Acyclic needs start) : Acc (fun t s => needs s t) start := by
  have : Finite {t | Reached needs start t} := finite
  let demands (t s : {t | Reached needs start t}) : Prop := TransGen needs s.1 t.1
  have : IsTrans _ demands := ⟨fun _ _ _ h₁ h₂ => h₂.trans h₁⟩
  have : Std.Irrefl demands := ⟨fun t h => acyclic t.1 t.2 h⟩
  have wf : WellFounded demands := Finite.wellFounded_of_trans_of_irrefl demands
  suffices h : ∀ t : {t | Reached needs start t}, Acc (fun t s => needs s t) t.1 from
    h ⟨start, .refl⟩
  intro t
  induction t using wf.induction with
  | _ t ih =>
      refine Acc.intro _ fun u hu => ?_
      exact ih ⟨u, ReflTransGen.tail t.2 hu⟩ (.single hu)

/-- The same, where every step among the reached points lowers a measure. -/
theorem acc_of_decreasing (measure : σ → Nat)
    (decreasing : ∀ s t, Reached needs start s → needs s t → measure t < measure s) :
    Acc (fun t s => needs s t) start := by
  suffices h : ∀ n s, measure s ≤ n → Reached needs start s → Acc (fun t s => needs s t) s from
    h (measure start) start (Nat.le_refl _) .refl
  intro n
  induction n with
  | zero =>
      intro s hle hs
      refine Acc.intro _ fun t ht => ?_
      have := decreasing s t hs ht
      omega
  | succ n ih =>
      intro s hle hs
      refine Acc.intro _ fun t ht => ?_
      have := decreasing s t hs ht
      exact ih t (by omega) (ReflTransGen.tail hs ht)

section Ranked

variable {Ends : Nat → σ → Prop}

theorem ends_of_transGen
    (descends : ∀ n s t, Ends n s → needs s t → ∃ m, m < n ∧ Ends m t) {n : Nat}
    (h : TransGen needs s t) (ends : Ends n s) : ∃ m, m < n ∧ Ends m t := by
  induction h with
  | single hst => exact descends n s _ ends hst
  | tail _ htu ih =>
      obtain ⟨m, hm, ht⟩ := ih
      obtain ⟨k, hk, hu⟩ := descends m _ _ ht htu
      exact ⟨k, by omega, hu⟩

theorem not_transGen_self
    (descends : ∀ n s t, Ends n s → needs s t → ∃ m, m < n ∧ Ends m t) {n : Nat}
    (ends : Ends n s) : ¬ TransGen needs s s := by
  induction n using Nat.strong_induction_on with
  | _ n ih =>
      intro cycle
      obtain ⟨m, hm, ends'⟩ := ends_of_transGen descends cycle ends
      exact ih m hm ends' cycle

/-- A point that ends reaches no cycle. -/
theorem acyclic_of_ends
    (descends : ∀ n s t, Ends n s → needs s t → ∃ m, m < n ∧ Ends m t) {n : Nat}
    (ends : Ends n start) : Acyclic needs start := by
  intro t ht
  rcases reflTransGen_iff_eq_or_transGen.mp ht with rfl | ht
  · exact not_transGen_self descends ends
  · obtain ⟨m, _, ends'⟩ := ends_of_transGen descends ht ends
    exact not_transGen_self descends ends'

end Ranked
end Lib.Demand
