import Mathlib.Data.List.Nodup
import Mathlib.Data.List.Perm.Basic

/-!
# Actions on separate keys

An action that `ActsAt` keys reads and changes what is seen under its own key, and nothing else.
Performed for several keys, each once, what it leaves and how often it answers `true` does not
depend on their order.
-/

namespace Lib

variable {σ κ υ : Type*}

/-- What the action for a key does is told by what is seen there. -/
structure ActsAt (view : σ → κ → υ) (action : σ → κ → σ × Bool) (update : κ → υ → υ × Bool) :
    Prop where
  seen : ∀ s k, view (action s k).1 k = (update k (view s k)).1
  answer : ∀ s k, (action s k).2 = (update k (view s k)).2
  frame : ∀ s k k', k' ≠ k → view (action s k).1 k' = view s k'

/-- The action for one key after the other, counting the answers that are `true`. -/
def performAll (action : σ → κ → σ × Bool) (keys : List κ) (result : σ × Nat) : σ × Nat :=
  keys.foldl
    (fun result k =>
      ((action result.1 k).1, if (action result.1 k).2 then result.2 + 1 else result.2))
    result

theorem performAll_cons (action : σ → κ → σ × Bool) (k : κ) (keys : List κ) (s : σ) (n : Nat) :
    performAll action (k :: keys) (s, n) =
      performAll action keys ((action s k).1, if (action s k).2 then n + 1 else n) := rfl

/-- What every action keeps, all of them keep. -/
theorem performAll_preserves {action : σ → κ → σ × Bool} {P : σ → Prop}
    (hkeeps : ∀ s k, P s → P (action s k).1) (keys : List κ) {s : σ} (h : P s) (n : Nat) :
    P (performAll action keys (s, n)).1 := by
  induction keys generalizing s n with
  | nil => exact h
  | cons first keys ih =>
      rw [performAll_cons]
      exact ih (hkeeps s first h) _

namespace ActsAt

variable {view : σ → κ → υ} {action : σ → κ → σ × Bool} {update : κ → υ → υ × Bool}
variable {keys keys' : List κ} {s : σ}

theorem view_performAll_of_not_mem (h : ActsAt view action update) {k : κ} (hk : k ∉ keys)
    (s : σ) (n : Nat) : view (performAll action keys (s, n)).1 k = view s k := by
  induction keys generalizing s n with
  | nil => rfl
  | cons first keys ih =>
      rw [List.mem_cons, not_or] at hk
      rw [performAll_cons, ih hk.2]
      exact h.frame s first k hk.1

theorem view_performAll_of_mem (h : ActsAt view action update) (hnodup : keys.Nodup) {k : κ}
    (hk : k ∈ keys) (s : σ) (n : Nat) :
    view (performAll action keys (s, n)).1 k = (update k (view s k)).1 := by
  induction keys generalizing s n with
  | nil => cases hk
  | cons first keys ih =>
      obtain ⟨hfirst, hnodup⟩ := List.nodup_cons.mp hnodup
      rw [performAll_cons]
      obtain rfl | hmem := List.mem_cons.mp hk
      · rw [h.view_performAll_of_not_mem hfirst]
        exact h.seen s k
      · have hne : k ≠ first := fun heq => hfirst (heq ▸ hmem)
        rw [ih hnodup hmem, h.frame s first k hne]

theorem snd_performAll (h : ActsAt view action update) (hnodup : keys.Nodup) (s : σ) (n : Nat) :
    (performAll action keys (s, n)).2 = n + keys.countP fun k => (update k (view s k)).2 := by
  induction keys generalizing s n with
  | nil => rfl
  | cons first keys ih =>
      obtain ⟨hfirst, hnodup⟩ := List.nodup_cons.mp hnodup
      have hrest : (keys.countP fun k => (update k (view (action s first).1 k)).2) =
          keys.countP fun k => (update k (view s k)).2 := by
        refine List.countP_congr fun k hk => ?_
        rw [h.frame s first k fun heq => hfirst (heq ▸ hk)]
      rw [performAll_cons, ih hnodup, hrest, List.countP_cons, h.answer s first]
      split
      · omega
      · omega

/-- In any order, the same is left under every key and the same is counted. -/
theorem performAll_perm (h : ActsAt view action update) (hnodup : keys.Nodup)
    (hperm : keys.Perm keys') (s : σ) (n : Nat) :
    (performAll action keys (s, n)).2 = (performAll action keys' (s, n)).2 ∧
      ∀ k, view (performAll action keys (s, n)).1 k =
        view (performAll action keys' (s, n)).1 k := by
  have hnodup' : keys'.Nodup := hperm.nodup_iff.mp hnodup
  constructor
  · rw [h.snd_performAll hnodup, h.snd_performAll hnodup', hperm.countP_eq]
  · intro k
    by_cases hk : k ∈ keys
    · rw [h.view_performAll_of_mem hnodup hk,
        h.view_performAll_of_mem hnodup' (hperm.mem_iff.mp hk)]
    · rw [h.view_performAll_of_not_mem hk,
        h.view_performAll_of_not_mem fun hk' => hk (hperm.mem_iff.mpr hk')]

/-- Where the same is seen under every key, the same is left and counted. -/
theorem performAll_congr (h : ActsAt view action update) (hnodup : keys.Nodup) {t : σ}
    (hsame : ∀ k, view s k = view t k) (n : Nat) :
    (performAll action keys (s, n)).2 = (performAll action keys (t, n)).2 ∧
      ∀ k, view (performAll action keys (s, n)).1 k = view (performAll action keys (t, n)).1 k := by
  constructor
  · rw [h.snd_performAll hnodup, h.snd_performAll hnodup]
    simp only [hsame]
  · intro k
    by_cases hk : k ∈ keys
    · rw [h.view_performAll_of_mem hnodup hk, h.view_performAll_of_mem hnodup hk, hsame]
    · rw [h.view_performAll_of_not_mem hk, h.view_performAll_of_not_mem hk, hsame]

end ActsAt
end Lib
