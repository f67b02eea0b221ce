import Mathlib.Order.Monotone.Basic

/-!
# Computations that are given fuel

A computation of the modelled language runs until it returns or throws. Its model is a
function of a fuel argument: `running` says that the fuel was used up first. Giving more
fuel can only turn `running` into a final outcome, which is what the order `o ≤ o'` says,
so a monotone computation has at most one final outcome.

`Settles f o` says that some amount of fuel takes `f` to the final outcome `o`.
-/

namespace Lib

inductive Outcome (ε α : Type*) where
  | running
  | throws (e : ε)
  | returns (a : α)
deriving DecidableEq, Repr

namespace Outcome

variable {ε α β : Type*}

/-- Sequential composition: the continuation runs only on a returned value. -/
def bind (o : Outcome ε α) (f : α → Outcome ε β) : Outcome ε β :=
  match o with
  | .running => .running
  | .throws e => .throws e
  | .returns a => f a

/-- A computation that needs no fuel. -/
def ofExcept : Except ε α → Outcome ε α
  | .error e => .throws e
  | .ok a => .returns a

@[simp] theorem bind_running (f : α → Outcome ε β) : bind .running f = .running := rfl
@[simp] theorem bind_throws (e : ε) (f : α → Outcome ε β) : bind (.throws e) f = .throws e := rfl
@[simp] theorem bind_returns (a : α) (f : α → Outcome ε β) : bind (.returns a) f = f a := rfl

@[simp] theorem ofExcept_eq_returns_iff {x : Except ε α} {a : α} :
    ofExcept x = .returns a ↔ x = .ok a := by
  cases x <;> simp [ofExcept]

@[simp] theorem ofExcept_ne_running (x : Except ε α) : ofExcept x ≠ .running := by
  cases x <;> simp [ofExcept]

theorem bind_eq_returns_iff {o : Outcome ε α} {f : α → Outcome ε β} {b : β} :
    o.bind f = .returns b ↔ ∃ a, o = .returns a ∧ f a = .returns b := by
  cases o <;> simp

theorem bind_ne_running_iff {o : Outcome ε α} {f : α → Outcome ε β} :
    o.bind f ≠ .running ↔ o ≠ .running ∧ ∀ a, o = .returns a → f a ≠ .running := by
  cases o <;> simp

/-- More fuel may settle a running computation and changes nothing else. -/
instance : Preorder (Outcome ε α) where
  le o o' := o = .running ∨ o = o'
  le_refl _ := .inr rfl
  le_trans o₁ o₂ o₃ h₁ h₂ := by
    rcases h₁ with rfl | rfl
    · exact .inl rfl
    · exact h₂

theorem running_le (o : Outcome ε α) : .running ≤ o := .inl rfl

theorem eq_of_le {o o' : Outcome ε α} (h : o ≤ o') (final : o ≠ .running) : o' = o := by
  rcases h with rfl | rfl
  · exact absurd rfl final
  · rfl

theorem bind_le_bind {o o' : Outcome ε α} {f f' : α → Outcome ε β} (h : o ≤ o')
    (hf : ∀ a, f a ≤ f' a) : o.bind f ≤ o'.bind f' := by
  rcases h with rfl | rfl
  · exact running_le _
  · cases o with
    | running => exact running_le _
    | throws e => exact le_refl _
    | returns a => exact hf a

/-! ## Final outcomes -/

/-- Some fuel takes the computation to the final outcome `o`. -/
def Settles (f : Nat → Outcome ε α) (o : Outcome ε α) : Prop :=
  o ≠ .running ∧ ∃ fuel, f fuel = o

variable {f : Nat → Outcome ε α} {g : α → Nat → Outcome ε β} {o o' : Outcome ε α}

/-- A computation that has its outcome as soon as there is fuel at all. -/
theorem settles_of_succ (h : ∀ n, f (n + 1) = o) (final : o ≠ .running) : Settles f o :=
  ⟨final, 1, h 0⟩

theorem Settles.at_later (hf : Monotone f) {fuel fuel' : Nat} (h : f fuel = o)
    (final : o ≠ .running) (hle : fuel ≤ fuel') : f fuel' = o := by
  rw [eq_of_le (hf hle) (h ▸ final), h]

theorem Settles.unique (hf : Monotone f) (h : Settles f o) (h' : Settles f o') : o = o' := by
  obtain ⟨final, n, hn⟩ := h
  obtain ⟨final', n', hn'⟩ := h'
  rw [← Settles.at_later hf hn final (Nat.le_max_left n n'),
    ← Settles.at_later hf hn' final' (Nat.le_max_right n n')]

theorem Settles.eq_of_ne_running (hf : Monotone f) (h : Settles f o) {fuel : Nat}
    (final : f fuel ≠ .running) : f fuel = o :=
  Settles.unique hf ⟨final, fuel, rfl⟩ h

/-- A computation whose fuel `n + 1` spends `n` on the rest settles as the rest does. -/
theorem Settles.succ {k : Nat → Outcome ε α} (h : Settles f o)
    (hsucc : ∀ n, k (n + 1) = f n) : Settles k o := by
  obtain ⟨final, n, hn⟩ := h
  exact ⟨final, n + 1, by rw [hsucc, hn]⟩

/-- Settled parts settle their composition. -/
theorem Settles.bind {o' : Outcome ε β} {a : α} (hf : Monotone f) (hg : Monotone (g a))
    (h : Settles f (.returns a)) (h' : Settles (g a) o') :
    Settles (fun n => (f n).bind fun a => g a n) o' := by
  obtain ⟨final, n, hn⟩ := h
  obtain ⟨final', n', hn'⟩ := h'
  refine ⟨final', max n n', ?_⟩
  simp only [Settles.at_later hf hn final (Nat.le_max_left n n'), bind_returns,
    Settles.at_later hg hn' final' (Nat.le_max_right n n')]

theorem Settles.bind_throws {e : ε} (h : Settles f (.throws e)) :
    Settles (fun n => (f n).bind fun a => g a n) (.throws e) := by
  obtain ⟨_, n, hn⟩ := h
  exact ⟨nofun, n, by simp only [hn, Outcome.bind_throws]⟩

end Outcome
/-- Inversion of two computations in `Except`, of which the second uses the value of the first. -/
theorem exists_of_bind_eq_ok {ε : Type*} {α β : Type} {x : Except ε α} {f : α → Except ε β} {b : β}
    (h : x >>= f = .ok b) : ∃ a, x = .ok a ∧ f a = .ok b := by
  cases x with
  | error e => cases h
  | ok a => exact ⟨a, rfl, h⟩

theorem exists_of_isOk {ε : Type*} {α : Type} {x : Except ε α} (h : x.isOk = true) :
    ∃ a, x = .ok a := by
  cases x with
  | error e => cases h
  | ok a => exact ⟨a, rfl⟩

/-- What `mapM` returns, it returns item by item. -/
theorem getElem_of_mapM {ε : Type*} {α β : Type} {f : α → Except ε β} {items : List α}
    {results : List β} (h : items.mapM f = .ok results) : results.length = items.length ∧
      ∀ (i : Nat) (hi : i < items.length) (hr : i < results.length),
        f items[i] = .ok results[i] := by
  induction items generalizing results with
  | nil =>
      cases h
      exact ⟨rfl, fun i hi => absurd hi (Nat.not_lt_zero i)⟩
  | cons item items ih =>
      rw [List.mapM_cons] at h
      obtain ⟨result, hresult, h⟩ := exists_of_bind_eq_ok h
      obtain ⟨rest, hrest, h⟩ := exists_of_bind_eq_ok h
      cases h
      obtain ⟨hlength, hget⟩ := ih hrest
      refine ⟨by rw [List.length_cons, List.length_cons, hlength], fun i hi hr => ?_⟩
      cases i with
      | zero => exact hresult
      | succ i => exact hget i (Nat.lt_of_succ_lt_succ hi) (Nat.lt_of_succ_lt_succ hr)

end Lib
