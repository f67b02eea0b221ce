import Mathlib.Data.List.Basic

/-!
# Maps kept as strictly ascending lists

The entries of an ordered map in the order of iteration. `assign` is insert-or-assign:
it keeps the keys strictly ascending, so two maps with the same entries are the same
list.
-/

namespace Lib.OrderedMap

variable {κ υ : Type*} [LE κ] [LT κ] [DecidableLT κ] {key : κ} {value : υ}
variable {entries : List (κ × υ)}

/-- The keys increase strictly along the list. -/
def Ascending (entries : List (κ × υ)) : Prop := entries.Pairwise fun a b => a.1 < b.1

/-- Set the value of a key, adding the key at its place when it is new. -/
def assign (key : κ) (value : υ) : List (κ × υ) → List (κ × υ)
  | [] => [(key, value)]
  | (k, v) :: rest =>
      if key < k then (key, value) :: (k, v) :: rest
      else if k < key then (k, v) :: assign key value rest
      else (key, value) :: rest

omit [LE κ] in
/-- Every entry afterwards is the assigned one or was there before. -/
theorem mem_assign {e : κ × υ} (h : e ∈ assign key value entries) :
    e = (key, value) ∨ e ∈ entries := by
  fun_induction assign key value entries with
  | case1 => exact .inl (by simpa using h)
  | case2 k v rest _ =>
      rcases List.mem_cons.mp h with rfl | h
      · exact .inl rfl
      · exact .inr h
  | case3 k v rest _ _ ih =>
      rcases List.mem_cons.mp h with rfl | h
      · exact .inr (by simp)
      · rcases ih h with rfl | h
        · exact .inl rfl
        · exact .inr (by simp [h])
  | case4 k v rest _ _ =>
      rcases List.mem_cons.mp h with rfl | h
      · exact .inl rfl
      · exact .inr (by simp [h])

variable [Std.IsLinearOrder κ] [Std.LawfulOrderLT κ]

theorem ascending_assign (h : Ascending entries) : Ascending (assign key value entries) := by
  unfold Ascending at h ⊢
  fun_induction assign key value entries with
  | case1 => simp
  | case2 k v rest hlt =>
      refine List.pairwise_cons.mpr ⟨fun e he => ?_, h⟩
      rcases List.mem_cons.mp he with rfl | he
      · exact hlt
      · exact Std.lt_trans hlt ((List.pairwise_cons.mp h).1 e he)
  | case3 k v rest _ hlt ih =>
      have ⟨hall, hrest⟩ := List.pairwise_cons.mp h
      refine List.pairwise_cons.mpr ⟨fun e he => ?_, ih hrest⟩
      rcases mem_assign he with rfl | he
      · exact hlt
      · exact hall e he
  | case4 k v rest hnlt hnlt' =>
      have ⟨hall, hrest⟩ := List.pairwise_cons.mp h
      have hkey : key = k := Std.le_antisymm (Std.not_lt.mp hnlt') (Std.not_lt.mp hnlt)
      exact List.pairwise_cons.mpr ⟨fun e he => hkey ▸ hall e he, hrest⟩

/-- A key above all others goes to the end. -/
theorem assign_of_all_lt (h : ∀ e ∈ entries, e.1 < key) :
    assign key value entries = entries ++ [(key, value)] := by
  fun_induction assign key value entries with
  | case1 => rfl
  | case2 k v rest hlt => exact absurd (Std.lt_trans hlt (h (k, v) (by simp))) Std.lt_irrefl
  | case3 k v rest _ _ ih => simp [ih fun e he => h e (by simp [he])]
  | case4 k v rest _ hnlt => exact absurd (h (k, v) (by simp)) hnlt

/-! ## Lookups -/

variable [DecidableEq κ]

omit [LE κ] [LT κ] [DecidableLT κ] [Std.IsLinearOrder κ] [Std.LawfulOrderLT κ] in
/-- The value of a key. -/
def lookup (key : κ) (entries : List (κ × υ)) : Option υ :=
  (entries.find? fun entry => entry.1 = key).map Prod.snd

theorem lookup_assign (other : κ) :
    lookup other (assign key value entries) =
      if other = key then some value else lookup other entries := by
  fun_induction assign key value entries with
  | case1 =>
      by_cases heq : other = key
      · simp [lookup, heq]
      · simp [lookup, heq, Ne.symm heq]
  | case2 k v rest hlt =>
      by_cases heq : other = key
      · simp [lookup, heq]
      · simp [lookup, heq, Ne.symm heq]
  | case3 k v rest _ hlt ih =>
      rw [lookup] at ih
      by_cases hk : k = other
      · have hne : other ≠ key := fun heq => Std.lt_irrefl (heq ▸ hk ▸ hlt)
        simp [lookup, hk, hne]
      · simp [lookup, hk, ih]
  | case4 k v rest hnlt hnlt' =>
      have hkey : key = k := Std.le_antisymm (Std.not_lt.mp hnlt') (Std.not_lt.mp hnlt)
      subst hkey
      by_cases heq : other = key
      · simp [lookup, heq]
      · simp [lookup, heq, Ne.symm heq]

end Lib.OrderedMap
