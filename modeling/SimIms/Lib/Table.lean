import Mathlib.Data.List.AList

/-!
# Hash tables

A `Table` is a finite map with at most one value for each key, as an association list
without repeated keys. The order of the list is the order of an iteration. What is found
under a key never depends on it.
-/

namespace Lib

abbrev Table (κ υ : Type*) := AList fun _ : κ => υ

namespace Table

variable {κ υ : Type*}

def empty : Table κ υ := ∅

/-- Replace the value of every entry. -/
def mapValues (t : Table κ υ) (f : κ → υ → υ) : Table κ υ :=
  ⟨t.entries.map (.map id f), t.nodupKeys.map₂ f t.entries⟩

/-- Erase every entry for which the predicate holds. -/
def eraseIf (t : Table κ υ) (p : κ → υ → Bool) : Table κ υ :=
  ⟨t.entries.filter fun e => !p e.1 e.2, t.nodupKeys.sublist List.filter_sublist⟩

variable [DecidableEq κ]

def find (t : Table κ υ) (k : κ) : Option υ := t.lookup k

def contains (t : Table κ υ) (k : κ) : Bool := (t.find k).isSome

/-- Insert or assign. -/
def insert (t : Table κ υ) (k : κ) (v : υ) : Table κ υ := AList.insert k v t

def erase (t : Table κ υ) (k : κ) : Table κ υ := AList.erase k t

/-- The values in the order of an iteration. -/
def values (t : Table κ υ) : List υ := t.entries.map fun entry => entry.2

/-- Replace the value of one entry, if there is one. -/
def modify (t : Table κ υ) (k : κ) (f : υ → υ) : Table κ υ :=
  t.mapValues fun k' v => if k' = k then f v else v

theorem find_eq_some_iff_mem {t : Table κ υ} {k : κ} {v : υ} :
    t.find k = some v ↔ ⟨k, v⟩ ∈ t.entries := AList.mem_lookup_iff

theorem contains_eq_false_iff {t : Table κ υ} {k : κ} :
    t.contains k = false ↔ t.find k = none := by
  rw [contains, Option.isSome_eq_false_iff, Option.isNone_iff_eq_none]

@[simp] theorem find_empty (k : κ) : (empty : Table κ υ).find k = none := rfl

@[simp] theorem find_mapValues (t : Table κ υ) (f : κ → υ → υ) (k : κ) :
    (t.mapValues f).find k = (t.find k).map (f k) := List.dlookup_map₂ k

theorem find_eraseIf_eq_some_iff {t : Table κ υ} {p : κ → υ → Bool} {k : κ} {v : υ} :
    (t.eraseIf p).find k = some v ↔ t.find k = some v ∧ p k v = false := by
  rw [find_eq_some_iff_mem, find_eq_some_iff_mem, eraseIf, List.mem_filter,
    Bool.not_eq_true']

theorem find_eraseIf_of_eq_none {t : Table κ υ} (p : κ → υ → Bool) {k : κ}
    (h : t.find k = none) : (t.eraseIf p).find k = none := by
  rw [Option.eq_none_iff_forall_ne_some]
  intro v hfind
  rw [(find_eraseIf_eq_some_iff.mp hfind).1] at h
  cases h

@[simp] theorem find_insert_self (t : Table κ υ) (k : κ) (v : υ) :
    (t.insert k v).find k = some v := AList.lookup_insert t

theorem find_insert_of_ne (t : Table κ υ) {k k' : κ} (v : υ) (h : k' ≠ k) :
    (t.insert k v).find k' = t.find k' := AList.lookup_insert_ne h

theorem find_insert (t : Table κ υ) (k : κ) (v : υ) (k' : κ) :
    (t.insert k v).find k' = if k' = k then some v else t.find k' := by
  split
  · rename_i heq
    rw [heq, find_insert_self]
  · exact find_insert_of_ne t v ‹_›

theorem insert_insert (t : Table κ υ) (k : κ) (v v' : υ) :
    (t.insert k v).insert k v' = t.insert k v' := AList.insert_insert t

@[simp] theorem find_erase_self (t : Table κ υ) (k : κ) : (t.erase k).find k = none :=
  AList.lookup_erase k t

theorem find_erase_of_ne (t : Table κ υ) {k k' : κ} (h : k' ≠ k) :
    (t.erase k).find k' = t.find k' := AList.lookup_erase_ne h

theorem find_erase (t : Table κ υ) (k k' : κ) :
    (t.erase k).find k' = if k' = k then none else t.find k' := by
  split
  · rename_i heq
    rw [heq, find_erase_self]
  · exact find_erase_of_ne t ‹_›

/-- What is found after erasing a key was there before. -/
theorem find_of_find_erase {t : Table κ υ} {k k' : κ} {v : υ}
    (h : (t.erase k).find k' = some v) : k' ≠ k ∧ t.find k' = some v := by
  rw [find_erase] at h
  split at h
  · cases h
  · exact ⟨‹_›, h⟩

@[simp] theorem find_modify_self (t : Table κ υ) (k : κ) (f : υ → υ) :
    (t.modify k f).find k = (t.find k).map f := by
  rw [modify, find_mapValues]
  congr 1
  funext v
  exact if_pos rfl

theorem find_modify_of_ne (t : Table κ υ) {k k' : κ} (f : υ → υ) (h : k' ≠ k) :
    (t.modify k f).find k' = t.find k' := by
  rw [modify, find_mapValues]
  cases t.find k' with
  | none => rfl
  | some v => exact congrArg some (if_neg h)

theorem find_modify (t : Table κ υ) (k : κ) (f : υ → υ) (k' : κ) :
    (t.modify k f).find k' = if k' = k then (t.find k').map f else t.find k' := by
  split
  · rename_i heq
    rw [heq, find_modify_self]
  · exact find_modify_of_ne t f ‹_›

theorem contains_insert (t : Table κ υ) (k : κ) (v : υ) (k' : κ) :
    (t.insert k v).contains k' = true ↔ k' = k ∨ t.contains k' = true := by
  rw [contains, find_insert]
  split <;> simp_all [contains]

theorem contains_erase (t : Table κ υ) (k k' : κ) :
    (t.erase k).contains k' = true ↔ k' ≠ k ∧ t.contains k' = true := by
  rw [contains, find_erase]
  split <;> simp_all [contains]

/-! ## Values -/

theorem mem_values_of_find {t : Table κ υ} {k : κ} {v : υ} (h : t.find k = some v) :
    v ∈ t.values := List.mem_map.mpr ⟨⟨k, v⟩, find_eq_some_iff_mem.mp h, rfl⟩

theorem exists_find_of_mem_values {t : Table κ υ} {v : υ} (h : v ∈ t.values) :
    ∃ k, t.find k = some v := by
  obtain ⟨⟨k, w⟩, hmem, rfl⟩ := List.mem_map.mp h
  exact ⟨k, find_eq_some_iff_mem.mpr hmem⟩

theorem values_insert {t : Table κ υ} {k : κ} (h : t.find k = none) (v : υ) :
    (t.insert k v).values = v :: t.values := by
  have hnew : k ∉ t := AList.lookup_eq_none.mp h
  exact congrArg (List.map fun entry => entry.2) (AList.entries_insert_of_notMem (b := v) hnew)

theorem values_erase_sublist (t : Table κ υ) (k : κ) : (t.erase k).values.Sublist t.values :=
  (List.kerase_sublist k t.entries).map fun entry : (_ : κ) × υ => entry.2

/-- What is taken out is one of the values. -/
theorem values_perm {t : Table κ υ} {k : κ} {v : υ} (h : t.find k = some v) :
    t.values.Perm (v :: (t.erase k).values) := by
  have hmem := find_eq_some_iff_mem.mp h
  obtain ⟨w, before, after, -, heq, herase⟩ := List.exists_of_kerase (List.mem_keys_of_mem hmem)
  have hsame : w = v := by
    refine t.nodupKeys.eq_of_mk_mem ?_ hmem
    rw [heq]
    exact List.mem_append_right _ List.mem_cons_self
  subst hsame
  have hvalues : (t.erase k).values = (before ++ after).map fun entry => entry.2 :=
    congrArg (List.map fun entry : (_ : κ) × υ => entry.2) herase
  rw [hvalues, values, heq, List.map_append, List.map_append]
  exact List.perm_middle

end Table
end Lib
