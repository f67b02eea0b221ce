import Mathlib.Data.List.Basic
import Mathlib.Data.List.Nodup

/-!
# Records of named fields

A record is a list of fields in which the first field of a name counts. Setting a field overwrites
the one of that name or adds it at the end, so a record that is set by another one keeps every field
that the other one does not have.
-/

namespace Lib

variable {κ α : Type} [DecidableEq κ]

def setField (fields : List (κ × α)) (name : κ) (value : α) : List (κ × α) :=
  match fields with
  | [] => [(name, value)]
  | field :: rest =>
      if field.1 = name then (name, value) :: rest else field :: setField rest name value

/-- Sets one field after the other. -/
def setFields (fields update : List (κ × α)) : List (κ × α) :=
  update.foldl (fun fields field => setField fields field.1 field.2) fields

/-- The same values under the same names, in any order. -/
def SameFields (fields other : List (κ × α)) : Prop :=
  ∀ name, fields.lookup name = other.lookup name

theorem lookup_eq_none_iff_not_mem {fields : List (κ × α)} {name : κ} :
    fields.lookup name = none ↔ name ∉ fields.map Prod.fst := by
  rw [List.lookup_eq_none_iff, List.mem_map, not_exists]
  constructor
  · rintro h field ⟨hmem, rfl⟩
    exact bne_iff_ne.mp (h field hmem) rfl
  · intro h field hmem
    exact bne_iff_ne.mpr fun heq => h field ⟨hmem, heq.symm⟩

theorem lookup_field_cons (field : κ × α) (rest : List (κ × α)) (name : κ) :
    (field :: rest).lookup name = if name = field.1 then some field.2 else rest.lookup name := by
  rw [List.lookup_cons]
  by_cases h : name = field.1
  · rw [beq_iff_eq.mpr h, if_pos h]
  · rw [beq_eq_false_iff_ne.mpr h, if_neg h]

theorem lookup_setField (fields : List (κ × α)) (name other : κ) (value : α) :
    (setField fields name value).lookup other =
      if other = name then some value else fields.lookup other := by
  induction fields with
  | nil => exact lookup_field_cons _ _ _
  | cons field rest ih =>
      rw [setField, lookup_field_cons field]
      by_cases hfield : field.1 = name
      · rw [if_pos hfield, lookup_field_cons, hfield]
        by_cases hother : other = name
        · rw [if_pos hother, if_pos hother]
        · rw [if_neg hother, if_neg hother, if_neg hother]
      · rw [if_neg hfield, lookup_field_cons, ih]
        by_cases hother : other = field.1
        · rw [if_pos hother, if_neg fun heq => hfield (hother.symm.trans heq), if_pos hother]
        · rw [if_neg hother, if_neg hother]

/-- What is set goes before what was there. -/
theorem lookup_setFields {update : List (κ × α)} (hupdate : (update.map Prod.fst).Nodup)
    (fields : List (κ × α)) (name : κ) :
    (setFields fields update).lookup name = (update.lookup name).or (fields.lookup name) := by
  induction update generalizing fields with
  | nil => rfl
  | cons field update ih =>
      rw [List.map_cons, List.nodup_cons] at hupdate
      rw [setFields, List.foldl_cons, ← setFields, ih hupdate.2, lookup_setField, lookup_field_cons]
      by_cases hname : name = field.1
      · rw [hname, lookup_eq_none_iff_not_mem.mpr hupdate.1, if_pos rfl, if_pos rfl]
        rfl
      · rw [if_neg hname, if_neg hname]

/-- Nothing is left over exactly if every field that was there is set. -/
theorem sameFields_setFields_iff {fields update : List (κ × α)}
    (hupdate : (update.map Prod.fst).Nodup) :
    SameFields (setFields fields update) update ↔
      ∀ name ∈ fields.map Prod.fst, name ∈ update.map Prod.fst := by
  have hname : ∀ name, (setFields fields update).lookup name = update.lookup name ↔
      (name ∈ fields.map Prod.fst → name ∈ update.map Prod.fst) := by
    intro name
    rw [lookup_setFields hupdate]
    by_cases hmem : name ∈ update.map Prod.fst
    · obtain ⟨value, hvalue⟩ := Option.ne_none_iff_exists'.mp
        (mt lookup_eq_none_iff_not_mem.mp (not_not.mpr hmem))
      rw [hvalue]
      exact iff_of_true rfl fun _ => hmem
    · rw [lookup_eq_none_iff_not_mem.mpr hmem, Option.none_or, lookup_eq_none_iff_not_mem]
      exact ⟨fun hnot h => (hnot h).elim, fun h hold => hmem (h hold)⟩
  exact forall_congr' hname

end Lib
