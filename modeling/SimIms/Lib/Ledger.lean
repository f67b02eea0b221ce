import Mathlib.Data.List.Nodup
import SimIms.Lib.Table

/-!
# Tokens that are issued once and taken once

A table holds tokens that expire. Its `Ledger` relates it at a time to the tokens that have
been issued and those that have been taken, each with its key: what is in the table has been
issued, what has been taken has been issued, and a token that was issued stays in the table
until it is taken or expires. Where no two issued tokens have the same identity, none is taken
twice.
-/

namespace Lib

variable {κ τ ι : Type}

/-- That all the tokens can be told apart. -/
def AllDistinct (ident : τ → ι) (issued : List (κ × τ)) : Prop :=
  (issued.map fun entry => ident entry.2).Nodup

instance [DecidableEq ι] (ident : τ → ι) (issued : List (κ × τ)) :
    Decidable (AllDistinct ident issued) := inferInstanceAs (Decidable (List.Nodup _))

variable {ident : τ → ι} {issued taken : List (κ × τ)}

theorem AllDistinct.of_append {more : List (κ × τ)} (h : AllDistinct ident (issued ++ more)) :
    AllDistinct ident issued := by
  rw [AllDistinct, List.map_append] at h
  exact h.of_append_left

/-- Two issued tokens with the same identity are the same, under the same key. -/
theorem AllDistinct.eq_of_ident_eq (h : AllDistinct ident issued) {a b : κ × τ}
    (ha : a ∈ issued) (hb : b ∈ issued) (heq : ident a.2 = ident b.2) : a = b :=
  List.inj_on_of_nodup_map h ha hb heq

/-- A token issued last was not issued before. -/
theorem AllDistinct.not_mem_of_append_singleton {entry : κ × τ}
    (h : AllDistinct ident (issued ++ [entry])) : entry ∉ issued := by
  intro hmem
  rw [AllDistinct, List.map_append, List.nodup_append] at h
  exact h.2.2 (ident entry.2) (List.mem_map_of_mem hmem) (ident entry.2)
    (List.mem_singleton.mpr rfl) rfl

variable [DecidableEq κ] {expires : τ → Nat} {now : Nat} {table : Table κ τ} {key : κ} {token : τ}

structure Ledger (ident : τ → ι) (expires : τ → Nat) (issued taken : List (κ × τ)) (now : Nat)
    (table : Table κ τ) : Prop where
  issued_of_find : ∀ key token, table.find key = some token → (key, token) ∈ issued
  issued_of_taken : ∀ entry ∈ taken, entry ∈ issued
  kept : ∀ key token, (key, token) ∈ issued → (key, token) ∉ taken → now < expires token →
    table.find key = some token
  once : AllDistinct ident issued →
    taken.Nodup ∧ ∀ key token, table.find key = some token → (key, token) ∉ taken

theorem Ledger.append_nil (h : Ledger ident expires issued taken now table) :
    Ledger ident expires (issued ++ []) (taken ++ []) now table := by
  rw [List.append_nil, List.append_nil]
  exact h

theorem Ledger.empty : Ledger ident expires [] [] now (.empty : Table κ τ) where
  issued_of_find _ _ hfind := by cases hfind
  issued_of_taken _ hmem := by cases hmem
  kept _ _ hmem := by cases hmem
  once _ := ⟨List.nodup_nil, fun _ _ hfind => by cases hfind⟩

namespace Ledger

variable (h : Ledger ident expires issued taken now table)

include h

theorem elapse {later : Nat} (hle : now ≤ later) :
    Ledger ident expires issued taken later table :=
  { h with
    kept := fun key token hissued htaken hlive =>
      h.kept key token hissued htaken (Nat.lt_of_le_of_lt hle hlive) }

/-- Erasing what has expired. -/
theorem purge : Ledger ident expires issued taken now
    (table.eraseIf fun _ token => expires token ≤ now) where
  issued_of_find key token hfind :=
    h.issued_of_find key token (Table.find_eraseIf_eq_some_iff.mp hfind).1
  issued_of_taken := h.issued_of_taken
  kept key token hissued htaken hlive :=
    Table.find_eraseIf_eq_some_iff.mpr
      ⟨h.kept key token hissued htaken hlive, decide_eq_false (Nat.not_le_of_lt hlive)⟩
  once hdistinct :=
    ⟨(h.once hdistinct).1, fun key token hfind =>
      (h.once hdistinct).2 key token (Table.find_eraseIf_eq_some_iff.mp hfind).1⟩

/-- Storing a token where there is none. -/
theorem issue (hfree : table.find key = none) :
    Ledger ident expires (issued ++ [(key, token)]) taken now (table.insert key token) where
  issued_of_find other found hfind := by
    rw [Table.find_insert] at hfind
    split at hfind
    · rename_i heq
      cases hfind
      exact List.mem_append_right _ (List.mem_singleton.mpr (by rw [heq]))
    · exact List.mem_append_left _ (h.issued_of_find other found hfind)
  issued_of_taken entry hmem := List.mem_append_left _ (h.issued_of_taken entry hmem)
  kept other found hmem htaken hlive := by
    rw [Table.find_insert]
    obtain hmem | hmem := List.mem_append.mp hmem
    · have hfind := h.kept other found hmem htaken hlive
      rw [if_neg, hfind]
      rintro rfl
      rw [hfree] at hfind
      cases hfind
    · obtain ⟨rfl, rfl⟩ := Prod.mk.inj (List.mem_singleton.mp hmem)
      exact if_pos rfl
  once hdistinct := by
    obtain ⟨hnodup, hunspent⟩ := h.once hdistinct.of_append
    refine ⟨hnodup, ?_⟩
    intro other found hfind
    rw [Table.find_insert] at hfind
    split at hfind
    · rename_i heq
      cases hfind
      rw [heq]
      exact fun hmem => hdistinct.not_mem_of_append_singleton (h.issued_of_taken _ hmem)
    · exact hunspent other found hfind

/-- Taking a token out. -/
theorem take (hfind : table.find key = some token) :
    Ledger ident expires issued (taken ++ [(key, token)]) now (table.erase key) where
  issued_of_find other found hother :=
    h.issued_of_find other found (Table.find_of_find_erase hother).2
  issued_of_taken entry hmem := by
    obtain hmem | hmem := List.mem_append.mp hmem
    · exact h.issued_of_taken entry hmem
    · rw [List.mem_singleton.mp hmem]
      exact h.issued_of_find key token hfind
  kept other found hissued htaken hlive := by
    rw [List.mem_append, not_or] at htaken
    have hother := h.kept other found hissued htaken.1 hlive
    rw [Table.find_erase_of_ne _ ?_, hother]
    rintro rfl
    rw [hfind] at hother
    cases hother
    exact htaken.2 (List.mem_singleton.mpr rfl)
  once hdistinct := by
    obtain ⟨hnodup, hunspent⟩ := h.once hdistinct
    refine ⟨?_, ?_⟩
    · rw [← List.concat_eq_append]
      exact hnodup.concat (hunspent key token hfind)
    · intro other found hother hmem
      obtain ⟨hne, hother⟩ := Table.find_of_find_erase hother
      obtain hmem | hmem := List.mem_append.mp hmem
      · exact hunspent other found hother hmem
      · exact hne (Prod.mk.inj (List.mem_singleton.mp hmem)).1

end Ledger

end Lib
