import SimIms.Sip.PlainIdentities
import SimIms.WebUi.JsText

/-!
# Digits and host names of the web UI

They are stored with one byte for each code unit, and are users and hosts as the SIP stack knows
them.
-/

namespace SimIms.WebUi

open Cxx Sip

/-- A text of digits. -/
structure IsDigits (text : JsString) : Prop where
  nonempty : text ≠ []
  chars : ∀ unit ∈ text, 0x30 ≤ unit ∧ unit ≤ 0x39

/-- Digits, possibly after a `+`. -/
def IsTelNumber (text : JsString) : Prop :=
  IsDigits text ∨ ∃ digits, text = 0x2B :: digits ∧ IsDigits digits

/-- Letters, digits, `-` and `.`. -/
structure IsHostName (text : JsString) : Prop where
  nonempty : text ≠ []
  chars : ∀ unit ∈ text, 0x30 ≤ unit ∧ unit ≤ 0x39 ∨ 0x41 ≤ unit ∧ unit ≤ 0x5A ∨
    0x61 ≤ unit ∧ unit ≤ 0x7A ∨ unit = 0x2D ∨ unit = 0x2E

/-- A text of one byte for each code unit. -/
def IsAscii (text : JsString) : Prop := ∀ unit ∈ text, unit.toNat < 0x80

instance (text : JsString) : Decidable (IsAscii text) :=
  List.decidableBAll (fun unit : UInt16 => unit.toNat < 0x80) text

instance (text : JsString) : Decidable (IsDigits text) :=
  have : Decidable (∀ unit ∈ text, 0x30 ≤ unit ∧ unit ≤ 0x39) :=
    List.decidableBAll (fun unit : UInt16 => 0x30 ≤ unit ∧ unit ≤ 0x39) text
  decidable_of_iff (text ≠ [] ∧ ∀ unit ∈ text, 0x30 ≤ unit ∧ unit ≤ 0x39)
    ⟨fun h => ⟨h.1, h.2⟩, fun h => ⟨h.nonempty, h.chars⟩⟩

instance (text : JsString) : Decidable (IsHostName text) :=
  have : Decidable (∀ unit ∈ text, 0x30 ≤ unit ∧ unit ≤ 0x39 ∨ 0x41 ≤ unit ∧ unit ≤ 0x5A ∨
      0x61 ≤ unit ∧ unit ≤ 0x7A ∨ unit = 0x2D ∨ unit = 0x2E) :=
    List.decidableBAll (fun unit : UInt16 => 0x30 ≤ unit ∧ unit ≤ 0x39 ∨
      0x41 ≤ unit ∧ unit ≤ 0x5A ∨ 0x61 ≤ unit ∧ unit ≤ 0x7A ∨ unit = 0x2D ∨ unit = 0x2E) text
  decidable_of_iff (text ≠ [] ∧ ∀ unit ∈ text, 0x30 ≤ unit ∧ unit ≤ 0x39 ∨
      0x41 ≤ unit ∧ unit ≤ 0x5A ∨ 0x61 ≤ unit ∧ unit ≤ 0x7A ∨ unit = 0x2D ∨ unit = 0x2E)
    ⟨fun h => ⟨h.1, h.2⟩, fun h => ⟨h.nonempty, h.chars⟩⟩

theorem utf8_of_isAscii {text : JsString} (h : IsAscii text) :
    utf8 text = text.map fun unit => .ofNat unit.toNat := by
  have hhigh : ∀ unit : UInt16, unit.toNat < 0x80 → isHighSurrogate unit = false := by
    intro unit hunit
    rw [isHighSurrogate, Bool.and_eq_false_iff, decide_eq_false_iff_not, UInt16.le_iff_toNat_le]
    left
    have hbound : (0xD800 : UInt16).toNat = 0xD800 := rfl
    omega
  have hlow : ∀ unit : UInt16, unit.toNat < 0x80 → isLowSurrogate unit = false := by
    intro unit hunit
    rw [isLowSurrogate, Bool.and_eq_false_iff, decide_eq_false_iff_not, UInt16.le_iff_toNat_le]
    left
    have hbound : (0xDC00 : UInt16).toNat = 0xDC00 := rfl
    omega
  have hunit : ∀ unit : UInt16, unit.toNat < 0x80 → utf8Unit unit = [.ofNat unit.toNat] := by
    intro unit hunit
    rw [utf8Unit, hhigh unit hunit, hlow unit hunit]
    exact if_pos hunit
  fun_induction utf8 text with
  | case1 => rfl
  | case2 unit => exact hunit unit (h unit List.mem_cons_self)
  | case3 unit next rest hpair ih =>
      rw [hhigh unit (h unit List.mem_cons_self)] at hpair
      cases hpair
  | case4 unit next rest hpair ih =>
      rw [hunit unit (h unit List.mem_cons_self), ih fun u hu => h u (List.mem_cons_of_mem _ hu)]
      rfl

theorem utf8_injective_of_isAscii {s t : JsString} (hs : IsAscii s) (ht : IsAscii t)
    (h : utf8 s = utf8 t) : s = t := by
  rw [utf8_of_isAscii hs, utf8_of_isAscii ht] at h
  induction s generalizing t with
  | nil =>
      rw [List.map_nil, eq_comm, List.map_eq_nil_iff] at h
      exact h.symm
  | cons unit s ih =>
      cases t with
      | nil => cases h
      | cons other t =>
          rw [List.map_cons, List.map_cons, List.cons.injEq] at h
          have hunit := hs unit List.mem_cons_self
          have hother := ht other List.mem_cons_self
          have heq := congrArg UInt8.toNat h.1
          rw [UInt8.toNat_ofNat_of_lt' (by rw [UInt8.size]; omega),
            UInt8.toNat_ofNat_of_lt' (by rw [UInt8.size]; omega)] at heq
          rw [UInt16.toNat_inj.mp heq, ih (fun u hu => hs u (List.mem_cons_of_mem _ hu))
            (fun u hu => ht u (List.mem_cons_of_mem _ hu)) h.2]

theorem IsAscii.append {s t : JsString} (hs : IsAscii s) (ht : IsAscii t) : IsAscii (s ++ t) :=
  List.forall_mem_append.mpr ⟨hs, ht⟩

theorem utf8_append {s t : JsString} (hs : IsAscii s) (ht : IsAscii t) :
    utf8 (s ++ t) = utf8 s ++ utf8 t := by
  rw [utf8_of_isAscii (hs.append ht), utf8_of_isAscii hs, utf8_of_isAscii ht, List.map_append]

theorem mem_utf8 {text : JsString} (h : IsAscii text) {c : UInt8} (hc : c ∈ utf8 text) :
    ∃ unit ∈ text, c = .ofNat unit.toNat := by
  rw [utf8_of_isAscii h] at hc
  obtain ⟨unit, hunit, rfl⟩ := List.mem_map.mp hc
  exact ⟨unit, hunit, rfl⟩

namespace IsDigits

variable {text : JsString} (h : IsDigits text)

include h

theorem isAscii : IsAscii text := by
  intro unit hunit
  obtain ⟨-, hhigh⟩ := h.chars unit hunit
  exact Nat.lt_of_le_of_lt (UInt16.le_iff_toNat_le.mp hhigh) (by decide)

theorem plainUser : PlainUser (utf8 text) where
  nonempty := utf8_ne_nil h.nonempty
  chars c hc := by
    obtain ⟨unit, hunit, rfl⟩ := mem_utf8 h.isAscii hc
    obtain ⟨hlow, hhigh⟩ := h.chars unit hunit
    have hall : ∀ n < 58, 48 ≤ n → isUserChar (.ofNat n) = true := by decide +kernel
    exact hall _ (Nat.lt_succ_of_le (UInt16.le_iff_toNat_le.mp hhigh))
      (UInt16.le_iff_toNat_le.mp hlow)

theorem not_plus : (bytes "+").isPrefixOf (utf8 text) = false := by
  obtain ⟨unit, rest, rfl⟩ := List.exists_cons_of_ne_nil h.nonempty
  obtain ⟨hlow, hhigh⟩ := h.chars unit List.mem_cons_self
  have hall : ∀ n < 58, 48 ≤ n → '+'.toUInt8 ≠ .ofNat n := by decide +kernel
  have hne := hall unit.toNat (Nat.lt_succ_of_le (UInt16.le_iff_toNat_le.mp hhigh))
    (UInt16.le_iff_toNat_le.mp hlow)
  rw [utf8_of_isAscii h.isAscii, List.map_cons]
  change List.isPrefixOf ['+'.toUInt8] _ = false
  rw [List.isPrefixOf_cons_cons, beq_eq_false_iff_ne.mpr hne, Bool.false_and]

end IsDigits

/-- A text that is put behind `+`. -/
theorem IsDigits.plus_isAscii {digits : JsString} (h : IsDigits digits) :
    IsAscii (0x2B :: digits) := List.forall_mem_cons.mpr ⟨by decide, h.isAscii⟩

theorem IsDigits.utf8_plus {digits : JsString} (h : IsDigits digits) :
    utf8 (0x2B :: digits) = '+'.toUInt8 :: utf8 digits := by
  rw [utf8_of_isAscii h.plus_isAscii, utf8_of_isAscii h.isAscii]
  rfl

namespace IsTelNumber

variable {text : JsString} (h : IsTelNumber text)

include h

theorem isAscii : IsAscii text := by
  obtain h | ⟨digits, rfl, h⟩ := h
  · exact h.isAscii
  · exact h.plus_isAscii

theorem nonempty : text ≠ [] := by
  obtain h | ⟨digits, rfl, h⟩ := h
  · exact h.nonempty
  · exact List.cons_ne_nil _ _

theorem plainUser : PlainUser (utf8 text) := by
  obtain h | ⟨digits, rfl, h⟩ := h
  · exact h.plainUser
  · rw [h.utf8_plus]
    exact ⟨List.cons_ne_nil _ _, List.forall_mem_cons.mpr ⟨by decide, h.plainUser.chars⟩⟩

theorem plus_iff : (bytes "+").isPrefixOf (utf8 text) = true ↔ text.head? = some 0x2B := by
  obtain h | ⟨digits, rfl, h⟩ := h
  · rw [h.not_plus]
    obtain ⟨unit, rest, rfl⟩ := List.exists_cons_of_ne_nil h.nonempty
    obtain ⟨hlow, -⟩ := h.chars unit List.mem_cons_self
    refine iff_of_false Bool.false_ne_true fun heq => ?_
    cases Option.some.inj heq
    exact absurd hlow (by decide)
  · rw [h.utf8_plus]
    exact iff_of_true (List.isPrefixOf_iff_prefix.mpr ⟨utf8 digits, rfl⟩) rfl

theorem not_isJsSpace : ∀ unit ∈ text, isJsSpace unit = false := by
  have hall : ∀ n < 58, n = 0x2B ∨ 48 ≤ n → isJsSpace (.ofNat n) = false := by decide +kernel
  have hdigit : ∀ unit : UInt16, 0x30 ≤ unit ∧ unit ≤ 0x39 → isJsSpace unit = false := by
    rintro unit ⟨hlow, hhigh⟩
    have hunit := hall unit.toNat (Nat.lt_succ_of_le (UInt16.le_iff_toNat_le.mp hhigh))
      (.inr (UInt16.le_iff_toNat_le.mp hlow))
    rwa [UInt16.ofNat_toNat] at hunit
  obtain h | ⟨digits, rfl, h⟩ := h
  · exact fun unit hunit => hdigit unit (h.chars unit hunit)
  · exact List.forall_mem_cons.mpr ⟨by decide, fun unit hunit => hdigit unit (h.chars unit hunit)⟩

/-- There is nothing to trim. -/
theorem jsTrim_eq : jsTrim text = text := by
  have hspace := h.not_isJsSpace
  have hdrop : ∀ {t : JsString}, (∀ unit ∈ t, isJsSpace unit = false) →
      t.dropWhile isJsSpace = t := by
    intro t ht
    cases t with
    | nil => rfl
    | cons unit t =>
        rw [List.dropWhile_cons_of_neg (by rw [ht unit List.mem_cons_self]; exact
          Bool.false_ne_true)]
  rw [jsTrim, hdrop hspace, hdrop fun unit hunit => hspace unit (List.mem_reverse.mp hunit),
    List.reverse_reverse]

end IsTelNumber

namespace IsHostName

variable {text : JsString} (h : IsHostName text)

include h

theorem isAscii : IsAscii text := by
  intro unit hunit
  have hchars := h.chars unit hunit
  simp only [UInt16.le_iff_toNat_le, ← UInt16.toNat_inj] at hchars
  have hbounds : (0x30 : UInt16).toNat = 0x30 ∧ (0x39 : UInt16).toNat = 0x39 ∧
      (0x41 : UInt16).toNat = 0x41 ∧ (0x5A : UInt16).toNat = 0x5A ∧ (0x61 : UInt16).toNat = 0x61 ∧
      (0x7A : UInt16).toNat = 0x7A ∧ (0x2D : UInt16).toNat = 0x2D ∧
        (0x2E : UInt16).toNat = 0x2E := by
    decide
  omega

theorem plainHost : PlainHost (utf8 text) where
  nonempty := utf8_ne_nil h.nonempty
  chars c hc := by
    obtain ⟨unit, hunit, rfl⟩ := mem_utf8 h.isAscii hc
    have hall : ∀ n < 128, 0x30 ≤ n ∧ n ≤ 0x39 ∨ 0x41 ≤ n ∧ n ≤ 0x5A ∨ 0x61 ≤ n ∧ n ≤ 0x7A ∨
        n = 0x2D ∨ n = 0x2E → isHostChar (.ofNat n) = true := by decide +kernel
    have hchars := h.chars unit hunit
    simp only [UInt16.le_iff_toNat_le, ← UInt16.toNat_inj] at hchars
    exact hall unit.toNat (h.isAscii unit hunit) hchars

end IsHostName

/-- The SIP URI of a user in a realm. -/
def sipIdentity (user realm : JsString) : JsString := js "sip:" ++ user ++ js "@" ++ realm

theorem utf8_sipIdentity {user realm : JsString} (hu : IsAscii user) (hr : IsAscii realm) :
    utf8 (sipIdentity user realm) = sipUri (utf8 user) (utf8 realm) := by
  have hscheme : IsAscii (js "sip:") := by decide +kernel
  have hat : IsAscii (js "@") := by decide +kernel
  rw [sipIdentity, utf8_append ((hscheme.append hu).append hat) hr,
    utf8_append (hscheme.append hu) hat, utf8_append hscheme hu, List.append_assoc,
    List.append_assoc]
  rfl

theorem utf8_telIdentity {tel : JsString} (ht : IsAscii tel) :
    utf8 (js "tel:" ++ tel) = telUri (utf8 tel) := by
  have hscheme : IsAscii (js "tel:") := by decide +kernel
  rw [utf8_append hscheme ht]
  rfl

end SimIms.WebUi
