import SimIms.SCscf.CalleeLookup
import SimIms.Sip.PlainIdentities
import Mathlib.Algebra.Group.Even
import Mathlib.Data.List.Induction
import Mathlib.Data.List.Infix

/-!
# Lists of header values

A Route or Record-Route field may hold several values. They are taken apart at the commas that stand
neither in quotes nor in angle brackets: after a value whose quotes and brackets are closed the loop
is where it was before it.
-/

namespace SimIms.Sip

open Cxx

/-! ## Values -/

/-- What stands outside of quotes, when the text before it has left a quote open or not. -/
def unquoted : Bool → Bytes → Bytes
  | _, [] => []
  | inQuotes, c :: text =>
      if c = '"'.toUInt8 then unquoted (!inQuotes) text
      else if inQuotes then unquoted inQuotes text
      else c :: unquoted inQuotes text

/-- The quotes of this text leave the last one open. -/
def endsInQuotes (text : Bytes) : Bool := text.count '"'.toUInt8 % 2 = 1

/-- How many brackets are open after this text. -/
def openBrackets (text : Bytes) : Nat :=
  (unquoted false text).count '<'.toUInt8 - (unquoted false text).count '>'.toUInt8

/-- A value that can stand in a list. -/
structure HeaderValue where
  text : Bytes
  nonempty : text ≠ []
  trimmed : trim text = text
  quotes : Even (text.count '"'.toUInt8)
  balanced : (unquoted false text).count '<'.toUInt8 = (unquoted false text).count '>'.toUInt8
  closes : ∀ front, front <+: unquoted false text →
    front.count '>'.toUInt8 ≤ front.count '<'.toUInt8
  commas : ∀ front, front ++ [','.toUInt8] <+: unquoted false text →
    front.count '>'.toUInt8 < front.count '<'.toUInt8

/-- A value with blanks around it. -/
structure ListedValue where
  before : Bytes
  value : HeaderValue
  after : Bytes
  blankBefore : ∀ c ∈ before, isSpace c = true
  blankAfter : ∀ c ∈ after, isSpace c = true

namespace ListedValue

def text (listed : ListedValue) : Bytes := listed.before ++ listed.value.text ++ listed.after

/-- One field with all these values. -/
def field (values : List ListedValue) : Bytes := [','.toUInt8].intercalate (values.map text)

end ListedValue

namespace SipMessage

/-- `getHeaders("Route")`. -/
def routeHeaders (msg : SipMessage) : List Bytes := msg.routes.flatMap splitHeaderValues

end SipMessage

/-! ## Quotes -/

theorem endsInQuotes_concat (text : Bytes) (c : UInt8) :
    endsInQuotes (text ++ [c]) = (endsInQuotes text ^^ decide (c = '"'.toUInt8)) := by
  rw [endsInQuotes, endsInQuotes, List.count_append, List.count_singleton, Nat.add_mod]
  obtain heven | hodd := Nat.mod_two_eq_zero_or_one (text.count '"'.toUInt8)
  · rw [heven]
    by_cases hquote : c = '"'.toUInt8 <;> simp [hquote]
  · rw [hodd]
    by_cases hquote : c = '"'.toUInt8 <;> simp [hquote]

theorem endsInQuotes_cons (c : UInt8) (text : Bytes) :
    endsInQuotes (c :: text) = (endsInQuotes text ^^ decide (c = '"'.toUInt8)) := by
  have hcount : (c :: text).count '"'.toUInt8 = (text ++ [c]).count '"'.toUInt8 := by
    rw [List.count_append, List.count_cons, List.count_singleton]
  rw [← endsInQuotes_concat, endsInQuotes, endsInQuotes, hcount]

/-- The next character stands outside if it is no quote and no quote is open before it. -/
theorem unquoted_concat (inQuotes : Bool) (text : Bytes) (c : UInt8) :
    unquoted inQuotes (text ++ [c]) = unquoted inQuotes text ++
      if c = '"'.toUInt8 ∨ (inQuotes ^^ endsInQuotes text) = true then [] else [c] := by
  induction text generalizing inQuotes with
  | nil =>
      have hnone : endsInQuotes [] = false := rfl
      by_cases hquote : c = '"'.toUInt8
      · simp [unquoted, hquote]
      · cases inQuotes <;> simp [unquoted, hquote, hnone]
  | cons d text ih =>
      rw [List.cons_append, unquoted, unquoted, endsInQuotes_cons]
      by_cases hquote : d = '"'.toUInt8
      · rw [if_pos hquote, if_pos hquote, ih, decide_eq_true hquote, Bool.xor_true, Bool.xor_not,
          Bool.not_xor]
      · rw [if_neg hquote, if_neg hquote, decide_eq_false hquote, Bool.xor_false]
        cases inQuotes with
        | true => rw [if_pos rfl, if_pos rfl, ih]
        | false => rw [if_neg Bool.false_ne_true, if_neg Bool.false_ne_true, ih, List.cons_append]

theorem unquoted_prefix_concat (text : Bytes) (c : UInt8) :
    unquoted false text <+: unquoted false (text ++ [c]) := by
  rw [unquoted_concat]
  exact List.prefix_append _ _

/-! ## The loop inside a value -/

namespace HeaderSplit

variable {s : HeaderSplit} {text : Bytes} {c : UInt8}

theorem push_quote (h : c = '"'.toUInt8) :
    s.push c = { s with current := s.current ++ [c], inQuotes := !s.inQuotes } := by
  rw [push, if_pos h]

theorem push_quoted (hquote : c ≠ '"'.toUInt8) (hin : s.inQuotes = true) :
    s.push c = { s with current := s.current ++ [c] } := by
  rw [push, if_neg hquote, if_pos hin]

/-- Outside of quotes brackets are counted, and only a comma outside of brackets ends a value. -/
theorem push_outside (hquote : c ≠ '"'.toUInt8) (hin : s.inQuotes = false)
    (hcomma : c = ','.toUInt8 → s.angleDepth ≠ 0) :
    s.push c = { s with
      current := s.current ++ [c]
      angleDepth := s.angleDepth + [c].count '<'.toUInt8 - [c].count '>'.toUInt8 } := by
  rw [push, if_neg hquote, if_neg (by rw [hin]; exact Bool.false_ne_true)]
  by_cases hless : c = '<'.toUInt8
  · subst hless
    rw [if_pos rfl]
    rfl
  have hopened : [c].count '<'.toUInt8 = 0 := List.count_eq_zero.mpr (by simpa using Ne.symm hless)
  rw [if_neg hless, hopened, Nat.add_zero]
  by_cases hgreater : c = '>'.toUInt8
  · subst hgreater
    by_cases hdepth : 0 < s.angleDepth
    · rw [if_pos ⟨rfl, hdepth⟩]
      rfl
    · have hzero : s.angleDepth = 0 := by omega
      rw [if_neg (fun h => hdepth h.2), if_neg (fun h => absurd h.1 (by decide)), hzero]
      rfl
  · have hclosed : [c].count '>'.toUInt8 = 0 :=
      List.count_eq_zero.mpr (by simpa using Ne.symm hgreater)
    rw [if_neg (fun h => hgreater h.1), if_neg (fun h => hcomma h.1 h.2), hclosed, Nat.sub_zero]

/-- The loop after a text that it has begun outside of quotes and brackets. -/
def inside (s : HeaderSplit) (text : Bytes) : HeaderSplit :=
  { s with
    current := s.current ++ text
    inQuotes := endsInQuotes text
    angleDepth := openBrackets text }

/-- One character of a value: no more brackets have been closed than opened, and a comma that could
end it stands in brackets. -/
theorem push_inside
    (hopen : (unquoted false text).count '>'.toUInt8 ≤ (unquoted false text).count '<'.toUInt8)
    (hcomma : unquoted false (text ++ [c]) = unquoted false text ++ [','.toUInt8] →
      (unquoted false text).count '>'.toUInt8 < (unquoted false text).count '<'.toUInt8) :
    (s.inside text).push c = s.inside (text ++ [c]) := by
  have hquotes := endsInQuotes_concat text c
  have hbrackets := unquoted_concat false text c
  rw [Bool.false_xor] at hbrackets
  by_cases hquote : c = '"'.toUInt8
  · rw [if_pos (.inl hquote), List.append_nil] at hbrackets
    rw [decide_eq_true hquote, Bool.xor_true] at hquotes
    rw [push_quote hquote, inside, inside, hquotes, openBrackets, openBrackets, hbrackets,
      List.append_assoc]
  rw [decide_eq_false hquote, Bool.xor_false] at hquotes
  by_cases hin : endsInQuotes text = true
  · rw [if_pos (.inr hin), List.append_nil] at hbrackets
    rw [push_quoted hquote hin, inside, inside, hquotes, openBrackets, openBrackets, hbrackets,
      List.append_assoc]
  · rw [if_neg (not_or.mpr ⟨hquote, hin⟩)] at hbrackets
    rw [hbrackets] at hcomma
    have hdepth : openBrackets (text ++ [c]) =
        openBrackets text + [c].count '<'.toUInt8 - [c].count '>'.toUInt8 := by
      rw [openBrackets, openBrackets, hbrackets, List.count_append, List.count_append]
      omega
    rw [push_outside hquote (Bool.eq_false_of_not_eq_true hin), inside, inside, hquotes, hdepth,
      List.append_assoc]
    rintro rfl
    have hlt := hcomma rfl
    change openBrackets text ≠ 0
    rw [openBrackets]
    omega

/-- A value leaves the loop where it was, but for what it has taken up. -/
theorem foldl_push_value (s : HeaderSplit) (hin : s.inQuotes = false) (hdepth : s.angleDepth = 0)
    (value : HeaderValue) :
    value.text.foldl push s = { s with current := s.current ++ value.text } := by
  have hread : ∀ text : Bytes, unquoted false text <+: unquoted false value.text →
      text.foldl push s = s.inside text := by
    intro text hfront
    induction text using List.reverseRecOn with
    | nil =>
        rw [inside, List.append_nil, List.foldl_nil,
          show endsInQuotes [] = s.inQuotes from hin.symm,
          show openBrackets [] = s.angleDepth from hdepth.symm]
    | append_singleton text c ih =>
        have hbefore := (unquoted_prefix_concat text c).trans hfront
        rw [List.foldl_concat, ih hbefore]
        refine push_inside (value.closes _ hbefore) fun heq => value.commas _ ?_
        rwa [heq] at hfront
  have heven : value.text.count '"'.toUInt8 % 2 = 0 := Nat.even_iff.mp value.quotes
  have hclosed : endsInQuotes value.text = false := by
    rw [endsInQuotes, heven]
    rfl
  have hbalanced : openBrackets value.text = 0 := by
    rw [openBrackets, value.balanced, Nat.sub_self]
  rw [hread value.text (List.prefix_refl _), inside, hclosed, hbalanced, ← hin, ← hdepth]

/-- `angle_depth` is an `int`: it does not overflow while less than 2 GiB have been read. -/
theorem angleDepth_foldl_push_le (text : Bytes) (s : HeaderSplit) :
    (text.foldl push s).angleDepth ≤ s.angleDepth + text.length := by
  induction text generalizing s with
  | nil => exact Nat.le_add_right _ _
  | cons c text ih =>
      have hstep : (s.push c).angleDepth ≤ s.angleDepth + 1 := by
        unfold push
        split_ifs <;> dsimp only <;> omega
      rw [List.foldl_cons, List.length_cons]
      have hrest := ih (s.push c)
      omega

theorem foldl_push_blanks (s : HeaderSplit) (hin : s.inQuotes = false) {blanks : Bytes}
    (h : ∀ c ∈ blanks, isSpace c = true) :
    blanks.foldl push s = { s with current := s.current ++ blanks } := by
  induction blanks generalizing s with
  | nil => rw [List.append_nil, List.foldl_nil]
  | cons c blanks ih =>
      rw [List.forall_mem_cons] at h
      have hne : ∀ d : UInt8, isSpace d = false → c ≠ d := by
        rintro d hd rfl
        rw [h.1] at hd
        cases hd
      have hcount : ∀ d : UInt8, isSpace d = false → [c].count d = 0 := fun d hd =>
        List.count_eq_zero.mpr fun hmem => hne d hd (List.mem_singleton.mp hmem).symm
      have hpush : s.push c = { s with current := s.current ++ [c] } := by
        rw [push_outside (hne _ (by decide)) hin (fun heq => absurd heq (hne _ (by decide))),
          hcount _ (by decide), hcount _ (by decide), Nat.add_zero, Nat.sub_zero]
      rw [List.foldl_cons, hpush, ih { s with current := s.current ++ [c] } hin h.2,
        List.append_assoc, List.singleton_append]

/-- The blanks around a value are taken up with it. -/
theorem foldl_push_listed (s : HeaderSplit) (hin : s.inQuotes = false) (hdepth : s.angleDepth = 0)
    (listed : ListedValue) :
    listed.text.foldl push s = { s with current := s.current ++ listed.text } := by
  rw [ListedValue.text, List.foldl_append, List.foldl_append,
    foldl_push_blanks s hin listed.blankBefore,
    foldl_push_value { s with current := s.current ++ listed.before } hin hdepth,
    foldl_push_blanks { s with current := s.current ++ listed.before ++ listed.value.text } hin
      listed.blankAfter, List.append_assoc, List.append_assoc, List.append_assoc]

theorem push_comma (hin : s.inQuotes = false) (hdepth : s.angleDepth = 0) :
    s.push ','.toUInt8 = { s with parts := s.flush, current := [] } := by
  rw [push, if_neg (by decide), if_neg (by rw [hin]; exact Bool.false_ne_true), if_neg (by decide),
    if_neg (fun h => absurd h.1 (by decide)), if_pos ⟨rfl, hdepth⟩]

end HeaderSplit

/-! ## Lists -/

namespace HeaderValue

variable (value : HeaderValue)

theorem exists_first : ∃ c rest, value.text = c :: rest ∧ isSpace c = false := by
  obtain ⟨c, rest, hcons⟩ := List.exists_cons_of_ne_nil value.nonempty
  refine ⟨c, rest, hcons, Bool.eq_false_of_not_eq_true fun hblank => ?_⟩
  -- trimming would have taken the blank away
  have hlength := congrArg List.length value.trimmed
  rw [trim, List.length_reverse, hcons, List.dropWhile_cons_of_pos hblank, List.length_cons]
    at hlength
  have hback := (List.dropWhile_sublist isSpace (l := (rest.dropWhile isSpace).reverse)).length_le
  have hfront := (List.dropWhile_sublist isSpace (l := rest)).length_le
  rw [List.length_reverse] at hback
  omega

theorem exists_last : ∃ c front, value.text = front ++ [c] ∧ isSpace c = false := by
  have htrimmed := value.trimmed
  rw [trim] at htrimmed
  cases hkept : (value.text.dropWhile isSpace).reverse.dropWhile isSpace with
  | nil =>
      rw [hkept] at htrimmed
      exact (value.nonempty htrimmed.symm).elim
  | cons c rest =>
      rw [hkept, List.reverse_cons] at htrimmed
      refine ⟨c, rest.reverse, htrimmed.symm, Bool.eq_false_of_not_eq_true fun hblank => ?_⟩
      have hhead := List.head_dropWhile_not isSpace
        (show (value.text.dropWhile isSpace).reverse.dropWhile isSpace ≠ [] by
          rw [hkept]
          exact List.cons_ne_nil _ _)
      simp only [hkept, List.head_cons, hblank] at hhead
      cases hhead

end HeaderValue

namespace ListedValue

theorem trim_text (listed : ListedValue) : trim listed.text = listed.value.text :=
  trim_append listed.blankBefore listed.blankAfter listed.value.exists_first
    listed.value.exists_last

theorem flush_listed (s : HeaderSplit) (listed : ListedValue) :
    ({ s with current := listed.text } : HeaderSplit).flush = s.parts ++ [listed.value.text] := by
  rw [HeaderSplit.flush, listed.trim_text]
  exact if_neg listed.value.nonempty

/-- From a comma on, the values of a field are added in their order. -/
theorem flush_foldl_field (values : List ListedValue) (parts : List Bytes) :
    ((field values).foldl HeaderSplit.push { parts }).flush =
      parts ++ values.map (·.value.text) := by
  induction values generalizing parts with
  | nil => rw [List.map_nil, List.append_nil]; rfl
  | cons listed values ih =>
      rw [field, List.map_cons] at *
      cases values with
      | nil =>
          rw [List.map_nil, List.intercalate_singleton, HeaderSplit.foldl_push_listed _ rfl rfl]
          exact flush_listed _ listed
      | cons next values =>
          rw [List.map_cons, List.intercalate_cons_cons, List.foldl_append, List.foldl_append,
            HeaderSplit.foldl_push_listed _ rfl rfl, List.foldl_cons, List.foldl_nil,
            HeaderSplit.push_comma rfl rfl, List.nil_append, flush_listed, ← List.map_cons]
          rw [ih, List.append_assoc]
          rfl

end ListedValue

/-- A field is taken apart into its values, and the values of all Route or Record-Route fields are
found in their order. -/
theorem splitHeaderValues_field :
    (∀ values : List ListedValue,
      splitHeaderValues (ListedValue.field values) = values.map (·.value.text)) ∧
    ∀ (msg : SipMessage) (fields : List (List ListedValue)),
      { msg with routes := fields.map ListedValue.field }.routeHeaders =
        fields.flatten.map (·.value.text) ∧
      { msg with recordRoutes := fields.map ListedValue.field }.recordRouteHeaders =
        fields.flatten.map (·.value.text) := by
  have hfield : ∀ values : List ListedValue,
      splitHeaderValues (ListedValue.field values) = values.map (·.value.text) := fun values =>
    (ListedValue.flush_foldl_field values []).trans (List.nil_append _)
  have hfields : ∀ fields : List (List ListedValue),
      (fields.map ListedValue.field).flatMap splitHeaderValues =
        fields.flatten.map (·.value.text) := by
    intro fields
    rw [List.flatMap_map, List.map_flatten, List.flatMap_def]
    exact congrArg List.flatten (List.map_congr_left fun values _ => hfield values)
  exact ⟨hfield, fun msg fields => ⟨hfields fields, hfields fields⟩⟩

/-- What is to be checked of a text that is a value. -/
def HeaderValue.Checked (text : Bytes) : Prop :=
  text ≠ [] ∧ trim text = text ∧ Even (text.count '"'.toUInt8) ∧
    (unquoted false text).count '<'.toUInt8 = (unquoted false text).count '>'.toUInt8 ∧
    (∀ front ∈ (unquoted false text).inits,
      front.count '>'.toUInt8 ≤ front.count '<'.toUInt8) ∧
    ∀ front ∈ (unquoted false text).inits, front.getLast? = some ','.toUInt8 →
      front.count '>'.toUInt8 < front.count '<'.toUInt8

instance (text : Bytes) : Decidable (HeaderValue.Checked text) :=
  inferInstanceAs (Decidable (_ ∧ _))

def HeaderValue.ofChecked (text : Bytes) (h : Checked text) : HeaderValue where
  text
  nonempty := h.1
  trimmed := h.2.1
  quotes := h.2.2.1
  balanced := h.2.2.2.1
  closes front hprefix := h.2.2.2.2.1 front ((List.mem_inits _ _).mpr hprefix)
  commas front hprefix := by
    have hcomma := h.2.2.2.2.2 (front ++ [','.toUInt8]) ((List.mem_inits _ _).mpr hprefix)
      List.getLast?_concat
    rwa [List.count_append, List.count_append] at hcomma

/-- A comma in quotes, one in brackets, and one between the two values. -/
theorem splitHeaderValues_field_edges :
    splitHeaderValues (bytes "\"Edge, one\" <sip:10.0.0.1;lr>;x=\">\" ,<sip:10.0.0.2,lr>") =
      [bytes "\"Edge, one\" <sip:10.0.0.1;lr>;x=\">\"", bytes "<sip:10.0.0.2,lr>"] :=
  splitHeaderValues_field.1
    [⟨[], .ofChecked (bytes "\"Edge, one\" <sip:10.0.0.1;lr>;x=\">\"") (by decide +kernel),
        [' '.toUInt8], List.forall_mem_nil _, List.forall_mem_singleton.mpr rfl⟩,
      ⟨[], .ofChecked (bytes "<sip:10.0.0.2,lr>") (by decide +kernel), [],
        List.forall_mem_nil _, List.forall_mem_nil _⟩]

end SimIms.Sip
