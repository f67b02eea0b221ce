import SimIms.SCscf.Registrar
import SimIms.Sip.NormalForms

/-!
# Contacts with display names

A contact is found again by its URI, which is taken for what stands between the first `<` of its
text and the next `>`. A display name in quotes may hold a `<` of its own, and then it is not:
commas and brackets in quotes are told apart when a list of values is split, and not here.
-/

namespace SimIms.SCscf

open Cxx Sip Registration

/-! ## Addresses -/

/-- What stands between the quotes of a display name. A quote or a backslash is escaped. -/
inductive QuotedChar where
  | plain (c : UInt8) (unescaped : c ≠ '"'.toUInt8 ∧ c ≠ '\\'.toUInt8)
  | escaped (c : UInt8)

def QuotedChar.text : QuotedChar → Bytes
  | .plain c _ => [c]
  | .escaped c => ['\\'.toUInt8, c]

def isTokenChar : UInt8 → Bool := isCharOf (bytes "!%*_+`'~")

inductive DisplayName where
  | absent
  | tokens (text : Bytes) (chars : ∀ c ∈ text, isTokenChar c = true ∨ isSpace c = true)
  | quoted (content : List QuotedChar) (blanks : Bytes) (blank : ∀ c ∈ blanks, isSpace c = true)

def DisplayName.text : DisplayName → Bytes
  | .absent => []
  | .tokens text _ => text
  | .quoted content blanks _ =>
      '"'.toUInt8 :: (content.flatMap QuotedChar.text ++ '"'.toUInt8 :: blanks)

/-- `[display-name] < uri > *(;param)`, with blanks around it. -/
structure WrittenAddress where
  before : Bytes
  display : DisplayName
  uri : Bytes
  params : List Bytes
  after : Bytes
  blankBefore : ∀ c ∈ before, isSpace c = true
  blankAfter : ∀ c ∈ after, isSpace c = true
  unclosed : '>'.toUInt8 ∉ uri

namespace WrittenAddress

def text (address : WrittenAddress) : Bytes :=
  address.before ++ address.display.text ++
    '<'.toUInt8 :: (address.uri ++
      '>'.toUInt8 :: (address.params.flatMap (';'.toUInt8 :: ·) ++ address.after))

/-- The display name has no bracket, or the first one in it encloses the same URI. -/
def Clear (address : WrittenAddress) : Prop :=
  '<'.toUInt8 ∉ address.display.text ∨
    ∃ front back, '<'.toUInt8 ∉ front ∧ address.display.text =
      front ++ '<'.toUInt8 :: (address.uri ++ '>'.toUInt8 :: back)

/-- Both stand for the same contacts, in a request without an instance and in the store. -/
structure SelectAlike (a b : WrittenAddress) : Prop where
  request : ∀ (request : SipMessage) (stored : ContactBinding),
    matchesSelector stored (makeContactSelector request (some a.text)) =
      matchesSelector stored (makeContactSelector request (some b.text))
  stored : ∀ (stored : ContactBinding) (selector : ContactBindingSelector),
    matchesSelector { stored with contactUri := a.text } selector =
      matchesSelector { stored with contactUri := b.text } selector

end WrittenAddress

/-! ## The first brackets -/

/-- Trimming stops at the brackets. -/
theorem trim_brackets (before inner after : Bytes) :
    trim (before ++ '<'.toUInt8 :: (inner ++ '>'.toUInt8 :: after)) =
      before.dropWhile isSpace ++ '<'.toUInt8 ::
        (inner ++ '>'.toUInt8 :: (after.reverse.dropWhile isSpace).reverse) := by
  have hreverse : (before.dropWhile isSpace ++ '<'.toUInt8 ::
      (inner ++ '>'.toUInt8 :: after)).reverse = after.reverse ++
        '>'.toUInt8 :: (before.dropWhile isSpace ++ '<'.toUInt8 :: inner).reverse := by
    simp
  rw [trim, dropWhile_append_cons (by decide), hreverse, dropWhile_append_cons (by decide)]
  simp

theorem extractUriFromNameAddr_brackets {before inner : Bytes} (after : Bytes)
    (hbefore : '<'.toUInt8 ∉ before) (hinner : '>'.toUInt8 ∉ inner) :
    extractUriFromNameAddr (before ++ '<'.toUInt8 :: (inner ++ '>'.toUInt8 :: after)) = inner :=
  extractUriFromNameAddr_of_bracketed (trim_brackets before inner after)
    (fun hmem => hbefore ((List.dropWhile_sublist isSpace).mem hmem)) hinner

namespace WrittenAddress

variable {address : WrittenAddress}

theorem not_mem_before (address : WrittenAddress) : '<'.toUInt8 ∉ address.before :=
  fun hmem => absurd (address.blankBefore _ hmem) (by decide)

/-- Brackets in the display name are taken for those of the URI. -/
theorem extractUriFromNameAddr_of_display {front inner back : Bytes}
    (heq : address.display.text = front ++ '<'.toUInt8 :: (inner ++ '>'.toUInt8 :: back))
    (hfront : '<'.toUInt8 ∉ front) (hinner : '>'.toUInt8 ∉ inner) :
    extractUriFromNameAddr address.text = inner := by
  have htext : address.text = address.before ++ front ++ '<'.toUInt8 :: (inner ++ '>'.toUInt8 ::
      (back ++ '<'.toUInt8 :: (address.uri ++
        '>'.toUInt8 :: (address.params.flatMap (';'.toUInt8 :: ·) ++ address.after)))) := by
    simp [text, heq]
  rw [htext]
  exact extractUriFromNameAddr_brackets _ (List.not_mem_append address.not_mem_before hfront) hinner

theorem extractUriFromNameAddr_of_clear (h : address.Clear) :
    extractUriFromNameAddr address.text = address.uri := by
  obtain hnone | ⟨front, back, hfront, heq⟩ := h
  · exact extractUriFromNameAddr_brackets _
      (List.not_mem_append address.not_mem_before hnone) address.unclosed
  · exact extractUriFromNameAddr_of_display heq hfront address.unclosed

theorem clear_of_extractUriFromNameAddr
    (h : extractUriFromNameAddr address.text = address.uri) : address.Clear := by
  by_cases hmem : '<'.toUInt8 ∈ address.display.text
  · obtain ⟨front, rest, heq, hfront⟩ := List.eq_append_cons_of_mem hmem
    have hbefore := List.not_mem_append address.not_mem_before hfront
    by_cases hclosed : '>'.toUInt8 ∈ rest
    · -- the display name has both brackets
      obtain ⟨inner, back, rfl, hinner⟩ := List.eq_append_cons_of_mem hclosed
      rw [extractUriFromNameAddr_of_display heq hfront hinner] at h
      exact .inr ⟨front, back, hfront, h ▸ heq⟩
    · -- the URI ends where it should, and begins too early
      have hinner : '>'.toUInt8 ∉ rest ++ '<'.toUInt8 :: address.uri :=
        List.not_mem_append hclosed
          (List.not_mem_cons_of_ne_of_not_mem (by decide) address.unclosed)
      have htext : address.text = address.before ++ front ++ '<'.toUInt8 ::
          ((rest ++ '<'.toUInt8 :: address.uri) ++
            '>'.toUInt8 :: (address.params.flatMap (';'.toUInt8 :: ·) ++ address.after)) := by
        rw [text, heq]
        simp
      rw [htext, extractUriFromNameAddr_brackets _ hbefore hinner] at h
      have hlength := congrArg List.length h
      rw [List.length_append, List.length_cons] at hlength
      omega
  · exact .inl hmem

/-- Whoever is read right is known as the same contact as exactly those that are read right. -/
theorem selectAlike_iff {a b : WrittenAddress} (huri : b.uri = a.uri) (ha : a.Clear) :
    a.SelectAlike b ↔ b.Clear := by
  have hread := extractUriFromNameAddr_of_clear ha
  constructor
  · intro halike
    have hstored := halike.stored
      { contactUri := [], instanceId := [], regId := [], path := [], expires := 0, userAgent := []
        callId := [], cseq := 0 }
      { normalizedContactUri := a.uri }
    have hsame : (extractUriFromNameAddr a.text == a.uri) =
      (extractUriFromNameAddr b.text == a.uri) := hstored
    rw [hread, beq_self_eq_true, eq_comm, beq_iff_eq, ← huri] at hsame
    exact clear_of_extractUriFromNameAddr hsame
  · intro hb
    have hother : extractUriFromNameAddr b.text = extractUriFromNameAddr a.text := by
      rw [hread, extractUriFromNameAddr_of_clear hb, huri]
    constructor
    · intro request stored
      rw [makeContactSelector, makeContactSelector, Option.map_some, Option.map_some, hother]
    · intro stored selector
      rw [matchesSelector, matchesSelector, hother]

end WrittenAddress

/-- The URI of an address is found, and the address selects the same contacts as one that has the
same URI and is read right, exactly if the first bracket in its display name, if there is one,
encloses that URI too. -/
theorem extractUriFromNameAddr_nameAddr_iff (address : WrittenAddress) :
    (extractUriFromNameAddr address.text = address.uri ↔ address.Clear) ∧
    ∀ other : WrittenAddress, other.uri = address.uri → other.Clear →
      (other.SelectAlike address ↔ address.Clear) :=
  ⟨⟨WrittenAddress.clear_of_extractUriFromNameAddr, WrittenAddress.extractUriFromNameAddr_of_clear⟩,
    fun _ huri hclear => WrittenAddress.selectAlike_iff huri.symm hclear⟩

/-! ### Alice, under the names `Alice` and `A<b` -/

def aliceAddress (display : DisplayName) : WrittenAddress where
  before := []
  display := display
  uri := bytes "sip:alice@10.0.0.1"
  params := [bytes "expires=60"]
  after := []
  blankBefore := List.forall_mem_nil _
  blankAfter := List.forall_mem_nil _
  unclosed := by decide +kernel

/-- Any quoted name of characters that need no escaping. -/
def quotedName (name : Bytes) (h : ∀ c ∈ name, c ≠ '"'.toUInt8 ∧ c ≠ '\\'.toUInt8) : DisplayName :=
  .quoted (name.attach.map fun c => .plain c.1 (h c.1 c.2)) (bytes " ") (by decide +kernel)

def namedAlice : WrittenAddress := aliceAddress (quotedName (bytes "Alice") (by decide +kernel))

def angledAlice : WrittenAddress := aliceAddress (quotedName (bytes "A<b") (by decide +kernel))

example : angledAlice.text = bytes "\"A<b\" <sip:alice@10.0.0.1>;expires=60" := by decide +kernel

theorem extractUriFromNameAddr_nameAddr_iff_named :
    extractUriFromNameAddr namedAlice.text = bytes "sip:alice@10.0.0.1" ∧
      namedAlice.SelectAlike (aliceAddress .absent) := by
  have hnamed : namedAlice.Clear := .inl (by decide +kernel)
  have hplain : (aliceAddress .absent).Clear := .inl List.not_mem_nil
  exact ⟨(extractUriFromNameAddr_nameAddr_iff namedAlice).1.mpr hnamed,
    ((extractUriFromNameAddr_nameAddr_iff (aliceAddress .absent)).2 namedAlice rfl hnamed).mpr
      hplain⟩

/-- The URI is taken to begin in the display name, and the contact is not found again. -/
theorem angledAlice_is_not_found :
    extractUriFromNameAddr angledAlice.text = bytes "b\" <sip:alice@10.0.0.1" ∧
      angledAlice.uri = namedAlice.uri ∧ ¬ namedAlice.SelectAlike angledAlice := by
  have hread : extractUriFromNameAddr angledAlice.text = bytes "b\" <sip:alice@10.0.0.1" := by
    decide +kernel
  have hnamed : namedAlice.Clear := .inl (by decide +kernel)
  refine ⟨hread, rfl, fun halike => ?_⟩
  have hclear := (WrittenAddress.selectAlike_iff (a := namedAlice) (b := angledAlice) rfl hnamed).mp
    halike
  rw [WrittenAddress.extractUriFromNameAddr_of_clear hclear] at hread
  revert hread
  decide +kernel

end SimIms.SCscf
