import SimIms.Rtp.Bencode

/-!
# Well-formed bencode

`Encodes .value s` says that `s` is exactly one complete encoding: integers are digits
with an optional minus sign, the length of a string is written in digits and followed by
exactly that many bytes, containers are closed, and the keys of a dictionary are strings
and distinct. Leading zeros and the order of keys are not restricted.

The encoder produces nothing else.
-/

namespace SimIms.Rtp

open Cxx Lib

/-- `text` is the string `s` behind its length. -/
def EncodesString (s text : Bytes) : Prop :=
  ∃ ds, ds ≠ [] ∧ (∀ d ∈ ds, isDigit d = true) ∧ digitsValue ds = s.length ∧
    text = ds ++ ':'.toUInt8 :: s

/-- `text` is an integer between its marks. -/
def EncodesInteger (text : Bytes) : Prop :=
  ∃ sign ds, (sign = [] ∨ sign = ['-'.toUInt8]) ∧ ds ≠ [] ∧ (∀ d ∈ ds, isDigit d = true) ∧
    text = 'i'.toUInt8 :: ((sign ++ ds) ++ ['e'.toUInt8])

/-- A value, or what follows the opening byte of a container; entries with their keys. -/
inductive Part where
  | value
  | items
  | entries (keys : List Bytes)

inductive Encodes : Part → Bytes → Prop where
  | string {s text : Bytes} : EncodesString s text → Encodes .value text
  | integer {text : Bytes} : EncodesInteger text → Encodes .value text
  | list {text : Bytes} : Encodes .items text → Encodes .value ('l'.toUInt8 :: text)
  | dict {keys : List Bytes} {text : Bytes} : Encodes (.entries keys) text → keys.Nodup →
      Encodes .value ('d'.toUInt8 :: text)
  | endItems : Encodes .items ['e'.toUInt8]
  | item {first rest : Bytes} : Encodes .value first → Encodes .items rest →
      Encodes .items (first ++ rest)
  | endEntries : Encodes (.entries []) ['e'.toUInt8]
  | entry {key first second rest : Bytes} {keys : List Bytes} : EncodesString key first →
      Encodes .value second → Encodes (.entries keys) rest →
      Encodes (.entries (key :: keys)) (first ++ (second ++ rest))

theorem encodesString_encodeString (s : Bytes) : EncodesString s (encodeString s) :=
  ⟨decimal s.length, decimal_ne_nil _, fun _ hd => isDigit_of_mem_decimal hd,
    digitsValue_decimal _, rfl⟩

theorem encodesInteger_encodeImpl (n : Int64) : EncodesInteger (encodeImpl (.integer n)) := by
  rw [encodeImpl, decimalInt]
  split
  · exact ⟨_, _, .inr rfl, decimal_ne_nil _, fun _ hd => isDigit_of_mem_decimal hd, rfl⟩
  · exact ⟨[], _, .inl rfl, decimal_ne_nil _, fun _ hd => isDigit_of_mem_decimal hd, rfl⟩

theorem encodes_items {items : List Tree}
    (h : ∀ item ∈ items, Encodes .value (encodeImpl item)) :
    Encodes .items (encodeItems items ++ ['e'.toUInt8]) := by
  induction items with
  | nil => exact .endItems
  | cons item items ih =>
      rw [encodeItems, List.append_assoc]
      exact .item (h item (by simp)) (ih fun t ht => h t (by simp [ht]))

theorem encodes_entries {entries : List (Bytes × Tree)}
    (h : ∀ entry ∈ entries, Encodes .value (encodeImpl entry.2)) :
    Encodes (.entries (entries.map Prod.fst)) (encodeEntries entries ++ ['e'.toUInt8]) := by
  induction entries with
  | nil => exact .endEntries
  | cons entry entries ih =>
      obtain ⟨key, value⟩ := entry
      rw [encodeEntries, List.append_assoc, List.append_assoc]
      exact .entry (encodesString_encodeString key) (h (key, value) (by simp))
        (ih fun e he => h e (by simp [he]))

/-- The keys of an ordered dictionary are distinct. -/
theorem nodup_keys_of_ascending {entries : List (Bytes × Tree)}
    (h : OrderedMap.Ascending entries) : (entries.map Prod.fst).Nodup := by
  apply List.pairwise_map.mpr
  apply h.imp
  intro a b hlt heq
  exact Std.lt_irrefl (heq ▸ hlt)

theorem encodes_of_ordered {t : Tree} (h : t.Ordered) : Encodes .value (encodeImpl t) := by
  induction h with
  | string s =>
      rw [encodeImpl]
      exact .string (encodesString_encodeString s)
  | integer n => exact .integer (encodesInteger_encodeImpl n)
  | list _ ih =>
      rw [encodeImpl]
      exact .list (encodes_items ih)
  | dict hasc _ ih =>
      rw [encodeImpl]
      exact .dict (encodes_entries ih) (nodup_keys_of_ascending hasc)

/-- Every encoded value is one complete encoding. -/
theorem encodes_bencodeEncode (v : BencodeValue) : Encodes .value (bencodeEncode v) :=
  encodes_of_ordered v.ordered

end SimIms.Rtp
