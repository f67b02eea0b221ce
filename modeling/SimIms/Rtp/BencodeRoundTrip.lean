import SimIms.Rtp.BencodeReading
import SimIms.Rtp.BencodeGrammar

/-!
# Decoding an encoded value returns it

`Parses v` says that the parser returns `v` wherever the encoding of `v` stands, whatever
surrounds it. It holds of every tree whose dictionaries are ordered: strings and integers
are read back digit by digit, and the loops of lists and dictionaries rebuild the
container that they are reading. An encoding whose size is a `size_t` has no string whose
end wraps around.
-/

namespace SimIms.Rtp

open Cxx Lib

variable {data : Bytes} {pos : Nat}

theorem e_not_mem_decimalInt (i : Int) : 'e'.toUInt8 ∉ decimalInt i := by
  have hdigits : 'e'.toUInt8 ∉ decimal i.natAbs := fun h =>
    absurd (isDigit_of_mem_decimal h) (by decide)
  have hminus : 'e'.toUInt8 ≠ '-'.toUInt8 := by decide
  simp only [decimalInt]
  split
  · simp [hminus, hdigits]
  · exact hdigits

theorem encodesString_head {s text : Bytes} (h : EncodesString s text) :
    ∃ c rest, text = c :: rest ∧ isDigit c = true := by
  obtain ⟨ds, hne, hall, _, rfl⟩ := h
  obtain ⟨d, ds, rfl⟩ := List.exists_cons_of_ne_nil hne
  exact ⟨d, ds ++ ':'.toUInt8 :: s, rfl, hall d (by simp)⟩

/-- An encoding is not empty and does not begin with the end mark of a container. -/
theorem encodeImpl_head (t : Tree) :
    ∃ c rest, encodeImpl t = c :: rest ∧ c ≠ 'e'.toUInt8 := by
  cases t with
  | string s =>
      obtain ⟨c, rest, hs, hdigit⟩ := encodesString_head (encodesString_encodeString s)
      exact ⟨c, rest, by rw [encodeImpl, hs], (ne_of_isDigit hdigit).2.2.2⟩
  | integer n => exact ⟨_, _, by rw [encodeImpl], by decide⟩
  | list items => exact ⟨_, _, by rw [encodeImpl], by decide⟩
  | dict entries => exact ⟨_, _, by rw [encodeImpl], by decide⟩

/-- The position after a body between its opening byte and its end mark. -/
theorem length_container {c : UInt8} {body : Bytes} :
    pos + (c :: (body ++ ['e'.toUInt8])).length = pos + 1 + body.length + 1 := by
  simp only [List.length_cons, List.length_append, List.length_nil]
  omega

/-- Wherever the encoding of `t` stands, the parser returns `t` and the position after it. -/
def Parses (t : Tree) : Prop :=
  ∀ data pos, data.length < 2 ^ 64 → At data pos (encodeImpl t) →
    Outcome.Settles (fun n => parse data n pos) (.returns (t, pos + (encodeImpl t).length))

/-- Where a string stands in the data, its header is found and read. -/
theorem header_of_encodesString {s text : Bytes} (hsize : data.length < 2 ^ 64)
    (hs : EncodesString s text) (h : At data pos text) :
    ∃ colonPos, find data ':'.toUInt8 pos = some colonPos ∧
      stoul (substr data pos (colonPos - pos)) = .ok s.length ∧
      sizeAdd (colonPos + 1) s.length = pos + text.length ∧
      substr data (colonPos + 1) s.length = s := by
  obtain ⟨ds, hne, hall, hvalue, rfl⟩ := hs
  have hle := h.length_le
  simp only [List.length_append, List.length_cons] at hle
  have hcolon : ':'.toUInt8 ∉ ds := fun hmem => absurd (hall _ hmem) (by decide)
  have hnum := stoul_digits hne hall (by omega)
  refine ⟨_, h.find_eq hcolon, ?_, ?_, h.right.tail.substr_eq⟩
  · rw [Nat.add_sub_cancel_left, h.left.substr_eq, hnum, hvalue]
  · rw [sizeAdd_of_lt (by omega), List.length_append, List.length_cons]
    omega

theorem parseString_of_encodesString {s text : Bytes} (hsize : data.length < 2 ^ 64)
    (hs : EncodesString s text) (h : At data pos text) :
    parseString data pos = .ok (.string s, pos + text.length) := by
  obtain ⟨colonPos, hcolon, hlen, hsum, hbody⟩ := header_of_encodesString hsize hs h
  exact parseString_eq_ok_iff.mpr
    ⟨colonPos, s.length, hcolon, hlen, hsum.symm, h.length_le, by rw [hbody]⟩

theorem settles_parse_encodeString {s : Bytes} (hsize : data.length < 2 ^ 64)
    (h : At data pos (encodeString s)) :
    Outcome.Settles (fun n => parse data n pos)
      (.returns (.string s, pos + (encodeString s).length)) := by
  have hs := encodesString_encodeString s
  obtain ⟨c, rest, htext, hdigit⟩ := encodesString_head hs
  have hc : data[pos]? = some c := by
    rw [htext] at h
    exact h.head
  have hsettles := settles_parse_of_digit hc hdigit
  rwa [parseString_of_encodesString hsize hs h] at hsettles

theorem parses_string (s : Bytes) : Parses (.string s) := by
  intro data pos hsize h
  rw [encodeImpl] at h ⊢
  exact settles_parse_encodeString hsize h

theorem parses_integer (n : Int64) : Parses (.integer n) := by
  intro data pos hsize h
  rw [encodeImpl] at h ⊢
  have hend := h.tail.find_eq (e_not_mem_decimalInt n.toInt)
  have hnum := h.tail.left.substr_eq
  have hsettles := settles_parse_of_integer h.head
  have hparse : parseInteger data pos =
      .ok (.integer n, pos + 1 + (decimalInt n.toInt).length + 1) := by
    refine parseInteger_eq_ok_iff.mpr ⟨_, n, hend, ?_, rfl, rfl⟩
    rw [Nat.add_sub_cancel_left, hnum, stoll_decimalInt]
  rw [hparse] at hsettles
  rw [length_container]
  exact hsettles

/-- The loop of a list appends the items that stand before the end mark. -/
theorem settles_parseListLoop {items : List Tree} (hitems : ∀ item ∈ items, Parses item)
    (hsize : data.length < 2 ^ 64) (list : List Tree)
    (h : At data pos (encodeItems items ++ ['e'.toUInt8])) :
    Outcome.Settles (fun n => parseListLoop data n pos list)
      (.returns (.list (list ++ items), pos + (encodeItems items).length + 1)) := by
  induction items generalizing pos list with
  | nil =>
      simp only [encodeItems, List.nil_append] at h
      simpa [encodeItems] using settles_parseListLoop_of_end h.head list
  | cons item items ih =>
      rw [encodeItems, List.append_assoc] at h
      obtain ⟨c, rest, hhead, hne⟩ := encodeImpl_head item
      have hc : data[pos]? = some c := by
        have hleft := h.left
        rw [hhead] at hleft
        exact hleft.head
      have hitem := hitems item (by simp) data pos hsize h.left
      have hrest := ih (fun t ht => hitems t (by simp [ht])) (list ++ [item]) h.right
      have hloop := settles_parseListLoop_of_item hc hne hitem hrest
      simpa [encodeItems, Nat.add_assoc] using hloop

/-- The loop of a dictionary appends the entries, whose keys come in ascending order. -/
theorem settles_parseDictLoop {entries : List (Bytes × Tree)}
    (hentries : ∀ entry ∈ entries, Parses entry.2) (hsize : data.length < 2 ^ 64)
    (dict : List (Bytes × Tree)) (hasc : OrderedMap.Ascending (dict ++ entries))
    (h : At data pos (encodeEntries entries ++ ['e'.toUInt8])) :
    Outcome.Settles (fun n => parseDictLoop data n pos dict)
      (.returns (.dict (dict ++ entries), pos + (encodeEntries entries).length + 1)) := by
  induction entries generalizing pos dict with
  | nil =>
      simp only [encodeEntries, List.nil_append] at h
      simpa [encodeEntries] using settles_parseDictLoop_of_end h.head dict
  | cons entry entries ih =>
      obtain ⟨key, value⟩ := entry
      rw [encodeEntries, List.append_assoc, List.append_assoc] at h
      obtain ⟨c, rest, hhead, hdigit⟩ := encodesString_head (encodesString_encodeString key)
      have hc : data[pos]? = some c := by
        have hleft := h.left
        rw [hhead] at hleft
        exact hleft.head
      have hkey := settles_parse_encodeString hsize h.left
      have hvalue := hentries (key, value) (by simp) data _ hsize h.right.left
      have hbefore : ∀ e ∈ dict, e.1 < key := fun e he =>
        (List.pairwise_append.mp hasc).2.2 e he (key, value) (by simp)
      have hrest := ih (fun e he => hentries e (by simp [he])) (dict ++ [(key, value)])
        (by simpa using hasc) h.right.right
      rw [← OrderedMap.assign_of_all_lt hbefore] at hrest
      have hloop := settles_parseDictLoop_of_entry hc (ne_of_isDigit hdigit).2.2.2
        hkey hvalue hrest
      rw [OrderedMap.assign_of_all_lt hbefore] at hloop
      simpa [encodeEntries, Nat.add_assoc] using hloop

theorem parses_of_ordered {t : Tree} (h : t.Ordered) : Parses t := by
  induction h with
  | string s => exact parses_string s
  | integer n => exact parses_integer n
  | list _ ih =>
      intro data pos hsize h
      rw [encodeImpl] at h ⊢
      rw [length_container]
      exact settles_parse_of_list h.head (settles_parseListLoop ih hsize [] h.tail)
  | dict hasc _ ih =>
      intro data pos hsize h
      rw [encodeImpl] at h ⊢
      rw [length_container]
      exact settles_parse_of_dict h.head (settles_parseDictLoop ih hsize [] hasc h.tail)

/-- Decoding an encoded value returns that value, for every value whose encoding has a
size that is a `size_t`. -/
theorem bencodeDecode_bencodeEncode (v : BencodeValue)
    (hsize : (bencodeEncode v).length < 2 ^ 64) :
    ∃ fuel, bencodeDecode (bencodeEncode v) fuel = .returns v := by
  obtain ⟨_, fuel, hparse⟩ := parses_of_ordered v.ordered _ 0 hsize (at_zero _)
  exact ⟨fuel, bencodeDecode_eq_returns_iff.mpr ⟨_, hparse⟩⟩

/-- Embedded digits, colons and end marks, a NUL byte and the least integer survive. -/
theorem bencodeDecode_bencodeEncode_nested :
    ∃ fuel, bencodeDecode
        (bencodeEncode ⟨.list [.integer (-9223372036854775808), .string (0 :: bytes "1:ei0")],
          .list (by simp [Tree.Ordered.integer, Tree.Ordered.string])⟩) fuel =
      .returns ⟨.list [.integer (-9223372036854775808), .string (0 :: bytes "1:ei0")],
          .list (by simp [Tree.Ordered.integer, Tree.Ordered.string])⟩ :=
  bencodeDecode_bencodeEncode _ (by decide)

end SimIms.Rtp
