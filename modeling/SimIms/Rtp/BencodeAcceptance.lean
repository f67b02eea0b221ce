import SimIms.Rtp.BencodeRoundTrip

/-!
# What the bencode parser accepts

The parser is meant to return a value only for one complete encoding and to throw on
everything else. It reads more than that: a number text may have blanks, a plus sign or
junk after its digits, the end of a string may wrap around, the keys of a dictionary may
repeat, and bytes after the value are ignored. Where an end wraps back, reading may also
come to a place that it has not finished, and then it does neither.

`DecodesExactly` holds of exactly the inputs on which none of this happens.
-/

namespace SimIms.Rtp

open Cxx Lib Relation

/-- The bytes from `p` up to `q`. -/
def slice (data : Bytes) (p q : Nat) : Bytes := substr data p (q - p)

/-- The string that is read as a key at `p`. -/
def KeyAt (data : Bytes) (p : Nat) (key : Bytes) : Prop :=
  ∃ colonPos len, find data ':'.toUInt8 p = some colonPos ∧
    stoul (substr data p (colonPos - p)) = .ok len ∧ key = substr data (colonPos + 1) len

/-- The entries of a dictionary are read from `p` to `q`, with these keys. -/
inductive ReadsKeys (data : Bytes) : Nat → List Bytes → Nat → Prop where
  | endEntries {p : Nat} : data[p]? = some 'e'.toUInt8 → ReadsKeys data p [] (p + 1)
  | entry {p q r t : Nat} {c : UInt8} {key : Bytes} {keys : List Bytes} :
      data[p]? = some c → c ≠ 'e'.toUInt8 → ReadsString data p q → KeyAt data p key →
      Reads data .value q r → ReadsKeys data r keys t → ReadsKeys data p (key :: keys) t

/-- What is read at `p` is written as the format requires. -/
structure StrictAt (data : Bytes) (p : Nat) : Prop where
  integers : ∀ q, ReadsInteger data p q → EncodesInteger (slice data p q)
  strings : ∀ q, ReadsString data p q → ∃ s, EncodesString s (slice data p q)
  keys : ∀ keys q, data[p]? = some 'd'.toUInt8 → ReadsKeys data (p + 1) keys q → keys.Nodup

/-- The value read up to `q` is the whole input, and all of it is strict. -/
structure ReadsStrictly (data : Bytes) (q : Nat) : Prop where
  whole : q = data.length
  strict : ∀ p, Visited data .value p → StrictAt data p

/-- What the decoder promises: a value only for one complete encoding, an exception for
every other input. -/
structure DecodesExactly (data : Bytes) : Prop where
  returns : ∀ fuel v, bencodeDecode data fuel = .returns v → Encodes .value data
  throws : ¬ Encodes .value data → ∃ fuel e, bencodeDecode data fuel = .throws e

def Part.site : Part → Site
  | .value => .value
  | .items => .items
  | .entries _ => .entries

variable {data text : Bytes} {p q r pos : Nat} {c : UInt8}

/-! ## Slices -/

theorem slice_append (hpq : p ≤ q) (hqr : q ≤ r) :
    slice data p q ++ slice data q r = slice data p r := by
  have hsplit : r - p = (q - p) + (r - q) := by omega
  have hdrop : p + (q - p) = q := by omega
  simp only [slice, substr]
  rw [hsplit, List.take_add, List.drop_drop, hdrop]

theorem slice_cons (hc : data[p]? = some c) (hpq : p < q) :
    slice data p q = c :: slice data (p + 1) q := by
  obtain ⟨hp, hget⟩ := List.getElem?_eq_some_iff.mp hc
  have hcount : q - p = (q - (p + 1)) + 1 := by omega
  simp only [slice, substr]
  rw [List.drop_eq_getElem_cons hp, hget, hcount, List.take_succ_cons]

theorem slice_self : slice data p p = [] := by
  simp [slice, substr]

theorem slice_whole : slice data 0 data.length = data := by
  simp [slice, substr]

theorem at_slice (hpq : p ≤ q) (hq : q ≤ data.length) : At data p (slice data p q) := by
  refine ⟨data.take p, data.drop q, ?_, ?_⟩
  · have hdrop : data.drop q = (data.drop p).drop (q - p) := by
      rw [List.drop_drop, Nat.add_sub_cancel' hpq]
    rw [slice, substr, hdrop, List.take_append_drop, List.take_append_drop]
  · rw [List.length_take]
    omega

theorem slice_of_at (h : At data pos text) : slice data pos (pos + text.length) = text := by
  rw [slice, Nat.add_sub_cancel_left, h.substr_eq]

/-! ## Reading a well-formed encoding -/

/-- How the parser reads the text of a part that stands at `pos`. -/
structure ReadAt (data : Bytes) (part : Part) (pos : Nat) (text : Bytes) : Prop where
  stop : ∀ q, Reads data part.site pos q → q = pos + text.length
  acc : Acc (fun t s => Needs data s t) (part.site, pos)
  strict : ∀ p, Demand.Reached (Needs data) (part.site, pos) (.value, p) → StrictAt data p
  keys : ∀ keys q, ReadsKeys data pos keys q → ∀ keys', part = .entries keys' → keys = keys'

theorem ne_of_heads {d : UInt8} (hc : data[p]? = some c) (hne : c ≠ d) : data[p]? ≠ some d :=
  fun hd => hne (Option.some.inj (hc.symm.trans hd))

/-- A value that does not open a container needs nothing. -/
theorem not_needs_of_head {t : Site × Nat} (hl : data[p]? ≠ some 'l'.toUInt8)
    (hd : data[p]? ≠ some 'd'.toUInt8) : ¬ Needs data (.value, p) t := by
  intro h
  cases h with
  | list hc => exact hl hc
  | dict hc => exact hd hc

theorem not_readsString_of_head {d : UInt8} (hc : data[p]? = some d)
    (hdigit : isDigit d = false) : ¬ ReadsString data p q := by
  rintro ⟨c, _, _, hc', hdigit', _⟩
  cases hc.symm.trans hc'
  rw [hdigit] at hdigit'
  cases hdigit'

/-- A string standing at `pos` is read to its end, and with its own bytes as a key. -/
theorem readsString_unique {s : Bytes} (hsize : data.length < 2 ^ 64)
    (hs : EncodesString s text) (h : At data pos text) (hreads : ReadsString data pos q) :
    q = pos + text.length := by
  obtain ⟨colonPos, hcolon, hlen, hsum, _⟩ := header_of_encodesString hsize hs h
  obtain ⟨_, colonPos', len', _, _, hcolon', hlen', hq, _⟩ := hreads
  cases hcolon.symm.trans hcolon'
  cases hlen.symm.trans hlen'
  rw [hq, hsum]

theorem keyAt_unique {s key : Bytes} (hsize : data.length < 2 ^ 64)
    (hs : EncodesString s text) (h : At data pos text) (hkey : KeyAt data pos key) :
    key = s := by
  obtain ⟨colonPos, hcolon, hlen, _, hbody⟩ := header_of_encodesString hsize hs h
  obtain ⟨colonPos', len', hcolon', hlen', rfl⟩ := hkey
  cases hcolon.symm.trans hcolon'
  cases hlen.symm.trans hlen'
  exact hbody

theorem readAt_string {s : Bytes} (hsize : data.length < 2 ^ 64) (hs : EncodesString s text)
    (h : At data pos text) : ReadAt data .value pos text := by
  obtain ⟨c, rest, htext, hdigit⟩ := encodesString_head hs
  obtain ⟨hi, hl, hd, _⟩ := ne_of_isDigit hdigit
  have hc : data[pos]? = some c := (htext ▸ h).head
  have hnone := fun t => not_needs_of_head (t := t) (ne_of_heads hc hl) (ne_of_heads hc hd)
  refine ⟨?_, Acc.intro _ fun t ht => absurd ht (hnone t), ?_, fun _ _ _ _ => nofun⟩
  · intro q hreads
    cases hreads with
    | string hreads => exact readsString_unique hsize hs h hreads
    | integer hreads => exact absurd hreads.1 (ne_of_heads hc hi)
    | list hc' => exact absurd hc' (ne_of_heads hc hl)
    | dict hc' => exact absurd hc' (ne_of_heads hc hd)
  · intro p hreached
    obtain heq | ⟨t, ht, _⟩ := hreached.cases_head
    · cases heq
      refine ⟨fun q hq => absurd hq.1 (ne_of_heads hc hi), fun q hq => ⟨s, ?_⟩,
        fun _ _ hc' => absurd hc' (ne_of_heads hc hd)⟩
      rw [readsString_unique hsize hs h hq, slice_of_at h]
      exact hs
    · exact absurd ht (hnone t)

theorem readsInteger_unique (hs : EncodesInteger text) (h : At data pos text)
    (hreads : ReadsInteger data pos q) : q = pos + text.length := by
  obtain ⟨sign, ds, hsign, _, hall, rfl⟩ := hs
  obtain ⟨_, endPos, _, hend, _, rfl⟩ := hreads
  have hmem : 'e'.toUInt8 ∉ sign ++ ds := by
    intro hmem
    obtain hmem | hmem := List.mem_append.mp hmem
    · obtain rfl | rfl := hsign
      · simp at hmem
      · exact absurd hmem (by decide)
    · exact absurd (hall _ hmem) (by decide)
  cases (h.tail.find_eq hmem).symm.trans hend
  rw [length_container]

theorem readAt_integer (hs : EncodesInteger text) (h : At data pos text) :
    ReadAt data .value pos text := by
  obtain ⟨sign, ds, _, _, _, htext⟩ := id hs
  have hc : data[pos]? = some 'i'.toUInt8 := (htext ▸ h).head
  have hl := ne_of_heads hc (d := 'l'.toUInt8) (by decide)
  have hd := ne_of_heads hc (d := 'd'.toUInt8) (by decide)
  have hnone := fun t => not_needs_of_head (t := t) hl hd
  refine ⟨?_, Acc.intro _ fun t ht => absurd ht (hnone t), ?_, fun _ _ _ _ => nofun⟩
  · intro q hreads
    cases hreads with
    | string hreads => exact absurd hreads (not_readsString_of_head hc (by decide))
    | integer hreads => exact readsInteger_unique hs h hreads
    | list hc' => exact absurd hc' hl
    | dict hc' => exact absurd hc' hd
  · intro p hreached
    obtain heq | ⟨t, ht, _⟩ := hreached.cases_head
    · cases heq
      refine ⟨fun q hq => ?_, fun q hq => absurd hq (not_readsString_of_head hc (by decide)),
        fun _ _ hc' => absurd hc' hd⟩
      rw [readsInteger_unique hs h hq, slice_of_at h]
      exact hs
    · exact absurd ht (hnone t)

theorem readAt_list (h : At data pos ('l'.toUInt8 :: text))
    (inner : ReadAt data .items (pos + 1) text) :
    ReadAt data .value pos ('l'.toUInt8 :: text) := by
  have hc := h.head
  have hi := ne_of_heads hc (d := 'i'.toUInt8) (by decide)
  have hd := ne_of_heads hc (d := 'd'.toUInt8) (by decide)
  have hstring : ∀ q, ¬ ReadsString data pos q :=
    fun q => not_readsString_of_head hc (by decide)
  refine ⟨?_, Acc.intro _ fun t ht => ?_, ?_, fun _ _ _ _ => nofun⟩
  · intro q hreads
    cases hreads with
    | string hreads => exact absurd hreads (hstring q)
    | integer hreads => exact absurd hreads.1 hi
    | list _ hreads =>
        rw [inner.stop q hreads, List.length_cons]
        omega
    | dict hc' => exact absurd hc' hd
  · cases ht with
    | list _ => exact inner.acc
    | dict hc' => exact absurd hc' hd
  · intro p hreached
    obtain heq | ⟨t, ht, hreached⟩ := hreached.cases_head
    · cases heq
      exact ⟨fun q hq => absurd hq.1 hi, fun q hq => absurd hq (hstring q),
        fun _ _ hc' => absurd hc' hd⟩
    · cases ht with
      | list _ => exact inner.strict p hreached
      | dict hc' => exact absurd hc' hd

theorem readAt_dict {keys : List Bytes} (hnodup : keys.Nodup)
    (h : At data pos ('d'.toUInt8 :: text))
    (inner : ReadAt data (.entries keys) (pos + 1) text) :
    ReadAt data .value pos ('d'.toUInt8 :: text) := by
  have hc := h.head
  have hi := ne_of_heads hc (d := 'i'.toUInt8) (by decide)
  have hl := ne_of_heads hc (d := 'l'.toUInt8) (by decide)
  have hstring : ∀ q, ¬ ReadsString data pos q :=
    fun q => not_readsString_of_head hc (by decide)
  refine ⟨?_, Acc.intro _ fun t ht => ?_, ?_, fun _ _ _ _ => nofun⟩
  · intro q hreads
    cases hreads with
    | string hreads => exact absurd hreads (hstring q)
    | integer hreads => exact absurd hreads.1 hi
    | list hc' => exact absurd hc' hl
    | dict _ hreads =>
        rw [inner.stop q hreads, List.length_cons]
        omega
  · cases ht with
    | list hc' => exact absurd hc' hl
    | dict _ => exact inner.acc
  · intro p hreached
    obtain heq | ⟨t, ht, hreached⟩ := hreached.cases_head
    · cases heq
      refine ⟨fun q hq => absurd hq.1 hi, fun q hq => absurd hq (hstring q),
        fun keys' q _ hkeys => ?_⟩
      rw [inner.keys keys' q hkeys keys rfl]
      exact hnodup
    · cases ht with
      | list hc' => exact absurd hc' hl
      | dict _ => exact inner.strict p hreached

theorem readAt_endItems (h : At data pos ['e'.toUInt8]) :
    ReadAt data .items pos ['e'.toUInt8] := by
  have hnone : ∀ t, ¬ Needs data (.items, pos) t := by
    intro t ht
    cases ht with
    | item hc hne => exact ne_of_heads hc hne h.head
    | nextItem hc hne => exact ne_of_heads hc hne h.head
  refine ⟨?_, Acc.intro _ fun t ht => absurd ht (hnone t), ?_, fun _ _ _ _ => nofun⟩
  · intro q hreads
    cases hreads with
    | endItems _ => rfl
    | item hc hne => exact absurd h.head (ne_of_heads hc hne)
  · intro p hreached
    obtain heq | ⟨t, ht, _⟩ := hreached.cases_head
    · cases heq
    · exact absurd ht (hnone t)

theorem encodes_head (h : Encodes .value text) :
    ∃ c rest, text = c :: rest ∧ c ≠ 'e'.toUInt8 := by
  cases h with
  | string hs =>
      obtain ⟨c, rest, htext, hdigit⟩ := encodesString_head hs
      exact ⟨c, rest, htext, (ne_of_isDigit hdigit).2.2.2⟩
  | integer hs =>
      obtain ⟨_, _, _, _, _, htext⟩ := hs
      exact ⟨_, _, htext, by decide⟩
  | list _ => exact ⟨_, _, rfl, by decide⟩
  | dict _ _ => exact ⟨_, _, rfl, by decide⟩

theorem readAt_item {first rest : Bytes} (hfirst : Encodes .value first)
    (h : At data pos (first ++ rest)) (head : ReadAt data .value pos first)
    (tail : ReadAt data .items (pos + first.length) rest) :
    ReadAt data .items pos (first ++ rest) := by
  obtain ⟨c, more, htext, hne⟩ := encodes_head hfirst
  have hc : data[pos]? = some c := (htext ▸ h.left).head
  have hend := ne_of_heads hc hne
  refine ⟨?_, Acc.intro _ fun t ht => ?_, ?_, fun _ _ _ _ => nofun⟩
  · intro q hreads
    cases hreads with
    | endItems hc' => exact absurd hc' hend
    | item _ _ hvalue hrest =>
        cases head.stop _ hvalue
        rw [tail.stop q hrest, List.length_append, Nat.add_assoc]
  · cases ht with
    | item _ _ => exact head.acc
    | nextItem _ _ hvalue =>
        cases head.stop _ hvalue
        exact tail.acc
  · intro p hreached
    obtain heq | ⟨t, ht, hreached⟩ := hreached.cases_head
    · cases heq
    · cases ht with
      | item _ _ => exact head.strict p hreached
      | nextItem _ _ hvalue =>
          cases head.stop _ hvalue
          exact tail.strict p hreached

theorem readAt_endEntries (h : At data pos ['e'.toUInt8]) :
    ReadAt data (.entries []) pos ['e'.toUInt8] := by
  have hnone : ∀ t, ¬ Needs data (.entries, pos) t := by
    intro t ht
    cases ht with
    | key hc hne => exact ne_of_heads hc hne h.head
    | entryValue hc hne => exact ne_of_heads hc hne h.head
    | nextEntry hc hne => exact ne_of_heads hc hne h.head
  refine ⟨?_, Acc.intro _ fun t ht => absurd ht (hnone t), ?_, ?_⟩
  · intro q hreads
    cases hreads with
    | endEntries _ => rfl
    | entry hc hne => exact absurd h.head (ne_of_heads hc hne)
  · intro p hreached
    obtain heq | ⟨t, ht, _⟩ := hreached.cases_head
    · cases heq
    · exact absurd ht (hnone t)
  · intro keys q hkeys keys' hpart
    cases hpart
    cases hkeys with
    | endEntries _ => rfl
    | entry hc hne => exact absurd h.head (ne_of_heads hc hne)

theorem readAt_entry {key first second rest : Bytes} {keys : List Bytes}
    (hsize : data.length < 2 ^ 64) (hkey : EncodesString key first)
    (h : At data pos (first ++ (second ++ rest)))
    (value : ReadAt data .value (pos + first.length) second)
    (tail : ReadAt data (.entries keys) (pos + first.length + second.length) rest) :
    ReadAt data (.entries (key :: keys)) pos (first ++ (second ++ rest)) := by
  obtain ⟨c, more, htext, hdigit⟩ := encodesString_head hkey
  have hc : data[pos]? = some c := (htext ▸ h.left).head
  have hend := ne_of_heads hc (ne_of_isDigit hdigit).2.2.2
  have head := readAt_string hsize hkey h.left
  have hstop : ∀ q, ReadsString data pos q → q = pos + first.length :=
    fun q hq => readsString_unique hsize hkey h.left hq
  refine ⟨?_, Acc.intro _ fun t ht => ?_, ?_, ?_⟩
  · intro q hreads
    cases hreads with
    | endEntries hc' => exact absurd hc' hend
    | entry _ _ hkey' hvalue hrest =>
        cases hstop _ hkey'
        cases value.stop _ hvalue
        rw [tail.stop q hrest]
        simp only [List.length_append, Nat.add_assoc]
  · cases ht with
    | key _ _ => exact head.acc
    | entryValue _ _ hkey' =>
        cases hstop _ hkey'
        exact value.acc
    | nextEntry _ _ hkey' hvalue =>
        cases hstop _ hkey'
        cases value.stop _ hvalue
        exact tail.acc
  · intro p hreached
    obtain heq | ⟨t, ht, hreached⟩ := hreached.cases_head
    · cases heq
    · cases ht with
      | key _ _ => exact head.strict p hreached
      | entryValue _ _ hkey' =>
          cases hstop _ hkey'
          exact value.strict p hreached
      | nextEntry _ _ hkey' hvalue =>
          cases hstop _ hkey'
          cases value.stop _ hvalue
          exact tail.strict p hreached
  · intro keys' q hkeys keys'' hpart
    cases hpart
    cases hkeys with
    | endEntries hc' => exact absurd hc' hend
    | entry _ _ hkey' hat hvalue hrest =>
        cases hstop _ hkey'
        cases value.stop _ hvalue
        rw [keyAt_unique hsize hkey h.left hat, tail.keys _ _ hrest keys rfl]

theorem readAt_of_encodes {part : Part} (hsize : data.length < 2 ^ 64)
    (henc : Encodes part text) (h : At data pos text) : ReadAt data part pos text := by
  induction henc generalizing pos with
  | string hs => exact readAt_string hsize hs h
  | integer hs => exact readAt_integer hs h
  | list _ ih => exact readAt_list h (ih h.tail)
  | dict _ hnodup ih => exact readAt_dict hnodup h (ih h.tail)
  | endItems => exact readAt_endItems h
  | item hfirst _ ihFirst ihRest => exact readAt_item hfirst h (ihFirst h.left) (ihRest h.right)
  | endEntries => exact readAt_endEntries h
  | entry hkey _ _ ihValue ihRest =>
      exact readAt_entry hsize hkey h (ihValue h.right.left) (ihRest h.right.right)

/-! ## What is read strictly is well formed -/

theorem slice_endMark (hc : data[p]? = some c) : slice data p (p + 1) = [c] := by
  rw [slice_cons hc (Nat.lt_succ_self p), slice_self]

/-- The bytes from `p` to `q` are an encoding of what the site reads. -/
def EncodesAt (data : Bytes) (p q : Nat) : Site → Prop
  | .value => Encodes .value (slice data p q)
  | .items => Encodes .items (slice data p q)
  | .entries => ∃ keys, ReadsKeys data p keys q ∧ Encodes (.entries keys) (slice data p q)

/-- A stretch read strictly is not empty, and it is an encoding of its part. -/
theorem encodesAt_of_reads {site : Site} (hsize : data.length < 2 ^ 64)
    (strict : ∀ p, Visited data .value p → StrictAt data p) (h : Reads data site p q)
    (hvisit : Visited data site p) : p < q ∧ EncodesAt data p q site := by
  have lt_of_cons : ∀ {p q : Nat} {c : UInt8} {rest : Bytes},
      slice data p q = c :: rest → p < q := by
    intro p q c rest hslice
    by_contra hle
    have hzero : q - p = 0 := by omega
    rw [slice, substr, hzero, List.take_zero] at hslice
    cases hslice
  have string_lt : ∀ {p q : Nat} {s : Bytes}, EncodesString s (slice data p q) → p < q := by
    intro p q s hs
    obtain ⟨c, rest, hslice, _⟩ := encodesString_head hs
    exact lt_of_cons hslice
  induction h with
  | string h =>
      obtain ⟨s, hs⟩ := (strict _ hvisit).strings _ h
      exact ⟨string_lt hs, .string hs⟩
  | integer h =>
      have hs := (strict _ hvisit).integers _ h
      obtain ⟨_, _, _, _, _, hslice⟩ := id hs
      exact ⟨lt_of_cons hslice, .integer hs⟩
  | list hc _ ih =>
      obtain ⟨hlt, henc⟩ := ih (.tail hvisit (.list hc))
      rw [EncodesAt, slice_cons hc (by omega)]
      exact ⟨by omega, .list henc⟩
  | dict hc _ ih =>
      obtain ⟨hlt, keys, hkeys, henc⟩ := ih (.tail hvisit (.dict hc))
      rw [EncodesAt, slice_cons hc (by omega)]
      exact ⟨by omega, .dict henc ((strict _ hvisit).keys keys _ hc hkeys)⟩
  | endItems hc =>
      rw [EncodesAt, slice_endMark hc]
      exact ⟨Nat.lt_succ_self _, .endItems⟩
  | item hc hne hvalue _ ihValue ihRest =>
      obtain ⟨hlt, henc⟩ := ihValue (.tail hvisit (.item hc hne))
      obtain ⟨hlt', henc'⟩ := ihRest (.tail hvisit (.nextItem hc hne hvalue))
      rw [EncodesAt, ← slice_append hlt.le hlt'.le]
      exact ⟨hlt.trans hlt', .item henc henc'⟩
  | endEntries hc =>
      rw [EncodesAt, slice_endMark hc]
      exact ⟨Nat.lt_succ_self _, [], .endEntries hc, .endEntries⟩
  | entry hc hne hkey hvalue _ ihValue ihRest =>
      have hvisitKey : Visited data .value _ := .tail hvisit (.key hc hne)
      obtain ⟨s, hs⟩ := (strict _ hvisitKey).strings _ hkey
      have hltKey := string_lt hs
      obtain ⟨hlt, henc⟩ := ihValue (.tail hvisit (.entryValue hc hne hkey))
      obtain ⟨hlt', keys, hkeys, henc'⟩ := ihRest (.tail hvisit (.nextEntry hc hne hkey hvalue))
      have hat := at_slice hltKey.le (reads_le_length (.string hkey))
      obtain ⟨colonPos, hcolon, hlen, _, hbody⟩ := header_of_encodesString hsize hs hat
      have hread : KeyAt data _ s := ⟨colonPos, s.length, hcolon, hlen, hbody.symm⟩
      rw [EncodesAt, ← slice_append hltKey.le (hlt.trans hlt').le, ← slice_append hlt.le hlt'.le]
      exact ⟨by omega, s :: keys, .entry hc hne hkey hread hvalue hkeys, .entry hs henc henc'⟩

/-! ## Acceptance -/

theorem readsStrictly_of_encodes (hsize : data.length < 2 ^ 64) (henc : Encodes .value data)
    (hreads : Reads data .value 0 q) : ReadsStrictly data q := by
  have read := readAt_of_encodes hsize henc (at_zero data)
  exact ⟨by simpa using read.stop q hreads, read.strict⟩

theorem encodes_of_readsStrictly (hsize : data.length < 2 ^ 64)
    (hreads : Reads data .value 0 q) (hstrict : ReadsStrictly data q) :
    Encodes .value data := by
  obtain ⟨_, henc⟩ := encodesAt_of_reads hsize hstrict.strict hreads .refl
  rwa [EncodesAt, hstrict.whole, slice_whole] at henc

/-- An encoding is read without coming back to an unfinished place. -/
theorem acyclic_of_encodes (hsize : data.length < 2 ^ 64) (henc : Encodes .value data) :
    Demand.Acyclic (Needs data) (.value, 0) := by
  obtain ⟨o, final, fuel, ho⟩ := settlesAt_of_acc (readAt_of_encodes hsize henc (at_zero data)).acc
  exact parse_ends_iff_acyclic.mp ⟨fuel, fun h => final (ho ▸ h)⟩

/-- The decoder keeps its promise exactly on the inputs that are read without a cycle,
and strictly as a whole where they are read at all. -/
theorem decodesExactly_iff (data : Str) :
    DecodesExactly data.data ↔
      Demand.Acyclic (Needs data.data) (.value, 0) ∧
        ∀ q, Reads data.data .value 0 q → ReadsStrictly data.data q := by
  constructor
  · intro promise
    by_cases henc : Encodes .value data.data
    · exact ⟨acyclic_of_encodes data.size_lt henc,
        fun q => readsStrictly_of_encodes data.size_lt henc⟩
    · obtain ⟨fuel, e, hthrows⟩ := promise.throws henc
      rw [bencodeDecode_eq_throws_iff] at hthrows
      have hends : parse data.data fuel 0 ≠ .running := hthrows ▸ nofun
      refine ⟨parse_ends_iff_acyclic.mp ⟨fuel, hends⟩, fun q hreads => ?_⟩
      obtain ⟨v, hv⟩ := parse_eq_of_reads hreads hends
      cases hthrows.symm.trans hv
  · rintro ⟨acyclic, strict⟩
    have encodes : ∀ q, Reads data.data .value 0 q → Encodes .value data.data :=
      fun q hreads => encodes_of_readsStrictly data.size_lt hreads (strict q hreads)
    refine ⟨fun fuel v h => ?_, fun henc => ?_⟩
    · obtain ⟨q, hparse⟩ := bencodeDecode_eq_returns_iff.mp h
      exact encodes q (reads_of_parse hparse)
    · obtain ⟨fuel, hends⟩ := parse_ends_iff_acyclic.mpr acyclic
      cases hparse : parse data.data fuel 0 with
      | running => exact absurd hparse hends
      | throws e => exact ⟨fuel, e, bencodeDecode_eq_throws_iff.mpr hparse⟩
      | returns r => exact absurd (encodes r.2 (reads_of_parse hparse)) henc

/-- An integer followed by another byte is returned although it is not an encoding. -/
theorem bencode_ignores_trailing_bytes : ¬ ∀ data : Str, DecodesExactly data.data := by
  intro promise
  have hsize : (bytes "i1eX").length < 2 ^ 64 := by decide
  have hinteger : parseInteger (bytes "i1eX") 0 = .ok (.integer 1, 3) := by rfl
  have hparse : parse (bytes "i1eX") 1 0 = .returns (.integer 1, 3) := by
    rw [parse_succ_of_integer (by decide), hinteger, Outcome.ofExcept]
  have hdecode : bencodeDecode (bytes "i1eX") 1 = .returns ⟨.integer 1, .integer 1⟩ :=
    bencodeDecode_eq_returns_iff.mpr ⟨3, hparse⟩
  have henc := (promise ⟨_, hsize⟩).returns _ _ hdecode
  have hwhole := (readsStrictly_of_encodes hsize henc (reads_of_parse hparse)).whole
  exact absurd hwhole (by decide)

end SimIms.Rtp
