import SimIms.Rtp.BencodeReading

/-!
# Termination of the bencode parser

Every function of the parser is meant to move `pos_` forward. The one exception is a
string whose length, added to the position of its first byte, passes the last `size_t`:
the sum wraps around, and the position can land on or before the string's own first
digit. Decoding ends with every call moving forward exactly when no string it reaches
does that. A sum that wraps to a later position is harmless here.

`Calls` lists the calls that decoding makes. A function is called at the position where
its caller stands, a container's loop goes on only after a call that has returned.
-/

namespace SimIms.Rtp

open Cxx Lib

inductive Routine where
  | parse
  | parseString
  | parseInteger
  | parseList
  | parseDict
deriving DecidableEq

def call (data : Bytes) : Routine → Nat → Nat → Parsed
  | .parse, fuel, pos => parse data fuel pos
  | .parseString, _, pos => .ofExcept (parseString data pos)
  | .parseInteger, _, pos => .ofExcept (parseInteger data pos)
  | .parseList, fuel, pos => parseList data fuel pos
  | .parseDict, fuel, pos => parseDict data fuel pos

/-- Points that decoding passes: the entry of a function, the head of a loop. -/
inductive Point where
  | call (routine : Routine) (pos : Nat)
  | listLoop (pos : Nat)
  | dictLoop (pos : Nat)

inductive Passes (data : Bytes) : Point → Prop where
  | decode : Passes data (.call .parse 0)
  | integer {p : Nat} : Passes data (.call .parse p) → data[p]? = some 'i'.toUInt8 →
      Passes data (.call .parseInteger p)
  | list {p : Nat} : Passes data (.call .parse p) → data[p]? = some 'l'.toUInt8 →
      Passes data (.call .parseList p)
  | dict {p : Nat} : Passes data (.call .parse p) → data[p]? = some 'd'.toUInt8 →
      Passes data (.call .parseDict p)
  | string {p : Nat} {c : UInt8} : Passes data (.call .parse p) → data[p]? = some c →
      isDigit c = true → Passes data (.call .parseString p)
  | enterList {p : Nat} : Passes data (.call .parseList p) → Passes data (.listLoop (p + 1))
  | item {p : Nat} {c : UInt8} : Passes data (.listLoop p) → data[p]? = some c →
      c ≠ 'e'.toUInt8 → Passes data (.call .parse p)
  | nextItem {p q fuel : Nat} {c : UInt8} {item : Tree} : Passes data (.listLoop p) →
      data[p]? = some c → c ≠ 'e'.toUInt8 → parse data fuel p = .returns (item, q) →
      Passes data (.listLoop q)
  | enterDict {p : Nat} : Passes data (.call .parseDict p) → Passes data (.dictLoop (p + 1))
  | key {p : Nat} {c : UInt8} : Passes data (.dictLoop p) → data[p]? = some c →
      c ≠ 'e'.toUInt8 → Passes data (.call .parse p)
  | entryValue {p q fuel : Nat} {c : UInt8} {key : Bytes} : Passes data (.dictLoop p) →
      data[p]? = some c → c ≠ 'e'.toUInt8 → parse data fuel p = .returns (.string key, q) →
      Passes data (.call .parse q)
  | nextEntry {p q r fuel fuel' : Nat} {c : UInt8} {key : Bytes} {value : Tree} :
      Passes data (.dictLoop p) → data[p]? = some c → c ≠ 'e'.toUInt8 →
      parse data fuel p = .returns (.string key, q) →
      parse data fuel' q = .returns (value, r) → Passes data (.dictLoop r)

/-- The call throws, or it returns with the position moved forward inside the data. -/
def Advances (data : Bytes) (routine : Routine) (pos : Nat) : Prop :=
  ∃ fuel, (∃ e, call data routine fuel pos = .throws e) ∨
    ∃ v pos', call data routine fuel pos = .returns (v, pos') ∧
      pos < pos' ∧ pos' ≤ data.length

/-- Decoding comes to an end, and so does each call it makes, with progress. -/
structure DecodesSafely (data : Bytes) : Prop where
  ends : ∃ fuel, bencodeDecode data fuel ≠ .running
  advances : ∀ routine pos, Passes data (.call routine pos) → Advances data routine pos

/-- The length of the string at `p` takes its end past the last `size_t` and, wrapped
around, to `p` or before it. -/
def WrapsBack (data : Bytes) (p : Nat) : Prop :=
  ∃ colonPos len, find data ':'.toUInt8 p = some colonPos ∧
    stoul (substr data p (colonPos - p)) = .ok len ∧
    2 ^ 64 ≤ colonPos + 1 + len ∧ colonPos + 1 + len ≤ 2 ^ 64 + p

/-- No string that decoding reaches wraps back. -/
def NoStringWrapsBack (data : Bytes) : Prop :=
  ∀ p c, Visited data .value p → data[p]? = some c → isDigit c = true → ¬ WrapsBack data p

variable {data : Bytes} {p q : Nat} {c : UInt8}

/-! ## The points passed are the sites of the grammar -/

/-- What the grammar says about a point. -/
def Point.Expected (data : Bytes) : Point → Prop
  | .call .parse p => Visited data .value p
  | .call .parseInteger p => Visited data .value p ∧ data[p]? = some 'i'.toUInt8
  | .call .parseList p => Visited data .value p ∧ data[p]? = some 'l'.toUInt8
  | .call .parseDict p => Visited data .value p ∧ data[p]? = some 'd'.toUInt8
  | .call .parseString p => Visited data .value p ∧ ∃ c, data[p]? = some c ∧ isDigit c = true
  | .listLoop p => Visited data .items p
  | .dictLoop p => Visited data .entries p

theorem expected_of_passes {point : Point} (h : Passes data point) : point.Expected data := by
  induction h with
  | decode => exact .refl
  | integer _ hc ih => exact ⟨ih, hc⟩
  | list _ hc ih => exact ⟨ih, hc⟩
  | dict _ hc ih => exact ⟨ih, hc⟩
  | string _ hc hdigit ih => exact ⟨ih, _, hc, hdigit⟩
  | enterList _ ih => exact .tail ih.1 (.list ih.2)
  | item _ hc hne ih => exact .tail ih (.item hc hne)
  | nextItem _ hc hne hitem ih => exact .tail ih (.nextItem hc hne (reads_of_parse hitem))
  | enterDict _ ih => exact .tail ih.1 (.dict ih.2)
  | key _ hc hne ih => exact .tail ih (.key hc hne)
  | entryValue _ hc hne hkey ih =>
      exact .tail ih (.entryValue hc hne (readsString_of_parse hkey))
  | nextEntry _ hc hne hkey hvalue ih =>
      exact .tail ih (.nextEntry hc hne (readsString_of_parse hkey) (reads_of_parse hvalue))

/-- The point of the parser at a site. -/
def Site.point : Site → Nat → Point
  | .value, p => .call .parse p
  | .items, p => .listLoop p
  | .entries, p => .dictLoop p

theorem passes_of_visited {site : Site} (h : Visited data site p) :
    Passes data (site.point p) := by
  suffices passes : ∀ t, Demand.Reached (Needs data) (.value, 0) t →
      Passes data (t.1.point t.2) from passes _ h
  intro t ht
  induction ht with
  | refl => exact .decode
  | tail _ hneeds ih =>
      cases hneeds with
      | list hc => exact .enterList (.list ih hc)
      | dict hc => exact .enterDict (.dict ih hc)
      | item hc hne => exact .item ih hc hne
      | nextItem hc hne hreads =>
          obtain ⟨fuel, v, hv⟩ := parse_returns_iff_reads.mpr hreads
          exact .nextItem ih hc hne hv
      | key hc hne => exact .key ih hc hne
      | entryValue hc hne hkey =>
          obtain ⟨s, _, fuel, hs⟩ := settles_parse_of_string hkey
          exact .entryValue ih hc hne hs
      | nextEntry hc hne hkey hreads =>
          obtain ⟨s, _, fuel, hs⟩ := settles_parse_of_string hkey
          obtain ⟨fuel', v, hv⟩ := parse_returns_iff_reads.mpr hreads
          exact .nextEntry ih hc hne hs hv

/-! ## Progress -/

/-- The end of a string that does not wrap back lies behind its start. -/
theorem lt_of_readsString (hsize : data.length < 2 ^ 64) (h : ReadsString data p q)
    (hback : ¬ WrapsBack data p) : p < q := by
  obtain ⟨c, colonPos, len, hc, hdigit, hcolon, hlen, rfl, _⟩ := h
  obtain ⟨hle, hat, _⟩ := find_eq_some_iff.mp hcolon
  have hne : p ≠ colonPos := by
    rintro rfl
    rw [hc, Option.some.injEq] at hat
    subst hat
    exact absurd hdigit (by decide)
  have hinside := find_lt hcolon
  have hlen_lt := stoul_lt hlen
  by_cases hwrap : colonPos + 1 + len < 2 ^ 64
  · rw [sizeAdd_of_lt hwrap]
    omega
  · rw [sizeAdd_of_ge (by omega) hlen_lt (Nat.not_lt.mp hwrap)]
    by_contra hnot
    exact hback ⟨colonPos, len, hcolon, hlen, by omega, by omega⟩

theorem lt_of_reads {site : Site} (hsize : data.length < 2 ^ 64)
    (hback : NoStringWrapsBack data) (h : Reads data site p q) (hvisit : Visited data site p) :
    p < q := by
  have string_lt : ∀ {p q : Nat}, Visited data .value p → ReadsString data p q → p < q := by
    intro p q hvisit h
    obtain ⟨c, _, _, hc, hdigit, _⟩ := id h
    exact lt_of_readsString hsize h (hback p c hvisit hc hdigit)
  induction h with
  | string h => exact string_lt hvisit h
  | integer h =>
      obtain ⟨_, endPos, _, hend, _, rfl⟩ := h
      have := (find_eq_some_iff.mp hend).1
      omega
  | list hc _ ih =>
      have := ih (.tail hvisit (.list hc))
      omega
  | dict hc _ ih =>
      have := ih (.tail hvisit (.dict hc))
      omega
  | endItems _ => omega
  | item hc hne hvalue _ ihValue ihRest =>
      have h₁ := ihValue (.tail hvisit (.item hc hne))
      have h₂ := ihRest (.tail hvisit (.nextItem hc hne hvalue))
      omega
  | endEntries _ => omega
  | entry hc hne hkey hvalue _ ihValue ihRest =>
      have h₁ := string_lt (.tail hvisit (.key hc hne)) hkey
      have h₂ := ihValue (.tail hvisit (.entryValue hc hne hkey))
      have h₃ := ihRest (.tail hvisit (.nextEntry hc hne hkey hvalue))
      omega

/-- Twice the bytes that are left, and one more inside a loop. -/
def remaining (data : Bytes) : Site × Nat → Nat
  | (.value, p) => 2 * (data.length - p)
  | (_, p) => 2 * (data.length - p) + 1

theorem remaining_lt_of_needs {s t : Site × Nat} (hsize : data.length < 2 ^ 64)
    (hback : NoStringWrapsBack data) (hvisit : Demand.Reached (Needs data) (.value, 0) s)
    (needs : Needs data s t) : remaining data t < remaining data s := by
  have lt_length : ∀ {c : UInt8} {p : Nat}, data[p]? = some c → p < data.length :=
    fun hc => (List.getElem?_eq_some_iff.mp hc).1
  cases needs with
  | list hc =>
      have := lt_length hc
      simp only [remaining]
      omega
  | dict hc =>
      have := lt_length hc
      simp only [remaining]
      omega
  | item hc hne => simp [remaining]
  | nextItem hc hne hreads =>
      have := lt_length hc
      have := lt_of_reads hsize hback hreads (.tail hvisit (.item hc hne))
      simp only [remaining]
      omega
  | key hc hne => simp [remaining]
  | entryValue hc hne hkey =>
      have := lt_length hc
      have := lt_of_reads hsize hback (.string hkey) (.tail hvisit (.key hc hne))
      simp only [remaining]
      omega
  | nextEntry hc hne hkey hreads =>
      have := lt_length hc
      have := lt_of_reads hsize hback (.string hkey) (.tail hvisit (.key hc hne))
      have := lt_of_reads hsize hback hreads (.tail hvisit (.entryValue hc hne hkey))
      simp only [remaining]
      omega

/-- Without a string that wraps back, the parser settles at every site it reaches. -/
theorem settlesAt_of_visited {site : Site} (hsize : data.length < 2 ^ 64)
    (hback : NoStringWrapsBack data) (hvisit : Visited data site p) :
    SettlesAt data (site, p) :=
  settlesAt_of_acc (Demand.acc_of_decreasing (remaining data) fun _ _ hs =>
    remaining_lt_of_needs hsize hback (Relation.ReflTransGen.trans hvisit hs))

/-- A function that is called for the value at `p` has the outcome of `parse` there. -/
theorem call_eq_parse {routine : Routine} (h : Passes data (.call routine p)) (fuel : Nat) :
    ∃ fuel', call data routine fuel' p = parse data (fuel + 1) p := by
  have expected := expected_of_passes h
  cases routine with
  | parse => exact ⟨fuel + 1, rfl⟩
  | parseString =>
      obtain ⟨_, c, hc, hdigit⟩ := expected
      exact ⟨fuel, (parse_succ_of_string hc hdigit fuel).symm⟩
  | parseInteger => exact ⟨fuel, (parse_succ_of_integer expected.2 fuel).symm⟩
  | parseList => exact ⟨fuel, (parse_succ_of_list expected.2 fuel).symm⟩
  | parseDict => exact ⟨fuel, (parse_succ_of_dict expected.2 fuel).symm⟩

theorem visited_of_passes {routine : Routine} (h : Passes data (.call routine p)) :
    Visited data .value p := by
  have expected := expected_of_passes h
  cases routine with
  | parse => exact expected
  | parseString => exact expected.1
  | parseInteger => exact expected.1
  | parseList => exact expected.1
  | parseDict => exact expected.1

theorem advances_of_passes {routine : Routine} (hsize : data.length < 2 ^ 64)
    (hback : NoStringWrapsBack data) (h : Passes data (.call routine p)) :
    Advances data routine p := by
  have hvisit := visited_of_passes h
  obtain ⟨o, final, fuel, ho⟩ := settlesAt_of_visited hsize hback hvisit
  have hlater : parse data (fuel + 1) p = o :=
    Outcome.Settles.at_later parse_monotone ho final (Nat.le_succ fuel)
  obtain ⟨fuel', hcall⟩ := call_eq_parse h fuel
  rw [hlater] at hcall
  cases o with
  | running => exact absurd rfl final
  | throws e => exact ⟨fuel', .inl ⟨e, hcall⟩⟩
  | returns r =>
      obtain ⟨v, q⟩ := r
      have hreads := reads_of_parse hlater
      exact ⟨fuel', .inr ⟨v, q, hcall, lt_of_reads hsize hback hreads hvisit,
        reads_le_length hreads⟩⟩

/-- A string that wraps back is returned with the position not moved forward. -/
theorem not_advances_of_wrapsBack (hsize : data.length < 2 ^ 64) (hback : WrapsBack data p) :
    ¬ Advances data .parseString p := by
  obtain ⟨colonPos, len, hcolon, hlen, hwrap, hle⟩ := hback
  have hinside := find_lt hcolon
  have hsum : sizeAdd (colonPos + 1) len = colonPos + 1 + len - 2 ^ 64 :=
    sizeAdd_of_ge (by omega) (stoul_lt hlen) hwrap
  have hlen_lt := stoul_lt hlen
  have hparse : parseString data p =
      .ok (.string (substr data (colonPos + 1) len), colonPos + 1 + len - 2 ^ 64) :=
    parseString_eq_ok_iff.mpr ⟨colonPos, len, hcolon, hlen, hsum.symm, by omega, rfl⟩
  rintro ⟨fuel, ⟨e, he⟩ | ⟨v, pos', hv, hlt, _⟩⟩
  · rw [call, hparse] at he
    cases he
  · rw [call, hparse] at hv
    cases hv
    omega

/-- Decoding is safe exactly on the inputs in which no string reached wraps back. -/
theorem decodesSafely_iff_noStringWrapsBack (data : Str) :
    DecodesSafely data.data ↔ NoStringWrapsBack data.data := by
  constructor
  · intro safe p c hvisit hc hdigit hback
    apply not_advances_of_wrapsBack data.size_lt hback
    exact safe.advances _ _ (.string (passes_of_visited hvisit) hc hdigit)
  · intro hback
    refine ⟨?_, fun _ _ h => advances_of_passes data.size_lt hback h⟩
    have hstart : Visited data.data .value 0 := .refl
    obtain ⟨o, final, fuel, ho⟩ := settlesAt_of_visited data.size_lt hback hstart
    exact ⟨fuel, fun h => final (ho ▸ bencodeDecode_eq_running_iff.mp h)⟩

/-- In this list the length of the string at 1 wraps the position from 22 back to 1, so
the loop reads the same string forever. -/
theorem bencode_string_wraps_back : ¬ ∀ data : Str, DecodesSafely data.data := by
  intro safe
  have hpasses : Passes (bytes "l18446744073709551595:") (.call .parseString 1) :=
    .string (c := '1'.toUInt8) (.item (.enterList (.list .decode (by decide)))
      (c := '1'.toUInt8) (by decide) (by decide)) (by decide) (by decide)
  have hback : WrapsBack (bytes "l18446744073709551595:") 1 :=
    ⟨21, 18446744073709551595, by decide, by decide, by decide, by decide⟩
  have hsize : (bytes "l18446744073709551595:").length < 2 ^ 64 := by decide
  exact not_advances_of_wrapsBack hsize hback ((safe ⟨_, hsize⟩).advances _ _ hpasses)

end SimIms.Rtp
