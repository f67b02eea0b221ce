import Mathlib.Data.Finite.Prod
import Mathlib.Order.Interval.Finset.Nat
import SimIms.Lib.Demand
import SimIms.Rtp.Bencode

/-!
# What the bencode parser reads, without its values

`Reads data site p q` is the grammar of the stretches that the parser walks over: from
position `p`, at a value, inside a list or inside a dictionary, to position `q`. Number
texts are as permissive as `stoul` and `stoll` are, and the end of a string is a sum of
two `size_t` values. The parser returns exactly where this grammar reads.

`Needs` is the order in which reading one place requires reading another. The parser
ends exactly when no place it reaches needs itself.
-/

namespace SimIms.Rtp

open Cxx Lib Relation

/-- A string is read from `p` to `q`. -/
def ReadsString (data : Bytes) (p q : Nat) : Prop :=
  ∃ c colonPos len, data[p]? = some c ∧ isDigit c = true ∧
    find data ':'.toUInt8 p = some colonPos ∧
    stoul (substr data p (colonPos - p)) = .ok len ∧
    q = sizeAdd (colonPos + 1) len ∧ q ≤ data.length

/-- An integer is read from `p` to `q`. -/
def ReadsInteger (data : Bytes) (p q : Nat) : Prop :=
  data[p]? = some 'i'.toUInt8 ∧ ∃ endPos num, find data 'e'.toUInt8 (p + 1) = some endPos ∧
    stoll (substr data (p + 1) (endPos - (p + 1))) = .ok num ∧ q = endPos + 1

/-- Where the parser stands: before a value, or at the head of a container's loop. -/
inductive Site where
  | value
  | items
  | entries
deriving DecidableEq

instance : Fintype Site := ⟨{.value, .items, .entries}, fun site => by cases site <;> simp⟩

inductive Reads (data : Bytes) : Site → Nat → Nat → Prop where
  | string {p q : Nat} : ReadsString data p q → Reads data .value p q
  | integer {p q : Nat} : ReadsInteger data p q → Reads data .value p q
  | list {p q : Nat} : data[p]? = some 'l'.toUInt8 → Reads data .items (p + 1) q →
      Reads data .value p q
  | dict {p q : Nat} : data[p]? = some 'd'.toUInt8 → Reads data .entries (p + 1) q →
      Reads data .value p q
  | endItems {p : Nat} : data[p]? = some 'e'.toUInt8 → Reads data .items p (p + 1)
  | item {p q r : Nat} {c : UInt8} : data[p]? = some c → c ≠ 'e'.toUInt8 →
      Reads data .value p q → Reads data .items q r → Reads data .items p r
  | endEntries {p : Nat} : data[p]? = some 'e'.toUInt8 → Reads data .entries p (p + 1)
  | entry {p q r t : Nat} {c : UInt8} : data[p]? = some c → c ≠ 'e'.toUInt8 →
      ReadsString data p q → Reads data .value q r → Reads data .entries r t →
      Reads data .entries p t

/-- Finishing at the first place requires finishing at the second. -/
inductive Needs (data : Bytes) : Site × Nat → Site × Nat → Prop where
  | list {p : Nat} : data[p]? = some 'l'.toUInt8 → Needs data (.value, p) (.items, p + 1)
  | dict {p : Nat} : data[p]? = some 'd'.toUInt8 → Needs data (.value, p) (.entries, p + 1)
  | item {p : Nat} {c : UInt8} : data[p]? = some c → c ≠ 'e'.toUInt8 →
      Needs data (.items, p) (.value, p)
  | nextItem {p q : Nat} {c : UInt8} : data[p]? = some c → c ≠ 'e'.toUInt8 →
      Reads data .value p q → Needs data (.items, p) (.items, q)
  | key {p : Nat} {c : UInt8} : data[p]? = some c → c ≠ 'e'.toUInt8 →
      Needs data (.entries, p) (.value, p)
  | entryValue {p q : Nat} {c : UInt8} : data[p]? = some c → c ≠ 'e'.toUInt8 →
      ReadsString data p q → Needs data (.entries, p) (.value, q)
  | nextEntry {p q r : Nat} {c : UInt8} : data[p]? = some c → c ≠ 'e'.toUInt8 →
      ReadsString data p q → Reads data .value q r → Needs data (.entries, p) (.entries, r)

variable {data : Bytes} {fuel p q r : Nat} {v : Tree} {c : UInt8}

/-! ## Strings and integers -/

theorem parseString_eq_ok_iff :
    parseString data p = .ok (v, q) ↔
      ∃ colonPos len, find data ':'.toUInt8 p = some colonPos ∧
        stoul (substr data p (colonPos - p)) = .ok len ∧
        q = sizeAdd (colonPos + 1) len ∧ q ≤ data.length ∧
        v = .string (substr data (colonPos + 1) len) := by
  constructor
  · intro h
    unfold parseString at h
    split at h
    · cases h
    · rename_i colonPos hcolon
      split at h
      · cases h
      · rename_i len hlen
        simp only at h
        split at h
        · cases h
        · rename_i hfits
          cases h
          exact ⟨colonPos, len, hcolon, hlen, rfl, by omega, rfl⟩
  · rintro ⟨colonPos, len, hcolon, hlen, rfl, hfits, rfl⟩
    simp only [parseString, hcolon, hlen, if_neg (Nat.not_lt.mpr hfits)]

theorem parseInteger_eq_ok_iff :
    parseInteger data p = .ok (v, q) ↔
      ∃ endPos num, find data 'e'.toUInt8 (p + 1) = some endPos ∧
        stoll (substr data (p + 1) (endPos - (p + 1))) = .ok num ∧
        q = endPos + 1 ∧ v = .integer num := by
  constructor
  · intro h
    unfold parseInteger at h
    simp only at h
    split at h
    · cases h
    · rename_i endPos hend
      split at h
      · cases h
      · rename_i num hnum
        cases h
        exact ⟨endPos, num, hend, hnum, rfl, rfl⟩
  · rintro ⟨endPos, num, hend, hnum, rfl, rfl⟩
    simp only [parseInteger, hend, hnum]

/-! ## Rules of a parse that settles -/

theorem parse_succ_of_integer (hc : data[p]? = some 'i'.toUInt8) (fuel : Nat) :
    parse data (fuel + 1) p = .ofExcept (parseInteger data p) := by
  simp [parse, hc]

theorem parse_succ_of_list (hc : data[p]? = some 'l'.toUInt8) (fuel : Nat) :
    parse data (fuel + 1) p = parseList data fuel p := by
  have hi : 'l'.toUInt8 ≠ 'i'.toUInt8 := by decide
  simp [parse, hc, hi]

theorem parse_succ_of_dict (hc : data[p]? = some 'd'.toUInt8) (fuel : Nat) :
    parse data (fuel + 1) p = parseDict data fuel p := by
  have hi : 'd'.toUInt8 ≠ 'i'.toUInt8 := by decide
  have hl : 'd'.toUInt8 ≠ 'l'.toUInt8 := by decide
  simp [parse, hc, hi, hl]

theorem ne_of_isDigit (hdigit : isDigit c = true) :
    c ≠ 'i'.toUInt8 ∧ c ≠ 'l'.toUInt8 ∧ c ≠ 'd'.toUInt8 ∧ c ≠ 'e'.toUInt8 := by
  have hnot : ∀ d : UInt8, isDigit d = false → c ≠ d := by
    rintro d hd rfl
    rw [hdigit] at hd
    cases hd
  exact ⟨hnot _ (by decide), hnot _ (by decide), hnot _ (by decide), hnot _ (by decide)⟩

theorem parse_succ_of_string (hc : data[p]? = some c) (hdigit : isDigit c = true) (fuel : Nat) :
    parse data (fuel + 1) p = .ofExcept (parseString data p) := by
  obtain ⟨hi, hl, hd, _⟩ := ne_of_isDigit hdigit
  simp [parse, hc, hi, hl, hd, hdigit]

/-- How a value begins decides which function reads it. -/
theorem parse_succ_cases (data : Bytes) (p : Nat) :
    data[p]? = some 'i'.toUInt8 ∨ data[p]? = some 'l'.toUInt8 ∨ data[p]? = some 'd'.toUInt8 ∨
      (∃ c, data[p]? = some c ∧ isDigit c = true) ∨
      ∃ e, ∀ fuel, parse data (fuel + 1) p = .throws e := by
  cases hc : data[p]? with
  | none => exact .inr (.inr (.inr (.inr ⟨_, fun fuel => by rw [parse, hc]⟩)))
  | some c =>
      by_cases hi : c = 'i'.toUInt8
      · exact .inl (by rw [hi])
      by_cases hl : c = 'l'.toUInt8
      · exact .inr (.inl (by rw [hl]))
      by_cases hd : c = 'd'.toUInt8
      · exact .inr (.inr (.inl (by rw [hd])))
      by_cases hdigit : isDigit c = true
      · exact .inr (.inr (.inr (.inl ⟨c, rfl, hdigit⟩)))
      · refine .inr (.inr (.inr (.inr ⟨.runtimeError
          (bytes "Unexpected character in bencode: '" ++ [c] ++ bytes "'"), fun fuel => ?_⟩)))
        simp only [parse, hc, if_neg hi, if_neg hl, if_neg hd, if_neg hdigit]

theorem parseListLoop_succ_of_end (hc : data[p]? = some 'e'.toUInt8) (list : List Tree)
    (fuel : Nat) : parseListLoop data (fuel + 1) p list = .returns (.list list, p + 1) := by
  simp [parseListLoop, hc]

theorem parseListLoop_succ_of_item (hc : data[p]? = some c) (hne : c ≠ 'e'.toUInt8)
    (list : List Tree) (fuel : Nat) :
    parseListLoop data (fuel + 1) p list =
      (parse data fuel p).bind fun (item, q) => parseListLoop data fuel q (list ++ [item]) := by
  simp [parseListLoop, hc, hne]

theorem parseDictLoop_succ_of_end (hc : data[p]? = some 'e'.toUInt8)
    (dict : List (Bytes × Tree)) (fuel : Nat) :
    parseDictLoop data (fuel + 1) p dict = .returns (.dict dict, p + 1) := by
  simp [parseDictLoop, hc]

/-- The part of a dictionary's loop that follows a key. -/
def parseDictValue (data : Bytes) (fuel : Nat) (dict : List (Bytes × Tree)) :
    Tree × Nat → Parsed
  | (.string key, q) => (parse data fuel q).bind fun (value, q) =>
      parseDictLoop data fuel q (OrderedMap.assign key value dict)
  | _ => .throws (.runtimeError (bytes "Dict key must be a string"))

theorem parseDictLoop_succ_of_entry (hc : data[p]? = some c) (hne : c ≠ 'e'.toUInt8)
    (dict : List (Bytes × Tree)) (fuel : Nat) :
    parseDictLoop data (fuel + 1) p dict =
      (parse data fuel p).bind (parseDictValue data fuel dict) := by
  rw [parseDictLoop]
  simp only [hc, if_neg hne]
  congr 1
  funext r
  obtain ⟨keyVal, q⟩ := r
  cases keyVal <;> rfl

theorem parseDictValue_monotone {dict : List (Bytes × Tree)} {key : Tree × Nat} :
    Monotone fun fuel => parseDictValue data fuel dict key := by
  obtain ⟨keyVal, q⟩ := key
  intro fuel fuel' hle
  cases keyVal with
  | string s => exact Outcome.bind_le_bind (parse_monotone hle) fun _ => parseDictLoop_monotone hle
  | integer n => exact le_refl _
  | list items => exact le_refl _
  | dict entries => exact le_refl _

open Outcome in
theorem settles_parse_of_integer (hc : data[p]? = some 'i'.toUInt8) :
    Settles (fun n => parse data n p) (.ofExcept (parseInteger data p)) :=
  settles_of_succ (parse_succ_of_integer hc) (ofExcept_ne_running _)

open Outcome in
theorem settles_parse_of_digit (hc : data[p]? = some c) (hdigit : isDigit c = true) :
    Settles (fun n => parse data n p) (.ofExcept (parseString data p)) :=
  settles_of_succ (parse_succ_of_string hc hdigit) (ofExcept_ne_running _)

open Outcome in
theorem settles_parseListLoop_of_end (hc : data[p]? = some 'e'.toUInt8) (list : List Tree) :
    Settles (fun n => parseListLoop data n p list) (.returns (.list list, p + 1)) :=
  settles_of_succ (parseListLoop_succ_of_end hc list) nofun

open Outcome in
theorem settles_parseListLoop_of_none (hc : data[p]? = none) (list : List Tree) :
    Settles (fun n => parseListLoop data n p list)
      (.throws (.runtimeError (bytes "Missing 'e' in bencode list"))) :=
  settles_of_succ (fun n => by simp only [parseListLoop, hc]) nofun

open Outcome in
theorem settles_parseDictLoop_of_end (hc : data[p]? = some 'e'.toUInt8)
    (dict : List (Bytes × Tree)) :
    Settles (fun n => parseDictLoop data n p dict) (.returns (.dict dict, p + 1)) :=
  settles_of_succ (parseDictLoop_succ_of_end hc dict) nofun

open Outcome in
theorem settles_parseDictLoop_of_none (hc : data[p]? = none) (dict : List (Bytes × Tree)) :
    Settles (fun n => parseDictLoop data n p dict)
      (.throws (.runtimeError (bytes "Missing 'e' in bencode dict"))) :=
  settles_of_succ (fun n => by simp only [parseDictLoop, hc]) nofun

open Outcome in
theorem settles_parse_of_list {o : Parsed} (hc : data[p]? = some 'l'.toUInt8)
    (h : Settles (fun n => parseListLoop data n (p + 1) []) o) :
    Settles (fun n => parse data n p) o :=
  (h.succ (k := fun n => parseList data n p) fun n => by rw [parseList]).succ
    (parse_succ_of_list hc)

open Outcome in
theorem settles_parse_of_dict {o : Parsed} (hc : data[p]? = some 'd'.toUInt8)
    (h : Settles (fun n => parseDictLoop data n (p + 1) []) o) :
    Settles (fun n => parse data n p) o :=
  (h.succ (k := fun n => parseDict data n p) fun n => by rw [parseDict]).succ
    (parse_succ_of_dict hc)

open Outcome in
theorem settles_parseListLoop_of_item {o : Parsed} {item : Tree} {list : List Tree}
    (hc : data[p]? = some c) (hne : c ≠ 'e'.toUInt8)
    (hitem : Settles (fun n => parse data n p) (.returns (item, q)))
    (hrest : Settles (fun n => parseListLoop data n q (list ++ [item])) o) :
    Settles (fun n => parseListLoop data n p list) o :=
  (hitem.bind (g := fun (item, q) n => parseListLoop data n q (list ++ [item]))
    parse_monotone parseListLoop_monotone hrest).succ (parseListLoop_succ_of_item hc hne list)

open Outcome in
theorem settles_parseDictLoop_of_entry {o : Parsed} {key : Bytes} {value : Tree}
    {dict : List (Bytes × Tree)} (hc : data[p]? = some c) (hne : c ≠ 'e'.toUInt8)
    (hkey : Settles (fun n => parse data n p) (.returns (.string key, q)))
    (hvalue : Settles (fun n => parse data n q) (.returns (value, r)))
    (hrest : Settles (fun n => parseDictLoop data n r (OrderedMap.assign key value dict)) o) :
    Settles (fun n => parseDictLoop data n p dict) o := by
  have hentry : Settles (fun n => parseDictValue data n dict (.string key, q)) o := by
    simp only [parseDictValue]
    exact hvalue.bind parse_monotone parseDictLoop_monotone hrest
  exact (hkey.bind (g := fun kv n => parseDictValue data n dict kv) parse_monotone
    parseDictValue_monotone hentry).succ (parseDictLoop_succ_of_entry hc hne dict)

/-! ## The parser returns where the grammar reads -/

theorem readsString_iff :
    ReadsString data p q ↔ (∃ c, data[p]? = some c ∧ isDigit c = true) ∧
      ∃ v, parseString data p = .ok (v, q) := by
  constructor
  · rintro ⟨c, colonPos, len, hc, hdigit, hcolon, hlen, hq, hfits⟩
    exact ⟨⟨c, hc, hdigit⟩, _, parseString_eq_ok_iff.mpr
      ⟨colonPos, len, hcolon, hlen, hq, hfits, rfl⟩⟩
  · rintro ⟨⟨c, hc, hdigit⟩, v, hv⟩
    obtain ⟨colonPos, len, hcolon, hlen, hq, hfits, _⟩ := parseString_eq_ok_iff.mp hv
    exact ⟨c, colonPos, len, hc, hdigit, hcolon, hlen, hq, hfits⟩

theorem readsInteger_iff :
    ReadsInteger data p q ↔ data[p]? = some 'i'.toUInt8 ∧
      ∃ v, parseInteger data p = .ok (v, q) := by
  constructor
  · rintro ⟨hc, endPos, num, hend, hnum, hq⟩
    exact ⟨hc, _, parseInteger_eq_ok_iff.mpr ⟨endPos, num, hend, hnum, hq, rfl⟩⟩
  · rintro ⟨hc, v, hv⟩
    obtain ⟨endPos, num, hend, hnum, hq, _⟩ := parseInteger_eq_ok_iff.mp hv
    exact ⟨hc, endPos, num, hend, hnum, hq⟩

/-- A returned value was read, and a returned string by the rule for strings. -/
theorem reads_of_parse_aux (fuel : Nat) :
    (∀ p v q, parse data fuel p = .returns (v, q) →
      Reads data .value p q ∧ ∀ s, v = .string s → ReadsString data p q) ∧
    (∀ p list v q, parseListLoop data fuel p list = .returns (v, q) →
      Reads data .items p q ∧ ∃ items, v = .list items) ∧
    (∀ p dict v q, parseDictLoop data fuel p dict = .returns (v, q) →
      Reads data .entries p q ∧ ∃ entries, v = .dict entries) := by
  induction fuel using Nat.strong_induction_on with
  | _ fuel ih =>
      refine ⟨?_, ?_, ?_⟩
      · intro p v q h
        cases fuel with
        | zero => simp at h
        | succ fuel =>
            rcases parse_succ_cases data p with hi | hl | hd | ⟨c, hc, hdigit⟩ | ⟨e, he⟩
            · rw [parse_succ_of_integer hi, Outcome.ofExcept_eq_returns_iff] at h
              obtain ⟨n, hn⟩ := parseInteger_eq_ok h
              refine ⟨.integer (readsInteger_iff.mpr ⟨hi, v, h⟩), fun s hs => ?_⟩
              cases hs.symm.trans hn
            · rw [parse_succ_of_list hl] at h
              cases fuel with
              | zero => simp at h
              | succ fuel =>
                  rw [parseList] at h
                  obtain ⟨hreads, items, hv⟩ := (ih fuel (by omega)).2.1 _ _ _ _ h
                  refine ⟨.list hl hreads, fun s hs => ?_⟩
                  cases hs.symm.trans hv
            · rw [parse_succ_of_dict hd] at h
              cases fuel with
              | zero => simp at h
              | succ fuel =>
                  rw [parseDict] at h
                  obtain ⟨hreads, entries, hv⟩ := (ih fuel (by omega)).2.2 _ _ _ _ h
                  refine ⟨.dict hd hreads, fun s hs => ?_⟩
                  cases hs.symm.trans hv
            · rw [parse_succ_of_string hc hdigit, Outcome.ofExcept_eq_returns_iff] at h
              have hreads := readsString_iff.mpr ⟨⟨c, hc, hdigit⟩, v, h⟩
              exact ⟨.string hreads, fun _ _ => hreads⟩
            · rw [he] at h
              cases h
      · intro p list v q h
        cases fuel with
        | zero => simp at h
        | succ fuel =>
            cases hc : data[p]? with
            | none => simp [parseListLoop, hc] at h
            | some c =>
                by_cases hne : c = 'e'.toUInt8
                · rw [hne] at hc
                  rw [parseListLoop_succ_of_end hc] at h
                  cases h
                  exact ⟨.endItems hc, _, rfl⟩
                · rw [parseListLoop_succ_of_item hc hne] at h
                  obtain ⟨⟨item, r⟩, hitem, hrest⟩ := Outcome.bind_eq_returns_iff.mp h
                  obtain ⟨hreads, hlist⟩ := (ih fuel (by omega)).2.1 _ _ _ _ hrest
                  exact ⟨.item hc hne ((ih fuel (by omega)).1 _ _ _ hitem).1 hreads, hlist⟩
      · intro p dict v q h
        cases fuel with
        | zero => simp at h
        | succ fuel =>
            cases hc : data[p]? with
            | none => simp [parseDictLoop, hc] at h
            | some c =>
                by_cases hne : c = 'e'.toUInt8
                · rw [hne] at hc
                  rw [parseDictLoop_succ_of_end hc] at h
                  cases h
                  exact ⟨.endEntries hc, _, rfl⟩
                · rw [parseDictLoop_succ_of_entry hc hne] at h
                  obtain ⟨⟨keyVal, r⟩, hkey, hrest⟩ := Outcome.bind_eq_returns_iff.mp h
                  cases keyVal with
                  | string key =>
                      obtain ⟨⟨value, t⟩, hvalue, hrest⟩ := Outcome.bind_eq_returns_iff.mp hrest
                      obtain ⟨hreads, hdict⟩ := (ih fuel (by omega)).2.2 _ _ _ _ hrest
                      have hkey := ((ih fuel (by omega)).1 _ _ _ hkey).2 key rfl
                      have hvalue := ((ih fuel (by omega)).1 _ _ _ hvalue).1
                      exact ⟨.entry hc hne hkey hvalue hreads, hdict⟩
                  | integer n => cases hrest
                  | list items => cases hrest
                  | dict entries => cases hrest

theorem reads_of_parse (h : parse data fuel p = .returns (v, q)) : Reads data .value p q :=
  ((reads_of_parse_aux fuel).1 p v q h).1

theorem readsString_of_parse {s : Bytes} (h : parse data fuel p = .returns (.string s, q)) :
    ReadsString data p q :=
  ((reads_of_parse_aux fuel).1 p _ q h).2 s rfl

/-- The parser at a site settles on a return at `q`, whatever has been collected. -/
def ReturnsAt (data : Bytes) (site : Site) (p q : Nat) : Prop :=
  match site with
  | .value => ∃ v, Outcome.Settles (fun n => parse data n p) (.returns (v, q))
  | .items => ∀ list, ∃ v,
      Outcome.Settles (fun n => parseListLoop data n p list) (.returns (v, q))
  | .entries => ∀ dict, ∃ v,
      Outcome.Settles (fun n => parseDictLoop data n p dict) (.returns (v, q))

theorem settles_parse_of_string (h : ReadsString data p q) :
    ∃ s, Outcome.Settles (fun n => parse data n p) (.returns (.string s, q)) := by
  obtain ⟨⟨c, hc, hdigit⟩, v, hv⟩ := readsString_iff.mp h
  obtain ⟨s, hs⟩ := parseString_eq_ok hv
  cases hs
  have hsettles := settles_parse_of_digit hc hdigit
  rw [hv] at hsettles
  exact ⟨s, hsettles⟩

theorem returnsAt_of_reads {site : Site} (h : Reads data site p q) :
    ReturnsAt data site p q := by
  induction h with
  | string h =>
      obtain ⟨s, hs⟩ := settles_parse_of_string h
      exact ⟨_, hs⟩
  | integer h =>
      obtain ⟨hc, v, hv⟩ := readsInteger_iff.mp h
      have hsettles := settles_parse_of_integer hc
      rw [hv] at hsettles
      exact ⟨v, hsettles⟩
  | list hc _ ih =>
      obtain ⟨v, hv⟩ := ih []
      exact ⟨v, settles_parse_of_list hc hv⟩
  | dict hc _ ih =>
      obtain ⟨v, hv⟩ := ih []
      exact ⟨v, settles_parse_of_dict hc hv⟩
  | endItems hc =>
      intro list
      exact ⟨_, settles_parseListLoop_of_end hc list⟩
  | item hc hne _ _ ihItem ihRest =>
      intro list
      obtain ⟨item, hitem⟩ := ihItem
      obtain ⟨v, hv⟩ := ihRest (list ++ [item])
      exact ⟨v, settles_parseListLoop_of_item hc hne hitem hv⟩
  | endEntries hc =>
      intro dict
      exact ⟨_, settles_parseDictLoop_of_end hc dict⟩
  | entry hc hne hkey _ _ ihValue ihRest =>
      intro dict
      obtain ⟨key, hkey⟩ := settles_parse_of_string hkey
      obtain ⟨value, hvalue⟩ := ihValue
      obtain ⟨v, hv⟩ := ihRest (OrderedMap.assign key value dict)
      exact ⟨v, settles_parseDictLoop_of_entry hc hne hkey hvalue hv⟩

theorem parse_returns_iff_reads :
    (∃ fuel v, parse data fuel p = .returns (v, q)) ↔ Reads data .value p q := by
  constructor
  · rintro ⟨fuel, v, h⟩
    exact reads_of_parse h
  · intro h
    obtain ⟨v, _, fuel, hv⟩ := returnsAt_of_reads h
    exact ⟨fuel, v, hv⟩

/-! ## The parser ends where no site needs itself -/

/-- The parser at a site settles, whatever has been collected. -/
def SettlesAt (data : Bytes) : Site × Nat → Prop
  | (.value, p) => ∃ o, Outcome.Settles (fun n => parse data n p) o
  | (.items, p) => ∀ list, ∃ o, Outcome.Settles (fun n => parseListLoop data n p list) o
  | (.entries, p) => ∀ dict, ∃ o, Outcome.Settles (fun n => parseDictLoop data n p dict) o

/-- The parser at a site comes to an end within the fuel, for something collected. -/
def EndsWithin (data : Bytes) (fuel : Nat) : Site × Nat → Prop
  | (.value, p) => parse data fuel p ≠ .running
  | (.items, p) => ∃ list, parseListLoop data fuel p list ≠ .running
  | (.entries, p) => ∃ dict, parseDictLoop data fuel p dict ≠ .running

theorem settlesAt_of_acc {s : Site × Nat} (h : Acc (fun t s => Needs data s t) s) :
    SettlesAt data s := by
  induction h with
  | intro s _ ih =>
      obtain ⟨site, p⟩ := s
      cases site with
      | value =>
          rcases parse_succ_cases data p with hi | hl | hd | ⟨c, hc, hdigit⟩ | ⟨e, he⟩
          · exact ⟨_, settles_parse_of_integer hi⟩
          · obtain ⟨o, ho⟩ := ih _ (.list hl) []
            exact ⟨o, settles_parse_of_list hl ho⟩
          · obtain ⟨o, ho⟩ := ih _ (.dict hd) []
            exact ⟨o, settles_parse_of_dict hd ho⟩
          · exact ⟨_, settles_parse_of_digit hc hdigit⟩
          · exact ⟨.throws e, Outcome.settles_of_succ he nofun⟩
      | items =>
          intro list
          cases hc : data[p]? with
          | none => exact ⟨_, settles_parseListLoop_of_none hc list⟩
          | some c =>
              by_cases hne : c = 'e'.toUInt8
              · rw [hne] at hc
                exact ⟨_, settles_parseListLoop_of_end hc list⟩
              · obtain ⟨o, ho⟩ := ih _ (.item hc hne)
                cases o with
                | running => exact absurd rfl ho.1
                | throws e =>
                    exact ⟨.throws e, ho.bind_throws.succ (parseListLoop_succ_of_item hc hne list)⟩
                | returns r =>
                    obtain ⟨item, q⟩ := r
                    obtain ⟨_, fuel, hitem⟩ := id ho
                    obtain ⟨o, hrest⟩ := ih _ (.nextItem hc hne (reads_of_parse hitem))
                      (list ++ [item])
                    exact ⟨o, settles_parseListLoop_of_item hc hne ho hrest⟩
      | entries =>
          intro dict
          cases hc : data[p]? with
          | none => exact ⟨_, settles_parseDictLoop_of_none hc dict⟩
          | some c =>
              by_cases hne : c = 'e'.toUInt8
              · rw [hne] at hc
                exact ⟨_, settles_parseDictLoop_of_end hc dict⟩
              · obtain ⟨o, ho⟩ := ih _ (.key hc hne)
                suffices h : ∃ o, Outcome.Settles (fun n =>
                    (parse data n p).bind (parseDictValue data n dict)) o by
                  obtain ⟨o, h⟩ := h
                  exact ⟨o, h.succ (parseDictLoop_succ_of_entry hc hne dict)⟩
                cases o with
                | running => exact absurd rfl ho.1
                | throws e => exact ⟨.throws e, ho.bind_throws⟩
                | returns r =>
                    obtain ⟨keyVal, q⟩ := r
                    suffices h : ∃ o, Outcome.Settles (fun n =>
                        parseDictValue data n dict (keyVal, q)) o by
                      obtain ⟨o, h⟩ := h
                      exact ⟨o, ho.bind (g := fun kv n => parseDictValue data n dict kv)
                        parse_monotone parseDictValue_monotone h⟩
                    cases keyVal with
                    | string key =>
                        obtain ⟨_, fuel, hkey⟩ := ho
                        have hkey := readsString_of_parse hkey
                        obtain ⟨o, hvalue⟩ := ih _ (.entryValue hc hne hkey)
                        cases o with
                        | running => exact absurd rfl hvalue.1
                        | throws e => exact ⟨.throws e, hvalue.bind_throws⟩
                        | returns r =>
                            obtain ⟨value, r⟩ := r
                            obtain ⟨_, fuel, hv⟩ := id hvalue
                            obtain ⟨o, hrest⟩ :=
                              ih _ (.nextEntry hc hne hkey (reads_of_parse hv))
                                (OrderedMap.assign key value dict)
                            simp only [parseDictValue]
                            exact ⟨o, hvalue.bind parse_monotone parseDictLoop_monotone hrest⟩
                    | integer n => exact ⟨_, Outcome.settles_of_succ (fun _ => rfl) nofun⟩
                    | list items => exact ⟨_, Outcome.settles_of_succ (fun _ => rfl) nofun⟩
                    | dict entries => exact ⟨_, Outcome.settles_of_succ (fun _ => rfl) nofun⟩

/-- A parse that has ended where the grammar reads has returned there. -/
theorem parse_eq_of_reads (h : Reads data .value p q) (final : parse data fuel p ≠ .running) :
    ∃ v, parse data fuel p = .returns (v, q) := by
  obtain ⟨v, hv⟩ := returnsAt_of_reads h
  exact ⟨v, hv.eq_of_ne_running parse_monotone final⟩

theorem parse_eq_of_readsString (h : ReadsString data p q)
    (final : parse data fuel p ≠ .running) :
    ∃ s, parse data fuel p = .returns (.string s, q) := by
  obtain ⟨s, hs⟩ := settles_parse_of_string h
  exact ⟨s, hs.eq_of_ne_running parse_monotone final⟩

/-- What is needed ends within less fuel. -/
theorem endsWithin_of_needs {s t : Site × Nat} (h : EndsWithin data fuel s)
    (needs : Needs data s t) : ∃ m, m < fuel ∧ EndsWithin data m t := by
  cases fuel with
  | zero =>
      obtain ⟨site, p⟩ := s
      cases site <;> simp [EndsWithin] at h
  | succ fuel =>
      cases needs with
      | list hc =>
          rw [EndsWithin, parse_succ_of_list hc] at h
          cases fuel with
          | zero => exact absurd parseList_zero h
          | succ fuel => exact ⟨fuel, by omega, [], by rwa [parseList] at h⟩
      | dict hc =>
          rw [EndsWithin, parse_succ_of_dict hc] at h
          cases fuel with
          | zero => exact absurd parseDict_zero h
          | succ fuel => exact ⟨fuel, by omega, [], by rwa [parseDict] at h⟩
      | item hc hne =>
          obtain ⟨list, h⟩ := h
          rw [parseListLoop_succ_of_item hc hne, Outcome.bind_ne_running_iff] at h
          exact ⟨fuel, by omega, h.1⟩
      | nextItem hc hne hreads =>
          obtain ⟨list, h⟩ := h
          rw [parseListLoop_succ_of_item hc hne, Outcome.bind_ne_running_iff] at h
          obtain ⟨item, hitem⟩ := parse_eq_of_reads hreads h.1
          exact ⟨fuel, by omega, list ++ [item], h.2 _ hitem⟩
      | key hc hne =>
          obtain ⟨dict, h⟩ := h
          rw [parseDictLoop_succ_of_entry hc hne, Outcome.bind_ne_running_iff] at h
          exact ⟨fuel, by omega, h.1⟩
      | entryValue hc hne hkey =>
          obtain ⟨dict, h⟩ := h
          rw [parseDictLoop_succ_of_entry hc hne, Outcome.bind_ne_running_iff] at h
          obtain ⟨key, hkey⟩ := parse_eq_of_readsString hkey h.1
          have hvalue := h.2 _ hkey
          rw [parseDictValue, Outcome.bind_ne_running_iff] at hvalue
          exact ⟨fuel, by omega, hvalue.1⟩
      | nextEntry hc hne hkey hreads =>
          obtain ⟨dict, h⟩ := h
          rw [parseDictLoop_succ_of_entry hc hne, Outcome.bind_ne_running_iff] at h
          obtain ⟨key, hkey⟩ := parse_eq_of_readsString hkey h.1
          have hvalue := h.2 _ hkey
          rw [parseDictValue, Outcome.bind_ne_running_iff] at hvalue
          obtain ⟨value, hv⟩ := parse_eq_of_reads hreads hvalue.1
          exact ⟨fuel, by omega, OrderedMap.assign key value dict, hvalue.2 _ hv⟩

theorem reads_le_length {site : Site} (h : Reads data site p q) : q ≤ data.length := by
  have next_le : ∀ {c : UInt8} {p : Nat}, data[p]? = some c → p + 1 ≤ data.length :=
    fun hc => (List.getElem?_eq_some_iff.mp hc).1
  induction h with
  | string h =>
      obtain ⟨_, _, _, _, _, _, _, _, hfits⟩ := h
      exact hfits
  | integer h =>
      obtain ⟨_, endPos, _, hend, _, rfl⟩ := h
      exact find_lt hend
  | list _ _ ih => exact ih
  | dict _ _ ih => exact ih
  | endItems hc => exact next_le hc
  | item _ _ _ _ _ ih => exact ih
  | endEntries hc => exact next_le hc
  | entry _ _ _ _ _ _ ih => exact ih

theorem needs_le_length {s t : Site × Nat} (h : Needs data s t) : t.2 ≤ data.length := by
  have lt_length : ∀ {c : UInt8} {p : Nat}, data[p]? = some c → p < data.length :=
    fun hc => (List.getElem?_eq_some_iff.mp hc).1
  cases h with
  | list hc => exact lt_length hc
  | dict hc => exact lt_length hc
  | item hc => exact (lt_length hc).le
  | nextItem _ _ hreads => exact reads_le_length hreads
  | key hc => exact (lt_length hc).le
  | entryValue _ _ hkey => exact reads_le_length (.string hkey)
  | nextEntry _ _ _ hvalue => exact reads_le_length hvalue

/-- The sites that decoding reaches. -/
def Visited (data : Bytes) (site : Site) (p : Nat) : Prop :=
  Demand.Reached (Needs data) (.value, 0) (site, p)

theorem visited_le_length {site : Site} (h : Visited data site p) : p ≤ data.length := by
  have hle : ∀ t, Demand.Reached (Needs data) (.value, 0) t → t.2 ≤ data.length := by
    intro t ht
    cases ht with
    | refl => exact Nat.zero_le _
    | tail _ hneeds => exact needs_le_length hneeds
  exact hle _ h

theorem finite_visited (data : Bytes) :
    {t | Demand.Reached (Needs data) (.value, 0) t}.Finite := by
  apply (Set.finite_univ.prod (Set.finite_Iic data.length)).subset
  rintro ⟨site, p⟩ ht
  exact ⟨trivial, visited_le_length ht⟩

/-- The parser comes to an end exactly when no site it reaches needs itself. -/
theorem parse_ends_iff_acyclic :
    (∃ fuel, parse data fuel 0 ≠ .running) ↔ Demand.Acyclic (Needs data) (.value, 0) := by
  constructor
  · rintro ⟨fuel, h⟩
    exact Demand.acyclic_of_ends (fun _ _ _ => endsWithin_of_needs) h
  · intro acyclic
    obtain ⟨o, final, fuel, ho⟩ :=
      settlesAt_of_acc (Demand.acc_of_acyclic (finite_visited data) acyclic)
    exact ⟨fuel, fun h => final (ho ▸ h)⟩

end SimIms.Rtp
