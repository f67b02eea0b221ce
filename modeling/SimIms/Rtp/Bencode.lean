import SimIms.Lib.Outcome
import SimIms.Lib.OrderedMap
import SimIms.Cxx.Text

/-!
# The bencode codec of the rtpengine control protocol

A value is a tree whose dictionaries are `std::map`s, so their keys are strictly
ascending. The parser works on one string and a position `pos_` that is a `size_t`. Its
functions call each other, and nothing but the position bounds the recursion, so each
takes fuel that counts nested calls and loop iterations. The depth of the call stack is
not limited.
-/

namespace SimIms.Rtp

open Cxx Lib

/-- A value with the entries of a dictionary in the order of iteration. -/
inductive Tree where
  | string (s : Bytes)
  | integer (n : Int64)
  | list (items : List Tree)
  | dict (entries : List (Bytes × Tree))

/-- Every dictionary of the tree is a map. -/
inductive Tree.Ordered : Tree → Prop where
  | string (s : Bytes) : Ordered (.string s)
  | integer (n : Int64) : Ordered (.integer n)
  | list {items : List Tree} : (∀ item ∈ items, Ordered item) → Ordered (.list items)
  | dict {entries : List (Bytes × Tree)} : OrderedMap.Ascending entries →
      (∀ entry ∈ entries, Ordered entry.2) → Ordered (.dict entries)

structure BencodeValue where
  tree : Tree
  ordered : tree.Ordered

theorem BencodeValue.ext {v w : BencodeValue} (h : v.tree = w.tree) : v = w := by
  cases v
  cases w
  cases h
  rfl

/-! ## Encoding -/

/-- A byte string behind its length. -/
def encodeString (s : Bytes) : Bytes := decimal s.length ++ ':'.toUInt8 :: s

mutual
def encodeImpl : Tree → Bytes
  | .string s => encodeString s
  | .integer n => 'i'.toUInt8 :: (decimalInt n.toInt ++ ['e'.toUInt8])
  | .list items => 'l'.toUInt8 :: (encodeItems items ++ ['e'.toUInt8])
  | .dict entries => 'd'.toUInt8 :: (encodeEntries entries ++ ['e'.toUInt8])

def encodeItems : List Tree → Bytes
  | [] => []
  | item :: items => encodeImpl item ++ encodeItems items

def encodeEntries : List (Bytes × Tree) → Bytes
  | [] => []
  | (key, val) :: entries => encodeString key ++ (encodeImpl val ++ encodeEntries entries)
end

def bencodeEncode (value : BencodeValue) : Bytes := encodeImpl value.tree

/-! ## Decoding -/

/-- The value read and the position after it. -/
abbrev Parsed := Outcome Exception (Tree × Nat)

/-- A string: its length in decimal, a colon, and that many bytes. -/
def parseString (data : Bytes) (pos : Nat) : Except Exception (Tree × Nat) :=
  match find data ':'.toUInt8 pos with
  | none => .error (.runtimeError (bytes "Missing colon in bencode string"))
  | some colonPos =>
      match stoul (substr data pos (colonPos - pos)) with
      | .error e => .error e
      | .ok len =>
          let pos := colonPos + 1
          if data.length < sizeAdd pos len then
            .error (.runtimeError (bytes "String length exceeds data"))
          else .ok (.string (substr data pos len), sizeAdd pos len)

/-- An integer between `i` and the next `e`. -/
def parseInteger (data : Bytes) (pos : Nat) : Except Exception (Tree × Nat) :=
  let pos := pos + 1
  match find data 'e'.toUInt8 pos with
  | none => .error (.runtimeError (bytes "Missing 'e' in bencode integer"))
  | some endPos =>
      match stoll (substr data pos (endPos - pos)) with
      | .error e => .error e
      | .ok num => .ok (.integer num, endPos + 1)

mutual
def parse (data : Bytes) : Nat → Nat → Parsed
  | 0, _ => .running
  | fuel + 1, pos =>
      match data[pos]? with
      | none => .throws (.runtimeError (bytes "Unexpected end of bencode data"))
      | some c =>
          if c = 'i'.toUInt8 then .ofExcept (parseInteger data pos)
          else if c = 'l'.toUInt8 then parseList data fuel pos
          else if c = 'd'.toUInt8 then parseDict data fuel pos
          else if isDigit c then .ofExcept (parseString data pos)
          else .throws (.runtimeError
            (bytes "Unexpected character in bencode: '" ++ [c] ++ bytes "'"))

def parseList (data : Bytes) : Nat → Nat → Parsed
  | 0, _ => .running
  | fuel + 1, pos => parseListLoop data fuel (pos + 1) []

/-- The loop of `parseList` with the items read so far. -/
def parseListLoop (data : Bytes) : Nat → Nat → List Tree → Parsed
  | 0, _, _ => .running
  | fuel + 1, pos, list =>
      match data[pos]? with
      | none => .throws (.runtimeError (bytes "Missing 'e' in bencode list"))
      | some c =>
          if c = 'e'.toUInt8 then .returns (.list list, pos + 1)
          else (parse data fuel pos).bind fun (item, pos) =>
            parseListLoop data fuel pos (list ++ [item])

def parseDict (data : Bytes) : Nat → Nat → Parsed
  | 0, _ => .running
  | fuel + 1, pos => parseDictLoop data fuel (pos + 1) []

/-- The loop of `parseDict` with the map built so far. -/
def parseDictLoop (data : Bytes) : Nat → Nat → List (Bytes × Tree) → Parsed
  | 0, _, _ => .running
  | fuel + 1, pos, dict =>
      match data[pos]? with
      | none => .throws (.runtimeError (bytes "Missing 'e' in bencode dict"))
      | some c =>
          if c = 'e'.toUInt8 then .returns (.dict dict, pos + 1)
          else (parse data fuel pos).bind fun (keyVal, pos) =>
            match keyVal with
            | .string key => (parse data fuel pos).bind fun (value, pos) =>
                parseDictLoop data fuel pos (OrderedMap.assign key value dict)
            | _ => .throws (.runtimeError (bytes "Dict key must be a string"))
end

variable {data : Bytes} {fuel pos q : Nat} {v : Tree}

@[simp] theorem parse_zero : parse data 0 pos = .running := by rw [parse]

@[simp] theorem parseList_zero : parseList data 0 pos = .running := by rw [parseList]

@[simp] theorem parseListLoop_zero {list : List Tree} :
    parseListLoop data 0 pos list = .running := by rw [parseListLoop]

@[simp] theorem parseDict_zero : parseDict data 0 pos = .running := by rw [parseDict]

@[simp] theorem parseDictLoop_zero {dict : List (Bytes × Tree)} :
    parseDictLoop data 0 pos dict = .running := by rw [parseDictLoop]

/-! ## The parser builds ordered maps -/

theorem parseString_eq_ok {r : Tree × Nat} (h : parseString data pos = .ok r) :
    ∃ s, r.1 = .string s := by
  unfold parseString at h
  split at h
  · cases h
  · split at h
    · cases h
    · simp only at h
      split at h
      · cases h
      · cases h
        exact ⟨_, rfl⟩

theorem parseInteger_eq_ok {r : Tree × Nat} (h : parseInteger data pos = .ok r) :
    ∃ n, r.1 = .integer n := by
  unfold parseInteger at h
  simp only at h
  split at h
  · cases h
  · split at h
    · cases h
    · cases h
      exact ⟨_, rfl⟩

/-- What the parser returns is ordered, given that the containers being filled are. -/
theorem parse_ordered_aux (fuel : Nat) :
    (∀ pos v q, parse data fuel pos = .returns (v, q) → v.Ordered) ∧
    (∀ pos v q, parseList data fuel pos = .returns (v, q) → v.Ordered) ∧
    (∀ pos list v q, (∀ item ∈ list, Tree.Ordered item) →
      parseListLoop data fuel pos list = .returns (v, q) → v.Ordered) ∧
    (∀ pos v q, parseDict data fuel pos = .returns (v, q) → v.Ordered) ∧
    (∀ pos dict v q, OrderedMap.Ascending dict → (∀ entry ∈ dict, Tree.Ordered entry.2) →
      parseDictLoop data fuel pos dict = .returns (v, q) → v.Ordered) := by
  induction fuel with
  | zero => simp
  | succ fuel ih =>
      obtain ⟨ihParse, ihList, ihListLoop, ihDict, ihDictLoop⟩ := ih
      refine ⟨?_, ?_, ?_, ?_, ?_⟩
      · intro pos v q h
        unfold parse at h
        split at h
        · cases h
        · split at h
          · obtain ⟨n, rfl⟩ := parseInteger_eq_ok (Outcome.ofExcept_eq_returns_iff.mp h)
            exact .integer n
          · split at h
            · exact ihList _ _ _ h
            · split at h
              · exact ihDict _ _ _ h
              · split at h
                · obtain ⟨s, rfl⟩ := parseString_eq_ok (Outcome.ofExcept_eq_returns_iff.mp h)
                  exact .string s
                · cases h
      · intro pos v q h
        rw [parseList] at h
        exact ihListLoop _ _ _ _ (by simp) h
      · intro pos list v q hlist h
        rw [parseListLoop] at h
        split at h
        · cases h
        · split at h
          · cases h
            exact .list hlist
          · obtain ⟨⟨item, r⟩, hitem, hrest⟩ := Outcome.bind_eq_returns_iff.mp h
            refine ihListLoop _ _ _ _ (fun t ht => ?_) hrest
            rcases List.mem_append.mp ht with ht | ht
            · exact hlist t ht
            · rw [List.mem_singleton.mp ht]
              exact ihParse _ _ _ hitem
      · intro pos v q h
        rw [parseDict] at h
        exact ihDictLoop _ _ _ _ .nil (by simp) h
      · intro pos dict v q hasc hdict h
        rw [parseDictLoop] at h
        split at h
        · cases h
        · split at h
          · cases h
            exact .dict hasc hdict
          · obtain ⟨⟨keyVal, r⟩, _, hrest⟩ := Outcome.bind_eq_returns_iff.mp h
            cases keyVal with
            | string key =>
                obtain ⟨⟨value, r'⟩, hvalue, hrest⟩ := Outcome.bind_eq_returns_iff.mp hrest
                refine ihDictLoop _ _ _ _ (OrderedMap.ascending_assign hasc)
                  (fun entry hentry => ?_) hrest
                rcases OrderedMap.mem_assign hentry with rfl | hentry
                · exact ihParse _ _ _ hvalue
                · exact hdict entry hentry
            | integer n => cases hrest
            | list items => cases hrest
            | dict entries => cases hrest

theorem parse_ordered (h : parse data fuel pos = .returns (v, q)) : v.Ordered :=
  (parse_ordered_aux fuel).1 pos v q h

def bencodeDecode (data : Bytes) (fuel : Nat) : Outcome Exception BencodeValue :=
  match h : parse data fuel 0 with
  | .running => .running
  | .throws e => .throws e
  | .returns (v, _) => .returns ⟨v, parse_ordered h⟩

theorem bencodeDecode_eq_returns_iff {v : BencodeValue} :
    bencodeDecode data fuel = .returns v ↔ ∃ q, parse data fuel 0 = .returns (v.tree, q) := by
  rw [bencodeDecode]
  split
  · simp_all
  · simp_all
  · rename_i t q h
    constructor
    · intro heq
      cases heq
      exact ⟨q, h⟩
    · rintro ⟨q', h'⟩
      cases h.symm.trans h'
      rfl

theorem bencodeDecode_eq_throws_iff {e : Exception} :
    bencodeDecode data fuel = .throws e ↔ parse data fuel 0 = .throws e := by
  rw [bencodeDecode]
  split <;> simp_all

theorem bencodeDecode_eq_running_iff :
    bencodeDecode data fuel = .running ↔ parse data fuel 0 = .running := by
  rw [bencodeDecode]
  split <;> simp_all

/-! ## Fuel -/

theorem parse_le_succ (fuel : Nat) :
    (∀ pos, parse data fuel pos ≤ parse data (fuel + 1) pos) ∧
    (∀ pos, parseList data fuel pos ≤ parseList data (fuel + 1) pos) ∧
    (∀ pos list, parseListLoop data fuel pos list ≤ parseListLoop data (fuel + 1) pos list) ∧
    (∀ pos, parseDict data fuel pos ≤ parseDict data (fuel + 1) pos) ∧
    (∀ pos dict, parseDictLoop data fuel pos dict ≤ parseDictLoop data (fuel + 1) pos dict) := by
  induction fuel with
  | zero =>
      simp only [parse_zero, parseList_zero, parseListLoop_zero, parseDict_zero,
        parseDictLoop_zero]
      exact ⟨fun _ => Outcome.running_le _, fun _ => Outcome.running_le _,
        fun _ _ => Outcome.running_le _, fun _ => Outcome.running_le _,
        fun _ _ => Outcome.running_le _⟩
  | succ fuel ih =>
      obtain ⟨ihParse, ihList, ihListLoop, ihDict, ihDictLoop⟩ := ih
      refine ⟨?_, ?_, ?_, ?_, ?_⟩
      · intro pos
        rw [parse, parse]
        split
        · exact le_refl _
        · split
          · exact le_refl _
          · split
            · exact ihList pos
            · split
              · exact ihDict pos
              · exact le_refl _
      · intro pos
        rw [parseList, parseList]
        exact ihListLoop _ _
      · intro pos list
        rw [parseListLoop, parseListLoop]
        split
        · exact le_refl _
        · split
          · exact le_refl _
          · exact Outcome.bind_le_bind (ihParse pos) fun _ => ihListLoop _ _
      · intro pos
        rw [parseDict, parseDict]
        exact ihDictLoop _ _
      · intro pos dict
        rw [parseDictLoop, parseDictLoop]
        split
        · exact le_refl _
        · split
          · exact le_refl _
          · refine Outcome.bind_le_bind (ihParse pos) fun ⟨keyVal, r⟩ => ?_
            cases keyVal with
            | string key => exact Outcome.bind_le_bind (ihParse r) fun _ => ihDictLoop _ _
            | integer n => exact le_refl _
            | list items => exact le_refl _
            | dict entries => exact le_refl _

theorem parse_monotone : Monotone fun fuel => parse data fuel pos :=
  monotone_nat_of_le_succ fun fuel => (parse_le_succ fuel).1 pos

theorem parseListLoop_monotone {list : List Tree} :
    Monotone fun fuel => parseListLoop data fuel pos list :=
  monotone_nat_of_le_succ fun fuel => (parse_le_succ fuel).2.2.1 pos list

theorem parseDictLoop_monotone {dict : List (Bytes × Tree)} :
    Monotone fun fuel => parseDictLoop data fuel pos dict :=
  monotone_nat_of_le_succ fun fuel => (parse_le_succ fuel).2.2.2.2 pos dict

end SimIms.Rtp
