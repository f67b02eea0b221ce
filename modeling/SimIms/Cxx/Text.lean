import Mathlib.Data.List.Basic
import Mathlib.Data.List.TakeWhile
import Mathlib.Algebra.Order.Ring.Nat

/-!
# Byte strings and number parsing of the C++ standard library

A `std::string` is a list of bytes, and `size_t` is 64 bits wide: `sizeAdd` is its
wrapping addition. `stoul` and `stoll` follow the C functions they are built on: leading
blanks and one sign are skipped, the longest run of decimal digits is converted, and
whatever follows it is ignored. Only an empty run of digits and an out-of-range
magnitude are errors. A minus sign negates the unsigned result modulo `2 ^ 64`.

Character classification is that of the "C" locale.
-/

namespace Cxx

abbrev Bytes := List UInt8

/-- The bytes of an ASCII literal. -/
def bytes (s : String) : Bytes := s.toList.map Char.toUInt8

/-- Spelling a literal out saves the kernel the decoding of its UTF-8 bytes. -/
theorem bytes_ofList (cs : List Char) : bytes (String.ofList cs) = cs.map Char.toUInt8 := by
  rw [bytes, String.toList_ofList]

theorem bytes_append (s t : String) : bytes (s ++ t) = bytes s ++ bytes t := by
  rw [bytes, String.toList_append, List.map_append]
  rfl

/-- A `std::string`: its size is a `size_t`. -/
structure Str where
  data : Bytes
  size_lt : data.length < 2 ^ 64

/-- Addition of two `size_t` values. -/
def sizeAdd (a b : Nat) : Nat := (a + b) % 2 ^ 64

theorem sizeAdd_of_lt {a b : Nat} (h : a + b < 2 ^ 64) : sizeAdd a b = a + b :=
  Nat.mod_eq_of_lt h

/-- Past the last `size_t` the sum falls below either summand. -/
theorem sizeAdd_of_ge {a b : Nat} (ha : a < 2 ^ 64) (hb : b < 2 ^ 64) (h : 2 ^ 64 ≤ a + b) :
    sizeAdd a b = a + b - 2 ^ 64 := by
  unfold sizeAdd
  rw [Nat.mod_eq_sub_mod h, Nat.mod_eq_of_lt (by omega)]

/-- The exceptions that the modelled code can let escape. -/
inductive Exception where
  | runtimeError (what : Bytes)
  | invalidArgument
  | outOfRange
deriving DecidableEq, Repr

/-! ## Searching -/

/-- `s.find(c, pos)`: the first index from `pos` on that holds `c`. -/
def find (s : Bytes) (c : UInt8) (pos : Nat) : Option Nat :=
  ((s.drop pos).findIdx? (· == c)).map (pos + ·)

/-- `s.find(pattern)`: the first index at which `pattern` occurs. -/
def findSub (pattern : Bytes) : Bytes → Option Nat
  | [] => if pattern = [] then some 0 else none
  | c :: s => if pattern.isPrefixOf (c :: s) then some 0 else (findSub pattern s).map (· + 1)

/-- `s.substr(pos, count)` for a position inside the string; the count is clamped. -/
def substr (s : Bytes) (pos count : Nat) : Bytes := (s.drop pos).take count

theorem find_eq_some_iff {s : Bytes} {c : UInt8} {pos i : Nat} :
    find s c pos = some i ↔
      pos ≤ i ∧ s[i]? = some c ∧ ∀ j, pos ≤ j → j < i → s[j]? ≠ some c := by
  simp only [find, Option.map_eq_some_iff, List.findIdx?_eq_some_iff_getElem]
  constructor
  · rintro ⟨k, ⟨hk, hit, before⟩, rfl⟩
    rw [List.length_drop] at hk
    refine ⟨Nat.le_add_right .., ?_, ?_⟩
    · rw [List.getElem?_eq_getElem (by omega)]
      simpa using hit
    · intro j hle hlt heq
      have hmiss := before (j - pos) (by omega)
      obtain ⟨hj, heq⟩ := List.getElem?_eq_some_iff.mp heq
      simp [List.getElem_drop, Nat.add_sub_cancel' hle, heq] at hmiss
  · rintro ⟨hle, hit, before⟩
    obtain ⟨hi, hit⟩ := List.getElem?_eq_some_iff.mp hit
    refine ⟨i - pos, ⟨by rw [List.length_drop]; omega, ?_, ?_⟩, by omega⟩
    · simp [List.getElem_drop, Nat.add_sub_cancel' hle, hit]
    · intro j hj
      have hmiss := before (pos + j) (by omega) (by omega)
      rw [List.getElem?_eq_getElem (by omega)] at hmiss
      simpa [List.getElem_drop] using hmiss

theorem find_lt {s : Bytes} {c : UInt8} {pos i : Nat} (h : find s c pos = some i) :
    i < s.length :=
  (List.getElem?_eq_some_iff.mp (find_eq_some_iff.mp h).2.1).1

/-- The text `w` stands at position `pos` of the string. -/
def At (s : Bytes) (pos : Nat) (w : Bytes) : Prop :=
  ∃ before after, s = before ++ (w ++ after) ∧ before.length = pos

section At

variable {s u w : Bytes} {c : UInt8} {pos : Nat}

theorem at_zero (s : Bytes) : At s 0 s := ⟨[], [], by simp, rfl⟩

theorem At.left (h : At s pos (u ++ w)) : At s pos u := by
  obtain ⟨before, after, rfl, rfl⟩ := h
  exact ⟨before, w ++ after, by simp, rfl⟩

theorem At.right (h : At s pos (u ++ w)) : At s (pos + u.length) w := by
  obtain ⟨before, after, rfl, rfl⟩ := h
  exact ⟨before ++ u, after, by simp, by simp⟩

theorem At.head (h : At s pos (c :: w)) : s[pos]? = some c := by
  obtain ⟨before, after, rfl, rfl⟩ := h
  simp

theorem At.tail (h : At s pos (c :: w)) : At s (pos + 1) w :=
  At.right (u := [c]) h

theorem At.length_le (h : At s pos w) : pos + w.length ≤ s.length := by
  obtain ⟨before, after, rfl, rfl⟩ := h
  simp only [List.length_append]
  omega

theorem At.substr_eq (h : At s pos w) : substr s pos w.length = w := by
  obtain ⟨before, after, rfl, rfl⟩ := h
  simp [substr]

/-- The search skips a stretch without the character and stops at its first occurrence. -/
theorem At.find_eq (h : At s pos (u ++ c :: w)) (hu : c ∉ u) :
    find s c pos = some (pos + u.length) := by
  rw [find_eq_some_iff]
  refine ⟨Nat.le_add_right .., h.right.head, fun j hle hlt heq => ?_⟩
  obtain ⟨before, after, rfl, rfl⟩ := h
  apply hu
  rw [List.getElem?_append_right hle, List.append_assoc,
    List.getElem?_append_left (by omega)] at heq
  exact List.mem_of_getElem? heq

end At

/-- A found pattern lies inside the string. -/
theorem findSub_add_length_le {pattern s : Bytes} {i : Nat} (h : findSub pattern s = some i) :
    i + pattern.length ≤ s.length := by
  induction s generalizing i with
  | nil =>
      unfold findSub at h
      split at h
      · rename_i hempty
        cases h
        simp [hempty]
      · cases h
  | cons c s ih =>
      unfold findSub at h
      split at h
      · rename_i hprefix
        cases h
        simpa using (List.isPrefixOf_iff_prefix.mp hprefix).length_le
      · obtain ⟨k, hk, rfl⟩ := Option.map_eq_some_iff.mp h
        have := ih hk
        simp only [List.length_cons]
        omega

/-- Appending to a string does not change where the first occurrence is. -/
theorem findSub_append {pattern s : Bytes} {i : Nat} (h : findSub pattern s = some i)
    (more : Bytes) : findSub pattern (s ++ more) = some i := by
  induction s generalizing i with
  | nil =>
      unfold findSub at h
      split at h
      · rename_i hempty
        cases h
        cases more with
        | nil => rw [List.append_nil, findSub, if_pos hempty]
        | cons c more => rw [List.nil_append, findSub, hempty]; rfl
      · cases h
  | cons c s ih =>
      unfold findSub at h
      rw [List.cons_append, findSub]
      split at h
      · rename_i hprefix
        cases h
        rw [if_pos]
        rw [List.isPrefixOf_iff_prefix] at hprefix ⊢
        exact hprefix.trans ⟨more, rfl⟩
      · rename_i hnot
        obtain ⟨k, hk, rfl⟩ := Option.map_eq_some_iff.mp h
        have hle := findSub_add_length_le hk
        rw [if_neg, ih hk, Option.map_some]
        intro hprefix
        rw [List.isPrefixOf_iff_prefix] at hprefix hnot
        apply hnot
        apply List.prefix_of_prefix_length_le hprefix ⟨more, rfl⟩
        rw [List.length_cons]
        omega

/-- Characters with which no occurrence begins are passed over. -/
theorem findSub_append_of_not_mem {c : UInt8} {pattern w : Bytes} (hw : c ∉ w) (s : Bytes) :
    findSub (c :: pattern) (w ++ s) = (findSub (c :: pattern) s).map (w.length + ·) := by
  induction w with
  | nil => simp
  | cons d w ih =>
      rw [List.mem_cons, not_or] at hw
      have hfirst : (c :: pattern).isPrefixOf (d :: w ++ s) = false := by
        rw [List.cons_append, List.isPrefixOf_cons_cons, beq_eq_false_iff_ne.mpr hw.1,
          Bool.false_and]
      rw [List.cons_append, findSub, ← List.cons_append, hfirst, ih hw.2, Option.map_map]
      refine congrArg (fun f => Option.map f _) (funext fun i => ?_)
      simp only [Function.comp, List.length_cons]
      omega

/-! ## Characters -/

def isSpace (c : UInt8) : Bool := c == ' '.toUInt8 || (9 ≤ c && c ≤ 13)

def isDigit (c : UInt8) : Bool := '0'.toUInt8 ≤ c && c ≤ '9'.toUInt8

theorem isDigit_iff {c : UInt8} : isDigit c = true ↔ 48 ≤ c.toNat ∧ c.toNat ≤ 57 := by
  have h0 : '0'.toUInt8.toNat = 48 := by decide
  have h9 : '9'.toUInt8.toNat = 57 := by decide
  simp [isDigit, UInt8.le_iff_toNat_le, h0, h9]

def toLower (c : UInt8) : UInt8 :=
  if 'A'.toUInt8 ≤ c && c ≤ 'Z'.toUInt8 then c + 32 else c

def lowercase (s : Bytes) : Bytes := s.map toLower

def toUpper (c : UInt8) : UInt8 :=
  if 'a'.toUInt8 ≤ c ∧ c ≤ 'z'.toUInt8 then c - 32 else c

/-- Remove blanks at both ends. -/
def trim (s : Bytes) : Bytes :=
  ((s.dropWhile isSpace).reverse.dropWhile isSpace).reverse

theorem dropWhile_append_cons {α : Type} {p : α → Bool} {c : α} (hc : p c = false) (s t : List α) :
    (s ++ c :: t).dropWhile p = s.dropWhile p ++ c :: t := by
  induction s with
  | nil => exact List.dropWhile_cons_of_neg (by rw [hc]; decide)
  | cons d s ih =>
      rw [List.cons_append, List.dropWhile_cons, List.dropWhile_cons]
      split
      · exact ih
      · rfl

/-- What repeated `std::getline` calls with this delimiter read: a final delimiter ends the
last line and does not start another. -/
def getlines (delimiter : UInt8) : Bytes → List Bytes
  | [] => []
  | c :: s =>
      if c = delimiter then [] :: getlines delimiter s
      else
        match getlines delimiter s with
        | [] => [[c]]
        | line :: lines => (c :: line) :: lines

/-- A line is what comes before its delimiter. -/
theorem getlines_append {delimiter : UInt8} {line : Bytes} (hline : delimiter ∉ line)
    (s : Bytes) : getlines delimiter (line ++ delimiter :: s) = line :: getlines delimiter s := by
  induction line with
  | nil => rw [List.nil_append, getlines, if_pos rfl]
  | cons c line ih =>
      rw [List.mem_cons, not_or] at hline
      rw [List.cons_append, getlines, if_neg (Ne.symm hline.1), ih hline.2]

/-! ## Number parsing -/

/-- The number that a run of decimal digits denotes. -/
def digitsValue (ds : Bytes) : Nat :=
  ds.foldl (fun n d => 10 * n + (d.toNat - 48)) 0

/-- What `strtol` and its relatives recognise at the start of a text. -/
structure Numeral where
  negative : Bool
  digits : Bytes
deriving DecidableEq, Repr

/-- One optional sign. -/
def scanSign : Bytes → Bool × Bytes
  | [] => (false, [])
  | c :: s =>
      if c = '-'.toUInt8 then (true, s)
      else if c = '+'.toUInt8 then (false, s)
      else (false, c :: s)

/-- Blanks, a sign, and the longest run of digits; `none` when there is no digit. -/
def scanNumeral (s : Bytes) : Option Numeral :=
  let (negative, rest) := scanSign (s.dropWhile isSpace)
  match rest.takeWhile isDigit with
  | [] => none
  | d :: ds => some ⟨negative, d :: ds⟩

/-- `std::stoul(s)`. -/
def stoul (s : Bytes) : Except Exception Nat :=
  match scanNumeral s with
  | none => .error .invalidArgument
  | some ⟨negative, ds⟩ =>
      let magnitude := digitsValue ds
      if 2 ^ 64 ≤ magnitude then .error .outOfRange
      else .ok (if negative then (2 ^ 64 - magnitude) % 2 ^ 64 else magnitude)

/-- `std::stoi(s)`. -/
def stoi (s : Bytes) : Except Exception Int :=
  match scanNumeral s with
  | none => .error .invalidArgument
  | some ⟨negative, ds⟩ =>
      let value : Int := if negative then -(digitsValue ds : Int) else digitsValue ds
      if value < -2 ^ 31 ∨ 2 ^ 31 ≤ value then .error .outOfRange else .ok value

/-- `std::atoi(s)` as the C library of GNU has it: `strtol`, which stops at the limits of a `long`,
narrowed to an `int`. -/
def atoi (s : Bytes) : Int :=
  match scanNumeral s with
  | none => 0
  | some ⟨negative, ds⟩ =>
      let value : Int := if negative then -(digitsValue ds : Int) else digitsValue ds
      (max (-2 ^ 63) (min value (2 ^ 63 - 1))).bmod (2 ^ 32)

/-- `std::stoll(s)`. -/
def stoll (s : Bytes) : Except Exception Int64 :=
  match scanNumeral s with
  | none => .error .invalidArgument
  | some ⟨negative, ds⟩ =>
      let value : Int := if negative then -(digitsValue ds : Int) else digitsValue ds
      if value < -2 ^ 63 ∨ 2 ^ 63 ≤ value then .error .outOfRange
      else .ok (Int64.ofInt value)

theorem stoul_lt {s : Bytes} {n : Nat} (h : stoul s = .ok n) : n < 2 ^ 64 := by
  unfold stoul at h
  split at h
  · cases h
  · simp only at h
    split at h
    · cases h
    · cases h
      split
      · exact Nat.mod_lt _ (by decide)
      · omega

/-- A text that starts with a digit has neither blanks nor a sign to skip. -/
theorem scanNumeral_of_digit {c : UInt8} {s : Bytes} (hc : isDigit c = true) :
    scanNumeral (c :: s) = some ⟨false, c :: s.takeWhile isDigit⟩ := by
  have hrange := isDigit_iff.mp hc
  have hspace : isSpace c = false := by
    simp only [isSpace, Bool.or_eq_false_iff, beq_eq_false_iff_ne, ne_eq, Bool.and_eq_false_iff,
      decide_eq_false_iff_not, UInt8.le_iff_toNat_le]
    refine ⟨?_, .inr ?_⟩
    · rintro rfl
      exact absurd hrange.1 (by decide)
    · change ¬ c.toNat ≤ 13
      omega
  have hminus : c ≠ '-'.toUInt8 := by
    rintro rfl
    exact absurd hrange.1 (by decide)
  have hplus : c ≠ '+'.toUInt8 := by
    rintro rfl
    exact absurd hrange.1 (by decide)
  simp [scanNumeral, scanSign, hspace, hminus, hplus, hc]

/-! ## Decimal printing -/

/-- The decimal digits that `operator<<` prints for an unsigned number. -/
def decimal (n : Nat) : Bytes := (Nat.toDigits 10 n).map Char.toUInt8

/-- The text that `operator<<` prints for an `int64_t`. -/
def decimalInt (i : Int) : Bytes :=
  if i < 0 then '-'.toUInt8 :: decimal i.natAbs else decimal i.natAbs

private theorem toNat_toUInt8 {c : Char} (hc : c.isDigit = true) :
    c.toUInt8.toNat = c.toNat := by
  have hrange := Char.isDigit_iff_toNat.mp hc
  have h9 : '9'.toNat = 57 := rfl
  change c.val.toUInt8.toNat = c.val.toNat
  rw [UInt32.toNat_toUInt8]
  change c.toNat % 2 ^ 8 = c.toNat
  omega

theorem isDigit_of_mem_decimal {n : Nat} {d : UInt8} (hd : d ∈ decimal n) :
    isDigit d = true := by
  obtain ⟨c, hc, rfl⟩ := List.mem_map.mp hd
  have hdigit := Nat.isDigit_of_mem_toDigits (by decide) (by decide) hc
  have hrange := Char.isDigit_iff_toNat.mp hdigit
  have hnat := toNat_toUInt8 hdigit
  have h0 : '0'.toNat = 48 := rfl
  have h9 : '9'.toNat = 57 := rfl
  rw [isDigit_iff]
  omega

theorem decimal_ne_nil (n : Nat) : decimal n ≠ [] := by
  simp [decimal, Nat.toDigits_ne_nil]

theorem digitsValue_decimal (n : Nat) : digitsValue (decimal n) = n := by
  have fold : ∀ (cs : List Char) (init : Nat), (∀ c ∈ cs, c.isDigit = true) →
      (cs.map Char.toUInt8).foldl (fun n d => 10 * n + (d.toNat - 48)) init =
        Nat.ofDigitChars 10 cs init := by
    intro cs
    induction cs with
    | nil => intros; rfl
    | cons c cs ih =>
        intro init hcs
        rw [List.map_cons, List.foldl_cons, Nat.ofDigitChars_cons,
          toNat_toUInt8 (hcs c (by simp)), ih _ (fun d hd => hcs d (by simp [hd]))]
        rfl
  rw [digitsValue, decimal, fold _ _ (fun c hc =>
    Nat.isDigit_of_mem_toDigits (by decide) (by decide) hc)]
  exact Nat.ofDigitChars_ten_toDigits

theorem scanNumeral_digits {ds : Bytes} (hne : ds ≠ []) (hall : ∀ d ∈ ds, isDigit d = true) :
    scanNumeral ds = some ⟨false, ds⟩ := by
  obtain ⟨d, ds, rfl⟩ := List.exists_cons_of_ne_nil hne
  rw [scanNumeral_of_digit (hall d (by simp)),
    List.takeWhile_eq_self_iff.mpr (fun c hc => hall c (by simp [hc]))]

/-- A text of digits in range is parsed to the number it denotes. -/
theorem stoul_digits {ds : Bytes} (hne : ds ≠ []) (hall : ∀ d ∈ ds, isDigit d = true)
    (hrange : digitsValue ds < 2 ^ 64) : stoul ds = .ok (digitsValue ds) := by
  simp only [stoul, scanNumeral_digits hne hall, if_neg (Nat.not_le.mpr hrange),
    Bool.false_eq_true, if_false]

theorem stoi_digits {ds : Bytes} (hne : ds ≠ []) (hall : ∀ d ∈ ds, isDigit d = true)
    (hrange : digitsValue ds < 2 ^ 31) : stoi ds = .ok (digitsValue ds) := by
  simp only [stoi, scanNumeral_digits hne hall, Bool.false_eq_true, if_false]
  rw [if_neg (by omega)]

theorem atoi_digits {ds : Bytes} (hne : ds ≠ []) (hall : ∀ d ∈ ds, isDigit d = true)
    (hrange : digitsValue ds < 2 ^ 31) : atoi ds = digitsValue ds := by
  simp only [atoi, scanNumeral_digits hne hall, Bool.false_eq_true, if_false]
  rw [min_eq_left (by omega), max_eq_right (by omega)]
  exact Int.bmod_eq_of_le (by omega) (by omega)

theorem scanNumeral_decimalInt (i : Int) :
    scanNumeral (decimalInt i) = some ⟨decide (i < 0), decimal i.natAbs⟩ := by
  unfold decimalInt
  split
  · rename_i hneg
    obtain ⟨d, ds, hds⟩ := List.exists_cons_of_ne_nil (decimal_ne_nil i.natAbs)
    have hall : (decimal i.natAbs).takeWhile isDigit = decimal i.natAbs :=
      List.takeWhile_eq_self_iff.mpr (fun c hc => isDigit_of_mem_decimal hc)
    have hspace : isSpace '-'.toUInt8 = false := by decide
    simp only [scanNumeral, List.dropWhile_cons, hspace, Bool.false_eq_true, if_false, scanSign,
      if_true, hall]
    simp [hds, hneg]
  · rename_i hnonneg
    rw [scanNumeral_digits (decimal_ne_nil _) (fun d hd => isDigit_of_mem_decimal hd)]
    simp [hnonneg]

theorem value_decimalInt (i : Int) :
    (if decide (i < 0) = true then -(digitsValue (decimal i.natAbs) : Int)
      else digitsValue (decimal i.natAbs)) = i := by
  rw [digitsValue_decimal]
  split
  · rename_i h
    have := of_decide_eq_true h
    omega
  · rename_i h
    have : ¬ i < 0 := by simpa using h
    omega

/-- Parsing a printed `int` returns it. -/
theorem stoi_decimalInt {i : Int} (hlow : -2 ^ 31 ≤ i) (hhigh : i < 2 ^ 31) :
    stoi (decimalInt i) = .ok i := by
  simp only [stoi, scanNumeral_decimalInt, value_decimalInt]
  rw [if_neg (by omega)]

theorem stoi_lt {s : Bytes} {i : Int} (h : stoi s = .ok i) : i < 2 ^ 31 := by
  rw [stoi] at h
  split at h
  · cases h
  · rename_i negative ds _
    dsimp only at h
    generalize (if negative = true then -(digitsValue ds : Int) else digitsValue ds) = value at h
    split at h
    · cases h
    · rename_i hrange
      cases h
      omega

/-- Parsing a printed `int64_t` returns it, the minimum included. -/
theorem stoll_decimalInt (i : Int64) : stoll (decimalInt i.toInt) = .ok i := by
  have hlow := i.le_toInt
  have hhigh := i.toInt_lt
  simp only [stoll, scanNumeral_decimalInt, value_decimalInt]
  rw [if_neg (by omega), Int64.ofInt_toInt]

/-! ## Hexadecimal digits -/

def hexDigit (digit : Nat) : UInt8 :=
  if digit < 10 then '0'.toUInt8 + digit.toUInt8 else 'a'.toUInt8 + (digit - 10).toUInt8

/-- The last digits of a number, with leading zeros. -/
def hexDigits (width n : Nat) : Bytes :=
  (List.range width).reverse.map fun i => hexDigit (n / 16 ^ i % 16)

end Cxx
