import Mathlib.Algebra.Order.Ring.Nat
import Mathlib.Data.List.Basic
import Mathlib.Data.Nat.ModEq
import Mathlib.Tactic.Ring

/-!
# Numerals of a fixed width

A numeral is a list of digits, the most significant one first. Numerals of one width are apart
exactly if their values are, and their last digits exactly if the remainders are: of consecutive
numbers no more than the modulus can be told apart by them.
-/

namespace Lib

def numeral (base : Nat) (digits : List Nat) : Nat :=
  digits.foldl (fun n digit => base * n + digit) 0

/-- The last `count` elements, or all of them. -/
def lastOf {α : Type} (count : Nat) (items : List α) : List α := items.drop (items.length - count)

theorem lastOf_map {α β : Type} (f : α → β) (count : Nat) (items : List α) :
    lastOf count (items.map f) = (lastOf count items).map f := by
  rw [lastOf, lastOf, List.length_map, List.map_drop]

theorem length_lastOf {α : Type} (count : Nat) (items : List α) :
    (lastOf count items).length = min count items.length := by
  rw [lastOf, List.length_drop]
  omega

section

variable {base : Nat} {digits other : List Nat}

theorem foldl_numeral (n : Nat) (digits : List Nat) :
    digits.foldl (fun n digit => base * n + digit) n =
      n * base ^ digits.length + numeral base digits := by
  induction digits generalizing n with
  | nil => simp [numeral]
  | cons digit digits ih =>
      rw [numeral, List.foldl_cons, List.foldl_cons, ih, ih (base * 0 + digit), List.length_cons]
      ring

theorem numeral_cons (digit : Nat) (digits : List Nat) :
    numeral base (digit :: digits) = digit * base ^ digits.length + numeral base digits := by
  rw [numeral, List.foldl_cons, foldl_numeral, Nat.mul_zero, Nat.zero_add]

theorem numeral_append (front back : List Nat) :
    numeral base (front ++ back) = numeral base front * base ^ back.length + numeral base back := by
  rw [numeral, List.foldl_append, foldl_numeral, ← numeral]

theorem numeral_replicate_zero_append (count : Nat) (digits : List Nat) :
    numeral base (List.replicate count 0 ++ digits) = numeral base digits := by
  have hzero : numeral base (List.replicate count 0) = 0 := by
    induction count with
    | zero => rfl
    | succ count ih => rw [List.replicate_succ, numeral_cons, ih, Nat.zero_mul]
  rw [numeral_append, hzero, Nat.zero_mul, Nat.zero_add]

theorem numeral_lt (h : ∀ digit ∈ digits, digit < base) :
    numeral base digits < base ^ digits.length := by
  induction digits with
  | nil => exact Nat.one_pos
  | cons digit digits ih =>
      rw [List.forall_mem_cons] at h
      have hrest := ih h.2
      have hfirst : (digit + 1) * base ^ digits.length ≤ base * base ^ digits.length :=
        Nat.mul_le_mul_right _ h.1
      rw [numeral_cons, List.length_cons, Nat.pow_succ']
      calc digit * base ^ digits.length + numeral base digits
          < digit * base ^ digits.length + base ^ digits.length := Nat.add_lt_add_left hrest _
        _ = (digit + 1) * base ^ digits.length := (Nat.succ_mul _ _).symm
        _ ≤ base * base ^ digits.length := hfirst

/-- The last digits have the remainder as their value. -/
theorem numeral_lastOf (hbase : 0 < base) (h : ∀ digit ∈ digits, digit < base) (count : Nat) :
    numeral base (lastOf count digits) = numeral base digits % base ^ count := by
  by_cases hcount : count ≤ digits.length
  · have hlength : (lastOf count digits).length = count := by
      rw [length_lastOf, Nat.min_eq_left hcount]
    have hsplit := @numeral_append base (digits.take (digits.length - count)) (lastOf count digits)
    have hlt : numeral base (lastOf count digits) < base ^ (lastOf count digits).length :=
      numeral_lt fun digit hmem => h digit (List.mem_of_mem_drop hmem)
    rw [lastOf, List.take_append_drop, ← lastOf] at hsplit
    rw [hlength] at hsplit hlt
    rw [hsplit, Nat.mul_add_mod_of_lt hlt]
  · have hall : lastOf count digits = digits := by
      rw [lastOf, Nat.sub_eq_zero_of_le (by omega), List.drop_zero]
    have hle : base ^ digits.length ≤ base ^ count := Nat.pow_le_pow_right hbase (by omega)
    have hlt := Nat.lt_of_lt_of_le (numeral_lt h) hle
    rw [hall, Nat.mod_eq_of_lt hlt]

/-- Numerals of one width are the same where their values are. -/
theorem eq_of_numeral_eq (h : ∀ digit ∈ digits, digit < base)
    (hother : ∀ digit ∈ other, digit < base)
    (hlength : digits.length = other.length) (hvalue : numeral base digits = numeral base other) :
    digits = other := by
  induction digits generalizing other with
  | nil => exact (List.length_eq_zero_iff.mp hlength.symm).symm
  | cons digit digits ih =>
      cases other with
      | nil => cases hlength
      | cons digit' other =>
          rw [List.forall_mem_cons] at h hother
          have hrest : digits.length = other.length := Nat.succ.inj hlength
          have hlt := numeral_lt h.2
          have hlt' := numeral_lt hother.2
          rw [numeral_cons, numeral_cons, hrest] at hvalue
          rw [hrest] at hlt
          have hpos : 0 < base ^ other.length := Nat.lt_of_le_of_lt (Nat.zero_le _) hlt
          have hdigit : digit = digit' := by
            have hdiv := congrArg (· / base ^ other.length) hvalue
            simp only [Nat.mul_comm _ (base ^ other.length), Nat.mul_add_div hpos,
              Nat.div_eq_of_lt hlt, Nat.div_eq_of_lt hlt', Nat.add_zero] at hdiv
            exact hdiv
          rw [hdigit] at hvalue ⊢
          rw [ih h.2 hother.2 hrest (Nat.add_left_cancel hvalue)]

theorem lastOf_eq_iff (hbase : 0 < base) (h : ∀ digit ∈ digits, digit < base)
    (hother : ∀ digit ∈ other, digit < base) (hlength : digits.length = other.length)
    (count : Nat) :
    lastOf count digits = lastOf count other ↔
      numeral base digits % base ^ count = numeral base other % base ^ count := by
  rw [← numeral_lastOf hbase h, ← numeral_lastOf hbase hother]
  constructor
  · intro heq
    rw [heq]
  · refine eq_of_numeral_eq (fun digit hmem => h digit (List.mem_of_mem_drop hmem))
      (fun digit hmem => hother digit (List.mem_of_mem_drop hmem)) ?_
    rw [length_lastOf, length_lastOf, hlength]

end

/-- Consecutive numbers have different remainders exactly if there are no more than the modulus. -/
theorem distinct_mod_iff {modulus : Nat} (hpos : 0 < modulus) (start count : Nat) :
    (∀ i j, i < j → j < count → (start + i) % modulus ≠ (start + j) % modulus) ↔
      count ≤ modulus := by
  constructor
  · intro h
    by_contra hlt
    exact h 0 modulus hpos (by omega) (by rw [Nat.add_zero, Nat.add_mod_right])
  · intro hle i j hij hj heq
    have hdvd : modulus ∣ (start + j) - (start + i) := (Nat.modEq_iff_dvd' (by omega)).mp heq
    have hself := Nat.le_of_dvd (by omega) hdvd
    omega

end Lib
