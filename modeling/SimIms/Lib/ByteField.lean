import Mathlib.Algebra.Field.Basic
import Mathlib.Algebra.BigOperators.Group.List.Basic

/-!
# The field with 256 elements

A byte is read as a polynomial over the field with two elements, modulo the polynomial with the bits
`0x11b`. Sums and products distribute over the bits of their arguments, so the laws of the product
have to be looked up on the eight powers of the variable only.
-/

namespace Lib

/-- A byte, as an element of the field. -/
@[ext]
structure ByteField where
  byte : UInt8
deriving DecidableEq

namespace ByteField

instance : Zero ByteField := ⟨⟨0⟩⟩

instance : One ByteField := ⟨⟨1⟩⟩

instance : Add ByteField := ⟨fun a b => ⟨a.byte ^^^ b.byte⟩⟩

variable (a b c : ByteField)

@[simp] theorem byte_zero : (0 : ByteField).byte = 0 := rfl

@[simp] theorem byte_add : (a + b).byte = a.byte ^^^ b.byte := rfl

instance : Neg ByteField := ⟨id⟩

instance : AddCommGroup ByteField where
  add_assoc a b c := ByteField.ext (UInt8.xor_assoc a.byte b.byte c.byte)
  add_comm a b := ByteField.ext (UInt8.xor_comm a.byte b.byte)
  zero_add a := ByteField.ext UInt8.zero_xor
  add_zero a := ByteField.ext UInt8.xor_zero
  neg_add_cancel a := ByteField.ext UInt8.xor_self
  nsmul := nsmulRec
  zsmul := zsmulRec

@[simp] theorem neg_eq : -a = a := rfl

theorem add_self : a + a = 0 := neg_add_cancel a

/-! ## The bits of an element -/

/-- What holds of every byte below 256 holds of every element. -/
theorem forall_of_forall_lt {P : ByteField → Prop} (h : ∀ n < 256, P ⟨UInt8.ofNat n⟩) : P a := by
  have hlookup := h a.byte.toNat a.byte.toNat_lt
  rwa [UInt8.ofNat_toNat] at hlookup

/-- The power of the variable with this exponent. -/
def power (i : Nat) : ByteField := ⟨UInt8.ofNat (2 ^ i)⟩

theorem eq_sum_powers :
    a = (((List.range 8).filter (a.byte.toNat.testBit ·)).map power).sum := by
  apply forall_of_forall_lt a
  decide +kernel

/-- Sums of powers are all there is. -/
@[elab_as_elim]
theorem induction_on {P : ByteField → Prop} (a : ByteField) (zero : P 0)
    (add : ∀ a b, P a → P b → P (a + b)) (power : ∀ i < 8, P (power i)) : P a := by
  rw [eq_sum_powers a]
  generalize hbits : (List.range 8).filter (a.byte.toNat.testBit ·) = bits
  have hbelow : ∀ i ∈ bits, i < 8 := by
    intro i hi
    rw [← hbits] at hi
    exact List.mem_range.mp (List.mem_filter.mp hi).1
  clear hbits
  induction bits with
  | nil => exact zero
  | cons i bits ih =>
      rw [List.map_cons, List.sum_cons]
      apply add
      · exact power i (hbelow i List.mem_cons_self)
      · exact ih fun j hj => hbelow j (List.mem_cons_of_mem i hj)

/-! ## Products of polynomials -/

/-- The product with the variable; the eighth power is reduced. -/
def timesX (a : Nat) : Nat := 2 * a % 256 ^^^ a / 128 * 0x1b

/-- The product with the polynomial that the lowest bits of the second factor stand for. -/
def mulBits : (bits a b : Nat) → Nat
  | 0, _, _ => 0
  | bits + 1, a, b => b % 2 * a ^^^ mulBits bits (timesX a) (b / 2)

instance : Mul ByteField := ⟨fun a b => ⟨UInt8.ofNat (mulBits 8 a.byte.toNat b.byte.toNat)⟩⟩

section

variable {a b c bits : Nat}

theorem xor_lt (ha : a < 256) (hb : b < 256) : a ^^^ b < 256 := Nat.xor_lt_two_pow (n := 8) ha hb

/-- Bits are added by the exclusive disjunction. -/
theorem xor_mul (ha : a < 2) (hb : b < 2) : (a ^^^ b) * c = a * c ^^^ b * c := by
  obtain rfl | rfl : a = 0 ∨ a = 1 := by omega
  all_goals obtain rfl | rfl : b = 0 ∨ b = 1 := by omega
  all_goals simp

theorem mul_xor (ha : a < 2) : a * (b ^^^ c) = a * b ^^^ a * c := by
  obtain rfl | rfl : a = 0 ∨ a = 1 := by omega
  all_goals simp

theorem timesX_lt (ha : a < 256) : timesX a < 256 := by
  apply xor_lt
  · exact Nat.mod_lt _ (by decide)
  · omega

theorem timesX_xor (ha : a < 256) (hb : b < 256) : timesX (a ^^^ b) = timesX a ^^^ timesX b := by
  have hdouble : 2 * (a ^^^ b) = 2 * a ^^^ 2 * b := by
    have hshift : (a ^^^ b) <<< 1 = a <<< 1 ^^^ b <<< 1 := Nat.shiftLeft_xor_distrib
    simpa [Nat.shiftLeft_eq, Nat.mul_comm] using hshift
  have hmod : 2 * (a ^^^ b) % 256 = 2 * a % 256 ^^^ 2 * b % 256 := by
    rw [hdouble]
    exact Nat.xor_mod_two_pow (n := 8)
  have hdiv : (a ^^^ b) / 128 = a / 128 ^^^ b / 128 := Nat.xor_div_two_pow (n := 7)
  rw [timesX, hmod, hdiv, xor_mul (by omega) (by omega), timesX, timesX]
  ac_rfl

theorem mulBits_xor_left (ha : a < 256) (hb : b < 256) :
    mulBits bits (a ^^^ b) c = mulBits bits a c ^^^ mulBits bits b c := by
  induction bits generalizing a b c with
  | zero => exact (Nat.xor_self 0).symm
  | succ bits ih =>
      rw [mulBits, mulBits, mulBits, timesX_xor ha hb, ih (timesX_lt ha) (timesX_lt hb),
        mul_xor (by omega)]
      ac_rfl

theorem mulBits_xor_right : mulBits bits a (b ^^^ c) = mulBits bits a b ^^^ mulBits bits a c := by
  induction bits generalizing a b c with
  | zero => exact (Nat.xor_self 0).symm
  | succ bits ih =>
      have hmod : (b ^^^ c) % 2 = b % 2 ^^^ c % 2 := Nat.xor_mod_two_pow (n := 1)
      rw [mulBits, mulBits, mulBits, Nat.xor_div_two, ih, hmod, xor_mul (by omega) (by omega)]
      ac_rfl

end

/-! ## The field -/

protected theorem mul_add : a * (b + c) = a * b + a * c := by
  apply ByteField.ext
  show UInt8.ofNat (mulBits 8 a.byte.toNat (b.byte ^^^ c.byte).toNat) = _
  rw [UInt8.toNat_xor, mulBits_xor_right, UInt8.ofNat_xor]
  rfl

protected theorem add_mul : (a + b) * c = a * c + b * c := by
  apply ByteField.ext
  show UInt8.ofNat (mulBits 8 (a.byte ^^^ b.byte).toNat c.byte.toNat) = _
  rw [UInt8.toNat_xor, mulBits_xor_left a.byte.toNat_lt b.byte.toNat_lt, UInt8.ofNat_xor]
  rfl

instance : NonUnitalNonAssocSemiring ByteField where
  left_distrib := ByteField.mul_add
  right_distrib := ByteField.add_mul
  zero_mul a := by
    have h := ByteField.add_mul 0 0 a
    rwa [add_self, add_self] at h
  mul_zero a := by
    have h := ByteField.mul_add a 0 0
    rwa [add_self, add_self] at h

theorem mul_comm_powers : ∀ i < 8, ∀ j < 8, power i * power j = power j * power i := by
  decide +kernel

theorem mul_assoc_powers : ∀ i < 8, ∀ j < 8, ∀ k < 8,
    power i * power j * power k = power i * (power j * power k) := by
  decide +kernel

protected theorem mul_comm : a * b = b * a := by
  induction a using induction_on with
  | zero => rw [zero_mul, mul_zero]
  | add a a' ha ha' => rw [add_mul, mul_add, ha, ha']
  | power i hi =>
      induction b using induction_on with
      | zero => rw [zero_mul, mul_zero]
      | add b b' hb hb' => rw [add_mul, mul_add, hb, hb']
      | power j hj => exact mul_comm_powers i hi j hj

protected theorem mul_assoc : a * b * c = a * (b * c) := by
  induction a using induction_on with
  | zero => simp
  | add a a' ha ha' => simp [add_mul, ha, ha']
  | power i hi =>
      induction b using induction_on with
      | zero => simp
      | add b b' hb hb' => simp [add_mul, mul_add, hb, hb']
      | power j hj =>
          induction c using induction_on with
          | zero => simp
          | add c c' hc hc' => simp [mul_add, hc, hc']
          | power k hk => exact mul_assoc_powers i hi j hj k hk

protected theorem one_mul : 1 * a = a := by
  apply forall_of_forall_lt a
  decide +kernel

instance : CommRing ByteField where
  __ := (inferInstance : AddCommGroup ByteField)
  __ := (inferInstance : NonUnitalNonAssocSemiring ByteField)
  mul_assoc := ByteField.mul_assoc
  mul_comm := ByteField.mul_comm
  one_mul := ByteField.one_mul
  mul_one a := by rw [ByteField.mul_comm, ByteField.one_mul]

/-- The power with exponent 254, by the squares of the squares. -/
def inverse : ByteField :=
  let a2 := a * a
  let a4 := a2 * a2
  let a8 := a4 * a4
  let a16 := a8 * a8
  let a32 := a16 * a16
  let a64 := a32 * a32
  a2 * a4 * (a8 * a16) * (a32 * a64 * (a64 * a64))

theorem mul_inverse : a ≠ 0 → a * inverse a = 1 := by
  apply forall_of_forall_lt a
  decide +kernel

instance : Field ByteField where
  inv := inverse
  exists_pair_ne := ⟨0, 1, by decide⟩
  mul_inv_cancel := mul_inverse
  inv_zero := by decide +kernel
  nnqsmul := _
  nnqsmul_def := fun _ _ => rfl
  qsmul := _
  qsmul_def := fun _ _ => rfl

end ByteField

end Lib
