import SimIms.Lib.ByteField
import Mathlib.LinearAlgebra.Matrix.Circulant

/-!
# The Rijndael block cipher

The transformations of a block are permutations by construction, so the cipher with any subkeys is
one as well. The key expansion is the one for keys with four words.
-/

namespace Lib.Rijndael

/-- Four columns with four bytes each. -/
abbrev Block := Matrix (Fin 4) (Fin 4) ByteField

/-! ## Substitution -/

def rotated (byte n : UInt8) : UInt8 := byte <<< n ||| byte >>> (8 - n)

/-- The affine transformation of the bits. -/
def affine (byte : UInt8) : UInt8 :=
  byte ^^^ rotated byte 1 ^^^ rotated byte 2 ^^^ rotated byte 3 ^^^ rotated byte 4 ^^^ 0x63

def affineInverse (byte : UInt8) : UInt8 :=
  rotated byte 1 ^^^ rotated byte 3 ^^^ rotated byte 6 ^^^ 0x05

theorem affineInverse_affine (a : ByteField) : affineInverse (affine a.byte) = a.byte := by
  apply ByteField.forall_of_forall_lt a
  decide +kernel

theorem affine_affineInverse (a : ByteField) : affine (affineInverse a.byte) = a.byte := by
  apply ByteField.forall_of_forall_lt a
  decide +kernel

/-- The affine transformation of the inverse in the field. -/
def substitution : Equiv.Perm ByteField where
  toFun a := ⟨affine a⁻¹.byte⟩
  invFun a := (⟨affineInverse a.byte⟩ : ByteField)⁻¹
  left_inv a := calc
    (⟨affineInverse (affine a⁻¹.byte)⟩ : ByteField)⁻¹ = a⁻¹⁻¹ := by rw [affineInverse_affine]
    _ = a := inv_inv a
  right_inv a := by
    apply ByteField.ext
    show affine ((⟨affineInverse a.byte⟩ : ByteField)⁻¹⁻¹).byte = a.byte
    rw [inv_inv, affine_affineInverse]

/-! ## Transformations of a block -/

def subBytes : Equiv.Perm Block := Equiv.mapMatrix substitution

/-- A row is rotated to the left by its number. -/
def shiftRows : Equiv.Perm Block where
  toFun s := .of fun row column => s row (column + row)
  invFun s := .of fun row column => s row (column - row)
  left_inv s := by
    ext row column
    simp
  right_inv s := by
    ext row column
    simp

/-- The columns are polynomials, and multiplied by `3 x ^ 3 + x ^ 2 + x + 2`. -/
def mixing : Block := Matrix.circulant ![⟨2⟩, ⟨1⟩, ⟨1⟩, ⟨3⟩]

/-- The inverse polynomial. -/
def unmixing : Block := Matrix.circulant ![⟨14⟩, ⟨9⟩, ⟨13⟩, ⟨11⟩]

theorem unmixing_mul_mixing : unmixing * mixing = 1 := by
  decide +kernel

theorem mixing_mul_unmixing : mixing * unmixing = 1 := by
  decide +kernel

def mixColumns : Equiv.Perm Block where
  toFun s := mixing * s
  invFun s := unmixing * s
  left_inv s := by
    show unmixing * (mixing * s) = s
    rw [← Matrix.mul_assoc, unmixing_mul_mixing, Matrix.one_mul]
  right_inv s := by
    show mixing * (unmixing * s) = s
    rw [← Matrix.mul_assoc, mixing_mul_unmixing, Matrix.one_mul]

def addRoundKey (key : Block) : Equiv.Perm Block := Equiv.addRight key

/-! ## The cipher -/

variable (keys : Nat → Block)

def round (key : Block) : Equiv.Perm Block :=
  ((subBytes.trans shiftRows).trans mixColumns).trans (addRoundKey key)

/-- The first subkey, and this many full rounds. -/
def rounds : Nat → Equiv.Perm Block
  | 0 => addRoundKey (keys 0)
  | n + 1 => (rounds n).trans (round (keys (n + 1)))

/-- The columns are not mixed in the last round. -/
def cipher (n : Nat) : Equiv.Perm Block :=
  ((rounds keys n).trans (subBytes.trans shiftRows)).trans (addRoundKey (keys (n + 1)))

/-! ## The key expansion -/

/-- The four bytes of a column. -/
abbrev Word := Fin 4 → ByteField

def subWord (word : Word) : Word := fun i => substitution (word i)

def rotWord (word : Word) : Word := fun i => word (i + 1)

/-- The powers of the variable, from one on. -/
def roundConstant (i : Nat) : Word := ![⟨2⟩ ^ (i - 1), 0, 0, 0]

/-- Every word is made of the one before it and of the one four places before it. -/
def expandedWord (key : Fin 4 → Word) (i : Nat) : Word :=
  if h : i < 4 then key ⟨i, h⟩
  else
    let temp := expandedWord key (i - 1)
    expandedWord key (i - 4) +
      if i % 4 = 0 then subWord (rotWord temp) + roundConstant (i / 4) else temp
termination_by i

/-- The subkeys have four words each. -/
def roundKey (key : Fin 4 → Word) (n : Nat) : Block :=
  .of fun row column => expandedWord key (4 * n + column) row

section

variable {key : Fin 4 → Word} {n : Nat} {row : Fin 4}

theorem roundKey_zero (column : Fin 4) : roundKey key 0 row column = key column row := by
  have hindex : 4 * 0 + column.val = column.val := by omega
  rw [roundKey, Matrix.of_apply, hindex, expandedWord, dif_pos column.isLt]

/-- The first word of a subkey is made with the last one of the subkey before it. -/
theorem roundKey_succ_zero :
    roundKey key (n + 1) row 0 =
      roundKey key n row 0 + (substitution (roundKey key n (row + 1) 3) +
        roundConstant (n + 1) row) := by
  have hnot : ¬ 4 * (n + 1) + (0 : Fin 4).val < 4 := by omega
  have hmod : (4 * (n + 1) + (0 : Fin 4).val) % 4 = 0 := by simp
  have hdiv : (4 * (n + 1) + (0 : Fin 4).val) / 4 = n + 1 := by simp
  rw [roundKey, Matrix.of_apply, expandedWord, dif_neg hnot]
  simp only [hmod, hdiv, if_true]
  rfl

/-- Every other word is made with the word before it. -/
theorem roundKey_succ_succ (column : Fin 3) :
    roundKey key (n + 1) row column.succ =
      roundKey key n row column.succ + roundKey key (n + 1) row column.castSucc := by
  have hnot : ¬ 4 * (n + 1) + column.succ.val < 4 := by omega
  have hmod : (4 * (n + 1) + column.succ.val) % 4 ≠ 0 := by
    rw [Fin.val_succ]
    omega
  have hbefore : 4 * (n + 1) + column.succ.val - 4 = 4 * n + column.succ.val := by omega
  have hlast : 4 * (n + 1) + column.succ.val - 1 = 4 * (n + 1) + column.castSucc.val := by simp
  rw [roundKey, Matrix.of_apply, expandedWord, dif_neg hnot, if_neg hmod, hbefore, hlast]
  rfl

end

/-- The cipher with a key of four words has ten rounds. -/
def encrypt (key : Fin 4 → Word) : Equiv.Perm Block := cipher (roundKey key) 9

end Lib.Rijndael
