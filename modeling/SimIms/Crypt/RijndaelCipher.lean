import SimIms.Crypt.Rijndael
import Mathlib

/-!
# The kernel computes the cipher

The tables are the operations of the field, the subkeys are the words of the key expansion, and
encryption is the cipher of the library. Hence it does not matter what the subkeys were before.
-/

namespace SimIms.Crypt

open Lib (ByteField)

/-! ## Reading the arrays -/

def toMatrix (state : State) : Lib.Rijndael.Block :=
  .of fun row column => ⟨(state.get row).get column⟩

/-- The words of a key. -/
def keyWords (key : Block) : Fin 4 → Lib.Rijndael.Word :=
  fun column row => ⟨key[4 * column.val + row.val]⟩

variable {state state' : State} {input key : Block} {row column : Fin 4}

@[simp] theorem toMatrix_apply :
    toMatrix state row column = ⟨(state.get row).get column⟩ := rfl

theorem toMatrix_injective : Function.Injective toMatrix := by
  intro state state' h
  apply Vector.ext
  intro row hrow
  apply Vector.ext
  intro column hcolumn
  have hentry := congrFun (congrFun h ⟨row, hrow⟩) ⟨column, hcolumn⟩
  exact congrArg ByteField.byte hentry

theorem bytesOf_stateOf (input : Block) : bytesOf (stateOf input) = input := by
  apply Vector.ext
  intro i hi
  have hindex : 4 * (i / 4) + i % 4 = i := Nat.div_add_mod i 4
  simp [bytesOf, stateOf, hindex]

theorem stateOf_bytesOf (state : State) : stateOf (bytesOf state) = state := by
  apply Vector.ext
  intro row hrow
  apply Vector.ext
  intro column hcolumn
  have hmod : row % 4 = row := Nat.mod_eq_of_lt hrow
  have hdiv : (4 * column + row) / 4 = column := by omega
  simp [bytesOf, stateOf, hmod, hdiv]

/-! ## The tables -/

/-- Without its affine part, an entry is the inverse. -/
theorem mul_affineInverse_sBox (a : ByteField) :
    a ≠ 0 → a * ⟨Lib.Rijndael.affineInverse (sBox a.byte)⟩ = 1 := by
  apply ByteField.forall_of_forall_lt a
  decide +kernel

theorem sBox_eq (byte : UInt8) : (⟨sBox byte⟩ : ByteField) = Lib.Rijndael.substitution ⟨byte⟩ := by
  have hinverse : (⟨Lib.Rijndael.affineInverse (sBox byte)⟩ : ByteField) = ⟨byte⟩⁻¹ := by
    by_cases hzero : (⟨byte⟩ : ByteField) = 0
    · cases hzero
      decide +kernel
    · exact eq_inv_of_mul_eq_one_right (mul_affineInverse_sBox ⟨byte⟩ hzero)
  rw [← Equiv.symm_apply_eq]
  exact (congrArg Inv.inv hinverse).trans (inv_inv _)

theorem xtime_eq (byte : UInt8) : (⟨xtime byte⟩ : ByteField) = ⟨2⟩ * ⟨byte⟩ := by
  apply ByteField.forall_of_forall_lt (P := fun a => ⟨xtime a.byte⟩ = (⟨2⟩ : ByteField) * a)
  decide +kernel

theorem xor_eq (a b : UInt8) : (⟨a ^^^ b⟩ : ByteField) = ⟨a⟩ + ⟨b⟩ := rfl

/-! ## The transformations -/

theorem toMatrix_keyAdd (state roundKey : State) :
    toMatrix (keyAdd state roundKey) =
      Lib.Rijndael.addRoundKey (toMatrix roundKey) (toMatrix state) := by
  ext row column
  simp [keyAdd, Lib.Rijndael.addRoundKey, Vector.get_eq_getElem]

theorem toMatrix_byteSub (state : State) :
    toMatrix (byteSub state) = Lib.Rijndael.subBytes (toMatrix state) := by
  apply Matrix.ext
  intro row column
  simp [byteSub, Lib.Rijndael.subBytes, sBox_eq, Vector.get_eq_getElem]

theorem toMatrix_shiftRow (state : State) :
    toMatrix (shiftRow state) = Lib.Rijndael.shiftRows (toMatrix state) := by
  apply Matrix.ext
  intro row column
  fin_cases row <;> fin_cases column <;> rfl

/-- A column of the product, from the bytes of the column. -/
theorem mixedColumn_eq (s0 s1 s2 s3 : UInt8) (row : Fin 4) :
    (⟨(mixedColumn s0 s1 s2 s3).get row⟩ : ByteField) =
      ∑ i, Lib.Rijndael.mixing row i * (⟨#v[s0, s1, s2, s3].get i⟩ : ByteField) := by
  have hthree : (⟨3⟩ : ByteField) = ⟨2⟩ + 1 := rfl
  have hone : (⟨1⟩ : ByteField) = 1 := rfl
  rw [Fin.sum_univ_four]
  fin_cases row <;> simp [mixedColumn, Lib.Rijndael.mixing, xor_eq, xtime_eq, hthree, hone,
    Vector.get_eq_getElem]
  · linear_combination ByteField.add_self ⟨s0⟩
  · linear_combination ByteField.add_self ⟨s1⟩
  · linear_combination ByteField.add_self ⟨s2⟩
  · linear_combination ByteField.add_self ⟨s3⟩

theorem toMatrix_mixColumn (state : State) :
    toMatrix (mixColumn state) = Lib.Rijndael.mixColumns (toMatrix state) := by
  apply Matrix.ext
  intro row column
  have hcolumn : ∀ i : Fin 4, #v[state[0][column], state[1][column], state[2][column],
      state[3][column]].get i = (state.get i).get column := by
    intro i
    fin_cases i <;> rfl
  calc toMatrix (mixColumn state) row column
      = ⟨(mixedColumn state[0][column] state[1][column] state[2][column]
          state[3][column]).get row⟩ := by simp [mixColumn, Vector.get_eq_getElem]
    _ = ∑ i, Lib.Rijndael.mixing row i * toMatrix state i column := by
      simp only [mixedColumn_eq, hcolumn, toMatrix_apply]

/-! ## The subkeys -/

variable {roundConst : UInt8}

theorem toMatrix_nextRoundKey_zero :
    toMatrix (nextRoundKey state roundConst) row 0 =
      toMatrix state row 0 + (Lib.Rijndael.substitution (toMatrix state (row + 1) 3) +
        (![⟨roundConst⟩, 0, 0, 0] : Lib.Rijndael.Word) row) := by
  fin_cases row <;> simp [nextRoundKey, xor_eq, sBox_eq, Vector.get_eq_getElem]
  all_goals ring

theorem toMatrix_nextRoundKey_succ (column : Fin 3) :
    toMatrix (nextRoundKey state roundConst) row column.succ =
      toMatrix state row column.succ +
        toMatrix (nextRoundKey state roundConst) row column.castSucc := by
  fin_cases column <;> simp [nextRoundKey, xor_eq, Vector.get_eq_getElem]

/-- A subkey is made of the one before it, column by column. -/
theorem toMatrix_nextRoundKey {n : Nat}
    (hstate : toMatrix state = Lib.Rijndael.roundKey (keyWords key) n)
    (hconst : (⟨roundConst⟩ : ByteField) = ⟨2⟩ ^ n) :
    toMatrix (nextRoundKey state roundConst) = Lib.Rijndael.roundKey (keyWords key) (n + 1) := by
  apply Matrix.ext
  intro row column
  induction column using Fin.induction with
  | zero =>
      rw [toMatrix_nextRoundKey_zero, Lib.Rijndael.roundKey_succ_zero, hstate, hconst]
      rfl
  | succ column ih =>
      rw [toMatrix_nextRoundKey_succ, Lib.Rijndael.roundKey_succ_succ, hstate, ih]

/-- What the loop has written is what the key expansion gives, whatever was there before. -/
theorem scheduleRounds_spec (roundKeys : RoundKeys) (key : Block) (i : Nat) (h : i < 11) :
    (∀ n (hn : n ≤ i), toMatrix ((scheduleRounds roundKeys key i h).1[n]) =
      Lib.Rijndael.roundKey (keyWords key) n) ∧
      (⟨(scheduleRounds roundKeys key i h).2⟩ : ByteField) = ⟨2⟩ ^ i := by
  induction i with
  | zero =>
      refine ⟨fun n hn => ?_, rfl⟩
      obtain rfl : n = 0 := by omega
      apply Matrix.ext
      intro row column
      simp [scheduleRounds, stateOf, Lib.Rijndael.roundKey_zero, keyWords, Vector.get_eq_getElem]
  | succ i ih =>
      obtain ⟨hkeys, hconst⟩ := ih (by omega)
      constructor
      · intro n hn
        simp only [scheduleRounds]
        by_cases hlast : n = i + 1
        · subst hlast
          rw [Vector.getElem_set_self]
          exact toMatrix_nextRoundKey (hkeys i (Nat.le_refl i)) hconst
        · rw [Vector.getElem_set_ne]
          · exact hkeys n (by omega)
          · omega
      · simp only [scheduleRounds]
        rw [xtime_eq, hconst, pow_succ']

/-- The subkeys of a key. -/
def scheduled (key : Block) : RoundKeys :=
  ((rijndaelKeySchedule key).run (.replicate 11 (.replicate 4 (.replicate 4 0)))).2

theorem toMatrix_scheduled (key : Block) (n : Nat) (hn : n < 11) :
    toMatrix (scheduled key)[n] = Lib.Rijndael.roundKey (keyWords key) n :=
  (scheduleRounds_spec _ key 10 (by decide)).1 n (by omega)

theorem run_rijndaelKeySchedule (key : Block) (roundKeys : RoundKeys) :
    (rijndaelKeySchedule key).run roundKeys = ((), scheduled key) := by
  apply congrArg (Prod.mk ())
  apply Vector.ext
  intro n hn
  apply toMatrix_injective
  rw [toMatrix_scheduled]
  exact (scheduleRounds_spec roundKeys key 10 (by decide)).1 n (by omega)

/-! ## Encryption -/

theorem toMatrix_fullRounds (key : Block) (state : State) (r : Nat) (h : r < 11) :
    toMatrix (fullRounds (scheduled key) state r h) =
      Lib.Rijndael.rounds (Lib.Rijndael.roundKey (keyWords key)) r (toMatrix state) := by
  induction r with
  | zero =>
      rw [fullRounds, toMatrix_keyAdd, toMatrix_scheduled]
      rfl
  | succ r ih =>
      rw [fullRounds, toMatrix_keyAdd, toMatrix_scheduled, toMatrix_mixColumn, toMatrix_shiftRow,
        toMatrix_byteSub, ih (by omega)]
      rfl

/-- The bytes of a block, down the columns. -/
def blockMatrix : Block ≃ Lib.Rijndael.Block where
  toFun block := toMatrix (stateOf block)
  invFun matrix := bytesOf (.ofFn fun row => .ofFn fun column => (matrix row column).byte)
  left_inv block := by
    rw [← bytesOf_stateOf block]
    apply congrArg bytesOf
    apply toMatrix_injective
    ext row column
    simp [bytesOf_stateOf]
  right_inv matrix := by
    ext row column
    simp [stateOf_bytesOf]

theorem blockMatrix_apply (block : Block) : blockMatrix block = toMatrix (stateOf block) := rfl

/-- The cipher of the library, on the bytes of a block. -/
@[irreducible]
def cipher (key : Block) : Equiv.Perm Block :=
  (blockMatrix.trans (Lib.Rijndael.encrypt (keyWords key))).trans blockMatrix.symm

theorem blockMatrix_cipher (key input : Block) :
    blockMatrix (cipher key input) =
      Lib.Rijndael.encrypt (keyWords key) (blockMatrix input) := by
  rw [cipher, Equiv.trans_apply, Equiv.trans_apply, Equiv.apply_symm_apply]

theorem encrypted_eq_cipher (key input : Block) :
    encrypted (scheduled key) input = cipher key input := by
  apply blockMatrix.injective
  rw [blockMatrix_cipher, blockMatrix_apply, blockMatrix_apply, encrypted, stateOf_bytesOf,
    toMatrix_keyAdd, toMatrix_scheduled, toMatrix_shiftRow, toMatrix_byteSub, toMatrix_fullRounds]
  rfl

/-- A function goes on with the subkeys that the one before it has left. -/
theorem run_bind {α β : Type} (x : StateM RoundKeys α) (f : α → StateM RoundKeys β)
    (roundKeys : RoundKeys) :
    (x >>= f).run roundKeys = (f (x.run roundKeys).1).run (x.run roundKeys).2 := (rfl)

theorem run_pure {α : Type} (a : α) (roundKeys : RoundKeys) :
    (pure a : StateM RoundKeys α).run roundKeys = (a, roundKeys) := (rfl)

theorem run_rijndaelEncrypt (key input : Block) :
    (rijndaelEncrypt input).run (scheduled key) = (cipher key input, scheduled key) :=
  congrArg (Prod.mk · (scheduled key)) (encrypted_eq_cipher key input)

/-- Whatever subkeys there were, a block that is encrypted after its key has been scheduled is the
one that the cipher makes of it; and with any key, every block is made of exactly one. -/
theorem rijndael_computes_cipher (roundKeys : RoundKeys) (key : Block) :
    (∀ input, blockMatrix (((rijndaelKeySchedule key >>= fun _ => rijndaelEncrypt input).run
      roundKeys).1) = Lib.Rijndael.encrypt (keyWords key) (blockMatrix input)) ∧
      Function.Bijective fun input =>
        ((rijndaelKeySchedule key >>= fun _ => rijndaelEncrypt input).run roundKeys).1 := by
  have hrun : ∀ input, ((rijndaelKeySchedule key >>= fun _ => rijndaelEncrypt input).run
      roundKeys).1 = cipher key input := by
    intro input
    rw [run_bind, run_rijndaelKeySchedule, run_rijndaelEncrypt]
  simp only [hrun]
  exact ⟨blockMatrix_cipher key, (cipher key).bijective⟩

end SimIms.Crypt
