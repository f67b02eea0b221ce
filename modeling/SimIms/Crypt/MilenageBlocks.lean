import SimIms.Crypt.Milenage

/-!
# The blocks of Milenage

With the cipher being a permutation, what is different before an encryption is different behind it.
Rotations keep the sum of the bytes of a block, and the constants of the outputs are different, so
no two output blocks are the same. For the same reason nothing gets lost between the number that is
authenticated and the two codes, and between the random challenge and a session key.
-/

namespace SimIms.Crypt

open Lib (ByteField)

variable {opC key rand temp block block' : Block} {sqn : Vector UInt8 6} {amf : Vector UInt8 2}
variable {shift : Nat} {constant : UInt8}

/-! ## Blocks as permuted blocks -/

theorem xorBlocks_xorBlocks (a b : Block) : xorBlocks (xorBlocks a b) b = a := by
  apply Vector.ext
  intro i hi
  simp [xorBlocks]

theorem xorBlocks_left_bijective (b : Block) : Function.Bijective (xorBlocks · b) := by
  constructor
  · intro a a' h
    rw [← xorBlocks_xorBlocks a b, ← xorBlocks_xorBlocks a' b]
    exact congrArg (xorBlocks · b) h
  · intro a
    exact ⟨xorBlocks a b, xorBlocks_xorBlocks a b⟩

/-- The rotation by the rest takes a rotation back. -/
theorem rotated_rotated (hshift : shift ≤ 16) (block : Block) :
    rotated (16 - shift) (rotated shift block) = block := by
  apply Vector.ext
  intro i hi
  have hindex : ((i + (16 - (16 - shift))) % 16 + (16 - shift)) % 16 = i := by omega
  simp only [rotated, Vector.getElem_ofFn, hindex]

theorem rotated_bijective (hshift : shift ≤ 16) : Function.Bijective (rotated shift) := by
  constructor
  · intro block block' h
    rw [← rotated_rotated hshift block, ← rotated_rotated hshift block', h]
  · intro block
    have hback := rotated_rotated (Nat.sub_le 16 shift) block
    rw [Nat.sub_sub_self hshift] at hback
    exact ⟨_, hback⟩

theorem marked_marked (constant : UInt8) (block : Block) :
    marked constant (marked constant block) = block := by
  apply Vector.ext
  intro i hi
  by_cases hlast : i = 15
  · subst hlast
    simp [marked]
  · simp [marked]

theorem marked_bijective (constant : UInt8) : Function.Bijective (marked constant) := by
  constructor
  · intro block block' h
    rw [← marked_marked constant block, ← marked_marked constant block', h]
  · intro block
    exact ⟨_, marked_marked constant block⟩

/-! ## What the functions compute -/

def tempOf (key opC rand : Block) : Block := cipher key (xorBlocks rand opC)

/-- What goes into the second encryption of `f1`. -/
def in1Of (key opC rand : Block) (sqn : Vector UInt8 6) (amf : Vector UInt8 2) : Block :=
  xorBlocks (rotated 8 (xorBlocks (sqn ++ amf ++ (sqn ++ amf)) opC)) (tempOf key opC rand)

/-- What goes into the second encryption of the other functions. -/
def inOf (shift : Nat) (constant : UInt8) (key opC rand : Block) : Block :=
  marked constant (rotated shift (xorBlocks (tempOf key opC rand) opC))

/-- OUT1. -/
def out1Of (key opC rand : Block) (sqn : Vector UInt8 6) (amf : Vector UInt8 2) : Block :=
  xorBlocks (cipher key (in1Of key opC rand sqn amf)) opC

/-- OUT2 to OUT5. -/
def outOf (shift : Nat) (constant : UInt8) (key opC rand : Block) : Block :=
  xorBlocks (cipher key (inOf shift constant key opC rand)) opC

variable (roundKeys : RoundKeys)

theorem run_outputBlock :
    (outputBlock shift constant opC (tempOf key opC rand)).run (scheduled key) =
      (outOf shift constant key opC rand, scheduled key) := by
  rw [outputBlock, run_bind, run_rijndaelEncrypt, run_pure, outOf, inOf]

theorem run_macBlock :
    (macBlock opC key rand sqn amf).run roundKeys =
      (out1Of key opC rand sqn amf, scheduled key) := by
  simp only [macBlock, run_bind, run_rijndaelKeySchedule, run_rijndaelEncrypt, run_pure]
  rw [out1Of, in1Of, tempOf]

theorem run_f1 :
    (f1 opC key rand sqn amf).run roundKeys =
      (eightFrom 0 (by decide) (out1Of key opC rand sqn amf), scheduled key) := by
  rw [f1, run_bind, run_macBlock, run_pure]

theorem run_f1star :
    (f1star opC key rand sqn amf).run roundKeys =
      (eightFrom 8 (by decide) (out1Of key opC rand sqn amf), scheduled key) := by
  rw [f1star, run_bind, run_macBlock, run_pure]

theorem run_f2345 :
    (f2345 opC key rand).run roundKeys =
      ({ res := eightFrom 8 (by decide) (outOf 0 1 key opC rand), ck := outOf 12 2 key opC rand
         ik := outOf 8 4 key opC rand, ak := firstSix (outOf 0 1 key opC rand) },
        scheduled key) := by
  simp only [f2345, run_bind, run_rijndaelKeySchedule, run_rijndaelEncrypt]
  rw [← tempOf]
  simp only [run_outputBlock, run_pure]

theorem run_f5star :
    (f5star opC key rand).run roundKeys =
      (firstSix (outOf 4 8 key opC rand), scheduled key) := by
  simp only [f5star, run_bind, run_rijndaelKeySchedule, run_rijndaelEncrypt]
  rw [← tempOf, run_outputBlock, run_pure]

/-! ## Sums of bytes -/

/-- The sum of the bytes of a block. -/
def total (block : Block) : ByteField := ∑ i : Fin 16, ⟨block.get i⟩

theorem total_xorBlocks (a b : Block) : total (xorBlocks a b) = total a + total b := by
  rw [total, total, total, ← Finset.sum_add_distrib]
  apply Finset.sum_congr rfl
  intro i _
  simp [xorBlocks, xor_eq, Vector.get_eq_getElem]

theorem total_rotated (shift : Nat) (block : Block) :
    total (rotated shift block) = total block := by
  have hbyte : ∀ i : Fin 16,
      (rotated shift block).get i = block.get (i + Fin.ofNat 16 (16 - shift)) := by
    intro i
    simp [rotated, Fin.val_add, Vector.get_eq_getElem]
  rw [total, total]
  simp only [hbyte]
  exact Equiv.sum_comp (Equiv.addRight (Fin.ofNat 16 (16 - shift))) fun i : Fin 16 =>
    (⟨block.get i⟩ : ByteField)

theorem total_marked (constant : UInt8) (block : Block) :
    total (marked constant block) = total block + ⟨constant⟩ := by
  have hbyte : ∀ i : Fin 16, (⟨(marked constant block).get i⟩ : ByteField) =
      ⟨block.get i⟩ + if i = 15 then ⟨constant⟩ else 0 := by
    intro i
    by_cases hlast : i = 15
    · subst hlast
      simp [marked, xor_eq, Vector.get_eq_getElem]
    · have hne : 15 ≠ i.val := fun h => hlast (Fin.ext h.symm)
      simp [marked, hlast, Vector.getElem_set_ne, hne, Vector.get_eq_getElem]
  rw [total, total]
  simp only [hbyte, Finset.sum_add_distrib, Finset.sum_ite_eq', Finset.mem_univ, if_true]

/-- The two halves of the input of `f1` are the same. -/
theorem total_repeated (half : Vector UInt8 8) : total (half ++ half) = 0 := by
  have hleft : ∀ i : Fin 8, (half ++ half)[(Fin.castAdd 8 i).val] = half[i] := by
    intro i
    exact Vector.getElem_append_left i.isLt
  have hright : ∀ i : Fin 8, (half ++ half)[(Fin.natAdd 8 i).val] = half[i] := by
    intro i
    have happend : (half ++ half)[8 + i.val] = half[8 + i.val - 8] :=
      Vector.getElem_append_right (by omega) (by omega)
    have hindex : 8 + i.val - 8 = i.val := by omega
    simp only [hindex] at happend
    exact happend
  have hsum : total (half ++ half) =
      (∑ i : Fin 8, (⟨half[i]⟩ : ByteField)) + ∑ i : Fin 8, (⟨half[i]⟩ : ByteField) := by
    rw [total]
    refine (Fin.sum_univ_add (a := 8) (b := 8) _).trans ?_
    simp only [Vector.get_eq_getElem, Fin.getElem_fin, hleft, hright]
  rw [hsum, ByteField.add_self]

/-! ## The blocks are different -/

theorem total_in1Of :
    total (in1Of key opC rand sqn amf) = total (tempOf key opC rand) + total opC := by
  have hrepeated : total (sqn ++ amf ++ (sqn ++ amf)) = 0 := total_repeated (sqn ++ amf)
  rw [in1Of, total_xorBlocks, total_rotated, total_xorBlocks, hrepeated, zero_add, add_comm]

theorem total_inOf :
    total (inOf shift constant key opC rand) =
      total (tempOf key opC rand) + total opC + ⟨constant⟩ := by
  rw [inOf, total_marked, total_rotated, total_xorBlocks]

/-- The blocks that the outputs are cut from. -/
def outputs (key opC rand : Block) (sqn : Vector UInt8 6) (amf : Vector UInt8 2) : List Block :=
  [out1Of key opC rand sqn amf, outOf 0 1 key opC rand, outOf 12 2 key opC rand,
    outOf 8 4 key opC rand, outOf 4 8 key opC rand]

def inputs (key opC rand : Block) (sqn : Vector UInt8 6) (amf : Vector UInt8 2) : List Block :=
  [in1Of key opC rand sqn amf, inOf 0 1 key opC rand, inOf 12 2 key opC rand,
    inOf 8 4 key opC rand, inOf 4 8 key opC rand]

/-- The sums of the inputs are told apart by the constants. -/
theorem nodup_inputs : (inputs key opC rand sqn amf).Nodup := by
  apply List.Nodup.of_map total
  have hsums : (inputs key opC rand sqn amf).map total =
      ([0, ⟨1⟩, ⟨2⟩, ⟨4⟩, ⟨8⟩] : List ByteField).map
        (total (tempOf key opC rand) + total opC + ·) := by
    simp [inputs, total_in1Of, total_inOf]
  rw [hsums]
  apply List.Nodup.map
  · exact add_right_injective _
  · decide

theorem nodup_outputs (key opC rand : Block) (sqn : Vector UInt8 6) (amf : Vector UInt8 2) :
    (outputs key opC rand sqn amf).Nodup := by
  have hmap : outputs key opC rand sqn amf =
      (inputs key opC rand sqn amf).map fun input => xorBlocks (cipher key input) opC := rfl
  rw [hmap]
  apply List.Nodup.map
  · exact (xorBlocks_left_bijective opC).injective.comp (cipher key).injective
  · exact nodup_inputs

/-- Whatever the key material, the challenge and the number that is authenticated: no two of the
five blocks are the same, and the outputs of the functions are cut from these blocks. -/
theorem milenage_outputs_distinct (key opC rand : Block) (sqn : Vector UInt8 6)
    (amf : Vector UInt8 2) (roundKeys : RoundKeys) :
    (outputs key opC rand sqn amf).Nodup ∧
      ((f1 opC key rand sqn amf).run roundKeys).1 =
        eightFrom 0 (by decide) (out1Of key opC rand sqn amf) ∧
      ((f1star opC key rand sqn amf).run roundKeys).1 =
        eightFrom 8 (by decide) (out1Of key opC rand sqn amf) ∧
      ((f2345 opC key rand).run roundKeys).1 =
        { res := eightFrom 8 (by decide) (outOf 0 1 key opC rand), ck := outOf 12 2 key opC rand
          ik := outOf 8 4 key opC rand, ak := firstSix (outOf 0 1 key opC rand) } ∧
      ((f5star opC key rand).run roundKeys).1 = firstSix (outOf 4 8 key opC rand) := by
  refine ⟨nodup_outputs key opC rand sqn amf, ?_, ?_, ?_, ?_⟩
  · rw [run_f1]
  · rw [run_f1star]
  · rw [run_f2345]
  · rw [run_f5star]

/-! ## Nothing gets lost -/

theorem eightFrom_injective (h₀ : eightFrom 0 (by decide) block = eightFrom 0 (by decide) block')
    (h₈ : eightFrom 8 (by decide) block = eightFrom 8 (by decide) block') : block = block' := by
  apply Vector.ext
  intro i hi
  by_cases hhalf : i < 8
  · have hbyte := congrArg (fun half : Vector UInt8 8 => half[i]) h₀
    simpa [eightFrom] using hbyte
  · have hbyte := congrArg (fun half : Vector UInt8 8 => half[i - 8]) h₈
    have hindex : i - 8 + 8 = i := by omega
    simpa [eightFrom, hindex] using hbyte

theorem repeated_injective {sqn' : Vector UInt8 6} {amf' : Vector UInt8 2}
    (h : (sqn ++ amf ++ (sqn ++ amf) : Block) = sqn' ++ amf' ++ (sqn' ++ amf')) :
    sqn = sqn' ∧ amf = amf' := by
  have hhalves : sqn ++ amf = sqn' ++ amf' := (Vector.append_inj h).1
  exact Vector.append_inj hhalves

theorem out1Of_injective {sqn' : Vector UInt8 6} {amf' : Vector UInt8 2}
    (h : out1Of key opC rand sqn amf = out1Of key opC rand sqn' amf') :
    sqn = sqn' ∧ amf = amf' := by
  apply repeated_injective
  apply (xorBlocks_left_bijective opC).injective
  apply (rotated_bijective (by decide : 8 ≤ 16)).injective
  apply (xorBlocks_left_bijective (tempOf key opC rand)).injective
  apply (cipher key).injective
  exact (xorBlocks_left_bijective opC).injective h

/-- Under one key and one challenge, no two pairs of a number and a management field have both codes
in common. -/
theorem macs_injective (key opC rand : Block) (roundKeys : RoundKeys) :
    Function.Injective fun authenticated : Vector UInt8 6 × Vector UInt8 2 =>
      (((f1 opC key rand authenticated.1 authenticated.2).run roundKeys).1,
        ((f1star opC key rand authenticated.1 authenticated.2).run roundKeys).1) := by
  rintro ⟨sqn, amf⟩ ⟨sqn', amf'⟩ h
  simp only [run_f1, run_f1star, Prod.mk.injEq] at h
  obtain ⟨rfl, rfl⟩ := out1Of_injective (eightFrom_injective h.1 h.2)
  rfl

theorem outOf_bijective (hshift : shift ≤ 16) (constant : UInt8) (key opC : Block) :
    Function.Bijective (outOf shift constant key opC) := by
  have hout : outOf shift constant key opC = (xorBlocks · opC) ∘ cipher key ∘ marked constant ∘
      rotated shift ∘ (xorBlocks · opC) ∘ cipher key ∘ (xorBlocks · opC) := rfl
  rw [hout]
  apply (xorBlocks_left_bijective opC).comp
  apply (cipher key).bijective.comp
  apply (marked_bijective constant).comp
  apply (rotated_bijective hshift).comp
  apply (xorBlocks_left_bijective opC).comp
  exact (cipher key).bijective.comp (xorBlocks_left_bijective opC)

/-- For every subscriber, each session key comes from exactly one challenge. -/
theorem sessionKeys_bijective (key opC : Block) (roundKeys : RoundKeys) :
    (Function.Bijective fun rand => ((f2345 opC key rand).run roundKeys).1.ck) ∧
      Function.Bijective fun rand => ((f2345 opC key rand).run roundKeys).1.ik := by
  simp only [run_f2345]
  exact ⟨outOf_bijective (by decide) 2 key opC, outOf_bijective (by decide) 4 key opC⟩

end SimIms.Crypt
