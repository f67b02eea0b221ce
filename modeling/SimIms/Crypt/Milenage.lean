import SimIms.Crypt.RijndaelCipher

/-!
# Milenage

Every function schedules its key first and encrypts with the subkeys of its thread. The blocks that
the outputs are cut from are made of one block in five ways: each rotates it by another number of
bytes and marks its last byte with another bit.
-/

namespace SimIms.Crypt

/-! ## Blocks -/

def xorBlocks (a b : Block) : Block := .ofFn fun i => a[i] ^^^ b[i]

/-- The byte at `i` goes to `(i + shift) % 16`. -/
def rotated (shift : Nat) (block : Block) : Block :=
  .ofFn fun i => block[(i.val + (16 - shift)) % 16]

/-- The constant goes into the last byte. -/
def marked (constant : UInt8) (block : Block) : Block := block.set 15 (block[15] ^^^ constant)

/-- Eight bytes from this one on. -/
def eightFrom (start : Nat) (h : start ≤ 8) (block : Block) : Vector UInt8 8 :=
  .ofFn fun i => block[i.val + start]

def firstSix (block : Block) : Vector UInt8 6 := .ofFn fun i => block[i.val]

/-! ## The functions -/

/-- The block that `f1` and `f1star` cut their outputs from. -/
def macBlock (opC key rand : Block) (sqn : Vector UInt8 6) (amf : Vector UInt8 2) :
    StateM RoundKeys Block := do
  rijndaelKeySchedule key
  let temp ← rijndaelEncrypt (xorBlocks rand opC)
  let in1 : Block := sqn ++ amf ++ (sqn ++ amf)
  let out1 ← rijndaelEncrypt (xorBlocks (rotated 8 (xorBlocks in1 opC)) temp)
  return xorBlocks out1 opC

/-- The other blocks, from what the first encryption has given. -/
def outputBlock (shift : Nat) (constant : UInt8) (opC temp : Block) : StateM RoundKeys Block := do
  let out ← rijndaelEncrypt (marked constant (rotated shift (xorBlocks temp opC)))
  return xorBlocks out opC

/-- MAC-A. -/
def f1 (opC key rand : Block) (sqn : Vector UInt8 6) (amf : Vector UInt8 2) :
    StateM RoundKeys (Vector UInt8 8) := do
  return eightFrom 0 (by decide) (← macBlock opC key rand sqn amf)

/-- MAC-S. -/
def f1star (opC key rand : Block) (sqn : Vector UInt8 6) (amf : Vector UInt8 2) :
    StateM RoundKeys (Vector UInt8 8) := do
  return eightFrom 8 (by decide) (← macBlock opC key rand sqn amf)

/-- What `f2345` writes. -/
structure Keys where
  res : Vector UInt8 8
  ck : Block
  ik : Block
  ak : Vector UInt8 6
deriving DecidableEq

def f2345 (opC k rand : Block) : StateM RoundKeys Keys := do
  rijndaelKeySchedule k
  let temp ← rijndaelEncrypt (xorBlocks rand opC)
  let out2 ← outputBlock 0 1 opC temp
  let out3 ← outputBlock 12 2 opC temp
  let out4 ← outputBlock 8 4 opC temp
  return { res := eightFrom 8 (by decide) out2, ck := out3, ik := out4, ak := firstSix out2 }

/-- The anonymity key for the synchronisation of the sequence number. -/
def f5star (opC k rand : Block) : StateM RoundKeys (Vector UInt8 6) := do
  rijndaelKeySchedule k
  let temp ← rijndaelEncrypt (xorBlocks rand opC)
  return firstSix (← outputBlock 4 8 opC temp)

def computeOPc (op key : Block) : StateM RoundKeys Block := do
  rijndaelKeySchedule key
  return xorBlocks (← rijndaelEncrypt op) op

/-- A known value of the unit tests. -/
example :
    ((computeOPc
      #v[0xcd, 0xc2, 0x02, 0xd5, 0x12, 0x3e, 0x20, 0xf6, 0x2b, 0x6d, 0x67, 0x6a, 0xc7,
        0x2c, 0xb3, 0x18]
      #v[0x46, 0x5b, 0x5c, 0xe8, 0xb1, 0x99, 0xb4, 0x9f, 0xaa, 0x5f, 0x0a, 0x2e, 0xe2, 0x38, 0xa6,
        0xbc]).run (.replicate 11 (.replicate 4 (.replicate 4 0)))).1 =
      #v[0xcd, 0x63, 0xcb, 0x71, 0x95, 0x4a, 0x9f, 0x4e, 0x48, 0xa5, 0x99, 0x4e, 0x37, 0xa0, 0x2b,
        0xaf] := by
  decide +kernel

/-! ## The adapter -/

structure MilenageVector where
  autn : Block
  ck : Block
  ik : Block
  ak : Vector UInt8 6
  xres : Vector UInt8 8
deriving DecidableEq

def generateVector (opc k : Block) (sqn : Vector UInt8 6) (amf : Vector UInt8 2) (rand : Block) :
    StateM RoundKeys MilenageVector := do
  let keys ← f2345 opc k rand
  let macA ← f1 opc k rand sqn amf
  return { autn := sqn.zipWith (· ^^^ ·) keys.ak ++ amf ++ macA
           ck := keys.ck, ik := keys.ik, ak := keys.ak, xres := keys.res }

end SimIms.Crypt
