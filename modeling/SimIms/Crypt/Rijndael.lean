import SimIms.Lib.Rijndael
import Mathlib.Tactic.LinearCombination

/-!
# The Rijndael kernel

The subkeys are kept between the calls, one set for each thread: `RijndaelKeySchedule` writes them,
and `RijndaelEncrypt` reads them. The tables and the loops compute the cipher of the library.
-/

namespace SimIms.Crypt

open Lib (ByteField)

/-- `BYTE[16]`. -/
abbrev Block := Vector UInt8 16

/-- `BYTE[4][4]`, by rows. -/
abbrev State := Vector (Vector UInt8 4) 4

/-- `roundKeys`. -/
abbrev RoundKeys := Vector State 11

/-! ## Tables -/

set_option maxRecDepth 4000 in
/-- The entries of `S`. -/
def sEntries : Vector UInt8 256 :=
  #v[
    99, 124, 119, 123, 242, 107, 111, 197, 48, 1, 103, 43, 254, 215, 171, 118, 202, 130, 201, 125,
    250, 89, 71, 240, 173, 212, 162, 175, 156, 164, 114, 192, 183, 253, 147, 38, 54, 63, 247, 204,
    52, 165, 229, 241, 113, 216, 49, 21, 4, 199, 35, 195, 24, 150, 5, 154, 7, 18, 128, 226, 235, 39,
    178, 117, 9, 131, 44, 26, 27, 110, 90, 160, 82, 59, 214, 179, 41, 227, 47, 132, 83, 209, 0, 237,
    32, 252, 177, 91, 106, 203, 190, 57, 74, 76, 88, 207, 208, 239, 170, 251, 67, 77, 51, 133, 69,
    249, 2, 127, 80, 60, 159, 168, 81, 163, 64, 143, 146, 157, 56, 245, 188, 182, 218, 33, 16, 255,
    243, 210, 205, 12, 19, 236, 95, 151, 68, 23, 196, 167, 126, 61, 100, 93, 25, 115, 96, 129, 79,
    220, 34, 42, 144, 136, 70, 238, 184, 20, 222, 94, 11, 219, 224, 50, 58, 10, 73, 6, 36, 92, 194,
    211, 172, 98, 145, 149, 228, 121, 231, 200, 55, 109, 141, 213, 78, 169, 108, 86, 244, 234, 101,
    122, 174, 8, 186, 120, 37, 46, 28, 166, 180, 198, 232, 221, 116, 31, 75, 189, 139, 138, 112, 62,
    181, 102, 72, 3, 246, 14, 97, 53, 87, 185, 134, 193, 29, 158, 225, 248, 152, 17, 105, 217, 142,
    148, 155, 30, 135, 233, 206, 85, 40, 223, 140, 161, 137, 13, 191, 230, 66, 104, 65, 153, 45, 15,
    176, 84, 187, 22]

set_option maxRecDepth 4000 in
/-- The entries of `Xtime`. -/
def xtimeEntries : Vector UInt8 256 :=
  #v[
    0, 2, 4, 6, 8, 10, 12, 14, 16, 18, 20, 22, 24, 26, 28, 30, 32, 34, 36, 38, 40, 42, 44, 46, 48,
    50, 52, 54, 56, 58, 60, 62, 64, 66, 68, 70, 72, 74, 76, 78, 80, 82, 84, 86, 88, 90, 92, 94, 96,
    98, 100, 102, 104, 106, 108, 110, 112, 114, 116, 118, 120, 122, 124, 126, 128, 130, 132, 134,
    136, 138, 140, 142, 144, 146, 148, 150, 152, 154, 156, 158, 160, 162, 164, 166, 168, 170, 172,
    174, 176, 178, 180, 182, 184, 186, 188, 190, 192, 194, 196, 198, 200, 202, 204, 206, 208, 210,
    212, 214, 216, 218, 220, 222, 224, 226, 228, 230, 232, 234, 236, 238, 240, 242, 244, 246, 248,
    250, 252, 254, 27, 25, 31, 29, 19, 17, 23, 21, 11, 9, 15, 13, 3, 1, 7, 5, 59, 57, 63, 61, 51,
    49, 55, 53, 43, 41, 47, 45, 35, 33, 39, 37, 91, 89, 95, 93, 83, 81, 87, 85, 75, 73, 79, 77, 67,
    65, 71, 69, 123, 121, 127, 125, 115, 113, 119, 117, 107, 105, 111, 109, 99, 97, 103, 101, 155,
    153, 159, 157, 147, 145, 151, 149, 139, 137, 143, 141, 131, 129, 135, 133, 187, 185, 191, 189,
    179, 177, 183, 181, 171, 169, 175, 173, 163, 161, 167, 165, 219, 217, 223, 221, 211, 209, 215,
    213, 203, 201, 207, 205, 195, 193, 199, 197, 251, 249, 255, 253, 243, 241, 247, 245, 235, 233,
    239, 237, 227, 225, 231, 229]

/-- `S[byte]`. -/
def sBox (byte : UInt8) : UInt8 := sEntries.get ⟨byte.toNat, byte.toNat_lt⟩

/-- `Xtime[byte]`. -/
def xtime (byte : UInt8) : UInt8 := xtimeEntries.get ⟨byte.toNat, byte.toNat_lt⟩

/-! ## Transformations of the state -/

/-- The bytes go down the columns. -/
def stateOf (input : Block) : State :=
  .ofFn fun row => .ofFn fun column => input[4 * column.val + row.val]

def bytesOf (state : State) : Block :=
  .ofFn fun i => state[i.val % 4][i.val / 4]

def keyAdd (state : State) (roundKey : State) : State :=
  .ofFn fun i => .ofFn fun j => state[i][j] ^^^ roundKey[i][j]

def byteSub (state : State) : State :=
  .ofFn fun i => .ofFn fun j => sBox state[i][j]

def shiftRow (state : State) : State :=
  #v[state[0],
    #v[state[1][1], state[1][2], state[1][3], state[1][0]],
    #v[state[2][2], state[2][3], state[2][0], state[2][1]],
    #v[state[3][3], state[3][0], state[3][1], state[3][2]]]

/-- One column; its first byte is read once more after it has been written. -/
def mixedColumn (s0 s1 s2 s3 : UInt8) : Vector UInt8 4 :=
  let temp := s0 ^^^ s1 ^^^ s2 ^^^ s3
  let tmp0 := s0
  #v[s0 ^^^ (temp ^^^ xtime (s0 ^^^ s1)),
    s1 ^^^ (temp ^^^ xtime (s1 ^^^ s2)),
    s2 ^^^ (temp ^^^ xtime (s2 ^^^ s3)),
    s3 ^^^ (temp ^^^ xtime (s3 ^^^ tmp0))]

def mixColumn (state : State) : State :=
  let columns : Vector (Vector UInt8 4) 4 := .ofFn fun i =>
    mixedColumn state[0][i] state[1][i] state[2][i] state[3][i]
  .ofFn fun row => .ofFn fun i => columns[i][row]

/-! ## The subkeys -/

/-- One round of the loop that derives the subkeys. -/
def nextRoundKey (previous : State) (roundConst : UInt8) : State :=
  let first : Vector UInt8 4 := #v[
    sBox previous[1][3] ^^^ previous[0][0] ^^^ roundConst,
    sBox previous[2][3] ^^^ previous[1][0],
    sBox previous[3][3] ^^^ previous[2][0],
    sBox previous[0][3] ^^^ previous[3][0]]
  .ofFn fun j =>
    let second := previous[j][1] ^^^ first[j]
    let third := previous[j][2] ^^^ second
    #v[first[j], second, third, previous[j][3] ^^^ third]

/-- The subkeys and the round constant after this many rounds of the loop. -/
def scheduleRounds (roundKeys : RoundKeys) (key : Block) : (i : Nat) → i < 11 → RoundKeys × UInt8
  | 0, _ => (roundKeys.set 0 (stateOf key), 1)
  | i + 1, h =>
      let (roundKeys, roundConst) := scheduleRounds roundKeys key i (by omega)
      (roundKeys.set (i + 1) (nextRoundKey roundKeys[i] roundConst), xtime roundConst)

def rijndaelKeySchedule (key : Block) : StateM RoundKeys Unit :=
  modify fun roundKeys => (scheduleRounds roundKeys key 10 (by decide)).1

/-! ## Encryption -/

/-- The first subkey, and this many full rounds. -/
def fullRounds (roundKeys : RoundKeys) (state : State) : (r : Nat) → r < 11 → State
  | 0, _ => keyAdd state roundKeys[0]
  | r + 1, h =>
      keyAdd (mixColumn (shiftRow (byteSub (fullRounds roundKeys state r (by omega)))))
        roundKeys[r + 1]

def encrypted (roundKeys : RoundKeys) (input : Block) : Block :=
  let state := fullRounds roundKeys (stateOf input) 9 (by decide)
  bytesOf (keyAdd (shiftRow (byteSub state)) roundKeys[10])

def rijndaelEncrypt (input : Block) : StateM RoundKeys Block := do
  return encrypted (← get) input

end SimIms.Crypt
