import SimIms.Common.Types
import SimIms.Lib.Program

/-!
# What programs ask of their environment

Readings of the steady clock, and texts that are random or depend on the calendar.
-/

namespace SimIms

open Cxx Lib

inductive EnvironmentOp where
  | clock
  | randomBytes
  | randomWord
  | generateTag
  | formatGmtDate

abbrev EnvironmentAnswer : EnvironmentOp → Type
  | .clock => Nat
  | .randomBytes => Bytes
  | .randomWord => UInt64
  | .generateTag => Bytes
  | .formatGmtDate => Bytes

def environment : Interface := ⟨EnvironmentOp, EnvironmentAnswer⟩

section

variable {G : Interface} [Includes environment G] {ε : Type}

def clock : Program G ε Nat := Program.perform (F := environment) EnvironmentOp.clock

def randomBytes : Program G ε Bytes :=
  Program.perform (F := environment) EnvironmentOp.randomBytes

def randomWord : Program G ε UInt64 :=
  Program.perform (F := environment) EnvironmentOp.randomWord

def generateTag : Program G ε Bytes :=
  Program.perform (F := environment) EnvironmentOp.generateTag

def formatGmtDate : Program G ε Bytes :=
  Program.perform (F := environment) EnvironmentOp.formatGmtDate

end

/-- The answers of the environment at one step, the clock apart. The entry that comes next in a hash
map is one of them. -/
structure Surroundings where
  randomBytes : Bytes := []
  randomWord : UInt64 := 0
  tag : Bytes := []
  date : Bytes := []
  follower : Option Bytes := none

def Surroundings.answer (surroundings : Surroundings) (now : Nat) :
    (op : EnvironmentOp) → EnvironmentAnswer op
  | .clock => now
  | .randomBytes => surroundings.randomBytes
  | .randomWord => surroundings.randomWord
  | .generateTag => surroundings.tag
  | .formatGmtDate => surroundings.date

end SimIms
