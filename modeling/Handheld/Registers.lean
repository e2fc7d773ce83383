import Handheld.Model
import Handheld.Word

/-!
# The register file

Thirteen bytes are seen through nine byte views and six pair views; a pair takes two neighbouring
bytes, high byte first. The low four bits of `F` are held at zero by both ways to write it. The slot
`M` belongs to no program: an instruction leaves its cost there. Beside the bytes stand the master
interrupt switch and the halt state.
-/

namespace Handheld

set_option autoImplicit false

inductive Reg8 where
  | b | c | d | e | h | l | a | f
  /-- The cost of the last instruction or interrupt entry, in machine cycles. -/
  | m
  deriving DecidableEq

inductive Reg16 where
  | bc | de | hl | af | sp | pc
  deriving DecidableEq

def Reg8.all : List Reg8 := [b, c, d, e, h, l, a, f, m]

def Reg16.all : List Reg16 := [bc, de, hl, af, sp, pc]

def Reg8.name : Reg8 → String
  | b => "B"
  | c => "C"
  | d => "D"
  | e => "E"
  | h => "H"
  | l => "L"
  | a => "A"
  | f => "F"
  | m => "M"

def Reg16.name : Reg16 → String
  | bc => "BC"
  | de => "DE"
  | hl => "HL"
  | af => "AF"
  | sp => "SP"
  | pc => "PC"

def Reg8.offset : Reg8 → Fin 13
  | b => 0
  | c => 1
  | d => 2
  | e => 3
  | h => 4
  | l => 5
  | a => 6
  | f => 7
  | m => 12

def Reg16.highOffset : Reg16 → Fin 13
  | bc => 0
  | de => 2
  | hl => 4
  | af => 6
  | sp => 8
  | pc => 10

def Reg16.lowOffset : Reg16 → Fin 13
  | bc => 1
  | de => 3
  | hl => 5
  | af => 7
  | sp => 9
  | pc => 11

@[ext] structure Registers where
  storage : Vector UInt8 13
  /-- The master interrupt switch. -/
  ime : Bool
  halted : Bool
  deriving DecidableEq

namespace Registers

def storageBytes : Nat := 13

/-- The bits of `F` that hold condition flags. -/
def flagMask : UInt8 := 0xF0

def zero : Registers where
  storage := Vector.replicate 13 0
  ime := false
  halted := false

def get8 (registers : Registers) (view : Reg8) : UInt8 :=
  registers.storage[view.offset]

def put (registers : Registers) (offset : Fin 13) (value : UInt8) : Registers :=
  { registers with storage := registers.storage.set offset.val value offset.isLt }

def set8 (registers : Registers) (view : Reg8) (value : UInt8) : Registers :=
  registers.put view.offset (if view = .f then value &&& flagMask else value)

def get16 (registers : Registers) (view : Reg16) : UInt16 :=
  Word.ofBytes registers.storage[view.highOffset] registers.storage[view.lowOffset]

def set16 (registers : Registers) (view : Reg16) (value : UInt16) : Registers :=
  let low := Word.lowByte value
  (registers.put view.highOffset (Word.highByte value)).put view.lowOffset
    (if view = .af then low &&& flagMask else low)

def pc (registers : Registers) : UInt16 := registers.get16 .pc

def setPc (registers : Registers) (value : UInt16) : Registers := registers.set16 .pc value

/-- Moves on to the next address; the last one is followed by the first. -/
def advancePc (registers : Registers) : Registers := registers.setPc (registers.pc + 1)

def sp (registers : Registers) : UInt16 := registers.get16 .sp

def setSp (registers : Registers) (value : UInt16) : Registers := registers.set16 .sp value

def cost (registers : Registers) : UInt8 := registers.get8 .m

def setCost (registers : Registers) (cycles : UInt8) : Registers := registers.set8 .m cycles

def setIme (registers : Registers) (enabled : Bool) : Registers :=
  { registers with ime := enabled }

def setHalted (registers : Registers) (halted : Bool) : Registers :=
  { registers with halted }

theorem storage_put (registers : Registers) (target offset : Fin 13) (value : UInt8) :
    (registers.put target value).storage[offset] =
      if offset = target then value else registers.storage[offset] := by
  simp [put, Vector.getElem_set, Fin.ext_iff, eq_comm]

theorem storage_set8 (registers : Registers) (view : Reg8) (value : UInt8) (offset : Fin 13) :
    (registers.set8 view value).storage[offset] =
      if offset = view.offset then (if view = .f then value &&& flagMask else value)
      else registers.storage[offset] := by
  simp only [set8, storage_put]

theorem storage_set16 (registers : Registers) (pair : Reg16) (value : UInt16) (offset : Fin 13) :
    (registers.set16 pair value).storage[offset] =
      if offset = pair.lowOffset then
        (if pair = .af then Word.lowByte value &&& flagMask else Word.lowByte value)
      else if offset = pair.highOffset then Word.highByte value
      else registers.storage[offset] := by
  simp only [set16, storage_put]

/-- The values of `AF`, `BC`, `DE` and `HL` when the boot program of a model hands over. -/
def bootPairs : Model → UInt16 × UInt16 × UInt16 × UInt16
  | .gameBoy => (0x01B0, 0x0013, 0x00D8, 0x014D)
  | .gameBoyColor => (0x1180, 0x0000, 0xFF56, 0x000D)
  | .superGameBoy => (0x0100, 0x0014, 0x0000, 0xC060)

/-- The register file when the boot program of `model` hands over to the cartridge. -/
def powerOn (model : Model) : Registers :=
  let (af, bc, de, hl) := bootPairs model
  zero
    |>.set16 .af af
    |>.set16 .bc bc
    |>.set16 .de de
    |>.set16 .hl hl
    |>.set16 .sp 0xFFFE
    |>.set16 .pc 0x0100

end Registers

end Handheld
