import Handheld.Instruction

/-!
# Transfers between registers and memory

Loads and stores of the accumulator and the pair `HL`. They are no part of the control table and can
be installed beside it.
-/

namespace Handheld.Instruction

set_option autoImplicit false

variable {β : Type} [Bus β]

def loadImmediate : Handler β := fun context =>
  let (value, context) := context.fetch
  (context.mapRegisters (·.set8 .a value)).setCost 2

/-- Takes the next two bytes into `HL`, low byte first. -/
def loadPairImmediate : Handler β := fun context =>
  let (low, context) := context.fetch
  let context := context.mapRegisters (·.set8 .l low)
  let (high, context) := context.fetch
  (context.mapRegisters (·.set8 .h high)).setCost 3

def store : Handler β := fun ⟨registers, bus⟩ =>
  let bus := Bus.write bus (registers.get16 .hl) (registers.get8 .a)
  ⟨registers.setCost 2, bus⟩

def load : Handler β := fun ⟨registers, bus⟩ =>
  let value := Bus.read bus (registers.get16 .hl)
  ⟨(registers.set8 .a value).setCost 2, bus⟩

def incrementPair : Handler β := fun context =>
  (context.mapRegisters fun registers =>
    registers.set16 .hl (registers.get16 .hl + 1)).setCost 2

end Handheld.Instruction
