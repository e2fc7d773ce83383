import Handheld.Fault
import Handheld.Interrupt
import Handheld.Registers

/-!
# The bus, and the context of an instruction

A bus is what the processor sees of the rest of the machine: bytes at addresses, the interrupt
registers, and a timer to be told how many machine cycles went by. Reading changes nothing.

An instruction works on a `Context`, the register file together with a bus. The stack grows
downwards, and the high byte of a word is pushed first.
-/

namespace Handheld

set_option autoImplicit false

class Bus (β : Type) where
  read : β → UInt16 → UInt8
  write : β → UInt16 → UInt8 → β
  bank : β → InterruptBank
  setBank : β → InterruptBank → β
  /-- Lets machine cycles pass. A bus without a timer has nothing to do. -/
  advanceTimer : β → UInt32 → Attempt β Fault Unit := fun bus _ => ⟨bus, .ok ()⟩

structure Context (β : Type) where
  registers : Registers
  bus : β

namespace Context

variable {β : Type}

def mapRegisters (context : Context β) (change : Registers → Registers) : Context β :=
  { context with registers := change context.registers }

def setCost (context : Context β) (cycles : UInt8) : Context β :=
  context.mapRegisters (·.setCost cycles)

variable [Bus β]

/-- The byte that the program counter points at; the counter moves past it. -/
def fetch (context : Context β) : UInt8 × Context β :=
  (Bus.read context.bus context.registers.pc, context.mapRegisters (·.advancePc))

def push (context : Context β) (word : UInt16) : Context β :=
  let ⟨registers, bus⟩ := context
  let high := registers.sp - 1
  let low := high - 1
  let bus := Bus.write bus high (Word.highByte word)
  let bus := Bus.write bus low (Word.lowByte word)
  ⟨registers.setSp low, bus⟩

def pop (context : Context β) : UInt16 × Context β :=
  let sp := context.registers.sp
  let low := Bus.read context.bus sp
  let high := Bus.read context.bus (sp + 1)
  (Word.ofBytes high low, context.mapRegisters (·.setSp (sp + 2)))

end Context

end Handheld
