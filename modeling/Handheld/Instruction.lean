import Handheld.Bus
import Handheld.Clock

/-!
# The control instructions

A handler carries out one instruction after its opcode was fetched, and leaves the cost in the slot
for it. Handlers are total: each comes to its end, and so does each of its calls on the bus. One
that would stop short in the middle of its work cannot be installed. `restart` is at once an
instruction and the way into an interrupt vector.
-/

namespace Handheld

set_option autoImplicit false

/-- The work of one instruction. It has no way to fault, in itself or in a call on the bus. -/
abbrev Handler (β : Type) := Context β → Context β

namespace Opcode

def nop : UInt8 := 0x00

def halt : UInt8 := 0x76

def jump : UInt8 := 0xC3

def ret : UInt8 := 0xC9

def retEnable : UInt8 := 0xD9

def disableInterrupts : UInt8 := 0xF3

def enableInterrupts : UInt8 := 0xFB

def restarts : List (UInt8 × UInt16) :=
  [(0xC7, 0x0000), (0xCF, 0x0008), (0xD7, 0x0010), (0xDF, 0x0018),
   (0xE7, 0x0020), (0xEF, 0x0028), (0xF7, 0x0030), (0xFF, 0x0038)]

end Opcode

namespace Instruction

variable {β : Type}

/-- Leaves the cost of an activity in the slot for it. -/
def charge (activity : Activity) (context : Context β) : Context β :=
  context.setCost activity.cycles

def nop : Handler β := charge .nop

def halt : Handler β := fun context =>
  charge .halt (context.mapRegisters (·.setHalted true))

def disableInterrupts : Handler β := fun context =>
  charge .disableInterrupts (context.mapRegisters (·.setIme false))

/-- Takes effect at once: an interrupt can be delivered at the end of the same step. -/
def enableInterrupts : Handler β := fun context =>
  charge .enableInterrupts (context.mapRegisters (·.setIme true))

variable [Bus β]

/-- Pushes the program counter and goes on at `vector`. -/
def restart (vector : UInt16) : Handler β := fun context =>
  let pushed := context.push context.registers.pc
  charge .restart (pushed.mapRegisters (·.setPc vector))

/-- Goes on at the address in the next two bytes, low byte first. -/
def jump : Handler β := fun context =>
  let (low, context) := context.fetch
  let (high, context) := context.fetch
  charge .jump (context.mapRegisters (·.setPc (Word.ofBytes high low)))

def ret : Handler β := fun context =>
  let (target, context) := context.pop
  charge .ret (context.mapRegisters (·.setPc target))

def retEnable : Handler β := fun context =>
  let (target, context) := context.pop
  charge .retEnable (context.mapRegisters fun registers => (registers.setPc target).setIme true)

def control : List (UInt8 × Handler β) :=
  [(Opcode.nop, nop), (Opcode.halt, halt), (Opcode.jump, jump), (Opcode.ret, ret),
   (Opcode.retEnable, retEnable), (Opcode.disableInterrupts, disableInterrupts),
   (Opcode.enableInterrupts, enableInterrupts)] ++
  Opcode.restarts.map fun (opcode, vector) => (opcode, restart vector)

end Instruction

end Handheld
