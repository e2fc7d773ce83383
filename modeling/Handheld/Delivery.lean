import Handheld.Instruction
import Handheld.Interrupt.Priority

/-!
# Delivery of interrupts

Delivery takes the master switch and the halt state back, clears the request, and enters the vector
of the source as a restart does, at the cost of one.
-/

namespace Handheld.Context

set_option autoImplicit false

variable {β : Type} [Bus β]

def enter (context : Context β) (source : Interrupt) : Context β :=
  let ⟨registers, bus⟩ := context
  let bus := Bus.setBank bus ((Bus.bank bus).acknowledge source)
  Instruction.restart source.vector ⟨(registers.setIme false).setHalted false, bus⟩

/-- Delivers the source that comes first among the pending ones, if there is one. -/
def deliver (context : Context β) (pending : UInt8) : Option Interrupt × Context β :=
  match Interrupt.priorityTable.entry pending with
  | some source => (some source, context.enter source)
  | none => (none, context)

/-- Delivers an interrupt if the master switch is on and a request is let through. -/
def service (context : Context β) : Option Interrupt × Context β :=
  if context.registers.ime then context.deliver (Bus.bank context.bus).pending
  else (none, context)

end Handheld.Context
