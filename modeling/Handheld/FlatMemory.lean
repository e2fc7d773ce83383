import Handheld.Bus
import Handheld.Memory

/-!
# A bus of plain memory

Every address is a cell, those of the devices included; the interrupt registers are there but have
no address, and there is no timer.
-/

namespace Handheld

set_option autoImplicit false

structure FlatMemory where
  memory : Memory
  bank : InterruptBank

namespace FlatMemory

def blank : FlatMemory := ⟨.blank, .clear⟩

instance : Bus FlatMemory where
  read bus address := bus.memory.read address
  write bus address value := { bus with memory := bus.memory.write address value }
  bank := bank
  setBank bus bank := { bus with bank }

def load (bus : FlatMemory) (address : UInt16) (bytes : List UInt8) : FlatMemory :=
  { bus with memory := bus.memory.load address bytes }

end FlatMemory

end Handheld
