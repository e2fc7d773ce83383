import Handheld.Checked

/-!
# The clock and what activities cost

The processor works in machine cycles of four clock ticks each, and a video frame is 70224 ticks
(154 lines of 456 ticks). `Activity.cycles` is the only place where a cost is written down.
-/

namespace Handheld

set_option autoImplicit false

def ticksPerCycle : UInt32 := 4

def ticksPerFrame : UInt32 := 70224

def ticksOfCycles (cycles : UInt32) : Except Fault UInt32 :=
  Checked.mul32 cycles ticksPerCycle

inductive Activity where
  | nop
  | halt
  | idle
  | disableInterrupts
  | enableInterrupts
  | jump
  | ret
  | retEnable
  /-- A restart instruction, and the entry of an interrupt vector. -/
  | restart
  deriving DecidableEq

namespace Activity

def all : List Activity :=
  [nop, halt, idle, disableInterrupts, enableInterrupts, jump, ret, retEnable, restart]

/-- The cost in machine cycles. -/
def cycles : Activity → UInt8
  | nop | halt | idle | disableInterrupts | enableInterrupts => 1
  | jump | ret | retEnable | restart => 4

end Activity

end Handheld
