import Handheld.Hex

/-!
# Faults and attempts

A fault is a reason why an operation stops short. An operation that may stop returns an `Attempt`:
the state that it reached is there in both cases, so that a caller can go on after a fault.
-/

namespace Handheld

set_option autoImplicit false

inductive Fault where
  /-- No handler is installed for the opcode that was fetched from the address. -/
  | unassignedOpcode (opcode : UInt8) (address : UInt16)
  | additionOverflow
  | subtractionOverflow
  | multiplicationOverflow
  deriving DecidableEq

namespace Fault

def message : Fault → String
  | unassignedOpcode opcode address =>
      "no handler installed for opcode " ++ Hex.byte opcode ++ " at pc " ++ Hex.address address
  | additionOverflow => "attempt to add with overflow"
  | subtractionOverflow => "attempt to subtract with overflow"
  | multiplicationOverflow => "attempt to multiply with overflow"

end Fault

/-- The state an operation reached, and its answer or the reason it has none. -/
structure Attempt (σ ε α : Type) where
  state : σ
  answer : Except ε α

end Handheld
