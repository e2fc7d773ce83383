import Handheld.Hex
import Handheld.Interrupt
import Handheld.Model

/-!
# Notices

What the machine reports to whoever watches it, each with its level. A notice changes nothing.
-/

namespace Handheld

set_option autoImplicit false

inductive Notice where
  /-- The image asks for a bank controller, and there is none. -/
  | controllerIgnored (controller : UInt8) (size : Nat)
  | inserted (size : Nat) (model : Model)
  | halted (pc : UInt16)
  | woke (pc : UInt16)
  | delivered (source : Interrupt)
  deriving DecidableEq

namespace Notice

def level : Notice → String
  | controllerIgnored _ _ => "WARN"
  | inserted _ _ | halted _ | woke _ => "DEBUG"
  | delivered _ => "TRACE"

def text : Notice → String
  | controllerIgnored controller size =>
      "cartridge type " ++ Hex.byte controller ++
        " expects a bank controller; mapping the first " ++ toString size ++ " bytes flat"
  | inserted size model => "loaded " ++ toString size ++ " byte rom for " ++ model.name
  | halted pc => "cpu halted at pc " ++ Hex.address pc
  | woke pc => "cpu woke, entering " ++ Hex.address pc
  | delivered source =>
      "delivered " ++ source.name ++ " interrupt, vector " ++ Hex.address source.vector

end Notice

end Handheld
