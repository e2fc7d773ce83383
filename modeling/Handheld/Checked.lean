import Handheld.Fault

/-!
# Checked arithmetic

Sums, differences and products of fixed width that fault instead of wrapping round.
-/

namespace Handheld.Checked

set_option autoImplicit false

def add32 (left right : UInt32) : Except Fault UInt32 :=
  if left.toNat + right.toNat < UInt32.size then .ok (left + right)
  else .error .additionOverflow

def add64 (left right : UInt64) : Except Fault UInt64 :=
  if left.toNat + right.toNat < UInt64.size then .ok (left + right)
  else .error .additionOverflow

def sub16 (left right : UInt16) : Except Fault UInt16 :=
  if right ≤ left then .ok (left - right) else .error .subtractionOverflow

def mul32 (left right : UInt32) : Except Fault UInt32 :=
  if left.toNat * right.toNat < UInt32.size then .ok (left * right)
  else .error .multiplicationOverflow

end Handheld.Checked
