import Handheld.Checked

/-!
# Checked sums in unbounded arithmetic

A checked sum answers exactly where the unbounded sum fits, and then it is that sum.
-/

namespace Handheld.Checked

set_option autoImplicit false

section Words32

variable {left right : UInt32}

theorem sum32_of_room (room : left.toNat + right.toNat < UInt32.size) :
    (left + right).toNat = left.toNat + right.toNat := by
  rw [UInt32.toNat_add]
  exact Nat.mod_eq_of_lt room

theorem add32_of_room (room : left.toNat + right.toNat < UInt32.size) :
    add32 left right = .ok (left + right) := by
  rw [add32, if_pos room]

theorem add32_without_room (full : UInt32.size ≤ left.toNat + right.toNat) :
    add32 left right = .error .additionOverflow := by
  rw [add32, if_neg (Nat.not_lt.mpr full)]

end Words32

section Words64

variable {left right : UInt64}

theorem sum64_of_room (room : left.toNat + right.toNat < UInt64.size) :
    (left + right).toNat = left.toNat + right.toNat := by
  rw [UInt64.toNat_add]
  exact Nat.mod_eq_of_lt room

theorem add64_of_room (room : left.toNat + right.toNat < UInt64.size) :
    add64 left right = .ok (left + right) := by
  rw [add64, if_pos room]

theorem add64_without_room (full : UInt64.size ≤ left.toNat + right.toNat) :
    add64 left right = .error .additionOverflow := by
  rw [add64, if_neg (Nat.not_lt.mpr full)]

end Words64

end Handheld.Checked
