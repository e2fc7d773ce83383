import Mathlib.Algebra.GroupWithZero.Nat

/-!
# Bytes as bits

A byte is its eight bits, so a law of masks holds as soon as it holds at every bit. A mask of one
bit asks for that bit alone.
-/

namespace Handheld

set_option autoImplicit false

theorem eq_of_bits {left right : UInt8}
    (bits : ∀ position < 8, left.toNat.testBit position = right.toNat.testBit position) :
    left = right := by
  apply UInt8.toBitVec_inj.mp
  apply BitVec.eq_of_getLsbD_eq
  intro position inside
  exact bits position inside

theorem and_bit (left right : UInt8) (position : Nat) :
    (left &&& right).toNat.testBit position =
      (left.toNat.testBit position && right.toNat.testBit position) := by
  rw [UInt8.toNat_and, Nat.testBit_and]

theorem or_bit (left right : UInt8) (position : Nat) :
    (left ||| right).toNat.testBit position =
      (left.toNat.testBit position || right.toNat.testBit position) := by
  rw [UInt8.toNat_or, Nat.testBit_or]

theorem complement_bit (byte : UInt8) {position : Nat} (inside : position < 8) :
    (~~~byte).toNat.testBit position = !byte.toNat.testBit position := by
  have bit := BitVec.getLsbD_not (x := byte.toBitVec) (i := position)
  rw [decide_eq_true inside, Bool.true_and] at bit
  exact bit

section Power

variable {mask : UInt8} {position : Nat}

theorem power_bit (power : mask.toNat = 2 ^ position) (other : Nat) :
    mask.toNat.testBit other = decide (position = other) := by
  rw [power, Nat.testBit_two_pow]

theorem and_power (power : mask.toNat = 2 ^ position) (byte : UInt8) :
    byte &&& mask = if byte.toNat.testBit position then mask else 0 := by
  apply eq_of_bits
  intro other _
  rw [and_bit, power_bit power]
  by_cases same : position = other
  · subst same
    cases byte.toNat.testBit position <;> simp [power_bit power]
  · split <;> simp [power_bit power, same]

theorem and_power_eq_zero_iff (power : mask.toNat = 2 ^ position) (byte : UInt8) :
    byte &&& mask = 0 ↔ byte.toNat.testBit position = false := by
  have something : mask ≠ 0 := by
    rintro rfl
    exact absurd power (Nat.ne_of_lt (Nat.two_pow_pos position))
  rw [and_power power]
  cases byte.toNat.testBit position <;> simp [something]

end Power

theorem and_or_distributes (mask left right : UInt8) :
    mask &&& (left ||| right) = (mask &&& left) ||| (mask &&& right) := by
  apply eq_of_bits
  intro position _
  simp only [and_bit, or_bit, Bool.and_or_distrib_left]

theorem and_or_absorbs (byte mask : UInt8) : byte &&& (byte ||| mask) = byte := by
  apply eq_of_bits
  intro position _
  rw [and_bit, or_bit]
  cases byte.toNat.testBit position <;> rfl

theorem and_of_clear_rest {byte mask rest : UInt8} (whole : mask ||| rest = -1)
    (clear : byte &&& rest = 0) : byte &&& mask = byte := by
  calc byte &&& mask = (byte &&& mask) ||| (byte &&& rest) := by rw [clear, UInt8.or_zero]
    _ = byte &&& (mask ||| rest) := (and_or_distributes byte mask rest).symm
    _ = byte := by rw [whole, UInt8.and_neg_one]

theorem set_clear_comm {set clear : UInt8} (disjoint : set &&& clear = 0) (byte : UInt8) :
    byte &&& ~~~clear ||| set = (byte ||| set) &&& ~~~clear := by
  apply eq_of_bits
  intro position inside
  have bit := congrArg (fun byte : UInt8 => byte.toNat.testBit position) disjoint
  simp only [and_bit, UInt8.toNat_zero, Nat.zero_testBit] at bit
  simp only [and_bit, or_bit, complement_bit _ inside]
  grind

theorem clear_covered {byte mask pending : UInt8} (covered : pending &&& mask = mask) :
    byte &&& ~~~mask &&& ~~~(pending &&& ~~~mask) = byte &&& ~~~pending := by
  apply eq_of_bits
  intro position inside
  have bit := congrArg (fun byte : UInt8 => byte.toNat.testBit position) covered
  simp only [and_bit] at bit
  simp only [and_bit, complement_bit _ inside]
  grind

theorem complement_or_and (mask byte : UInt8) : ~~~mask ||| (byte &&& mask) = ~~~mask ||| byte := by
  apply eq_of_bits
  intro position inside
  rw [or_bit, or_bit, and_bit, complement_bit mask inside]
  cases mask.toNat.testBit position <;> simp

end Handheld
