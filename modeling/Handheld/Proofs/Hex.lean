import Handheld.Fault
import Mathlib.Algebra.Group.Nat.Defs

/-!
# Hexadecimal text

The digits of a value are told here place by place, from the sixteen letters. A value that fits into
the width is written with just as many digits as the width has, zeros in front included. So a byte
shows its two halves and an address its four, and the message of a missing opcode names both.
-/

namespace Handheld

set_option autoImplicit false

namespace Hex

def letters : List Char :=
  ['0', '1', '2', '3', '4', '5', '6', '7', '8', '9', 'a', 'b', 'c', 'd', 'e', 'f']

def letter (digit : Nat) : Char := letters.getD digit '?'

/-- The last `width` digits of a value. -/
def places : Nat → Nat → List Char
  | 0, _ => []
  | width + 1, value => places width (value / 16) ++ [letter (value % 16)]

theorem letter_eq_digit_char {digit : Nat} (small : digit < 16) :
    letter digit = Nat.digitChar digit := by
  have all : ∀ digit ∈ List.range 16, letter digit = Nat.digitChar digit := by decide
  exact all digit (List.mem_range.mpr small)

theorem places_zero (width : Nat) : places width 0 = List.replicate width '0' := by
  induction width with
  | zero => rfl
  | succ width induction =>
      rw [places, Nat.zero_div, induction, List.replicate_succ']
      rfl

theorem digits_eq_places {width value : Nat} (fits : value < 16 ^ (width + 1)) :
    digits (width + 1) value = String.ofList (places (width + 1) value) := by
  suffices padded : List.replicate (width + 1 - (Nat.toDigits 16 value).length) '0' ++
      Nat.toDigits 16 value = places (width + 1) value from congrArg String.ofList padded
  induction width generalizing value with
  | zero =>
      have single : value < 16 := fits
      rw [Nat.toDigits_of_lt_base single, places, Nat.mod_eq_of_lt single,
        letter_eq_digit_char single]
      rfl
  | succ width induction =>
      have last := letter_eq_digit_char (Nat.mod_lt value (show 0 < 16 by decide))
      rw [places, last]
      rcases Nat.lt_or_ge value 16 with single | several
      · rw [Nat.toDigits_of_lt_base single, Nat.div_eq_of_lt single, Nat.mod_eq_of_lt single,
          places_zero]
        rfl
      · have front : value / 16 < 16 ^ (width + 1) := by omega
        rw [Nat.toDigits_of_base_le (by decide) several, ← induction front, List.length_append,
          List.length_singleton, Nat.add_sub_add_right, List.append_assoc]

def byteDigits (value : UInt8) : List Char :=
  [letter (value.toNat / 16), letter (value.toNat % 16)]

def addressDigits (value : UInt16) : List Char :=
  [letter (value.toNat / 4096), letter (value.toNat / 256 % 16), letter (value.toNat / 16 % 16),
    letter (value.toNat % 16)]

theorem byte_eq (value : UInt8) : byte value = "0x" ++ String.ofList (byteDigits value) := by
  have bound := value.toNat_lt
  have high : value.toNat / 16 % 16 = value.toNat / 16 := by omega
  rw [byte, digits_eq_places bound, places, places, places, high]
  rfl

theorem address_eq (value : UInt16) :
    address value = "0x" ++ String.ofList (addressDigits value) := by
  have bound := value.toNat_lt
  have first : value.toNat / 16 / 16 / 16 % 16 = value.toNat / 4096 := by omega
  have second : value.toNat / 16 / 16 % 16 = value.toNat / 256 % 16 := by omega
  rw [address, digits_eq_places bound, places, places, places, places, places, first, second]
  rfl

end Hex

namespace Fault

theorem unassigned_message (opcode : UInt8) (address : UInt16) :
    (unassignedOpcode opcode address).message =
      "no handler installed for opcode " ++ ("0x" ++ String.ofList (Hex.byteDigits opcode)) ++
        " at pc " ++ ("0x" ++ String.ofList (Hex.addressDigits address)) := by
  rw [← Hex.byte_eq, ← Hex.address_eq]
  rfl

example : (unassignedOpcode 0xD3 0xC00A).message =
    "no handler installed for opcode 0xd3 at pc 0xc00a" := by decide +kernel

end Fault

end Handheld
