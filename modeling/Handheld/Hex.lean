/-!
# Hexadecimal text

Messages show bytes and addresses as `0x` and lowercase digits, filled up with zeros to the full
width of the value. Byte strings are written as two digits a byte, and read with digits of either
case.
-/

namespace Handheld.Hex

set_option autoImplicit false

/-- At least `width` lowercase digits of `value`. -/
def digits (width value : Nat) : String :=
  let significant := Nat.toDigits 16 value
  String.ofList (List.replicate (width - significant.length) '0' ++ significant)

def byte (value : UInt8) : String :=
  "0x" ++ digits 2 value.toNat

def address (value : UInt16) : String :=
  "0x" ++ digits 4 value.toNat

def ofBytes (bytes : List UInt8) : String :=
  String.ofList (bytes.flatMap fun byte =>
    [Nat.digitChar (byte.toNat / 16), Nat.digitChar (byte.toNat % 16)])

def digit? (letter : Char) : Option Nat :=
  if '0' ≤ letter ∧ letter ≤ '9' then some (letter.toNat - '0'.toNat)
  else if 'a' ≤ letter ∧ letter ≤ 'f' then some (letter.toNat - 'a'.toNat + 10)
  else if 'A' ≤ letter ∧ letter ≤ 'F' then some (letter.toNat - 'A'.toNat + 10)
  else none

def toBytes? : List Char → Option (List UInt8)
  | [] => some []
  | [_] => none
  | high :: low :: rest =>
    match digit? high, digit? low, toBytes? rest with
    | some high, some low, some bytes => some (UInt8.ofNat (high * 16 + low) :: bytes)
    | _, _, _ => none

end Handheld.Hex
