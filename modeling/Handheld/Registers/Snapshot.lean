import Handheld.Fault
import Handheld.Hex
import Handheld.Registers

/-!
# Snapshots of the register file

A snapshot is fifteen bytes: a version, the register bytes in storage order, and one byte whose two
low bits are the master interrupt switch and the halt state. Reading takes a snapshot off the front
of its input and gives back the rest. It refuses a short input first, then an unknown version, then
undefined bits of the last byte, and it clears the low bits of `F`.
-/

namespace Handheld

set_option autoImplicit false

inductive SnapshotError where
  /-- The input ends before the snapshot does. -/
  | shortInput
  /-- The buffer ends before the snapshot does. -/
  | noRoom
  | unsupportedVersion (version : UInt8)
  | undefinedFlags (flags : UInt8)
  deriving DecidableEq

def SnapshotError.message : SnapshotError → String
  | shortInput | noRoom => "snapshot i/o failed"
  | unsupportedVersion version =>
      "unsupported register snapshot version " ++ toString version.toNat
  | undefinedFlags flags =>
      "register snapshot flag byte " ++ Hex.byte flags ++ " has undefined bits set"

namespace Registers

def snapshotVersion : UInt8 := 1

def snapshotBytes : Nat := 15

def imeBit : UInt8 := 0x01

def haltBit : UInt8 := 0x02

/-- The switches of the register file in one byte. -/
def switches (registers : Registers) : UInt8 :=
  (if registers.ime then imeBit else 0) ||| (if registers.halted then haltBit else 0)

def encode (registers : Registers) : List UInt8 :=
  snapshotVersion :: registers.storage.toList ++ [registers.switches]

/-- The register file with these bytes and switches, the low bits of `F` cleared. -/
def ofParts (storage : Vector UInt8 13) (switches : UInt8) : Registers where
  storage := storage.set Reg8.f.offset.val (storage[Reg8.f.offset] &&& flagMask)
    Reg8.f.offset.isLt
  ime := switches &&& imeBit ≠ 0
  halted := switches &&& haltBit ≠ 0

def decode (input : List UInt8) : Except SnapshotError (Registers × List UInt8) :=
  if _enough : 15 ≤ input.length then
    let version := input[0]
    let flags := input[14]
    if version ≠ snapshotVersion then .error (.unsupportedVersion version)
    else if flags &&& ~~~(imeBit ||| haltBit) ≠ 0 then .error (.undefinedFlags flags)
    else
      let storage := Vector.ofFn fun position : Fin 13 => input[position.val + 1]
      .ok (ofParts storage flags, input.drop snapshotBytes)
  else .error .shortInput

/-- Takes over the snapshot at the front of the input and answers the bytes after it. A refused
input leaves the registers as they are. -/
def restore (registers : Registers) (input : List UInt8) :
    Attempt Registers SnapshotError (List UInt8) :=
  match decode input with
  | .ok (restored, rest) => ⟨restored, .ok rest⟩
  | .error error => ⟨registers, .error error⟩

def encodeInto (registers : Registers) (buffer : List UInt8) :
    Except SnapshotError (List UInt8) :=
  if snapshotBytes ≤ buffer.length then .ok (registers.encode ++ buffer.drop snapshotBytes)
  else .error .noRoom

end Registers

end Handheld
