import Handheld.Cartridge

/-!
# Backing memory

One byte for each of the 65536 addresses, without any meaning given to an address. The view of a
memory is `read`: two memories that read alike everywhere are equal.
-/

namespace Handheld

set_option autoImplicit false

structure Memory where
  cells : Vector UInt8 65536

namespace Memory

def size : Nat := 65536

def blank : Memory := ⟨Vector.replicate 65536 0⟩

def read (memory : Memory) (address : UInt16) : UInt8 :=
  have _inside := address.toNat_lt
  memory.cells[address.toNat]

def write (memory : Memory) (address : UInt16) (value : UInt8) : Memory :=
  ⟨memory.cells.set address.toNat value address.toNat_lt⟩

/-- Writes the bytes one after another; the last address is followed by the first. -/
def load : Memory → UInt16 → List UInt8 → Memory
  | memory, _, [] => memory
  | memory, address, byte :: rest => load (memory.write address byte) (address + 1) rest

/-- Fills the cartridge window with the image and zeros after its end. -/
def mapCartridge (memory : Memory) (image : Cartridge.Image) : Memory :=
  ⟨memory.cells.mapIdx fun position old =>
    if position < Cartridge.windowSize then image.getD position 0 else old⟩

def slice (memory : Memory) (address : UInt16) (count : Nat) : List UInt8 :=
  (List.range count).map fun distance => memory.read (address + UInt16.ofNat distance)

@[simp] theorem read_blank (address : UInt16) : blank.read address = 0 := by
  simp [blank, read]

theorem read_write (memory : Memory) (target address : UInt16) (value : UInt8) :
    (memory.write target value).read address =
      if address = target then value else memory.read address := by
  simp only [read, write, Vector.getElem_set]
  by_cases same : address = target
  · simp [same]
  · have apart : target.toNat ≠ address.toNat :=
      fun equal => same (UInt16.toNat.inj equal).symm
    simp [same, apart]

theorem read_mapCartridge (memory : Memory) (image : Cartridge.Image) (address : UInt16) :
    (memory.mapCartridge image).read address =
      if address.toNat < Cartridge.windowSize then image.getD address.toNat 0
      else memory.read address := by
  simp [read, mapCartridge]

@[ext] theorem ext {left right : Memory}
    (alike : ∀ address, left.read address = right.read address) : left = right := by
  cases left with
  | mk leftCells =>
    cases right with
    | mk rightCells =>
      congr
      apply Vector.ext
      intro position bound
      have same := alike (UInt16.ofNat position)
      simpa [read, Nat.mod_eq_of_lt bound] using same

end Memory

end Handheld
