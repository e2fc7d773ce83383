import Handheld.Instruction

/-!
# The opcode table

One slot for each of the 256 opcodes, empty or with a handler. To dispatch an opcode whose slot is
empty is a fault, which names the address that the opcode was fetched from.
-/

namespace Handheld

set_option autoImplicit false

structure OpcodeTable (β : Type) where
  slots : Vector (Option (Handler β)) 256

namespace OpcodeTable

variable {β : Type}

def size : Nat := 256

def opcodes : List UInt8 := (List.range 256).map UInt8.ofNat

def empty : OpcodeTable β := ⟨Vector.replicate 256 none⟩

def handler? (table : OpcodeTable β) (opcode : UInt8) : Option (Handler β) :=
  have _inside := opcode.toNat_lt
  table.slots[opcode.toNat]

def set (table : OpcodeTable β) (opcode : UInt8) (handler : Handler β) : OpcodeTable β :=
  ⟨table.slots.set opcode.toNat (some handler) opcode.toNat_lt⟩

/-- Puts a handler into a slot; the answer is the one it replaces. -/
def install (table : OpcodeTable β) (opcode : UInt8) (handler : Handler β) :
    Option (Handler β) × OpcodeTable β :=
  (table.handler? opcode, table.set opcode handler)

def ofList (handlers : List (UInt8 × Handler β)) : OpcodeTable β :=
  handlers.foldl (fun table (opcode, handler) => table.set opcode handler) empty

def unassigned (table : OpcodeTable β) : List UInt8 :=
  opcodes.filter fun opcode => (table.handler? opcode).isNone

/-- Puts the handler into every empty slot. -/
def fillUnassigned (table : OpcodeTable β) (handler : Handler β) : OpcodeTable β :=
  ⟨table.slots.map fun slot => some (slot.getD handler)⟩

def installedCount (table : OpcodeTable β) : Nat :=
  table.slots.toList.countP Option.isSome

def summary (table : OpcodeTable β) : String :=
  "OpcodeTable \x7b installed: " ++ toString table.installedCount ++ " \x7d"

def control [Bus β] : OpcodeTable β := ofList Instruction.control

/-- Carries out the instruction of an opcode that the program counter has just passed. -/
def dispatch (table : OpcodeTable β) (opcode : UInt8) (context : Context β) :
    Attempt (Context β) Fault Unit :=
  match table.handler? opcode with
  | some handler => ⟨handler context, .ok ()⟩
  | none => ⟨context, .error (.unassignedOpcode opcode (context.registers.pc - 1))⟩

theorem handler?_empty (opcode : UInt8) : (empty : OpcodeTable β).handler? opcode = none := by
  simp [empty, handler?]

theorem handler?_set (table : OpcodeTable β) (target opcode : UInt8) (handler : Handler β) :
    (table.set target handler).handler? opcode =
      if opcode = target then some handler else table.handler? opcode := by
  simp only [set, handler?, Vector.getElem_set]
  by_cases same : opcode = target
  · simp [same]
  · have apart : target.toNat ≠ opcode.toNat :=
      fun equal => same (UInt8.toNat.inj equal).symm
    simp [same, apart]

theorem handler?_fillUnassigned (table : OpcodeTable β) (handler : Handler β)
    (opcode : UInt8) :
    (table.fillUnassigned handler).handler? opcode =
      some ((table.handler? opcode).getD handler) := by
  simp [fillUnassigned, handler?]

end OpcodeTable

end Handheld
