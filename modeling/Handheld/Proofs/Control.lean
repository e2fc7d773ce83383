import Handheld.Delivery
import Handheld.OpcodeTable
import Handheld.Proofs.Registers

/-!
# The control instructions as data

One constructor for each control handler, so that a fact about a table of control instructions is a
case split over the instruction and not over 256 opcodes. Of these instructions only a restart
writes to the bus, and it writes the two cells below the stack pointer.
-/

namespace Handheld

set_option autoImplicit false

variable {β : Type} [Bus β]

inductive ControlInstruction where
  | nop
  | halt
  | disableInterrupts
  | enableInterrupts
  | jump
  | ret
  | retEnable
  | restart (vector : UInt16)

def ControlInstruction.handler : ControlInstruction → Handler β
  | nop => Instruction.nop
  | halt => Instruction.halt
  | disableInterrupts => Instruction.disableInterrupts
  | enableInterrupts => Instruction.enableInterrupts
  | jump => Instruction.jump
  | ret => Instruction.ret
  | retEnable => Instruction.retEnable
  | restart vector => Instruction.restart vector

namespace ControlInstruction

/-- Where the instruction goes on after its opcode was fetched. -/
def target (instruction : ControlInstruction) (context : Context β) : UInt16 :=
  let ⟨registers, bus⟩ := context
  match instruction with
  | nop | halt | disableInterrupts | enableInterrupts => registers.pc
  | jump => Word.ofBytes (Bus.read bus registers.advancePc.pc) (Bus.read bus registers.pc)
  | ret | retEnable => Word.ofBytes (Bus.read bus (registers.sp + 1)) (Bus.read bus registers.sp)
  | restart vector => vector

/-- What the instruction makes of the registers, but for the cost that it leaves. -/
def settled (instruction : ControlInstruction) (registers : Registers) (target : UInt16) :
    Registers :=
  match instruction with
  | nop => registers
  | halt => registers.setHalted true
  | disableInterrupts => registers.setIme false
  | enableInterrupts => registers.setIme true
  | jump => registers.advancePc.advancePc.setPc target
  | ret => (registers.setSp (registers.sp + 2)).setPc target
  | retEnable => ((registers.setSp (registers.sp + 2)).setPc target).setIme true
  | restart _ => (registers.setSp (registers.sp - 1 - 1)).setPc target

def cycles : ControlInstruction → UInt8
  | nop | halt | disableInterrupts | enableInterrupts => 1
  | jump | ret | retEnable | restart _ => 4

theorem handler_registers (instruction : ControlInstruction) (context : Context β) :
    (instruction.handler context).registers =
      (instruction.settled context.registers (instruction.target context)).setCost
        instruction.cycles := by
  cases instruction with
  | nop | halt | disableInterrupts | enableInterrupts | jump | ret | retEnable | restart => rfl

theorem settled_get8 (instruction : ControlInstruction) (registers : Registers) (target : UInt16)
    (view : Reg8) : (instruction.settled registers target).get8 view = registers.get8 view := by
  cases instruction with
  | nop | halt | disableInterrupts | enableInterrupts | jump | ret | retEnable | restart =>
      simp [settled, Registers.advancePc]

end ControlInstruction

def ControlInstruction.opcodes : List (UInt8 × ControlInstruction) :=
  [(Opcode.nop, nop), (Opcode.halt, halt), (Opcode.jump, jump), (Opcode.ret, ret),
   (Opcode.retEnable, retEnable), (Opcode.disableInterrupts, disableInterrupts),
   (Opcode.enableInterrupts, enableInterrupts)] ++
  Opcode.restarts.map fun (opcode, vector) => (opcode, restart vector)

def OpcodeTable.OnlyControl (table : OpcodeTable β) : Prop :=
  ∀ opcode handler, table.handler? opcode = some handler →
    ∃ instruction : ControlInstruction, handler = instruction.handler

namespace OpcodeTable

theorem set_only_control {table : OpcodeTable β} (only : table.OnlyControl) (target : UInt8)
    (instruction : ControlInstruction) : (table.set target instruction.handler).OnlyControl := by
  intro opcode handler installed
  rw [handler?_set] at installed
  split at installed
  · exact ⟨instruction, (Option.some.inj installed).symm⟩
  · exact only opcode handler installed

theorem fill_only_control {table : OpcodeTable β} (only : table.OnlyControl)
    (instruction : ControlInstruction) :
    (table.fillUnassigned instruction.handler).OnlyControl := by
  intro opcode handler installed
  rw [handler?_fillUnassigned] at installed
  cases slot : table.handler? opcode with
  | none =>
      rw [slot] at installed
      exact ⟨instruction, (Option.some.inj installed).symm⟩
  | some present =>
      rw [slot] at installed
      exact only opcode handler (slot.trans installed)

theorem empty_only_control : (empty : OpcodeTable β).OnlyControl := by
  intro opcode handler installed
  rw [handler?_empty] at installed
  contradiction

theorem list_only_control (entries : List (UInt8 × ControlInstruction))
    {table : OpcodeTable β} (only : table.OnlyControl) :
    (entries.foldl (fun table entry => table.set entry.1 entry.2.handler) table).OnlyControl := by
  induction entries generalizing table with
  | nil => exact only
  | cons entry rest induction => exact induction (set_only_control only entry.1 entry.2)

theorem control_only_control : (control : OpcodeTable β).OnlyControl :=
  list_only_control ControlInstruction.opcodes empty_only_control

end OpcodeTable

def ControlInstruction.decode (opcode : UInt8) : Option ControlInstruction :=
  (opcodes.find? (·.1 = opcode)).map Prod.snd

theorem ControlInstruction.decode_restart {opcode : UInt8} {vector : UInt16}
    (listed : (opcode, vector) ∈ Opcode.restarts) : decode opcode = some (.restart vector) := by
  simp only [Opcode.restarts, List.mem_cons, Prod.mk.injEq, List.not_mem_nil, or_false] at listed
  rcases listed with ⟨rfl, rfl⟩ | ⟨rfl, rfl⟩ | ⟨rfl, rfl⟩ | ⟨rfl, rfl⟩ | ⟨rfl, rfl⟩ | ⟨rfl, rfl⟩ |
    ⟨rfl, rfl⟩ | ⟨rfl, rfl⟩ <;> rfl

namespace OpcodeTable

theorem handler?_list {entries : List (UInt8 × ControlInstruction)}
    (distinct : (entries.map Prod.fst).Nodup) (table : OpcodeTable β) (opcode : UInt8) :
    (entries.foldl (fun table entry => table.set entry.1 entry.2.handler) table).handler? opcode =
      ((entries.find? (·.1 = opcode)).map (·.2.handler)).or (table.handler? opcode) := by
  induction entries generalizing table with
  | nil => rfl
  | cons entry rest induction =>
      rw [List.map_cons, List.nodup_cons] at distinct
      rw [List.foldl_cons, induction distinct.2, handler?_set]
      by_cases same : entry.1 = opcode
      · have unlisted : rest.find? (·.1 = opcode) = none := by
          rw [List.find?_eq_none]
          intro other member
          simp only [decide_eq_true_eq]
          intro again
          exact distinct.1 (same.trans again.symm ▸ List.mem_map_of_mem member)
        simp [same, unlisted]
      · simp [same, Ne.symm same]

theorem handler?_control (opcode : UInt8) :
    (control : OpcodeTable β).handler? opcode =
      (ControlInstruction.decode opcode).map ControlInstruction.handler := by
  have distinct : (ControlInstruction.opcodes.map Prod.fst).Nodup := by decide
  have listed := handler?_list distinct (empty : OpcodeTable β) opcode
  rw [handler?_empty, Option.or_none] at listed
  rw [ControlInstruction.decode, Option.map_map]
  exact listed

theorem dispatch_control {opcode : UInt8} {instruction : ControlInstruction}
    (decoded : ControlInstruction.decode opcode = some instruction) (context : Context β) :
    control.dispatch opcode context = ⟨instruction.handler context, .ok ()⟩ := by
  have installed := handler?_control (β := β) opcode
  rw [decoded] at installed
  rw [dispatch, installed]
  rfl

end OpcodeTable

def Registers.pushSlots (registers : Registers) : List UInt16 :=
  [registers.sp - 1, registers.sp - 2]

theorem Context.push_keeps (kept : β → Prop) (context : Context β) (word : UInt16)
    (keeps : ∀ address ∈ context.registers.pushSlots, ∀ bus value, kept bus →
      kept (Bus.write bus address value))
    (start : kept context.bus) : kept (context.push word).bus := by
  have high := keeps (context.registers.sp - 1) (by simp [Registers.pushSlots]) context.bus
    (Word.highByte word) start
  have low := keeps (context.registers.sp - 1 - 1)
    (by simp [Registers.pushSlots, Word.two_below]) _ (Word.lowByte word) high
  exact low

theorem ControlInstruction.handler_bus (instruction : ControlInstruction) (context : Context β) :
    (instruction.handler context).bus = context.bus ∨
      ∃ vector, instruction = .restart vector := by
  cases instruction with
  | restart vector => exact .inr ⟨vector, rfl⟩
  | _ => exact .inl rfl

end Handheld
