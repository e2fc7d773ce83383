import Handheld.Proofs.AddressMap
import Handheld.Proofs.Board
import Handheld.Proofs.Control

/-!
# The stack

A push writes the two addresses below the stack pointer, whatever stands behind them. Where they are
cells of RAM, it changes these cells and nothing else of the board, and a pop gives back what was
pushed. To push the same word again changes nothing.
-/

namespace Handheld

set_option autoImplicit false

theorem Board.read_rom {board : Board} {address : UInt16}
    (rom : Region.ofAddress address = .rom) : board.read address = board.memory.read address := by
  have plain : Region.ofAddress address ≠ .io := by
    rw [rom]
    decide
  rw [read_eq, Location.of_address_of_region plain, rom]
  rfl

/-- The board after a word was pushed below a stack pointer. -/
def Board.stacked (board : Board) (sp word : UInt16) : Board :=
  (board.write (sp - 1) (Word.highByte word)).write (sp - 2) (Word.lowByte word)

structure StackInRam (sp : UInt16) : Prop where
  high : (Region.ofAddress (sp - 1)).IsRam
  low : (Region.ofAddress (sp - 2)).IsRam

def Memory.stack (memory : Memory) (sp word : UInt16) : Memory :=
  (memory.write (ramCell (sp - 1)) (Word.highByte word)).write (ramCell (sp - 2))
    (Word.lowByte word)

namespace Memory

variable (memory : Memory) {sp : UInt16} (word : UInt16)

theorem read_stack_other {cell : UInt16} (high : cell ≠ ramCell (sp - 1))
    (low : cell ≠ ramCell (sp - 2)) : (memory.stack sp word).read cell = memory.read cell := by
  rw [stack, read_write, if_neg low, read_write, if_neg high]

theorem read_stack_low : (memory.stack sp word).read (ramCell (sp - 2)) = Word.lowByte word := by
  rw [stack, read_write, if_pos rfl]

theorem read_stack_high (ram : StackInRam sp) :
    (memory.stack sp word).read (ramCell (sp - 1)) = Word.highByte word := by
  rw [stack, read_write, if_neg (neighbours_apart ram.high ram.low), read_write, if_pos rfl]

theorem stack_stack : (memory.stack sp word).stack sp word = memory.stack sp word := by
  apply Memory.ext
  intro cell
  simp only [stack, read_write]
  split
  · rfl
  · split <;> rfl

end Memory

theorem Board.stacked_ram (board : Board) {sp : UInt16} (ram : StackInRam sp) (word : UInt16) :
    board.stacked sp word = { board with memory := board.memory.stack sp word } := by
  simp only [stacked, write_ram ram.high, write_ram ram.low, poke, Memory.stack]

namespace Context

variable {registers : Registers} {board : Board}

theorem push_registers (context : Context Board) (word : UInt16) :
    (context.push word).registers = context.registers.setSp (context.registers.sp - 2) := by
  simp only [push, Word.two_below]

theorem push_bus (word : UInt16) :
    (push ⟨registers, board⟩ word).bus = board.stacked registers.sp word := by
  simp only [push, Word.two_below, Board.bus_write, Board.stacked]

theorem pop_ram {sp word : UInt16} (ram : StackInRam sp) (below : registers.sp = sp - 2)
    {memory : Memory} (stacked : board.memory = memory.stack sp word) :
    pop ⟨registers, board⟩ = (word, ⟨registers.setSp sp, board⟩) := by
  have above : sp - 2 + 1 = sp - 1 := by grind
  have back : sp - 2 + 2 = sp := by grind
  simp only [pop, mapRegisters, below, above, back, Board.bus_read, Board.read_ram ram.low,
    Board.read_ram ram.high, stacked, Memory.read_stack_low, Memory.read_stack_high _ _ ram,
    Word.ofBytes_highByte_lowByte]

end Context

end Handheld
