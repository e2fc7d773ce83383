import Handheld.Proofs.AddressSpace
import Handheld.Proofs.Draining

/-!
# The interrupt registers at a delivery

A delivery clears the request it serves and then pushes the program counter, through the addresses
that a program writes to. Two of these belong to the interrupt registers. So the enable register
keeps its value unless the stack pointer is 0 or 1, and the flag register loses just the served
request unless the stack pointer is 0xFF10 or 0xFF11; at these four a byte of the program counter
lands in the register. Last comes the request of the timer, if its counter overflows.
-/

namespace Handheld

set_option autoImplicit false

namespace InterruptBank

def written (bank : InterruptBank) (address : UInt16) (value : UInt8) : InterruptBank where
  flag := if address = 0xFF0F then value &&& 0x1F else bank.flag
  enable := if address = 0xFFFF then value else bank.enable

/-- The registers after a word was pushed below a stack pointer. -/
def pushed (bank : InterruptBank) (sp word : UInt16) : InterruptBank where
  flag :=
    if sp = 0xFF10 then Word.highByte word &&& 0x1F
    else if sp = 0xFF11 then Word.lowByte word &&& 0x1F
    else bank.flag
  enable :=
    if sp = 0 then Word.highByte word
    else if sp = 1 then Word.lowByte word
    else bank.enable

theorem written_elsewhere (bank : InterruptBank) {address : UInt16} (notFlag : address ≠ 0xFF0F)
    (notEnable : address ≠ 0xFFFF) (value : UInt8) : bank.written address value = bank := by
  rw [written, if_neg notFlag, if_neg notEnable]

/-- No stack pointer has both its bytes in one of the registers, so the order does not matter. -/
theorem written_pushed (bank : InterruptBank) (sp word : UInt16) :
    (bank.written (sp - 1) (Word.highByte word)).written (sp - 2) (Word.lowByte word) =
      bank.pushed sp word := by
  apply InterruptBank.ext <;> simp only [written, pushed] <;> grind

end InterruptBank

namespace Board

theorem write_bank (board : Board) (address : UInt16) (value : UInt8) :
    (board.write address value).bank = board.bank.written address value := by
  have place := located address
  have written := board.write_written address value
  generalize board.write address value = next at written ⊢
  cases written with
  | flag found =>
      rw [found] at place
      cases place with
      | flag place => subst place; rfl
  | enable found =>
      rw [found] at place
      cases place with
      | enable place => subst place; rfl
  | keys found | timer found | plain found | cartridge found | gap found | ram found =>
      have elsewhere : address ≠ 0xFF0F ∧ address ≠ 0xFFFF := by
        rw [found] at place
        cases place
        grind [TimerRegister.address_bounds]
      exact (board.bank.written_elsewhere elsewhere.1 elsewhere.2 value).symm

theorem stacked_bank (board : Board) (sp word : UInt16) :
    (board.stacked sp word).bank = board.bank.pushed sp word := by
  rw [stacked, write_bank, write_bank, InterruptBank.written_pushed]

end Board

namespace Cpu

/-- The board when service of a source begins, before the time of the step passes. -/
def entering (cpu : Cpu Board) (board : Board) (source : Interrupt) : Board :=
  { board with bank := board.bank.acknowledge source }.stacked cpu.registers.sp cpu.resumePc

/-- What the interrupt registers hold after a step that delivered a source. -/
structure BankDelivered (cpu : Cpu Board) (board : Board) (source : Interrupt)
    (after : InterruptBank) : Prop where
  enable_eq : after.enable =
    if cpu.registers.sp = 0 then Word.highByte cpu.resumePc
    else if cpu.registers.sp = 1 then Word.lowByte cpu.resumePc
    else board.bank.enable
  flag_eq : after.flag =
    (if cpu.registers.sp = 0xFF10 then Word.highByte cpu.resumePc &&& 0x1F
      else if cpu.registers.sp = 0xFF11 then Word.lowByte cpu.resumePc &&& 0x1F
      else board.bank.flag &&& ~~~source.mask) |||
      if 0 < (cpu.entering board source).overflows 5 then Interrupt.timer.mask else 0

section Rest

variable {cpu : Cpu Board} {board : Board} {cost : UInt32} {source : Interrupt}

/-- From halt or from a no-operation, only the delivery and the time of the step touch the board. -/
theorem step_bus_of_rest (control : cpu.table = .control)
    (rest : cpu.registers.halted = true ∨ board.read cpu.registers.pc = Opcode.nop)
    (completed : (cpu.step board).ticks = .ok cost)
    (delivered : .delivery source ∈ cpu.events board) :
    (cpu.step board).bus = (cpu.entering board source).elapse 5 := by
  have law := cpu.step_completed board completed
  have executed : cpu.executed board =
      ⟨(cpu.registers.setPc cpu.resumePc).setCost 1, board⟩ := by
    rw [Cpu.executed, idle_executes control rest]
  have cycles := cpu.step_cycles_toNat board
  rw [law.delivered_iff] at delivered
  rcases cpu.serviced_cases board with ⟨found, _, _, served⟩ | ⟨_, served⟩
  · rw [served] at delivered cycles
    obtain rfl : found = source := Option.some.inj delivered
    have entered : (cpu.serviced board).2.bus = cpu.entering board found := by
      rw [served, executed, Context.enter_bus, entering]
      simp only [Registers.sp_setCost, Registers.sp_setPc, Registers.pc_setCost,
        Registers.pc_setPc]
    rw [Context.enter_registers, Registers.cost_setCost, executed,
      Registers.cost_setCost] at cycles
    rw [law.bus_eq, Board.bus_advanceTimer, Board.advance_timer_of_answered law.advanced, entered,
      cycles]
    rfl
  · rw [served] at delivered
    contradiction

theorem bank_delivered (control : cpu.table = .control)
    (rest : cpu.registers.halted = true ∨ board.read cpu.registers.pc = Opcode.nop)
    (completed : (cpu.step board).ticks = .ok cost)
    (delivered : .delivery source ∈ cpu.events board) :
    cpu.BankDelivered board source (cpu.step board).bus.bank := by
  have entered : (cpu.entering board source).bank =
      (board.bank.acknowledge source).pushed cpu.registers.sp cpu.resumePc :=
    Board.stacked_bank _ _ _
  rw [step_bus_of_rest control rest completed delivered, Board.elapse]
  by_cases passed : 0 < (cpu.entering board source).overflows 5
  · constructor
    · simp only [if_pos passed, entered]
      rfl
    · simp only [if_pos passed, entered]
      rfl
  · constructor
    · simp only [if_neg passed, entered]
      rfl
    · simp only [if_neg passed, entered, UInt8.or_zero]
      rfl

end Rest

/-- A processor that sleeps with its stack pointer at 0, so that the high byte of a pushed word goes
to the enable register. -/
def asleepAtBottom : Cpu Board where
  registers := ((Registers.zero.setPc 0xC000).setHalted true).setIme true
  ticks := 0
  table := .control
  config := .standard

def timerPending : Board := { Board.bare with bank := ⟨0x04, 0x04⟩ }

theorem bank_delivered_at_bottom :
    asleepAtBottom.registers.halted = true ∧
      (asleepAtBottom.step timerPending).ticks = .ok 20 ∧
      asleepAtBottom.BankDelivered timerPending .timer
        (asleepAtBottom.step timerPending).bus.bank :=
  ⟨rfl, rfl, bank_delivered rfl (.inl rfl) rfl (.tail _ (.head _))⟩

/-- So the delivery of a source does not always leave the enable register alone. -/
theorem enable_overwritten_at_bottom :
    asleepAtBottom.table = .control ∧ asleepAtBottom.registers.halted = true ∧
      (asleepAtBottom.step timerPending).ticks = .ok 20 ∧
      .delivery .timer ∈ asleepAtBottom.events timerPending ∧
      timerPending.bank.enable = 0x04 ∧
      (asleepAtBottom.step timerPending).bus.bank.enable = 0xC0 :=
  ⟨rfl, rfl, rfl, .tail _ (.head _), rfl, rfl⟩

end Cpu

end Handheld
