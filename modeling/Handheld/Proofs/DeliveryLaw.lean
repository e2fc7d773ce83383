import Handheld.Proofs.Board
import Handheld.Proofs.Step

/-!
# The law of delivery

A step delivers exactly when the instruction left the master switch on and a source pending. Then it
delivers the pending source with the lowest bit, at the cost of four cycles more. A step that ends
with the master switch on leaves no source pending but the timer, and that one only if the counter
overflowed in this very step.
-/

namespace Handheld.Cpu

set_option autoImplicit false

structure Entered (source : Interrupt) (before after : Registers) : Prop where
  pc_eq : after.pc = 0x40 + 8 * source.bit.toUInt16
  sp_eq : after.sp = before.sp - 2
  ime_eq : after.ime = false
  halted_eq : after.halted = false
  cost_eq : after.cost = 0
  kept : ∀ view : Reg8, view ≠ .m → after.get8 view = before.get8 view

theorem enter_entered (registers : Registers) (bus : Board) (source : Interrupt) :
    Entered source registers
      ((Context.enter ⟨registers.setCost 0, bus⟩ source).registers.setCost 0) := by
  rw [Context.enter_registers]
  constructor
  · simp only [Registers.pc_setCost, Registers.pc_setPc, Interrupt.vector_eq]
  · simp only [Registers.sp_setCost, Registers.sp_setPc, Registers.sp_setSp, Word.two_below]
  · rfl
  · rfl
  · exact Registers.cost_setCost _ _
  · intro view notCost
    simp only [Registers.get8_setCost _ notCost, Registers.get8_setPc, Registers.get8_setSp,
      Registers.get8_setHalted, Registers.get8_setIme]

theorem enter_cost (context : Context Board) (source : Interrupt) :
    (context.enter source).registers.cost = 4 := by
  rw [Context.enter_registers, Registers.cost_setCost]

theorem pending_after_elapse {board : Board} (quiet : board.bank.pending = 0) (cycles : Nat)
    (source : Interrupt) (pending : (board.elapse cycles).bank.pending &&& source.mask ≠ 0) :
    source = .timer ∧ 0 < board.overflows cycles := by
  by_cases passed : 0 < board.overflows cycles
  · refine ⟨?_, passed⟩
    by_cases isTimer : source = .timer
    · exact isTimer
    · simp only [Board.elapse, if_pos passed] at pending
      rw [board.bank.pending_request_other (Ne.symm isTimer), quiet, UInt8.zero_and] at pending
      exact absurd rfl pending
  · rw [Board.elapse, if_neg passed, quiet, UInt8.zero_and] at pending
    exact absurd rfl pending

/-- The law between the context right after the first part of a step, the events that the step
tells, and its end. -/
structure DeliveryLaw (phase : Context Board) (told : List Event) (reached : Step Board)
    (cost : UInt32) : Prop where
  delivers_iff :
    (∃ source, .delivery source ∈ told) ↔
      phase.registers.ime = true ∧
        phase.bus.bank.flag &&& phase.bus.bank.enable &&& 0x1F ≠ 0
  delivery : ∀ source, .delivery source ∈ told →
    Interrupt.IsLowestSetBit (phase.bus.bank.flag &&& phase.bus.bank.enable &&& 0x1F) source ∧
      cost.toNat = 4 * (phase.registers.cost.toNat + 4) ∧
      Entered source phase.registers reached.cpu.registers
  no_delivery : (∀ source, .delivery source ∉ told) →
    cost.toNat = 4 * phase.registers.cost.toNat ∧
      reached.cpu.registers = phase.registers.setCost 0
  left_pending : reached.cpu.registers.ime = true → ∀ source : Interrupt,
    reached.bus.bank.flag &&& reached.bus.bank.enable &&& 0x1F &&& source.mask ≠ 0 →
      source = .timer ∧ 0 < phase.bus.overflows phase.registers.cost.toNat

section Cases

variable {cpu : Cpu Board} {board : Board} {cost : UInt32}

/-- With a delivery, the master switch is off at the end, so nothing is said about what is left. -/
theorem law_of_delivery (law : cpu.Completed board cost) {source : Interrupt}
    (ime : (cpu.executed board).registers.ime = true)
    (found : Interrupt.highestPriority (cpu.executed board).bus.bank.pending = some source)
    (served : cpu.serviced board = (some source,
      Context.enter ⟨(cpu.executed board).registers.setCost 0, (cpu.executed board).bus⟩ source)) :
    DeliveryLaw (cpu.executed board) (cpu.events board) (cpu.step board) cost := by
  have lowest := Interrupt.highest_priority_is_lowest_set_bit found
  have entered := enter_entered (cpu.executed board).registers (cpu.executed board).bus source
  have cycles := cpu.step_cycles_toNat board
  rw [served, enter_cost] at cycles
  have told : .delivery source ∈ cpu.events board := by
    rw [law.delivered_iff, served]
  constructor
  · refine ⟨fun _ => ⟨ime, ?_⟩, fun _ => ⟨source, told⟩⟩
    intro clear
    apply lowest.1
    change (cpu.executed board).bus.bank.pending = 0 at clear
    rw [clear, UInt8.zero_and]
  · intro other otherTold
    rw [law.delivered_iff, served] at otherTold
    obtain rfl := Option.some.inj otherTold
    rw [law.cost_eq, stepTicks, cycles, law.registers_eq, served]
    exact ⟨lowest, rfl, entered⟩
  · intro untold
    exact absurd told (untold source)
  · intro on
    rw [law.registers_eq, served, entered.ime_eq] at on
    contradiction

/-- Without a delivery, what is pending at the end came up while the time of the step passed. -/
theorem law_of_quiet (law : cpu.Completed board cost)
    (quiet : (cpu.executed board).registers.ime = false ∨
      (cpu.executed board).bus.bank.pending = 0)
    (served : cpu.serviced board =
      (none, ⟨(cpu.executed board).registers.setCost 0, (cpu.executed board).bus⟩)) :
    DeliveryLaw (cpu.executed board) (cpu.events board) (cpu.step board) cost := by
  have cycles := cpu.step_cycles_toNat board
  rw [served, Registers.cost_setCost, UInt8.toNat_zero, Nat.add_zero] at cycles
  have reached : (cpu.step board).bus =
      (cpu.executed board).bus.elapse (cpu.executed board).registers.cost.toNat := by
    rw [law.bus_eq, Board.bus_advanceTimer, Board.advance_timer_of_answered law.advanced, cycles,
      served]
  have silent : ∀ source, .delivery source ∉ cpu.events board := by
    intro source told
    rw [law.delivered_iff, served] at told
    contradiction
  have clear : (cpu.executed board).registers.ime = true →
      (cpu.executed board).bus.bank.pending = 0 := by
    intro ime
    rcases quiet with off | clear
    · exact absurd (off.symm.trans ime) Bool.false_ne_true
    · exact clear
  constructor
  · constructor
    · rintro ⟨source, told⟩
      exact absurd told (silent source)
    · rintro ⟨ime, pending⟩
      exact absurd (clear ime) pending
  · intro source told
    exact absurd told (silent source)
  · intro _
    rw [law.cost_eq, stepTicks, cycles, law.registers_eq, served, Registers.setCost_setCost]
    exact ⟨rfl, rfl⟩
  · intro ime source pending
    rw [law.registers_eq, served] at ime
    rw [reached] at pending
    exact pending_after_elapse (clear ime) _ source pending

end Cases

/-- The law holds of every completed step, whatever handlers the table has. -/
theorem step_delivery_law (cpu : Cpu Board) (board : Board) {cost : UInt32}
    (completed : (cpu.step board).ticks = .ok cost) :
    ∃ phase : Context Board,
      cpu.FirstPart board ⟨phase, .ok ()⟩ ∧
        DeliveryLaw phase (cpu.events board) (cpu.step board) cost := by
  have law := cpu.step_completed board completed
  have first := cpu.execute_first_part board
  rw [show (cpu.execute board).2 = ⟨cpu.executed board, .ok ()⟩ from
    congrArg (Attempt.mk _) law.answered] at first
  refine ⟨cpu.executed board, first, ?_⟩
  rcases cpu.serviced_cases board with ⟨source, ime, found, served⟩ | ⟨quiet, served⟩
  · exact law_of_delivery law ime found served
  · exact law_of_quiet law quiet served

/-- A processor at a no-operation, its stack pointer where a push meets the flag register. -/
def atFlagRegister : Cpu Board where
  registers := (Registers.zero.setSp 0xFF11).setIme true
  ticks := 0
  table := .control
  config := .standard

def twoPending : Board := { Board.bare.withTimer with bank := ⟨0x14, 0x1F⟩ }

theorem delivery_law_at_flag_register :
    (atFlagRegister.step twoPending).ticks = .ok 20 ∧
      ∃ phase : Context Board,
        atFlagRegister.FirstPart twoPending ⟨phase, .ok ()⟩ ∧
          DeliveryLaw phase (atFlagRegister.events twoPending)
            (atFlagRegister.step twoPending) 20 :=
  ⟨rfl, step_delivery_law atFlagRegister twoPending rfl⟩

end Handheld.Cpu
