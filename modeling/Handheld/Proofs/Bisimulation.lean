import Handheld.Proofs.Step

/-!
# Buses that a processor cannot tell apart

A processor learns of its bus what it reads, which requests are pending, and whether time passed
without a fault. Where two buses agree on this, and go on agreeing whatever is written, acknowledged
or waited for, the steps of two processors with the same registers report the same notices, cost the
same and fault alike. The cost slot may differ before a step: it is written before it is read.
-/

namespace Handheld

set_option autoImplicit false

variable {β γ : Type} [Bus β] [Bus γ]

structure Bisimulation (alike : β → γ → Prop) : Prop where
  read_eq : ∀ {left right}, alike left right →
    ∀ address, Bus.read left address = Bus.read right address
  pending_eq : ∀ {left right}, alike left right →
    (Bus.bank left).pending = (Bus.bank right).pending
  write : ∀ {left right}, alike left right →
    ∀ address value, alike (Bus.write left address value) (Bus.write right address value)
  acknowledge : ∀ {left right}, alike left right → ∀ source,
    alike (Bus.setBank left ((Bus.bank left).acknowledge source))
      (Bus.setBank right ((Bus.bank right).acknowledge source))
  wait_answer : ∀ {left right}, alike left right → ∀ cycles,
    (Bus.advanceTimer left cycles).answer = (Bus.advanceTimer right cycles).answer
  wait : ∀ {left right}, alike left right → ∀ cycles,
    alike (Bus.advanceTimer left cycles).state (Bus.advanceTimer right cycles).state

/-- Equal but for the cost slot. -/
def Registers.SameButCost (left right : Registers) : Prop :=
  left.setCost 0 = right.setCost 0

theorem Registers.exists_cost {left right : Registers} (same : left.SameButCost right) :
    ∃ cycles, right = left.setCost cycles := by
  refine ⟨right.cost, ?_⟩
  rw [← left.setCost_setCost 0, same, right.setCost_setCost, right.setCost_cost]

theorem ControlInstruction.settled_setCost (instruction : ControlInstruction)
    (registers : Registers) (target : UInt16) (cycles : UInt8) :
    instruction.settled (registers.setCost cycles) target =
      (instruction.settled registers target).setCost cycles := by
  cases instruction with
  | nop | halt | disableInterrupts | enableInterrupts => rfl
  | jump => simp only [settled, Registers.advancePc_setCost, Registers.setPc_setCost]
  | ret | restart =>
      simp only [settled, Registers.sp_setCost, Registers.setSp_setCost, Registers.setPc_setCost]
  | retEnable =>
      simp only [settled, Registers.sp_setCost, Registers.setSp_setCost, Registers.setPc_setCost]
      rfl

/-- The same registers, on buses that are alike. -/
structure Context.Alike (alike : β → γ → Prop) (left : Context β) (right : Context γ) : Prop where
  registers : left.registers = right.registers
  bus : alike left.bus right.bus

namespace Cpu

/-- Equal but for the cost slot, and with the control instructions. -/
structure Matches (left : Cpu β) (right : Cpu γ) : Prop where
  registers : left.registers.SameButCost right.registers
  ticks : left.ticks = right.ticks
  config : left.config = right.config
  leftTable : left.table = .control
  rightTable : right.table = .control

/-- What two steps led to. -/
structure Step.Matches (alike : β → γ → Prop) (left : Step β) (right : Step γ) : Prop where
  cpu : left.cpu.Matches right.cpu
  bus : alike left.bus right.bus
  notices : left.notices = right.notices
  ticks : left.ticks = right.ticks

theorem Matches.reset {left : Cpu β} {right : Cpu γ} (cpus : left.Matches right) :
    left.reset.Matches right.reset := by
  obtain ⟨_, _, config, leftTable, rightTable⟩ := cpus
  simp only [Cpu.reset]
  constructor
  · simp only [config]
    rfl
  · rfl
  · exact config
  · exact leftTable
  · exact rightTable

theorem Matches.advance {left : Cpu β} {right : Cpu γ} (cpus : left.Matches right) :
    left.registers.advancePc.SameButCost right.registers.advancePc := by
  obtain ⟨cycles, moved⟩ := Registers.exists_cost cpus.registers
  rw [Registers.SameButCost, moved, Registers.advancePc_setCost, Registers.setCost_setCost]

end Cpu

section Step

variable {alike : β → γ → Prop} (bisimulation : Bisimulation alike) {leftBus : β} {rightBus : γ}
include bisimulation

theorem push_alike (buses : alike leftBus rightBus) {left right : Registers}
    (sp : left.sp = right.sp) (word : UInt16) :
    alike (Context.push ⟨left, leftBus⟩ word).bus (Context.push ⟨right, rightBus⟩ word).bus := by
  have high := bisimulation.write buses (left.sp - 1) (Word.highByte word)
  have low := bisimulation.write high (left.sp - 1 - 1) (Word.lowByte word)
  simp only [Context.push]
  rw [← sp]
  exact low

theorem handler_alike (buses : alike leftBus rightBus) (instruction : ControlInstruction)
    {left right : Registers} (same : left.SameButCost right) :
    Context.Alike alike (instruction.handler ⟨left, leftBus⟩)
      (instruction.handler ⟨right, rightBus⟩) := by
  obtain ⟨cycles, rfl⟩ := Registers.exists_cost same
  -- An instruction reads nothing of the registers but the two counters, and it sets the cost anew.
  have pc := left.pc_setCost cycles
  have sp := left.sp_setCost cycles
  constructor
  · have target : instruction.target ⟨left, leftBus⟩ =
        instruction.target ⟨left.setCost cycles, rightBus⟩ := by
      cases instruction with
      | nop | halt | disableInterrupts | enableInterrupts => exact pc.symm
      | jump =>
          simp only [ControlInstruction.target, Registers.advancePc_setCost, Registers.pc_setCost,
            bisimulation.read_eq buses]
      | ret | retEnable => simp only [ControlInstruction.target, sp, bisimulation.read_eq buses]
      | restart => rfl
    rw [instruction.handler_registers, instruction.handler_registers, target,
      instruction.settled_setCost, Registers.setCost_setCost]
  · cases instruction with
    | nop | halt | disableInterrupts | enableInterrupts | jump | ret | retEnable => exact buses
    | restart vector =>
        have pushed := push_alike bisimulation buses sp.symm left.pc
        simp only [ControlInstruction.handler, Instruction.restart]
        rw [pc]
        exact pushed

theorem enter_alike (buses : alike leftBus rightBus) (registers : Registers) (source : Interrupt) :
    Context.Alike alike (Context.enter ⟨registers, leftBus⟩ source)
      (Context.enter ⟨registers, rightBus⟩ source) :=
  ⟨rfl, push_alike bisimulation (bisimulation.acknowledge buses source) rfl _⟩

theorem service_alike (buses : alike leftBus rightBus) (registers : Registers) :
    (Context.service ⟨registers, leftBus⟩).1 = (Context.service ⟨registers, rightBus⟩).1 ∧
      Context.Alike alike (Context.service ⟨registers, leftBus⟩).2
        (Context.service ⟨registers, rightBus⟩).2 := by
  simp only [Context.service, Context.deliver, bisimulation.pending_eq buses]
  cases registers.ime with
  | false => exact ⟨rfl, rfl, buses⟩
  | true =>
      cases Interrupt.priorityTable.entry (Bus.bank rightBus).pending with
      | none => exact ⟨rfl, rfl, buses⟩
      | some source => exact ⟨rfl, enter_alike bisimulation buses registers source⟩

namespace Cpu

variable {left : Cpu β} {right : Cpu γ}

theorem executes_alike (cpus : left.Matches right) (buses : alike leftBus rightBus) :
    ((left.execute leftBus).2.answer = .ok () ∧ (right.execute rightBus).2.answer = .ok () ∧
        Context.Alike alike (left.executed leftBus) (right.executed rightBus)) ∨
      ∃ fault, (left.execute leftBus).2.answer = .error fault ∧
        (right.execute rightBus).2.answer = .error fault := by
  obtain ⟨cycles, moved⟩ := Registers.exists_cost cpus.registers
  have pc : right.registers.pc = left.registers.pc := by rw [moved, Registers.pc_setCost]
  have same : right.registers.halted = left.registers.halted := by
    rw [moved, Registers.halted_setCost]
  have fetched : Bus.read rightBus right.registers.pc = Bus.read leftBus left.registers.pc := by
    rw [pc, bisimulation.read_eq buses]
  unfold executed
  cases halted : left.registers.halted with
  | true =>
      rw [execute_of_halted halted, execute_of_halted (same.trans halted)]
      refine .inl ⟨rfl, rfl, ?_, buses⟩
      rw [moved]
      exact (Registers.setCost_setCost _ _ _).symm
  | false =>
      have running := same.trans halted
      have leftSlot := OpcodeTable.handler?_control (β := β) (Bus.read leftBus left.registers.pc)
      have rightSlot := OpcodeTable.handler?_control (β := γ)
        (Bus.read rightBus right.registers.pc)
      rw [← cpus.leftTable] at leftSlot
      rw [← cpus.rightTable, fetched] at rightSlot
      cases decoded : ControlInstruction.decode (Bus.read leftBus left.registers.pc) with
      | some instruction =>
          rw [decoded] at leftSlot rightSlot
          rw [execute_of_handler halted leftSlot, execute_of_handler running (fetched ▸ rightSlot)]
          exact .inl ⟨rfl, rfl, handler_alike bisimulation buses instruction cpus.advance⟩
      | none =>
          rw [decoded] at leftSlot rightSlot
          rw [execute_of_missing halted leftSlot, execute_of_missing running (fetched ▸ rightSlot),
            fetched, pc]
          exact .inr ⟨_, rfl, rfl⟩

theorem retire_matches (cpus : left.Matches right) {settled : Context β} {other : Context γ}
    (contexts : Context.Alike alike settled other) (notices : List Notice) (cycles : UInt32) :
    Step.Matches alike (left.retire settled notices cycles) (right.retire other notices cycles) := by
  obtain ⟨registers, leftSettled⟩ := settled
  obtain ⟨_, rightSettled⟩ := other
  obtain ⟨rfl, buses⟩ := contexts
  have answer := bisimulation.wait_answer buses cycles
  have waited := bisimulation.wait buses cycles
  have kept : ∀ ticks, Matches { left with registers, ticks } { right with registers, ticks } :=
    fun _ => ⟨rfl, rfl, cpus.config, cpus.leftTable, cpus.rightTable⟩
  simp only [retire, cpus.ticks]
  cases tally right.ticks cycles with
  | error fault => exact ⟨kept _, buses, rfl, rfl⟩
  | ok total =>
      dsimp only at answer waited ⊢
      rw [answer]
      cases (Bus.advanceTimer rightSettled cycles).answer with
      | error fault => exact ⟨kept _, waited, rfl, rfl⟩
      | ok _ => exact ⟨kept _, waited, rfl, rfl⟩

theorem serviced_alike
    (executed : Context.Alike alike (left.executed leftBus) (right.executed rightBus)) :
    (left.serviced leftBus).1 = (right.serviced rightBus).1 ∧
      Context.Alike alike (left.serviced leftBus).2 (right.serviced rightBus).2 := by
  have served := service_alike bisimulation executed.bus
    ((left.executed leftBus).registers.setCost 0)
  rw [serviced, serviced, ← executed.registers]
  exact served

theorem step_matches (cpus : left.Matches right) (buses : alike leftBus rightBus) :
    Step.Matches alike (left.step leftBus) (right.step rightBus) := by
  rcases executes_alike bisimulation cpus buses with
    ⟨leftAnswered, rightAnswered, executed⟩ | ⟨fault, leftStopped, rightStopped⟩
  · obtain ⟨delivered, served⟩ := serviced_alike bisimulation executed
    have cycles : left.stepCycles leftBus = right.stepCycles rightBus := by
      rw [stepCycles, stepCycles, executed.registers, served.registers]
    have settled : Context.Alike alike
        ⟨(left.serviced leftBus).2.registers.setCost 0, (left.serviced leftBus).2.bus⟩
        ⟨(right.serviced rightBus).2.registers.setCost 0, (right.serviced rightBus).2.bus⟩ :=
      ⟨congrArg (Registers.setCost · 0) served.registers, served.bus⟩
    rw [step_of_answered _ _ leftAnswered, step_of_answered _ _ rightAnswered, delivered, cycles]
    exact retire_matches bisimulation cpus settled _ _
  · obtain ⟨leftCpu, leftKept, leftTicks⟩ := left.step_of_fault leftBus leftStopped
    obtain ⟨rightCpu, rightKept, rightTicks⟩ := right.step_of_fault rightBus rightStopped
    constructor
    · rw [leftCpu, rightCpu]
      exact ⟨cpus.advance, cpus.ticks, cpus.config, cpus.leftTable, cpus.rightTable⟩
    · rw [leftKept, rightKept]
      exact buses
    · rw [left.notices_of_fault leftBus leftStopped, right.notices_of_fault rightBus rightStopped]
    · rw [leftTicks, rightTicks]

end Cpu

end Step

end Handheld
