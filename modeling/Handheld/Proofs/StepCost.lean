import Handheld.Proofs.Step

/-!
# What a step can cost

A control instruction takes one machine cycle or four, the entry of an interrupt vector four more.
So a completed step costs 4, 16, 20 or 32 clock ticks, and never nothing.
-/

namespace Handheld

set_option autoImplicit false

variable {β : Type} [Bus β]

theorem ControlInstruction.handler_cost (instruction : ControlInstruction) (context : Context β) :
    (instruction.handler context).registers.cost = 1 ∨
      (instruction.handler context).registers.cost = 4 := by
  cases instruction with
  | nop | halt | disableInterrupts | enableInterrupts => exact .inl (Registers.cost_setCost _ _)
  | jump | ret | retEnable | restart => exact .inr (Registers.cost_setCost _ _)

namespace Cpu

variable {cpu : Cpu β} {bus : β}

theorem executed_cost (only : cpu.table.OnlyControl)
    (answered : (cpu.execute bus).2.answer = .ok ()) :
    (cpu.executed bus).registers.cost = 1 ∨ (cpu.executed bus).registers.cost = 4 := by
  have first := cpu.execute_first_part bus
  unfold executed
  generalize (cpu.execute bus).2 = part at first answered ⊢
  cases first with
  | idled halted => exact .inl (Registers.cost_setCost _ _)
  | dispatched running installed =>
      obtain ⟨instruction, rfl⟩ := only _ _ installed
      exact instruction.handler_cost _
  | unassigned running missing => contradiction

theorem serviced_cost (cpu : Cpu β) (bus : β) :
    (cpu.serviced bus).2.registers.cost = 0 ∨ (cpu.serviced bus).2.registers.cost = 4 := by
  rcases cpu.serviced_cases bus with ⟨source, _, _, served⟩ | ⟨_, served⟩
  · rw [served, Context.enter_registers]
    exact .inr (Registers.cost_setCost _ _)
  · rw [served]
    exact .inl (Registers.cost_setCost _ _)

theorem step_ticks_cases (only : cpu.table.OnlyControl)
    (answered : (cpu.execute bus).2.answer = .ok ()) :
    cpu.stepTicks bus = 4 ∨ cpu.stepTicks bus = 16 ∨ cpu.stepTicks bus = 20 ∨
      cpu.stepTicks bus = 32 := by
  rw [stepTicks, step_cycles_toNat]
  rcases executed_cost only answered with first | first
  · rcases serviced_cost cpu bus with second | second
    · rw [first, second]
      exact .inl rfl
    · rw [first, second]
      exact .inr (.inr (.inl rfl))
  · rcases serviced_cost cpu bus with second | second
    · rw [first, second]
      exact .inr (.inl rfl)
    · rw [first, second]
      exact .inr (.inr (.inr rfl))

theorem step_ticks_le (only : cpu.table.OnlyControl)
    (answered : (cpu.execute bus).2.answer = .ok ()) : cpu.stepTicks bus ≤ 32 := by
  rcases step_ticks_cases only answered with same | same | same | same <;> omega

def IsStepCost (cost : UInt32) : Prop :=
  cost = 4 ∨ cost = 16 ∨ cost = 20 ∨ cost = 32

theorem IsStepCost.bounds {cost : UInt32} (isCost : IsStepCost cost) :
    4 ≤ cost.toNat ∧ cost.toNat ≤ 32 ∧ 4 ∣ cost.toNat := by
  rcases isCost with rfl | rfl | rfl | rfl
  · decide
  · decide
  · decide
  · decide

theorem Completed.is_step_cost {cost : UInt32} (law : cpu.Completed bus cost)
    (only : cpu.table.OnlyControl) : IsStepCost cost := by
  have cases := step_ticks_cases only law.answered
  rw [← law.cost_eq] at cases
  simp only [IsStepCost, ← UInt32.toNat_inj]
  exact cases

end Cpu

end Handheld
