import Handheld.Cpu.Run
import Handheld.Proofs.AddressMap
import Handheld.Proofs.StepCost
import Handheld.Proofs.TimerSafety

/-!
# Processors that never fault

With a handler in every slot, none but the control instructions among them, and a timer that can be
reached, there is no fault left but the overflow of the tick counter. So a run of any length comes
to its end while the counter has room for 32 ticks a step, from whatever registers and memory.
-/

namespace Handheld

set_option autoImplicit false

def OpcodeTable.Full {β : Type} (table : OpcodeTable β) : Prop :=
  ∀ opcode, ∃ handler, table.handler? opcode = some handler

theorem OpcodeTable.fill_full {β : Type} (table : OpcodeTable β) (handler : Handler β) :
    (table.fillUnassigned handler).Full :=
  fun opcode => ⟨_, table.handler?_fillUnassigned handler opcode⟩

namespace Cpu

/-- What holds of a run after `count` steps. -/
structure Run.Sound (start : Cpu Board) (count : Nat) (run : Run Board) : Prop where
  going : run.fault = none
  completed : run.costs.size = count
  costs : ∀ cost ∈ run.costs, IsStepCost cost
  ticks : run.cpu.ticks.toNat ≤ start.ticks.toNat + 32 * count
  table : run.cpu.table = start.table
  timer : run.bus.TimerReachable

section Run

variable {start : Cpu Board} {board : Board} {count : Nat}

theorem start_sound (start : Cpu Board) (reachable : board.TimerReachable) :
    (Run.start start board).Sound start 0 where
  going := rfl
  completed := rfl
  costs _ member := absurd member (by simp [Run.start])
  ticks := Nat.le_refl _
  table := rfl
  timer := reachable

theorem next_sound {run : Run Board} (full : start.table.Full) (only : start.table.OnlyControl)
    (sound : run.Sound start count)
    (room : start.ticks.toNat + 32 * (count + 1) < UInt64.size) :
    run.next.Sound start (count + 1) := by
  rw [← sound.table] at full only
  have before := sound.ticks
  have answered := answered_of_handled (.inr (full (Bus.read run.bus run.cpu.registers.pc)))
  have short := step_ticks_le only answered
  have keeps := OpcodeTable.keeps_timers_of_only_control only
  obtain ⟨cost, completed, law⟩ := step_of_reachable keeps sound.timer answered (by omega)
  have ticks := law.ticks_eq
  rw [Run.next_of_completed sound.going completed]
  constructor
  · rfl
  · rw [Array.size_push, sound.completed]
  · intro other member
    rcases Array.mem_push.mp member with earlier | last
    · exact sound.costs other earlier
    · rw [last]
      exact law.is_step_cost only
  · rw [law.cost_eq] at ticks
    dsimp only
    omega
  · exact law.table_eq.trans sound.table
  · exact law.timer_reachable keeps sound.timer

theorem run_sound (full : start.table.Full) (only : start.table.OnlyControl)
    (reachable : board.TimerReachable) (room : start.ticks.toNat + 32 * count < UInt64.size) :
    (start.run board count).Sound start count := by
  induction count with
  | zero => exact start_sound start reachable
  | succ count induction =>
      rw [run_succ]
      exact next_sound full only (induction (by omega)) room

end Run

/-- A processor with the control instructions, all other opcodes no-operations, takes any number of
steps. The echo addresses that it may come upon all have a cell, and reach it both ways. -/
theorem full_table_never_faults (cpu : Cpu Board) (board : Board)
    (filled : cpu.table = OpcodeTable.control.fillUnassigned Instruction.nop)
    (reachable : board.TimerReachable) (count : Nat)
    (room : cpu.ticks.toNat + 32 * count < UInt64.size) :
    (cpu.run board count).fault = none ∧ (cpu.run board count).costs.size = count ∧
      (∀ cost ∈ (cpu.run board count).costs, cost = 4 ∨ cost = 16 ∨ cost = 20 ∨ cost = 32) ∧
      ∀ address, Region.ofAddress address = .echo →
        ∃ cell, echoTarget address = .ok cell ∧ Location.ofAddress address = .ram cell ∧
          ∀ board : Board, board.read address = board.memory.read cell ∧
            ∀ value, board.write address value = board.poke cell value := by
  have full : cpu.table.Full := by
    rw [filled]
    exact OpcodeTable.control.fill_full Instruction.nop
  have only : cpu.table.OnlyControl := by
    rw [filled]
    exact OpcodeTable.fill_only_control OpcodeTable.control_only_control .nop
  have sound := run_sound full only reachable room
  refine ⟨sound.going, sound.completed, sound.costs, ?_⟩
  intro address echo
  have ram : (Region.ofAddress address).IsRam := by
    rw [echo]
    trivial
  exact ⟨ramCell address, echo_target_ok echo, location_of_ram ram,
    fun _ => ⟨Board.read_ram ram, Board.write_ram ram⟩⟩

/-- All sources are pending, and the first delivery pushes onto the registers of the timer. -/
def restless : Cpu Board where
  registers := (Registers.zero.setSp 0xFF09).setIme true
  ticks := 0
  table := OpcodeTable.control.fillUnassigned Instruction.nop
  config := .standard

def restlessBoard : Board :=
  { Board.bare.attachTimer (Timer.stopped.write .control 0x05) with bank := ⟨0x1F, 0x1F⟩ }

theorem restless_never_faults :
    restlessBoard.TimerReachable ∧ (restless.run restlessBoard 100000).fault = none ∧
      (restless.run restlessBoard 100000).costs.size = 100000 := by
  have reachable : restlessBoard.TimerReachable := by
    intro timer attached
    rw [← Option.some.inj attached]
    exact .write .stopped .control 0x05
  have law := full_table_never_faults restless restlessBoard rfl reachable 100000 (by decide)
  exact ⟨reachable, law.1, law.2.1⟩

end Cpu

end Handheld
