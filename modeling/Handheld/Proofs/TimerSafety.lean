import Handheld.Proofs.Board
import Handheld.Proofs.Step

/-!
# Steps with a reachable timer

A reachable timer takes the cycles of any step. So where the handlers keep the timer reachable, a
step whose instruction was carried out comes to its end, unless the tick counter has no room for it.
-/

namespace Handheld

set_option autoImplicit false

theorem Board.load_timer_reachable {board : Board} (reachable : board.TimerReachable)
    (address : UInt16) (bytes : List UInt8) : (board.load address bytes).TimerReachable :=
  reachable

/-- No handler of the table puts a timer on the board that cannot be reached. -/
def OpcodeTable.KeepsTimers (table : OpcodeTable Board) : Prop :=
  ∀ opcode handler, table.handler? opcode = some handler →
    ∀ context : Context Board, context.bus.TimerReachable → (handler context).bus.TimerReachable

theorem OpcodeTable.keeps_timers_of_only_control {table : OpcodeTable Board}
    (only : table.OnlyControl) : table.KeepsTimers := by
  intro opcode handler installed context reachable
  obtain ⟨instruction, rfl⟩ := only opcode handler installed
  rcases instruction.handler_bus context with same | ⟨vector, rfl⟩
  · rw [same]
    exact reachable
  · apply Context.push_keeps Board.TimerReachable context _ _ reachable
    intro address _ board value start
    exact Board.write_timer_reachable start address value

namespace Cpu

variable {cpu : Cpu Board} {board : Board}

theorem executed_timer_reachable (keeps : cpu.table.KeepsTimers)
    (reachable : board.TimerReachable) : (cpu.executed board).bus.TimerReachable := by
  have first := cpu.execute_first_part board
  unfold executed
  generalize (cpu.execute board).2 = part at first ⊢
  cases first with
  | idled halted => exact reachable
  | dispatched running installed => exact keeps _ _ installed _ reachable
  | unassigned running missing => exact reachable

theorem serviced_timer_reachable (keeps : cpu.table.KeepsTimers)
    (reachable : board.TimerReachable) : (cpu.serviced board).2.bus.TimerReachable := by
  have start := executed_timer_reachable keeps reachable
  apply cpu.serviced_keeps board Board.TimerReachable _ (fun _ => start) start
  intro _ address _ board value kept
  exact Board.write_timer_reachable kept address value

theorem Completed.timer_reachable {cost : UInt32} (law : cpu.Completed board cost)
    (keeps : cpu.table.KeepsTimers) (reachable : board.TimerReachable) :
    (cpu.step board).bus.TimerReachable := by
  rw [law.bus_eq]
  exact Board.timer_reachable_advance (serviced_timer_reachable keeps reachable) _

theorem step_of_reachable (keeps : cpu.table.KeepsTimers) (reachable : board.TimerReachable)
    (answered : (cpu.execute board).2.answer = .ok ())
    (room : cpu.ticks.toNat + cpu.stepTicks board < UInt64.size) :
    ∃ cost, (cpu.step board).ticks = .ok cost ∧ cpu.Completed board cost := by
  apply cpu.step_of_room board answered room
  apply Board.advance_timer_of_reachable (serviced_timer_reachable keeps reachable)
  exact Nat.lt_trans (cpu.step_cycles_lt board) (by decide)

end Cpu

end Handheld
