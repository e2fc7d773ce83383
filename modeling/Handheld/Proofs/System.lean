import Handheld.Proofs.Board
import Handheld.Proofs.Step

/-!
# Runs of a processor on a board

Between the steps of the processor the host may press keys, ask for interrupts, or work on the board
in other ways. The log of a run tells everything that happened, in order; a step is in it with the
system that it started from and the ticks that it cost, so only completed steps are.
-/

namespace Handheld

set_option autoImplicit false

structure System where
  cpu : Cpu Board
  board : Board

inductive HostAction where
  | keyDown (button : Button)
  | keyUp (button : Button)
  | request (source : Interrupt)
  | write (address : UInt16) (value : UInt8)
  | load (address : UInt16) (bytes : List UInt8)
  | attachTimer (timer : Timer)
  | detachTimer
  | reset

namespace HostAction

def perform : HostAction → Board → Board
  | keyDown button, board => board.keyDown button
  | keyUp button, board => board.keyUp button
  | request source, board => { board with bank := board.bank.request source }
  | write address value, board => board.write address value
  | load address bytes, board => board.load address bytes
  | attachTimer timer, board => board.attachTimer timer
  | detachTimer, board => board.detachTimer.2
  | reset, board => board.reset

def IsSignal : HostAction → Prop
  | keyDown _ | keyUp _ | request _ => True
  | write _ _ | load _ _ | attachTimer _ | detachTimer | reset => False

end HostAction

/-- A step from a system, with its cost, or an action of the host. -/
inductive Occurrence where
  | step (before : System) (cost : UInt32)
  | host (action : HostAction)

namespace System

def next (system : System) : System where
  cpu := (system.cpu.step system.board).cpu
  board := (system.cpu.step system.board).bus

def perform (system : System) (action : HostAction) : System :=
  { system with board := action.perform system.board }

def Completes (system : System) (cost : UInt32) : Prop :=
  (system.cpu.step system.board).ticks = .ok cost

inductive Run (start : System) : List Occurrence → System → Prop where
  | start : Run start [] start
  | step {log : List Occurrence} {reached : System} {cost : UInt32}
      (earlier : Run start log reached) (completed : reached.Completes cost) :
      Run start (log ++ [.step reached cost]) reached.next
  | host {log : List Occurrence} {reached : System} (earlier : Run start log reached)
      (action : HostAction) : Run start (log ++ [.host action]) (reached.perform action)

theorem run_table {start final : System} {log : List Occurrence} (run : Run start log final) :
    final.cpu.table = start.cpu.table := by
  induction run with
  | start => rfl
  | step earlier completed induction =>
      have law := Cpu.step_completed _ _ completed
      exact law.table_eq.trans induction
  | host earlier action induction => exact induction

theorem last_or_earlier {log earlier later : List Occurrence} {last occurrence : Occurrence}
    (split : log ++ [last] = earlier ++ occurrence :: later) :
    (log = earlier ∧ last = occurrence) ∨ ∃ front, log = earlier ++ occurrence :: front := by
  rcases List.eq_nil_or_concat later with rfl | ⟨front, final, rfl⟩
  · obtain ⟨same, lasts⟩ := List.append_inj' split rfl
    exact .inl ⟨same, List.head_eq_of_cons_eq lasts⟩
  · rw [List.concat_eq_append, ← List.cons_append, ← List.append_assoc] at split
    exact .inr ⟨front, (List.append_inj' split rfl).1⟩

/-- A step in the log was taken from where the run was by then. -/
theorem run_up_to {start final before : System} {log earlier later : List Occurrence}
    {cost : UInt32} (run : Run start log final)
    (split : log = earlier ++ .step before cost :: later) :
    Run start earlier before ∧ before.Completes cost := by
  induction run generalizing later with
  | start => exact absurd split (by simp)
  | step run completed induction =>
      rcases last_or_earlier split with ⟨rfl, same⟩ | ⟨front, earlier⟩
      · obtain ⟨rfl, rfl⟩ := Occurrence.step.inj same
        exact ⟨run, completed⟩
      · exact induction earlier
  | host run action induction =>
      rcases last_or_earlier split with ⟨_, impossible⟩ | ⟨front, earlier⟩
      · contradiction
      · exact induction earlier

theorem next_board {system : System} {cost : UInt32} (completed : system.Completes cost) :
    system.next.board =
      (system.cpu.serviced system.board).2.bus.elapse
        (system.cpu.stepCycles system.board).toNat := by
  have law := Cpu.step_completed _ _ completed
  have advanced := law.advanced
  rw [Board.bus_advanceTimer] at advanced
  rw [next, law.bus_eq, Board.bus_advanceTimer, Board.advance_timer_of_answered advanced]

end System

end Handheld
