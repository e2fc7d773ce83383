import Handheld.Proofs.FrameAccounting
import Handheld.Proofs.Hex
import Handheld.Proofs.Iteration
import Handheld.Proofs.Tracing

/-!
# A missing opcode fails cleanly

A machine whose counters have room faults for one reason only, an opcode without a handler, and the
step that meets it leaves everything but the program counter as it was. The fault names the address
that the opcode was fetched from, also where the program counter wrapped round. A run stops at the
first such step, with nothing done after it.
-/

namespace Handheld

set_option autoImplicit false

namespace Machine

/-- The step can be counted: by the processor, in the frame under way and among the frames. -/
structure CountersFit (machine : Machine) : Prop where
  room : machine.HasRoom
  clock : (machine.cpu.execute machine.board).2.answer = .ok () →
    machine.clock.ticks.toNat + machine.cpu.stepTicks machine.board < UInt32.size

/-- The program counter has moved on by one, and everything else is as it was. -/
structure OnlyPcMoved (before after : Machine) : Prop where
  pc_eq : after.cpu.registers.pc.toNat = (before.cpu.registers.pc.toNat + 1) % 65536
  bytes_eq : ∀ view, after.cpu.registers.get8 view = before.cpu.registers.get8 view
  sp_eq : after.cpu.registers.sp = before.cpu.registers.sp
  ime_eq : after.cpu.registers.ime = before.cpu.registers.ime
  halted_eq : after.cpu.registers.halted = before.cpu.registers.halted
  ticks_eq : after.cpu.ticks = before.cpu.ticks
  table_eq : after.cpu.table = before.cpu.table
  config_eq : after.cpu.config = before.cpu.config
  board_eq : after.board = before.board
  clock_eq : after.clock = before.clock

/-- What is left of a machine that met an opcode without a handler, and what it answers. -/
structure Stopped {α : Type} (before after : Machine) (answer : Except Fault α) : Prop where
  moved : OnlyPcMoved before after
  fault_eq : answer = .error (.unassignedOpcode (before.board.read before.cpu.registers.pc)
    before.cpu.registers.pc)
  message_eq : ∀ fault, answer = .error fault → fault.message =
    "no handler installed for opcode " ++
      ("0x" ++ String.ofList (Hex.byteDigits (before.board.read before.cpu.registers.pc))) ++
      " at pc " ++ ("0x" ++ String.ofList (Hex.addressDigits before.cpu.registers.pc))

section Step

variable {machine : Machine}

theorem step_of_unassigned (meets : machine.cpu.MeetsUnassigned machine.board) :
    machine.step.machine = { machine with
        cpu := { machine.cpu with registers := machine.cpu.registers.advancePc } } ∧
      machine.step.ticks = .error (.unassignedOpcode
        (machine.board.read machine.cpu.registers.pc) machine.cpu.registers.pc) := by
  obtain ⟨running, missing⟩ := meets
  have refused : (machine.cpu.execute machine.board).2.answer = .error (.unassignedOpcode
      (machine.board.read machine.cpu.registers.pc) machine.cpu.registers.pc) := by
    rw [Cpu.execute_of_missing running missing, Board.bus_read]
  obtain ⟨cpu, board, stopped⟩ := machine.cpu.step_of_fault machine.board refused
  have reached := step_of_fault stopped
  rw [cpu, board] at reached
  exact reached

theorem only_pc_moved_of_unassigned (meets : machine.cpu.MeetsUnassigned machine.board) :
    OnlyPcMoved machine machine.step.machine := by
  rw [(step_of_unassigned meets).1]
  constructor
  · rw [Registers.advancePc, Registers.pc_setPc, UInt16.toNat_add]
    rfl
  · intro view
    exact machine.cpu.registers.get8_setPc view _
  · exact machine.cpu.registers.sp_setPc _
  · rfl
  · rfl
  · rfl
  · rfl
  · rfl
  · rfl
  · rfl

theorem stopped_of_unassigned {α : Type} {after : Machine} {answer : Except Fault α} {fault : Fault}
    (meets : machine.cpu.MeetsUnassigned machine.board) (reached : after = machine.step.machine)
    (stopped : machine.step.ticks = .error fault) (told : answer = .error fault) :
    Stopped machine after answer := by
  obtain rfl : .unassignedOpcode (machine.board.read machine.cpu.registers.pc)
      machine.cpu.registers.pc = fault :=
    Except.error.inj ((step_of_unassigned meets).2.symm.trans stopped)
  constructor
  · rw [reached]
    exact only_pc_moved_of_unassigned meets
  · exact told
  · intro other same
    rw [← Except.error.inj (told.symm.trans same)]
    exact Fault.unassigned_message _ _

theorem step_of_assigned (keeps : machine.cpu.table.KeepsTimers)
    (reachable : machine.board.TimerReachable) (fits : machine.CountersFit)
    (assigned : ¬machine.cpu.MeetsUnassigned machine.board) :
    ∃ cost, machine.step.ticks = .ok cost := by
  cases answered : (machine.cpu.execute machine.board).2.answer with
  | error fault => exact absurd (Cpu.unassigned_iff.mp ⟨fault, answered⟩) assigned
  | ok _ =>
      have room := fits.room answered
      have clock := fits.clock answered
      obtain ⟨cost, completed, law⟩ := Cpu.step_of_reachable keeps reachable answered room.1
      rw [← law.cost_eq] at room clock
      have counted := FrameClock.advance_answers clock room.2
      refine ⟨cost, ?_⟩
      rw [(step_of_completed completed).2, counted]
      rfl

theorem faults_iff_unassigned (keeps : machine.cpu.table.KeepsTimers)
    (reachable : machine.board.TimerReachable) (fits : machine.CountersFit) :
    (∃ fault, machine.step.ticks = .error fault) ↔
      machine.cpu.MeetsUnassigned machine.board := by
  constructor
  · rintro ⟨fault, stopped⟩
    by_cases meets : machine.cpu.MeetsUnassigned machine.board
    · exact meets
    · obtain ⟨cost, completed⟩ := step_of_assigned keeps reachable fits meets
      rw [completed] at stopped
      contradiction
  · intro meets
    exact ⟨_, (step_of_unassigned meets).2⟩

end Step

section Run

variable {machine before : Machine} {costs : List UInt32} {count : Nat} {fault : Fault}

theorem steps_timer_reachable (steps : Steps machine costs before)
    (keeps : machine.cpu.table.KeepsTimers) (reachable : machine.board.TimerReachable) :
    before.board.TimerReachable := by
  induction steps with
  | none => exact reachable
  | next completed rest induction =>
      have step := step_completed completed
      rw [step.reached] at induction
      apply induction
      · rw [step.law.table_eq]
        exact keeps
      · exact step.law.timer_reachable keeps reachable

theorem step_runs_succ_of_completed {cost : UInt32} (completed : machine.step.ticks = .ok cost)
    (count : Nat) :
    (stepRuns (count + 1) machine).machine = (stepRuns count machine.step.machine).machine ∧
      (stepRuns (count + 1) machine).answer =
        (stepRuns count machine.step.machine).answer.map (Progress.none.count cost).add := by
  simp only [stepRuns, Run.andThen, stepRun, completed, Except.map, and_self]

theorem step_runs_succ_of_fault (stopped : machine.step.ticks = .error fault) (count : Nat) :
    (stepRuns (count + 1) machine).machine = machine.step.machine ∧
      (stepRuns (count + 1) machine).answer = .error fault := by
  simp only [stepRuns, Run.andThen, stepRun, stopped, Except.map, and_self]

theorem step_runs_of_fault (steps : Steps machine costs before) (inside : costs.length < count)
    (stopped : before.step.ticks = .error fault) :
    (stepRuns count machine).machine = before.step.machine ∧
      (stepRuns count machine).answer = .error fault := by
  induction steps generalizing count with
  | none =>
      obtain ⟨less, rfl⟩ := Nat.exists_eq_succ_of_ne_zero (Nat.ne_of_gt inside)
      exact step_runs_succ_of_fault stopped less
  | next completed rest induction =>
      obtain ⟨less, rfl⟩ := Nat.exists_eq_succ_of_ne_zero (Nat.ne_of_gt (Nat.zero_lt_of_lt inside))
      obtain ⟨reached, answered⟩ := step_runs_succ_of_completed completed less
      obtain ⟨final, told⟩ := induction (Nat.lt_of_succ_lt_succ inside) stopped
      rw [reached, answered, final, told]
      exact ⟨rfl, rfl⟩

/-- A run faults in one of its steps, and all the steps before that came to their end. -/
theorem fault_of_step_runs (told : (stepRuns count machine).answer = .error fault) :
    ∃ costs before, Steps machine costs before ∧ costs.length < count ∧
      before.step.ticks = .error fault := by
  induction count generalizing machine with
  | zero => contradiction
  | succ count induction =>
      cases stepped : machine.step.ticks with
      | error other =>
          rw [(step_runs_succ_of_fault stepped count).2] at told
          rw [Except.error.inj told] at stepped
          exact ⟨[], machine, .none, Nat.zero_lt_succ count, stepped⟩
      | ok cost =>
          rw [(step_runs_succ_of_completed stepped count).2] at told
          cases answered : (stepRuns count machine.step.machine).answer with
          | ok progress =>
              rw [answered] at told
              contradiction
          | error other =>
              rw [answered] at told
              rw [Except.error.inj told] at answered
              obtain ⟨costs, before, rest, inside, stopped⟩ := induction answered
              exact ⟨cost :: costs, before, .next stepped rest, Nat.succ_lt_succ inside, stopped⟩

end Run

/-- When the steps of a machine and its runs fault, and what a fault leaves behind. -/
structure FailsCleanly (machine : Machine) : Prop where
  faults_iff : machine.CountersFit →
    ((∃ fault, machine.step.ticks = .error fault) ↔ machine.cpu.MeetsUnassigned machine.board)
  step_stops : machine.cpu.MeetsUnassigned machine.board →
    Stopped machine machine.step.machine machine.step.ticks
  run_stops : ∀ (count : UInt32) costs before fault, Steps machine costs before →
    costs.length < count.toNat → before.step.ticks = .error fault → before.CountersFit →
      Stopped before (machine.run (.steps count)).machine (machine.run (.steps count)).answer
  run_fault : ∀ (count : UInt32) fault, (machine.run (.steps count)).answer = .error fault →
    ∃ costs before, Steps machine costs before ∧ costs.length < count.toNat ∧
      before.step.ticks = .error fault

/-- With any of the control instructions at any opcodes, and a timer that can be reached, the only
fault of a machine is a missing opcode. It leaves the machine as it was in front of the opcode, but
for the program counter. -/
theorem missing_opcode_fails_cleanly (machine : Machine) (only : machine.cpu.table.OnlyControl)
    (reachable : machine.board.TimerReachable) : machine.FailsCleanly := by
  have keeps := OpcodeTable.keeps_timers_of_only_control only
  constructor
  · intro fits
    exact faults_iff_unassigned keeps reachable fits
  · intro meets
    have stopped := (step_of_unassigned meets).2
    exact stopped_of_unassigned meets rfl stopped stopped
  · intro count costs before fault steps inside stopped fits
    have keepsBefore : before.cpu.table.KeepsTimers := by
      rw [steps_table steps]
      exact keeps
    have reachableBefore := steps_timer_reachable steps keeps reachable
    have meets := (faults_iff_unassigned keepsBefore reachableBefore fits).mp ⟨fault, stopped⟩
    obtain ⟨reached, told⟩ := step_runs_of_fault steps inside stopped
    rw [run_steps_eq]
    exact stopped_of_unassigned meets reached stopped told
  · intro count fault told
    rw [run_steps_eq] at told
    exact fault_of_step_runs told

/-- In front of a jump to the last address, which is the enable register, and this holds an opcode
without a handler. The jump has an opcode that is not its own. -/
def leaping : Machine where
  cpu :=
    { registers := .zero
      ticks := 96
      table := OpcodeTable.empty.set 0x12 Instruction.jump
      config := .standard }
  board := { Board.bare.withTimer.load 0x0000 [0x12, 0xFF, 0xFF] with bank := ⟨0, 0xD3⟩ }
  clock := .zero

theorem leaping_fails_cleanly :
    leaping.step.ticks = .ok 16 ∧
      (leaping.run (.steps 5)).answer = .error (.unassignedOpcode 0xD3 0xFFFF) ∧
      (∀ fault, (leaping.run (.steps 5)).answer = .error fault →
        fault.message = "no handler installed for opcode 0xd3 at pc 0xffff") ∧
      (leaping.run (.steps 5)).machine.cpu.registers.pc.toNat = 0 ∧
      (leaping.run (.steps 5)).machine.board = leaping.step.machine.board := by
  have only : leaping.cpu.table.OnlyControl :=
    OpcodeTable.set_only_control OpcodeTable.empty_only_control 0x12 .jump
  have reachable : leaping.board.TimerReachable := by
    intro timer attached
    rw [← Option.some.inj attached]
    exact .stopped
  have first : leaping.step.ticks = .ok 16 := rfl
  have second : leaping.step.machine.step.ticks = .error (.unassignedOpcode 0xD3 0xFFFF) := rfl
  have refused : (leaping.step.machine.cpu.execute leaping.step.machine.board).2.answer =
      .error (.unassignedOpcode 0xD3 0xFFFF) := rfl
  have fits : leaping.step.machine.CountersFit := by
    constructor
    · intro answered
      rw [refused] at answered
      contradiction
    · intro answered
      rw [refused] at answered
      contradiction
  have law := missing_opcode_fails_cleanly leaping only reachable
  have stopped := law.run_stops 5 [16] _ _ (.next first .none) (by decide) second fits
  exact ⟨first, stopped.fault_eq, stopped.message_eq, stopped.moved.pc_eq, stopped.moved.board_eq⟩

end Machine

end Handheld
