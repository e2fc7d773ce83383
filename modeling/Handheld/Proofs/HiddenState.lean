import Handheld.Proofs.AddressSpace
import Handheld.Proofs.Bisimulation
import Handheld.Proofs.Bits
import Handheld.Proofs.Insertion
import Handheld.Proofs.Operation

/-!
# State that stays hidden

Behind the devices, the gap and the echo lie cells of the backing memory that no access reaches
while a timer is attached. Nor does anything look at the bits above the interrupt lines, and the
cost slot is written before it is read. Machines that differ in nothing else cannot be told apart by
whatever is done with them.
-/

namespace Handheld

set_option autoImplicit false

/-- The cells that no access reaches. -/
def Shadowed (cell : UInt16) : Prop :=
  (0xE000 ≤ cell ∧ cell ≤ 0xFDFF) ∨ (0xFEA0 ≤ cell ∧ cell ≤ 0xFEFF) ∨ cell = 0xFF00 ∨
    (0xFF04 ≤ cell ∧ cell ≤ 0xFF07) ∨ cell = 0xFF0F ∨ cell = 0xFFFF

instance (cell : UInt16) : Decidable (Shadowed cell) :=
  inferInstanceAs (Decidable (_ ∨ _))

/-- Equal but for the bits above the interrupt lines. -/
structure InterruptBank.Twins (left right : InterruptBank) : Prop where
  enable : left.enable = right.enable
  lines : left.flag &&& Interrupt.linesMask = right.flag &&& Interrupt.linesMask

/-- Equal but for the shadowed cells and the bits above the interrupt lines, with a timer. -/
structure Board.Twins (left right : Board) : Prop where
  cells : ∀ cell, ¬Shadowed cell → left.memory.read cell = right.memory.read cell
  bank : left.bank.Twins right.bank
  timer : ∃ timer, left.timer = some timer ∧ right.timer = some timer
  joypad : left.joypad = right.joypad

namespace InterruptBank

variable {left right : InterruptBank}

theorem Twins.pending_eq (twins : left.Twins right) : left.pending = right.pending := by
  rw [pending, pending, UInt8.and_comm left.flag, UInt8.and_comm right.flag, UInt8.and_assoc,
    UInt8.and_assoc, twins.enable, twins.lines]

theorem Twins.request (twins : left.Twins right) (source : Interrupt) :
    (left.request source).Twins (right.request source) := by
  refine ⟨twins.enable, ?_⟩
  simp only [InterruptBank.request]
  rw [UInt8.and_comm, and_or_distributes, UInt8.and_comm _ left.flag, twins.lines,
    UInt8.and_comm right.flag, ← and_or_distributes, UInt8.and_comm]

theorem Twins.acknowledge (twins : left.Twins right) (source : Interrupt) :
    (left.acknowledge source).Twins (right.acknowledge source) := by
  refine ⟨twins.enable, ?_⟩
  simp only [InterruptBank.acknowledge]
  rw [UInt8.and_assoc, UInt8.and_comm (~~~source.mask), ← UInt8.and_assoc, twins.lines,
    UInt8.and_assoc, UInt8.and_comm Interrupt.linesMask, ← UInt8.and_assoc]

end InterruptBank

theorem unshadowed_cartridge {address cell : UInt16}
    (found : Location.ofAddress address = .cartridge cell) : ¬Shadowed cell := by
  have place := located address
  rw [found] at place
  cases place
  grind [Shadowed]

theorem unshadowed_ram {address cell : UInt16} (found : Location.ofAddress address = .ram cell) :
    ¬Shadowed cell := by
  have place := located address
  rw [found] at place
  cases place with
  | ram same above outside plain untimed =>
      -- An echo address stands for a cell below the echo, every other address for itself.
      have apart : ¬(0xFF04 ≤ address ∧ address ≤ 0xFF07) := by
        grind [TimerRegister.ofAddress?, Address.divider, Address.timerCounter,
          Address.timerModulo, Address.timerControl]
      grind [Shadowed, home]

/-- Where there is room for the cycles depends on the timer alone, and so does whether it asks for
its interrupt. -/
theorem Timer.advance_parts (timer : Timer) (cycles : UInt32) :
    ∃ (reached : Timer) (asks : Bool) (answer : Except Fault Unit), ∀ bank,
      timer.advance bank cycles =
        ⟨(reached, if asks then bank.request .timer else bank), answer⟩ := by
  unfold Timer.advance
  cases timer.advanceDivider cycles with
  | error fault => exact ⟨timer, false, .error fault, fun _ => rfl⟩
  | ok divided =>
      dsimp only
      unfold Timer.advanceCounter
      cases divided.running with
      | false => exact ⟨divided, false, .ok (), fun _ => rfl⟩
      | true =>
          simp only [if_true]
          cases Checked.add32 divided.counterCycles cycles with
          | error fault => exact ⟨divided, false, .error fault, fun _ => rfl⟩
          | ok total => exact ⟨_, _, .ok (), fun _ => rfl⟩

namespace Board

variable {left right : Board}

theorem Twins.read_eq (twins : left.Twins right) (address : UInt16) :
    left.read address = right.read address := by
  obtain ⟨timer, leftTimer, rightTimer⟩ := twins.timer
  rw [Board.read_eq left, Board.read_eq right]
  cases found : Location.ofAddress address with
  | keys => exact congrArg Joypad.read twins.joypad
  | timer register => simp only [leftTimer, rightTimer]
  | interruptFlag =>
      dsimp only
      rw [← complement_or_and, twins.bank.lines, complement_or_and]
  | interruptEnable => exact twins.bank.enable
  | gap => rfl
  | cartridge cell => exact twins.cells cell (unshadowed_cartridge found)
  | ram cell => exact twins.cells cell (unshadowed_ram found)

theorem Twins.write (twins : left.Twins right) (address : UInt16) (value : UInt8) :
    (left.write address value).Twins (right.write address value) := by
  obtain ⟨timer, leftTimer, rightTimer⟩ := twins.timer
  rw [Board.write_eq left, Board.write_eq right]
  cases Location.ofAddress address with
  | keys => exact { twins with joypad := congrArg (Joypad.write · value) twins.joypad }
  | timer register =>
      simp only [leftTimer, rightTimer]
      exact { twins with timer := ⟨_, rfl, rfl⟩ }
  | interruptFlag => exact { twins with bank := ⟨twins.bank.enable, rfl⟩ }
  | interruptEnable => exact { twins with bank := ⟨rfl, twins.bank.lines⟩ }
  | cartridge cell => exact twins
  | gap => exact twins
  | ram cell =>
      refine { twins with cells := fun shown plain => ?_ }
      simp only [poke, Memory.read_write, twins.cells shown plain]

theorem Twins.setBank (twins : left.Twins right) {bank other : InterruptBank}
    (banks : bank.Twins other) :
    Board.Twins { left with bank } { right with bank := other } :=
  { twins with bank := banks }

theorem twins_refl {board : Board} {timer : Timer} (attached : board.timer = some timer) :
    board.Twins board :=
  ⟨fun _ _ => rfl, ⟨rfl, rfl⟩, ⟨timer, attached, attached⟩, rfl⟩

theorem Twins.poke (twins : left.Twins right) {cell : UInt16} (shadowed : Shadowed cell)
    (value : UInt8) : left.Twins (right.poke cell value) := by
  refine { twins with cells := fun shown plain => ?_ }
  have apart : shown ≠ cell := fun same => plain (same ▸ shadowed)
  simp only [Board.poke, Memory.read_write, if_neg apart, twins.cells shown plain]

theorem Twins.other_bank (twins : left.Twins right) {bank : InterruptBank}
    (banks : left.bank.Twins bank) : left.Twins { right with bank } :=
  { twins with bank := banks }

theorem Twins.keyDown (twins : left.Twins right) (button : Button) :
    (left.keyDown button).Twins (right.keyDown button) :=
  { twins with
    bank := twins.bank.request .joypad
    joypad := congrArg (Joypad.press · button) twins.joypad }

theorem Twins.keyUp (twins : left.Twins right) (button : Button) :
    (left.keyUp button).Twins (right.keyUp button) :=
  { twins with joypad := congrArg (Joypad.release · button) twins.joypad }

theorem Twins.advance (twins : left.Twins right) (cycles : UInt32) :
    (left.advanceTimer cycles).answer = (right.advanceTimer cycles).answer ∧
      (left.advanceTimer cycles).state.Twins (right.advanceTimer cycles).state := by
  obtain ⟨timer, leftTimer, rightTimer⟩ := twins.timer
  obtain ⟨reached, asks, answer, parts⟩ := timer.advance_parts cycles
  have banks : InterruptBank.Twins (if asks then left.bank.request .timer else left.bank)
      (if asks then right.bank.request .timer else right.bank) := by
    cases asks with
    | false => exact twins.bank
    | true => exact twins.bank.request .timer
  constructor
  · simp only [advanceTimer, leftTimer, rightTimer, parts]
  · simp only [advanceTimer, leftTimer, rightTimer, parts]
    exact { twins with timer := ⟨reached, rfl, rfl⟩, bank := banks }

theorem Twins.reset (twins : left.Twins right) : left.reset.Twins right.reset := by
  obtain ⟨timer, leftTimer, rightTimer⟩ := twins.timer
  constructor
  · exact twins.cells
  · exact ⟨rfl, rfl⟩
  · refine ⟨.stopped, ?_, ?_⟩
    · simp only [Board.reset, leftTimer, Option.map_some]
    · simp only [Board.reset, rightTimer, Option.map_some]
  · rfl

theorem twins_bisimulation : Bisimulation Board.Twins where
  read_eq := Twins.read_eq
  pending_eq twins := twins.bank.pending_eq
  write := Twins.write
  acknowledge twins source := twins.setBank (twins.bank.acknowledge source)
  wait_answer twins cycles := (twins.advance cycles).1
  wait twins cycles := (twins.advance cycles).2

end Board

namespace Machine

/-- Equal but for what stays hidden, with the control instructions and a timer. -/
structure Twins (left right : Machine) : Prop where
  cpu : left.cpu.Matches right.cpu
  board : left.board.Twins right.board
  clock : left.clock = right.clock

variable {left right : Machine}

theorem Twins.with_board (twins : left.Twins right) {board other : Board}
    (boards : board.Twins other) : (left.withBoard board).Twins (right.withBoard other) :=
  ⟨twins.cpu, boards, twins.clock⟩

theorem Twins.view_eq (twins : left.Twins right) : left.view = right.view := by
  obtain ⟨timer, leftTimer, rightTimer⟩ := twins.board.timer
  apply View.ext
  · exact twins.cpu.registers
  · exact twins.cpu.ticks
  · exact leftTimer.trans rightTimer.symm
  · exact twins.board.joypad
  · exact twins.board.bank.enable
  · exact twins.board.bank.lines
  · exact twins.clock

structure Step.Twins (left right : Step) : Prop where
  machine : left.machine.Twins right.machine
  notices : left.notices = right.notices
  ticks : left.ticks = right.ticks

theorem halt_notice_eq {left right : Registers} (same : left.SameButCost right)
    (wasHalted : Bool) : haltNotice? wasHalted left = haltNotice? wasHalted right := by
  obtain ⟨cycles, rfl⟩ := Registers.exists_cost same
  rw [haltNotice?, haltNotice?, Registers.pc_setCost, Registers.halted_setCost]

theorem Twins.halted_eq (twins : left.Twins right) :
    left.cpu.registers.halted = right.cpu.registers.halted := by
  obtain ⟨cycles, moved⟩ := Registers.exists_cost twins.cpu.registers
  rw [moved, Registers.halted_setCost]

theorem Twins.step (twins : left.Twins right) : left.step.Twins right.step := by
  have steps := Cpu.step_matches Board.twins_bisimulation twins.cpu twins.board
  have notice := halt_notice_eq steps.cpu.registers left.cpu.registers.halted
  rw [twins.halted_eq] at notice
  obtain ⟨cpu, board, clock⟩ := left
  obtain ⟨otherCpu, otherBoard, otherClock⟩ := right
  obtain rfl : clock = otherClock := twins.clock
  have halted : cpu.registers.halted = otherCpu.registers.halted := twins.halted_eq
  simp only [Machine.step, steps.ticks, steps.notices, halted]
  cases (otherCpu.step otherBoard).ticks with
  | error fault => exact ⟨⟨steps.cpu, steps.bus, rfl⟩, rfl, rfl⟩
  | ok ticks =>
      refine ⟨⟨steps.cpu, steps.bus, rfl⟩, ?_, rfl⟩
      exact congrArg (fun notice : Option Notice => _ ++ notice.toList) notice

theorem Twins.step_eq (twins : left.Twins right) {next : Machine} {reported : List Notice}
    {ticks : Except Fault UInt32} (stepped : left.step = ⟨next, reported, ticks⟩) :
    ∃ other, right.step = ⟨other, reported, ticks⟩ ∧ next.Twins other := by
  have steps := twins.step
  rw [stepped] at steps
  generalize right.step = step at steps
  obtain ⟨other, _, _⟩ := step
  obtain ⟨machine, rfl, rfl⟩ := steps
  exact ⟨other, rfl, machine⟩

structure Run.Twins (left right : Run) : Prop where
  machine : left.machine.Twins right.machine
  notices : left.notices = right.notices
  answer : left.answer = right.answer

theorem Twins.run_until {stop : Machine → Progress → Bool}
    (blind : ∀ {left right : Machine}, left.Twins right →
      ∀ progress, stop left progress = stop right progress)
    (room : Nat) (twins : left.Twins right) (progress : Progress) (notices : Array Notice) :
    (runUntil stop room left progress notices).Twins
      (runUntil stop room right progress notices) := by
  fun_induction runUntil stop room left progress notices generalizing right with
  | case1 room machine progress notices stopped =>
      rw [blind twins] at stopped
      rw [runUntil, if_pos stopped]
      exact ⟨twins, rfl, rfl⟩
  | case2 room machine progress notices running next reported told fault =>
      rename_i stepped
      obtain ⟨other, otherStepped, nextTwins⟩ := twins.step_eq stepped
      rw [blind twins] at running
      rw [runUntil, if_neg running, otherStepped]
      exact ⟨nextTwins, rfl, rfl⟩
  | case3 machine progress notices running next reported told ticks =>
      rename_i stepped
      obtain ⟨other, otherStepped, nextTwins⟩ := twins.step_eq stepped
      rw [blind twins] at running
      rw [runUntil, if_neg running, otherStepped]
      exact ⟨nextTwins, rfl, rfl⟩
  | case4 machine progress notices running next reported told ticks room total =>
      rename_i stepped induction
      obtain ⟨other, otherStepped, nextTwins⟩ := twins.step_eq stepped
      rw [blind twins] at running
      rw [runUntil.eq_def stop (room + 1) right, if_neg running, otherStepped]
      exact induction nextTwins

theorem Twins.run (twins : left.Twins right) (boundary : Boundary) :
    (left.run boundary).Twins (right.run boundary) := by
  unfold Machine.run
  rw [twins.clock]
  apply Twins.run_until _ _ twins
  intro left right twins progress
  cases boundary with
  | frame => simp only [Boundary.reached, twins.clock]
  | halted => simp only [Boundary.reached, twins.halted_eq]
  | steps count => rfl

theorem Twins.reset (twins : left.Twins right) : left.reset.Twins right.reset :=
  ⟨twins.cpu.reset, twins.board.reset, rfl⟩

theorem Twins.insert (twins : left.Twins right) (image : Cartridge.Image) :
    (left.insert image).answer = (right.insert image).answer ∧
      (left.insert image).state.Twins (right.insert image).state := by
  have mapped : (left.mapped image).Twins (right.mapped image) := by
    apply twins.with_board
    refine { twins.board with cells := fun cell plain => ?_ }
    have same := twins.board.cells cell plain
    simp only [Memory.read_mapCartridge, same]
  rcases Cartridge.fits_or_rejected image with fits | ⟨rejection, rejected⟩
  · rw [insert_of_fits left fits, insert_of_fits right fits, twins.cpu.config]
    exact ⟨rfl, mapped.reset⟩
  · rw [insert_of_rejection left rejected, insert_of_rejection right rejected]
    exact ⟨rfl, twins⟩

theorem Twins.perform (twins : left.Twins right) (operation : Operation) :
    (operation.perform left).1 = (operation.perform right).1 ∧
      (operation.perform left).2.Twins (operation.perform right).2 := by
  cases operation with
  | step =>
      have steps := twins.step
      simp only [Operation.perform, steps.notices, steps.ticks]
      exact ⟨trivial, steps.machine⟩
  | run boundary =>
      have runs := twins.run boundary
      simp only [Operation.perform, runs.notices, runs.answer]
      exact ⟨trivial, runs.machine⟩
  | keyDown button => exact ⟨rfl, twins.with_board (twins.board.keyDown button)⟩
  | keyUp button => exact ⟨rfl, twins.with_board (twins.board.keyUp button)⟩
  | request source =>
      have requested := twins.board.bank.request source
      exact ⟨rfl, twins.with_board (twins.board.setBank requested)⟩
  | read address => exact ⟨congrArg Answer.byte (twins.board.read_eq address), twins⟩
  | write address value => exact ⟨rfl, twins.with_board (twins.board.write address value)⟩
  | reset => exact ⟨rfl, twins.reset⟩
  | insert image =>
      obtain ⟨answer, state⟩ := twins.insert image
      exact ⟨congrArg Answer.inserted answer, state⟩
  | takeFrames =>
      have frames : left.clock.frames = right.clock.frames := congrArg _ twins.clock
      have clock : left.clock.take.2 = right.clock.take.2 := congrArg (·.take.2) twins.clock
      exact ⟨congrArg Answer.frames frames, twins.cpu, twins.board, clock⟩

theorem hidden_state_never_shows (twins : left.Twins right) (operations : List Operation) :
    left.transcript operations = right.transcript operations := by
  induction operations generalizing left right with
  | nil => rfl
  | cons operation rest induction =>
      obtain ⟨answer, next⟩ := twins.perform operation
      simp only [transcript, answer, next.view_eq, induction next]

def untouched : Machine :=
  { ofConfig .standard with
    board := Board.bare.withTimer.load 0x0100 [Opcode.nop, Opcode.halt] }

def tampered : Machine :=
  { untouched with
    cpu := { untouched.cpu with registers := untouched.cpu.registers.setCost 9 }
    board :=
      { (untouched.board.poke 0xE000 0x55).poke 0xFF05 0x77 with bank := ⟨0xE0, 0x00⟩ } }

def probing : List Operation :=
  [.write 0xFFFF 0x1F, .read 0xFF05, .read 0xE000, .step, .keyDown .start, .read 0xFF0F,
   .insert .empty, .run .halted, .reset, .read 0xFF0F]

theorem tampering_never_shows :
    untouched.Twins tampered ∧
      untouched.board.memory.read 0xFF05 = 0x00 ∧ tampered.board.memory.read 0xFF05 = 0x77 ∧
      untouched.transcript probing = tampered.transcript probing := by
  have registers : untouched.cpu.registers.SameButCost tampered.cpu.registers :=
    (Registers.setCost_setCost _ _ _).symm
  have itself : untouched.board.Twins untouched.board := Board.twins_refl rfl
  have poked := (itself.poke (show Shadowed 0xE000 by decide) 0x55).poke
    (show Shadowed 0xFF05 by decide) 0x77
  have twins : untouched.Twins tampered :=
    ⟨⟨registers, rfl, rfl, rfl, rfl⟩, poked.other_bank ⟨rfl, rfl⟩, rfl⟩
  refine ⟨twins, ?_, ?_, hidden_state_never_shows twins probing⟩
  · simp [untouched, Board.load, Memory.load, Memory.read_write, Board.withTimer,
      Board.attachTimer, Board.bare]
  · simp [tampered, Board.poke, Memory.read_write]

end Machine

end Handheld
