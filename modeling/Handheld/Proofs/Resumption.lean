import Handheld.Proofs.Snapshot
import Handheld.Proofs.System

/-!
# Resuming from a snapshot

A step reads nothing of the processor but its registers and its opcode table. The tick counter is
only added to, and the configuration is not looked at. So two systems with the same registers, table
and board go through any session with the same answers, faults included, and their tick counters
keep their distance. A snapshot holds all of the registers, and so a restored processor goes on as
the saved one does.
-/

namespace Handheld

set_option autoImplicit false

namespace Cpu

variable {β : Type} [Bus β]

def HasTickRoom (cpu : Cpu β) (bus : β) : Prop :=
  (cpu.execute bus).2.answer = .ok () → cpu.ticks.toNat + cpu.stepTicks bus < UInt64.size

/-- What a step leaves that executed its instruction and had room for its ticks. The timer may have
faulted at the very end. -/
structure Counted (cpu : Cpu β) (bus : β) (cost : UInt32) : Prop where
  cost_eq : cost.toNat = cpu.stepTicks bus
  registers_eq : (cpu.step bus).cpu.registers = (cpu.serviced bus).2.registers.setCost 0
  table_eq : (cpu.step bus).cpu.table = cpu.table
  ticks_eq : (cpu.step bus).cpu.ticks.toNat = cpu.ticks.toNat + cpu.stepTicks bus
  bus_eq : (cpu.step bus).bus =
    (Bus.advanceTimer (cpu.serviced bus).2.bus (cpu.stepCycles bus)).state
  answer_eq : (cpu.step bus).ticks =
    (Bus.advanceTimer (cpu.serviced bus).2.bus (cpu.stepCycles bus)).answer.map fun _ => cost

theorem step_counted {cpu : Cpu β} {bus : β} (room : cpu.HasTickRoom bus)
    (answered : (cpu.execute bus).2.answer = .ok ()) : ∃ cost, cpu.Counted bus cost := by
  have parts := cpu.step_of_answered bus answered
  rcases tally_cases cpu.ticks (cpu.step_cycles_lt bus) with
    ⟨cost, total, tallied, value, sum⟩ | ⟨full, _⟩
  · obtain ⟨left, passed, told⟩ := cpu.retire_of_tallied
      ⟨(cpu.serviced bus).2.registers.setCost 0, (cpu.serviced bus).2.bus⟩
      ((cpu.serviced bus).1.toList.map .delivered) tallied
    rw [← parts] at left passed told
    exact ⟨cost, {
      cost_eq := value
      registers_eq := by rw [left]
      table_eq := by rw [left]
      ticks_eq := by rw [left]; exact sum
      bus_eq := passed
      answer_eq := told }⟩
  · exact absurd (room answered) (Nat.not_lt.mpr full)

theorem ticks_step_le {cpu : Cpu β} {bus : β} (room : cpu.HasTickRoom bus) :
    (cpu.step bus).cpu.ticks.toNat ≤ cpu.ticks.toNat + cpu.stepTicks bus := by
  cases answered : (cpu.execute bus).2.answer with
  | error fault =>
      rw [(cpu.step_of_fault bus answered).1]
      exact Nat.le_add_right _ _
  | ok _ =>
      obtain ⟨cost, law⟩ := step_counted room answered
      exact Nat.le_of_eq law.ticks_eq

/-- Two processors that a step cannot tell apart. -/
structure Alike (cpu other : Cpu β) : Prop where
  registers : other.registers = cpu.registers
  table : other.table = cpu.table

structure StepsAlike (cpu other : Cpu β) (bus : β) : Prop where
  alike : Alike (cpu.step bus).cpu (other.step bus).cpu
  bus_eq : (other.step bus).bus = (cpu.step bus).bus
  answer_eq : (other.step bus).ticks = (cpu.step bus).ticks
  distance : (other.step bus).cpu.ticks.toNat + cpu.ticks.toNat =
    (cpu.step bus).cpu.ticks.toNat + other.ticks.toNat

theorem step_alike {cpu other : Cpu β} (alike : Alike cpu other) {bus : β}
    (room : cpu.HasTickRoom bus) (otherRoom : other.HasTickRoom bus) :
    StepsAlike cpu other bus := by
  obtain ⟨registers, ticks, table, config⟩ := cpu
  obtain ⟨otherRegisters, otherTicks, otherTable, otherConfig⟩ := other
  obtain rfl : otherRegisters = registers := alike.registers
  obtain rfl : otherTable = table := alike.table
  -- No part of the step but the count itself reads the counter or the configuration.
  let cpu : Cpu β := ⟨otherRegisters, ticks, otherTable, config⟩
  let other : Cpu β := ⟨otherRegisters, otherTicks, otherTable, otherConfig⟩
  have serviced : other.serviced bus = cpu.serviced bus := rfl
  have cycles : other.stepCycles bus = cpu.stepCycles bus := rfl
  have passed : other.stepTicks bus = cpu.stepTicks bus := rfl
  cases answered : (cpu.execute bus).2.answer with
  | error fault =>
      obtain ⟨reached, kept, stopped⟩ := cpu.step_of_fault bus answered
      obtain ⟨otherReached, otherKept, otherStopped⟩ := other.step_of_fault bus answered
      constructor
      · constructor
        · rw [otherReached, reached]
        · rw [otherReached, reached]
      · exact otherKept.trans kept.symm
      · exact otherStopped.trans stopped.symm
      · rw [otherReached, reached]
        exact Nat.add_comm _ _
  | ok _ =>
      obtain ⟨cost, law⟩ := step_counted room answered
      obtain ⟨otherCost, otherLaw⟩ := step_counted otherRoom answered
      have sameCost : otherCost = cost := by
        apply UInt32.toNat.inj
        rw [law.cost_eq, otherLaw.cost_eq, passed]
      constructor
      · constructor
        · rw [law.registers_eq, otherLaw.registers_eq, serviced]
        · rw [law.table_eq, otherLaw.table_eq]
      · rw [law.bus_eq, otherLaw.bus_eq, serviced, cycles]
      · rw [law.answer_eq, otherLaw.answer_eq, serviced, cycles, sameCost]
      · have counted : (cpu.step bus).cpu.ticks.toNat = cpu.ticks.toNat + cpu.stepTicks bus :=
          law.ticks_eq
        have otherCounted : (other.step bus).cpu.ticks.toNat =
            other.ticks.toNat + cpu.stepTicks bus := otherLaw.ticks_eq
        change (other.step bus).cpu.ticks.toNat + cpu.ticks.toNat =
          (cpu.step bus).cpu.ticks.toNat + other.ticks.toNat
        omega

end Cpu

/-- What the host does with a system. -/
inductive Move where
  | step
  | host (action : HostAction)

namespace System

/-- The answers of the steps, and the system at the end. After a fault the session goes on. -/
def session : List Move → System → List (Except Fault UInt32) × System
  | [], system => ([], system)
  | .step :: later, system =>
    let (answers, final) := session later system.next
    ((system.cpu.step system.board).ticks :: answers, final)
  | .host action :: later, system => session later (system.perform action)

/-- The tick counter does not run over in any step of the session. -/
def TicksFit : List Move → System → Prop
  | [], _ => True
  | .step :: later, system => system.cpu.HasTickRoom system.board ∧ TicksFit later system.next
  | .host action :: later, system => TicksFit later (system.perform action)

structure GoesOnAs (first second : System) (moves : List Move) : Prop where
  answers : (second.session moves).1 = (first.session moves).1
  registers : (second.session moves).2.cpu.registers = (first.session moves).2.cpu.registers
  board : (second.session moves).2.board = (first.session moves).2.board
  distance : (second.session moves).2.cpu.ticks.toNat + first.cpu.ticks.toNat =
    (first.session moves).2.cpu.ticks.toNat + second.cpu.ticks.toNat

theorem session_step (later : List Move) (system : System) :
    session (.step :: later) system =
      ((system.cpu.step system.board).ticks :: (session later system.next).1,
        (session later system.next).2) := rfl

theorem goes_on_step {first second : System} {later : List Move}
    (answer : (second.cpu.step second.board).ticks = (first.cpu.step first.board).ticks)
    (distance : second.next.cpu.ticks.toNat + first.cpu.ticks.toNat =
      first.next.cpu.ticks.toNat + second.cpu.ticks.toNat)
    (rest : GoesOnAs first.next second.next later) :
    GoesOnAs first second (.step :: later) := by
  constructor
  · rw [session_step, session_step, answer, rest.answers]
  · exact rest.registers
  · exact rest.board
  · have last := rest.distance
    simp only [session_step]
    omega

theorem goes_on_of_alike (moves : List Move) {cpu other : Cpu Board} (alike : Cpu.Alike cpu other)
    (board : Board) (fits : TicksFit moves ⟨cpu, board⟩) (otherFits : TicksFit moves ⟨other, board⟩) :
    GoesOnAs ⟨cpu, board⟩ ⟨other, board⟩ moves := by
  induction moves generalizing cpu other board with
  | nil => exact ⟨rfl, alike.registers, rfl, Nat.add_comm _ _⟩
  | cons move later induction =>
      cases move with
      | step =>
          have taken := Cpu.step_alike alike fits.1 otherFits.1
          have next : System.next ⟨other, board⟩ =
              ⟨(other.step board).cpu, (cpu.step board).bus⟩ := by
            rw [System.next, taken.bus_eq]
          have rest := induction taken.alike (cpu.step board).bus fits.2 (next ▸ otherFits.2)
          rw [← next] at rest
          exact goes_on_step taken.answer_eq taken.distance rest
      | host action =>
          have rest := induction alike (action.perform board) fits otherFits
          exact ⟨rest.answers, rest.registers, rest.board, rest.distance⟩

theorem ticks_fit_of_short (moves : List Move) {system : System}
    (short : system.cpu.ticks.toNat + 2048 * moves.length < UInt64.size) :
    TicksFit moves system := by
  induction moves generalizing system with
  | nil => trivial
  | cons move later induction =>
      rw [List.length_cons] at short
      cases move with
      | step =>
          have cycles := system.cpu.step_cycles_lt system.board
          have room : system.cpu.HasTickRoom system.board := by
            intro _
            rw [Cpu.stepTicks]
            omega
          have grown := Cpu.ticks_step_le room
          rw [Cpu.stepTicks] at grown
          refine ⟨room, induction ?_⟩
          change (system.cpu.step system.board).cpu.ticks.toNat + 2048 * later.length < UInt64.size
          omega
      | host action =>
          apply induction
          change system.cpu.ticks.toNat + 2048 * later.length < UInt64.size
          omega

/-- A processor that takes over the snapshot of another goes on as that one does, on the same board
and with the same table. Its own registers, tick counter and configuration do not matter. -/
theorem restored_goes_on_as_saved (saved other : Cpu Board) (board : Board)
    (clean : saved.registers.FlagsClean) (table : other.table = saved.table) (moves : List Move)
    (fits : TicksFit moves ⟨saved, board⟩)
    (restoredFits : TicksFit moves ⟨(other.restore saved.registers.encode).state, board⟩) :
    (other.restore saved.registers.encode).answer = .ok [] ∧
      GoesOnAs ⟨saved, board⟩ ⟨(other.restore saved.registers.encode).state, board⟩ moves := by
  have restored := Registers.restore_encode clean other.registers []
  rw [List.append_nil] at restored
  have alike : Cpu.Alike saved (other.restore saved.registers.encode).state := by
    constructor
    · rw [Cpu.restore, restored]
    · exact table
  refine ⟨?_, goes_on_of_alike moves alike board fits restoredFits⟩
  rw [Cpu.restore, restored]

def saved : Cpu Board where
  registers := (Registers.zero.setPc 0xC000).setIme true
  ticks := 100
  table := .control
  config := .standard

def fresh : Cpu Board := .ofConfig ⟨.superGameBoy, true⟩

def interrupted : List Move :=
  [.step, .host (.write 0xC001 0xD3), .host (.keyDown .a), .step]

theorem fresh_goes_on_as_saved :
    saved.registers.FlagsClean ∧ TicksFit interrupted ⟨saved, Board.bare.withTimer⟩ ∧
      TicksFit interrupted ⟨(fresh.restore saved.registers.encode).state, Board.bare.withTimer⟩ ∧
      GoesOnAs ⟨saved, Board.bare.withTimer⟩
        ⟨(fresh.restore saved.registers.encode).state, Board.bare.withTimer⟩ interrupted := by
  have fits : TicksFit interrupted ⟨saved, Board.bare.withTimer⟩ :=
    ticks_fit_of_short interrupted (by decide)
  have restoredFits : TicksFit interrupted
      ⟨(fresh.restore saved.registers.encode).state, Board.bare.withTimer⟩ :=
    ticks_fit_of_short interrupted (by decide)
  exact ⟨rfl, fits, restoredFits,
    (restored_goes_on_as_saved saved fresh _ rfl rfl interrupted fits restoredFits).2⟩

end System

end Handheld
