import Handheld.Proofs.System
import Handheld.Proofs.Tracing

/-!
# The trace of a run

The trace of a run is what its completed steps told, in order. With the control instructions each
opcode in it stands for an instruction, and a step is made of few parts: an idle cycle or an
instruction, then at most one delivery, then the end that tells the cost. A relation that holds of
each of these parts and adds up holds of every run.
-/

namespace Handheld

set_option autoImplicit false

namespace Event

def instruction? : Event → Option ControlInstruction
  | fetched _ opcode => ControlInstruction.decode opcode
  | idled _ | delivered _ _ | retired _ _ => none

def carriesOut (event : Event) (kind : ControlInstruction → Bool) : Bool :=
  event.instruction?.any kind

theorem carries_out_fetched {opcode : UInt8} {instruction : ControlInstruction}
    (decoded : ControlInstruction.decode opcode = some instruction) (pc : UInt16)
    (kind : ControlInstruction → Bool) :
    (fetched pc opcode).carriesOut kind = kind instruction := by
  rw [carriesOut, instruction?, decoded, Option.any_some]

def isDelivery (event : Event) : Bool := event.delivered?.isSome

end Event

def Occurrence.events : Occurrence → List Event
  | step before _ => before.cpu.events before.board
  | host _ => []

def runTrace (log : List Occurrence) : List Event := log.flatMap Occurrence.events

theorem run_trace_append (earlier : List Occurrence) (last : Occurrence) :
    runTrace (earlier ++ [last]) = runTrace earlier ++ last.events := by
  rw [runTrace, List.flatMap_append, List.flatMap_singleton]
  rfl

/-- A relation between the registers at two points of a run, the machine cycles that passed between
them, and the events told there. Each part of a step satisfies it, and it adds up. -/
structure AddsUp (holds : Registers → Registers → Nat → List Event → Prop) : Prop where
  nothing : ∀ registers, holds registers registers 0 []
  both : ∀ {first middle last : Registers} {cycles more : Nat} {events later : List Event},
    holds first middle cycles events → holds middle last more later →
      holds first last (cycles + more) (events ++ later)
  idle : ∀ registers, registers.halted = true →
    holds registers (registers.setCost 1) 1 [.idled registers.pc]
  instruction : ∀ (registers : Registers) (board : Board) (opcode : UInt8)
    (instruction : ControlInstruction), registers.halted = false →
      ControlInstruction.decode opcode = some instruction →
        holds registers (instruction.handler ⟨registers.advancePc, board⟩).registers
          (instruction.handler ⟨registers.advancePc, board⟩).registers.cost.toNat
          [.fetched registers.pc opcode]
  delivery : ∀ (context : Context Board) (source : Interrupt), context.registers.ime = true →
    holds context.registers (context.enter source).registers 4 [.delivery source]
  cleared : ∀ registers, holds registers (registers.setCost 0) 0 []
  retired : ∀ registers ticks total, holds registers registers 0 [.retired ticks total]

section AddsUp

variable {holds : Registers → Registers → Nat → List Event → Prop} {cpu : Cpu Board}
  {board : Board}

theorem first_part_holds (parts : AddsUp holds) (control : cpu.table = .control)
    (answered : (cpu.execute board).2.answer = .ok ()) :
    holds cpu.registers (cpu.executed board).registers
      (cpu.executed board).registers.cost.toNat [cpu.opening board] := by
  have first := cpu.execute_first_part board
  unfold Cpu.executed Cpu.opening
  generalize (cpu.execute board).2 = part at first answered ⊢
  cases first with
  | idled halted =>
      rw [if_pos halted]
      dsimp only
      rw [Registers.cost_setCost]
      exact parts.idle _ halted
  | dispatched running installed =>
      rw [control, OpcodeTable.handler?_control] at installed
      obtain ⟨instruction, decoded, rfl⟩ := Option.map_eq_some_iff.mp installed
      rw [if_neg (by simp [running])]
      exact parts.instruction _ board _ instruction running decoded
  | unassigned running missing => contradiction

theorem second_part_holds (parts : AddsUp holds) (cpu : Cpu Board) (board : Board) :
    holds (cpu.executed board).registers (cpu.serviced board).2.registers
      (cpu.serviced board).2.registers.cost.toNat
      ((cpu.delivery? board).toList.map .delivery) := by
  rw [← Cpu.serviced_delivery]
  have cleared := parts.cleared (cpu.executed board).registers
  rcases cpu.serviced_cases board with ⟨source, ime, _, served⟩ | ⟨_, served⟩
  · rw [served, Context.enter_registers, Registers.cost_setCost]
    have delivery := parts.delivery
      ⟨(cpu.executed board).registers.setCost 0, (cpu.executed board).bus⟩ source ime
    exact parts.both cleared delivery
  · rw [served]
    dsimp only
    rw [Registers.cost_setCost]
    exact cleared

namespace System

theorem step_holds (parts : AddsUp holds) {before : System} {cost : UInt32}
    (control : before.cpu.table = .control) (completed : before.Completes cost) :
    holds before.cpu.registers before.next.cpu.registers
      (before.cpu.stepCycles before.board).toNat (before.cpu.events before.board) := by
  have law := Cpu.step_completed _ _ completed
  have first := first_part_holds parts control law.answered
  have second := second_part_holds parts before.cpu before.board
  -- The step clears the cost slot once more before it retires.
  have closing := parts.both (parts.cleared (before.cpu.serviced before.board).2.registers)
    (parts.retired _ cost before.next.cpu.ticks)
  have whole := parts.both (parts.both first second) closing
  rw [← law.registers_eq, ← Cpu.step_cycles_toNat] at whole
  rw [law.events_eq, Cpu.execute_opening, Cpu.serviced_delivery]
  exact whole

theorem run_holds (parts : AddsUp holds) {start final : System} {log : List Occurrence}
    (control : start.cpu.table = .control) (run : Run start log final) :
    ∃ cycles, holds start.cpu.registers final.cpu.registers cycles (runTrace log) ∧
      final.cpu.ticks.toNat = start.cpu.ticks.toNat + 4 * cycles := by
  induction run with
  | start => exact ⟨0, parts.nothing _, rfl⟩
  | @step log reached cost earlier completed induction =>
      obtain ⟨cycles, held, ticks⟩ := induction
      have law := Cpu.step_completed _ _ completed
      rw [← run_table earlier] at control
      refine ⟨cycles + (reached.cpu.stepCycles reached.board).toNat, ?_, ?_⟩
      · rw [run_trace_append]
        exact parts.both held (step_holds parts control completed)
      · have passed := law.ticks_eq
        have cost := law.cost_eq
        rw [Cpu.stepTicks] at cost
        simp only [next]
        omega
  | host earlier action induction =>
      rw [run_trace_append, Occurrence.events, List.append_nil]
      exact induction

end System

end AddsUp

namespace System

/-- In front of a halt instruction with two requests pending. The handler of the first of them only
enables interrupts, the one of the second returns. What is pushed is lost in the cartridge. -/
def napping : System where
  cpu :=
    { registers := (Registers.zero.setSp 0x0100).setIme true
      ticks := 0
      table := .control
      config := .standard }
  board :=
    { ((Board.bare.withTimer.load 0x0000 [Opcode.halt]).load Interrupt.vblank.vector
        [Opcode.enableInterrupts]).load Interrupt.lcdStat.vector [Opcode.retEnable] with
      bank := ⟨0x03, 0x1F⟩ }

def nappingPressed : System := napping.next.perform (.keyDown .a)

def nappingLog : List Occurrence :=
  [.step napping 20, .host (.keyDown .a), .step nappingPressed 20, .step nappingPressed.next 32]

theorem napping_run : napping.Run nappingLog nappingPressed.next.next := by
  have halting : napping.Run [.step napping 20] napping.next :=
    .step .start (show napping.Completes 20 from rfl)
  have enabling := (halting.host (.keyDown .a)).step (show nappingPressed.Completes 20 from rfl)
  exact enabling.step (show nappingPressed.next.Completes 32 from rfl)

example : runTrace nappingLog =
    [.fetched 0x0000 Opcode.halt, .delivered .vblank 0x0040, .retired 20 20,
     .fetched 0x0040 Opcode.enableInterrupts, .delivered .lcdStat 0x0048, .retired 20 40,
     .fetched 0x0048 Opcode.retEnable, .delivered .joypad 0x0060, .retired 32 72] :=
  rfl

end System

end Handheld
