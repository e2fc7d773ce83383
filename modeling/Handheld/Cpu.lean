import Handheld.Config
import Handheld.Delivery
import Handheld.Event
import Handheld.Notice
import Handheld.OpcodeTable
import Handheld.Registers.Snapshot

/-!
# The processor

A step is one instruction, or one idle cycle while halted; then an interrupt may be delivered, and
the cycles of both parts go to the tick counter and to the timer of the bus. A fault ends a step
where it arises: after an unassigned opcode only the program counter has moved.
-/

namespace Handheld

set_option autoImplicit false

structure Cpu (β : Type) where
  registers : Registers
  /-- Clock ticks since the last reset. -/
  ticks : UInt64
  table : OpcodeTable β
  config : Config

namespace Cpu

variable {β : Type}

def ofTable (table : OpcodeTable β) (config : Config) : Cpu β where
  registers := .powerOn config.model
  ticks := 0
  table := table
  config := config

/-- Takes registers and tick counter back to their first state; the bus is not concerned. -/
def reset (cpu : Cpu β) : Cpu β :=
  { cpu with registers := .powerOn cpu.config.model, ticks := 0 }

/-- Takes over the registers of a snapshot. The tick counter goes on from where it is. -/
def restore (cpu : Cpu β) (input : List UInt8) : Attempt (Cpu β) SnapshotError (List UInt8) :=
  let restored := cpu.registers.restore input
  ⟨{ cpu with registers := restored.state }, restored.answer⟩

/-- Where a step ended, what it reported, and its cost or the fault that cut it short. -/
structure Step (β : Type) where
  cpu : Cpu β
  bus : β
  notices : List Notice
  ticks : Except Fault UInt32

/-- A step that came to its end tells its cost. -/
def Step.tellEnd (reached : Step β) (sink : Sink) : Sink :=
  match reached.ticks with
  | .ok ticks => sink.tell (.retired ticks reached.cpu.ticks)
  | .error _ => sink

/-- The end of a step, as a sink is told of it. -/
def Step.closing (reached : Step β) : List Event :=
  match reached.ticks with
  | .ok ticks => [.retired ticks reached.cpu.ticks]
  | .error _ => []

theorem Step.tell_end_eq (reached : Step β) (sink : Sink) :
    reached.tellEnd sink = sink.tellAll reached.closing := by
  unfold tellEnd closing
  cases reached.ticks with
  | error fault => exact sink.tell_all_nil.symm
  | ok ticks =>
      rw [← Sink.tell_all_tell]
      exact (Sink.tell_all_nil _).symm

variable [Bus β]

def ofConfig (config : Config) : Cpu β := ofTable .control config

/-- The first part of a step: an idle cycle, or an instruction. -/
def execute (cpu : Cpu β) (bus : β) : Event × Attempt (Context β) Fault Unit :=
  let pc := cpu.registers.pc
  let start : Context β := ⟨cpu.registers, bus⟩
  if cpu.registers.halted then
    (.idled pc, ⟨Instruction.charge .idle start, .ok ()⟩)
  else
    let (opcode, fetched) := start.fetch
    (.fetched pc opcode, cpu.table.dispatch opcode fetched)

/-- The cost of `cycles` in clock ticks, and the tick counter after them. -/
def tally (counter : UInt64) (cycles : UInt32) : Except Fault (UInt32 × UInt64) :=
  match ticksOfCycles cycles with
  | .error fault => .error fault
  | .ok ticks =>
    match Checked.add64 counter ticks.toUInt64 with
    | .error fault => .error fault
    | .ok total => .ok (ticks, total)

/-- The last part of a step: its cycles go to the tick counter and to the timer. -/
def retire (cpu : Cpu β) (settled : Context β) (notices : List Notice) (cycles : UInt32) :
    Step β :=
  let ⟨registers, bus⟩ := settled
  let cpu := { cpu with registers }
  match tally cpu.ticks cycles with
  | .error fault => { cpu, bus, notices, ticks := .error fault }
  | .ok (ticks, total) =>
    let cpu := { cpu with ticks := total }
    let ⟨bus, told⟩ := Bus.advanceTimer bus cycles
    { cpu, bus, notices, ticks := told.map fun _ => ticks }

def executeStep (cpu : Cpu β) (bus : β) (sink : Sink) : Step β × Sink :=
  let (first, executed) := cpu.execute bus
  let sink := sink.tell first
  match executed.answer with
  | .error fault =>
    let ⟨registers, bus⟩ := executed.state
    ({ cpu := { cpu with registers }, bus, notices := [], ticks := .error fault }, sink)
  | .ok () =>
    let ⟨registers, bus⟩ := executed.state
    let (delivered, ⟨settled, bus⟩) := Context.service ⟨registers.setCost 0, bus⟩
    let sink := match delivered with
      | some source => sink.tell (.delivery source)
      | none => sink
    let reached := cpu.retire ⟨settled.setCost 0, bus⟩ (delivered.toList.map .delivered)
      (registers.cost.toUInt32 + settled.cost.toUInt32)
    (reached, reached.tellEnd sink)

/-- A step that nobody is told of. -/
def step (cpu : Cpu β) (bus : β) : Step β := (cpu.executeStep bus none).1

/-- A step whose events are added to a trace, if the processor tells its steps. -/
def stepTraced (cpu : Cpu β) (bus : β) (trace : Array Event) : Step β × Array Event :=
  let (reached, sink) := cpu.executeStep bus (if cpu.config.tracing then some trace else none)
  (reached, sink.getD trace)

/-- What a sink is told of a step. -/
def events (cpu : Cpu β) (bus : β) : List Event :=
  ((cpu.executeStep bus (some #[])).2.getD #[]).toList

theorem execute_step_fst (cpu : Cpu β) (bus : β) (sink : Sink) :
    (cpu.executeStep bus sink).1 = cpu.step bus := by
  cases answered : (cpu.execute bus).2.answer with
  | error fault => simp only [step, executeStep, answered]
  | ok _ => simp only [step, executeStep, answered]

theorem step_traced_fst (cpu : Cpu β) (bus : β) (trace : Array Event) :
    (cpu.stepTraced bus trace).1 = cpu.step bus :=
  cpu.execute_step_fst bus _

end Cpu

end Handheld
