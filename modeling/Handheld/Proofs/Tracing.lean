import Handheld.Board
import Handheld.Proofs.Step

/-!
# Tracing

A traced step hands its sink through all of its parts, and still it does what the plain step does,
which has none. The sink gets nothing while tracing is off. What it gets otherwise is told by
`record`, from the states before and after a step alone: how it began, the source that it delivered
with the vector of it, and at the end its cost and the tick counter. A step that faults leaves out
what it did not come to.
-/

namespace Handheld.Cpu

set_option autoImplicit false

variable {β : Type}

def setTracing (cpu : Cpu β) (tracing : Bool) : Cpu β :=
  { cpu with config := { cpu.config with tracing } }

variable [Bus β]

/-- An idle cycle of a halted processor, or else the opcode that the program counter points at. -/
def opening (cpu : Cpu β) (bus : β) : Event :=
  if cpu.registers.halted then .idled cpu.registers.pc
  else .fetched cpu.registers.pc (Bus.read bus cpu.registers.pc)

def MeetsUnassigned (cpu : Cpu β) (bus : β) : Prop :=
  cpu.registers.halted = false ∧ cpu.table.handler? (Bus.read bus cpu.registers.pc) = none

instance (cpu : Cpu β) (bus : β) : Decidable (cpu.MeetsUnassigned bus) :=
  inferInstanceAs (Decidable (_ ∧ _))

/-- The source that is delivered after the first part of a step. -/
def delivery? (cpu : Cpu β) (bus : β) : Option Interrupt :=
  if (cpu.executed bus).registers.ime then
    Interrupt.highestPriority (Bus.bank (cpu.executed bus).bus).pending
  else none

/-- How a step began, and its delivery. The vectors lie eight bytes apart. -/
def progressed (cpu : Cpu β) (bus : β) : List Event :=
  cpu.opening bus ::
    (cpu.delivery? bus).toList.map fun source =>
      .delivered source (0x0040 + 8 * source.bit.toUInt16)

/-- The events of a step, read off from where it started and where it ended. -/
def record (cpu : Cpu β) (bus : β) : List Event :=
  match (cpu.step bus).ticks with
  | .ok cost => cpu.progressed bus ++ [.retired cost (cpu.step bus).cpu.ticks]
  | .error _ => if cpu.MeetsUnassigned bus then [cpu.opening bus] else cpu.progressed bus

variable {cpu : Cpu β} {bus : β}

theorem execute_opening (cpu : Cpu β) (bus : β) : (cpu.execute bus).1 = cpu.opening bus := by
  unfold execute opening
  split <;> rfl

theorem serviced_delivery (cpu : Cpu β) (bus : β) :
    (cpu.serviced bus).1 = cpu.delivery? bus := by
  unfold delivery?
  rcases cpu.serviced_cases bus with ⟨source, ime, found, served⟩ | ⟨off | clear, served⟩
  · rw [served, if_pos ime, found]
  · rw [served, if_neg (by simp [off])]
  · rw [served, clear]
    exact (ite_self _).symm

theorem progressed_eq (cpu : Cpu β) (bus : β) :
    cpu.progressed bus = (cpu.execute bus).1 :: (cpu.serviced bus).1.toList.map .delivery := by
  rw [execute_opening, serviced_delivery, progressed]
  congr 2
  funext source
  rw [Event.delivery, source.vector_eq]

theorem unassigned_iff :
    (∃ fault, (cpu.execute bus).2.answer = .error fault) ↔ cpu.MeetsUnassigned bus := by
  have first := cpu.execute_first_part bus
  generalize (cpu.execute bus).2 = part at first ⊢
  cases first with
  | idled halted => simp [MeetsUnassigned, halted]
  | dispatched running installed => simp [MeetsUnassigned, running, installed]
  | unassigned running missing => simp [MeetsUnassigned, running, missing]

theorem step_events (cpu : Cpu β) (bus : β) : cpu.events bus = cpu.record bus := by
  unfold record
  cases told : (cpu.step bus).ticks with
  | ok cost =>
      have law := cpu.step_completed bus told
      rw [law.events_eq, progressed_eq]
  | error fault =>
      dsimp only
      cases answered : (cpu.execute bus).2.answer with
      | error reason =>
          rw [if_pos (unassigned_iff.mp ⟨reason, answered⟩)]
          rw [cpu.events_of_fault bus answered, execute_opening]
      | ok _ =>
          have assigned : ¬cpu.MeetsUnassigned bus := by
            rw [← unassigned_iff, answered]
            rintro ⟨reason, impossible⟩
            contradiction
          rw [if_neg assigned]
          rw [cpu.events_of_answered bus answered, progressed_eq, Step.closing, told]
          simp only [List.append_nil]

/-- What some calls of the step answered, and where the last one ended. After a fault the next call
goes on from where the step stopped. -/
structure Calls (β : Type) where
  answers : List (Except Fault UInt32)
  cpu : Cpu β
  bus : β

def Calls.after (answer : Except Fault UInt32) (rest : Calls β) : Calls β :=
  { rest with answers := answer :: rest.answers }

def calls : Nat → Cpu β → β → Calls β
  | 0, cpu, bus => ⟨[], cpu, bus⟩
  | count + 1, cpu, bus =>
    let reached := cpu.step bus
    (calls count reached.cpu reached.bus).after reached.ticks

/-- Calls of the traced step, all with one sink. -/
def tracedCalls : Nat → Cpu β → β → Array Event → Calls β × Array Event
  | 0, cpu, bus, sink => (⟨[], cpu, bus⟩, sink)
  | count + 1, cpu, bus, sink =>
    let (reached, sink) := cpu.stepTraced bus sink
    let (rest, sink) := tracedCalls count reached.cpu reached.bus sink
    (rest.after reached.ticks, sink)

/-- The processor and the bus at the beginning of each of the calls. -/
def visited : Nat → Cpu β → β → List (Cpu β × β)
  | 0, _, _ => []
  | count + 1, cpu, bus =>
    let reached := cpu.step bus
    (cpu, bus) :: visited count reached.cpu reached.bus

def records (count : Nat) (cpu : Cpu β) (bus : β) : List Event :=
  (visited count cpu bus).flatMap fun (cpu, bus) => cpu.record bus

theorem step_setTracing (cpu : Cpu β) (bus : β) (tracing : Bool) :
    (cpu.setTracing tracing).step bus =
      { cpu.step bus with cpu := (cpu.step bus).cpu.setTracing tracing } := by
  have execute : (cpu.setTracing tracing).execute bus = cpu.execute bus := rfl
  have ticks : (cpu.setTracing tracing).ticks = cpu.ticks := rfl
  cases answered : (cpu.execute bus).2.answer with
  | error fault =>
      simp only [step, executeStep, execute, answered]
      rfl
  | ok _ =>
      have serviced : (cpu.setTracing tracing).serviced bus = cpu.serviced bus := rfl
      have cycles : (cpu.setTracing tracing).stepCycles bus = cpu.stepCycles bus := rfl
      rw [step_of_answered _ bus answered, step_of_answered _ bus (execute ▸ answered), serviced,
        cycles]
      simp only [retire, ticks]
      cases tally cpu.ticks (cpu.stepCycles bus) with
      | error fault => rfl
      | ok total => rfl

theorem step_traced_eq (cpu : Cpu β) (bus : β) (sink : Array Event) :
    cpu.stepTraced bus sink =
      (cpu.step bus, if cpu.config.tracing then sink ++ cpu.record bus else sink) := by
  rw [stepTraced, execute_step_eq, step_events]
  cases cpu.config.tracing with
  | false => rfl
  | true => rfl

theorem record_setTracing (cpu : Cpu β) (bus : β) (tracing : Bool) :
    (cpu.setTracing tracing).record bus = cpu.record bus := by
  rw [record, step_setTracing]
  rfl

theorem traced_calls_eq (count : Nat) (cpu : Cpu β) (bus : β) (tracing : Bool)
    (sink : Array Event) :
    tracedCalls count (cpu.setTracing tracing) bus sink =
      ({ calls count cpu bus with cpu := (calls count cpu bus).cpu.setTracing tracing },
        if tracing then sink ++ records count cpu bus else sink) := by
  induction count generalizing cpu bus sink with
  | zero => simp [tracedCalls, calls, records, visited]
  | succ count induction =>
      have tracing_eq : (cpu.setTracing tracing).config.tracing = tracing := rfl
      simp only [tracedCalls, step_traced_eq, tracing_eq, record_setTracing, step_setTracing,
        induction]
      cases tracing with
      | false => rfl
      | true =>
          have listed : sink ++ cpu.record bus ++
              records count (cpu.step bus).cpu (cpu.step bus).bus =
                sink ++ records (count + 1) cpu bus := by
            apply Array.toList_inj.mp
            simp [records, visited]
          simp only [if_true, listed]
          rfl

theorem pc_of_delivery {cost : UInt32} (completed : (cpu.step bus).ticks = .ok cost)
    {source : Interrupt} {vector : UInt16} (told : .delivered source vector ∈ cpu.record bus) :
    (cpu.step bus).cpu.registers.pc = vector := by
  have law := cpu.step_completed bus completed
  rw [← step_events, law.mem_delivered_iff] at told
  obtain ⟨told, rfl⟩ := told
  rcases cpu.serviced_cases bus with ⟨found, _, _, served⟩ | ⟨_, served⟩
  · rw [served] at told
    obtain rfl : found = source := Option.some.inj told
    rw [law.registers_eq, served, Context.enter_registers]
    simp
  · rw [served] at told
    contradiction

/-- Traced calls against plain ones: all that differs is that the sink took in what the steps had
to tell, if tracing was on. -/
structure OnlyObserved (tracing : Bool) (sink told : Array Event) (visits : List (Cpu β × β))
    (plain traced : Calls β) : Prop where
  answers : traced.answers = plain.answers
  registers : traced.cpu.registers = plain.cpu.registers
  ticks : traced.cpu.ticks = plain.cpu.ticks
  bus : traced.bus = plain.bus
  silent : tracing = false → told = sink
  told : tracing = true →
    told.toList = sink.toList ++ visits.flatMap fun (cpu, bus) => cpu.record bus
  vector : ∀ cpu bus, (cpu, bus) ∈ visits → ∀ cost, (cpu.step bus).ticks = .ok cost →
    ∀ source vector, .delivered source vector ∈ cpu.record bus →
      (cpu.step bus).cpu.registers.pc = vector

/-- Whatever the table and the bus, and with or without tracing, traced calls do what plain calls
do; they fault in the same places. -/
theorem tracing_only_observes (count : Nat) (cpu : Cpu β) (bus : β) (tracing : Bool)
    (sink : Array Event) :
    OnlyObserved tracing sink (tracedCalls count (cpu.setTracing tracing) bus sink).2
      (visited count cpu bus) (calls count cpu bus)
      (tracedCalls count (cpu.setTracing tracing) bus sink).1 := by
  rw [traced_calls_eq]
  constructor
  · rfl
  · rfl
  · rfl
  · rfl
  · intro off
    rw [off]
    rfl
  · intro on
    simp [on, records]
  · intro cpu bus _ cost completed source vector told
    exact pc_of_delivery completed told

def beforeSerial : Cpu Board where
  registers := (Registers.zero.setSp 0x0100).setIme true
  ticks := 0
  table := .control
  config := .standard

/-- The serial port is pending, and no handler is installed for the opcode at its vector. -/
def serialPending : Board :=
  { Board.bare.load Interrupt.serial.vector [0xD3] with bank := ⟨0x08, 0x1F⟩ }

example : (tracedCalls 2 (beforeSerial.setTracing true) serialPending #[]).2.toList =
    [.fetched 0x0000 Opcode.nop, .delivered .serial 0x0058, .retired 20 20, .fetched 0x0058 0xD3] :=
  rfl

end Handheld.Cpu
