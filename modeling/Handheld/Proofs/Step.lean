import Handheld.Cpu
import Handheld.Proofs.Checked
import Handheld.Proofs.Control
import Handheld.Proofs.Interrupt

/-!
# The parts of a step

A step is taken apart once: the context after the instruction, the context after the delivery, and
the machine cycles of both. `Completed` says everything about a step that came to its end, and a
step that did not execute its instruction changed nothing but the program counter.
-/

namespace Handheld

set_option autoImplicit false

def Event.delivered? : Event → Option Interrupt
  | delivered source _ => some source
  | fetched _ _ | idled _ | retired _ _ => none

variable {β : Type} [Bus β]

namespace Context

variable (context : Context β)

theorem service_cases :
    (∃ source, context.registers.ime = true ∧
        Interrupt.highestPriority (Bus.bank context.bus).pending = some source ∧
        context.service = (some source, context.enter source)) ∨
      ((context.registers.ime = false ∨ (Bus.bank context.bus).pending = 0) ∧
        context.service = (none, context)) := by
  cases ime : context.registers.ime with
  | false => exact .inr ⟨.inl rfl, by simp only [service, ime, Bool.false_eq_true, if_false]⟩
  | true =>
      cases found : Interrupt.highestPriority (Bus.bank context.bus).pending with
      | some source =>
          exact .inl ⟨source, rfl, rfl, by
            simp only [service, ime, if_true, deliver, Interrupt.table_entry_eq_highest_priority,
              found]⟩
      | none =>
          have noLine := (Interrupt.highest_priority_eq_none_iff _).mp found
          rw [InterruptBank.pending_lines] at noLine
          exact .inr ⟨.inr noLine, by
            simp only [service, ime, if_true, deliver, Interrupt.table_entry_eq_highest_priority,
              found]⟩

theorem enter_registers (source : Interrupt) :
    (context.enter source).registers =
      ((((context.registers.setIme false).setHalted false).setSp
        (context.registers.sp - 1 - 1)).setPc source.vector).setCost 4 := rfl

end Context

namespace Cpu

variable (cpu : Cpu β) (bus : β)

/-- The ways in which the first part of a step can go. -/
inductive FirstPart : Attempt (Context β) Fault Unit → Prop where
  | idled (halted : cpu.registers.halted = true) :
      FirstPart ⟨⟨cpu.registers.setCost 1, bus⟩, .ok ()⟩
  | dispatched {handler : Handler β} (running : cpu.registers.halted = false)
      (installed : cpu.table.handler? (Bus.read bus cpu.registers.pc) = some handler) :
      FirstPart ⟨handler ⟨cpu.registers.advancePc, bus⟩, .ok ()⟩
  | unassigned (running : cpu.registers.halted = false)
      (missing : cpu.table.handler? (Bus.read bus cpu.registers.pc) = none) :
      FirstPart ⟨⟨cpu.registers.advancePc, bus⟩,
        .error (.unassignedOpcode (Bus.read bus cpu.registers.pc) cpu.registers.pc)⟩

theorem execute_first_part : cpu.FirstPart bus (cpu.execute bus).2 := by
  cases halted : cpu.registers.halted with
  | true =>
      have idle : (cpu.execute bus).2 = ⟨⟨cpu.registers.setCost 1, bus⟩, .ok ()⟩ := by
        simp only [execute, halted, if_true]
        rfl
      rw [idle]
      exact .idled halted
  | false =>
      have fetched : (cpu.execute bus).2 =
          cpu.table.dispatch (Bus.read bus cpu.registers.pc) ⟨cpu.registers.advancePc, bus⟩ := by
        simp only [execute, halted, Bool.false_eq_true, if_false]
        rfl
      rw [fetched, OpcodeTable.dispatch]
      cases slot : cpu.table.handler? (Bus.read bus cpu.registers.pc) with
      | some handler => exact .dispatched halted slot
      | none =>
          have back : cpu.registers.advancePc.pc - 1 = cpu.registers.pc := by
            rw [Registers.advancePc, Registers.pc_setPc]
            exact UInt16.add_sub_cancel _ _
          simp only [back]
          exact .unassigned halted slot

theorem execute_of_halted {cpu : Cpu β} (halted : cpu.registers.halted = true) (bus : β) :
    (cpu.execute bus).2 = ⟨⟨cpu.registers.setCost 1, bus⟩, .ok ()⟩ := by
  have first := cpu.execute_first_part bus
  generalize (cpu.execute bus).2 = part at first ⊢
  cases first with
  | idled _ => rfl
  | dispatched running installed => exact absurd (running.symm.trans halted) Bool.false_ne_true
  | unassigned running missing => exact absurd (running.symm.trans halted) Bool.false_ne_true

theorem execute_of_handler {cpu : Cpu β} {bus : β} {handler : Handler β}
    (running : cpu.registers.halted = false)
    (installed : cpu.table.handler? (Bus.read bus cpu.registers.pc) = some handler) :
    (cpu.execute bus).2 = ⟨handler ⟨cpu.registers.advancePc, bus⟩, .ok ()⟩ := by
  have first := cpu.execute_first_part bus
  generalize (cpu.execute bus).2 = part at first ⊢
  cases first with
  | idled halted => exact absurd (running.symm.trans halted) Bool.false_ne_true
  | dispatched _ present => rw [Option.some.inj (installed.symm.trans present)]
  | unassigned _ missing =>
      rw [installed] at missing
      contradiction

theorem execute_of_missing {cpu : Cpu β} {bus : β} (running : cpu.registers.halted = false)
    (missing : cpu.table.handler? (Bus.read bus cpu.registers.pc) = none) :
    (cpu.execute bus).2 =
      ⟨⟨cpu.registers.advancePc, bus⟩,
        .error (.unassignedOpcode (Bus.read bus cpu.registers.pc) cpu.registers.pc)⟩ := by
  have first := cpu.execute_first_part bus
  generalize (cpu.execute bus).2 = part at first ⊢
  cases first with
  | idled halted => exact absurd (running.symm.trans halted) Bool.false_ne_true
  | dispatched _ installed =>
      rw [missing] at installed
      contradiction
  | unassigned _ _ => rfl

theorem answered_of_handled {cpu : Cpu β} {bus : β}
    (handled : cpu.registers.halted = true ∨
      ∃ handler, cpu.table.handler? (Bus.read bus cpu.registers.pc) = some handler) :
    (cpu.execute bus).2.answer = .ok () := by
  cases halted : cpu.registers.halted with
  | true => rw [execute_of_halted halted]
  | false =>
      rcases handled with idle | ⟨handler, installed⟩
      · exact absurd (halted.symm.trans idle) Bool.false_ne_true
      · rw [execute_of_handler halted installed]

/-- The context after the first part of a step. -/
def executed : Context β := (cpu.execute bus).2.state

/-- The source that the second part of a step delivers, and the context after it. -/
def serviced : Option Interrupt × Context β :=
  Context.service ⟨(cpu.executed bus).registers.setCost 0, (cpu.executed bus).bus⟩

theorem serviced_cases :
    (∃ source, (cpu.executed bus).registers.ime = true ∧
        Interrupt.highestPriority (Bus.bank (cpu.executed bus).bus).pending = some source ∧
        cpu.serviced bus = (some source,
          Context.enter ⟨(cpu.executed bus).registers.setCost 0, (cpu.executed bus).bus⟩ source)) ∨
      (((cpu.executed bus).registers.ime = false ∨
          (Bus.bank (cpu.executed bus).bus).pending = 0) ∧
        cpu.serviced bus =
          (none, ⟨(cpu.executed bus).registers.setCost 0, (cpu.executed bus).bus⟩)) :=
  Context.service_cases ⟨(cpu.executed bus).registers.setCost 0, (cpu.executed bus).bus⟩

def stepCycles : UInt32 :=
  (cpu.executed bus).registers.cost.toUInt32 + (cpu.serviced bus).2.registers.cost.toUInt32

theorem step_cycles_toNat :
    (cpu.stepCycles bus).toNat =
      (cpu.executed bus).registers.cost.toNat + (cpu.serviced bus).2.registers.cost.toNat := by
  have first := (cpu.executed bus).registers.cost.toNat_lt
  have second := (cpu.serviced bus).2.registers.cost.toNat_lt
  rw [stepCycles, UInt32.toNat_add, UInt8.toNat_toUInt32, UInt8.toNat_toUInt32]
  omega

theorem step_cycles_lt : (cpu.stepCycles bus).toNat < 512 := by
  have first := (cpu.executed bus).registers.cost.toNat_lt
  have second := (cpu.serviced bus).2.registers.cost.toNat_lt
  rw [step_cycles_toNat]
  omega

def stepTicks : Nat := 4 * (cpu.stepCycles bus).toNat

theorem ticks_of_cycles {cycles : UInt32} (short : cycles.toNat < 512) :
    ticksOfCycles cycles = .ok (cycles * ticksPerCycle) ∧
      (cycles * ticksPerCycle).toNat = 4 * cycles.toNat := by
  have value : ticksPerCycle.toNat = 4 := rfl
  constructor
  · rw [ticksOfCycles, Checked.mul32, value, if_pos]
    simp only [UInt32.size]
    omega
  · rw [UInt32.toNat_mul, value]
    omega

theorem tally_cases (counter : UInt64) {cycles : UInt32} (short : cycles.toNat < 512) :
    (∃ ticks total, tally counter cycles = .ok (ticks, total) ∧ ticks.toNat = 4 * cycles.toNat ∧
        total.toNat = counter.toNat + 4 * cycles.toNat) ∨
      (UInt64.size ≤ counter.toNat + 4 * cycles.toNat ∧
        tally counter cycles = .error .additionOverflow) := by
  obtain ⟨product, value⟩ := ticks_of_cycles short
  have widened : (cycles * ticksPerCycle).toUInt64.toNat = 4 * cycles.toNat := by
    rw [UInt32.toNat_toUInt64, value]
  simp only [tally, product]
  rw [← widened]
  rcases Nat.lt_or_ge (counter.toNat + (cycles * ticksPerCycle).toUInt64.toNat) UInt64.size with
    room | full
  · refine .inl ⟨_, _, by rw [Checked.add64_of_room room], value.trans widened.symm, ?_⟩
    exact Checked.sum64_of_room room
  · exact .inr ⟨full, by rw [Checked.add64_without_room full]⟩

theorem step_of_answered (answered : (cpu.execute bus).2.answer = .ok ()) :
    cpu.step bus =
      cpu.retire ⟨(cpu.serviced bus).2.registers.setCost 0, (cpu.serviced bus).2.bus⟩
        ((cpu.serviced bus).1.toList.map .delivered) (cpu.stepCycles bus) := by
  simp only [step, executeStep, answered]
  rfl

theorem step_of_fault {fault : Fault} (stopped : (cpu.execute bus).2.answer = .error fault) :
    (cpu.step bus).cpu = { cpu with registers := cpu.registers.advancePc } ∧
      (cpu.step bus).bus = bus ∧ (cpu.step bus).ticks = .error fault := by
  have first := cpu.execute_first_part bus
  have parts : cpu.step bus =
      { cpu := { cpu with registers := (cpu.execute bus).2.state.registers }
        bus := (cpu.execute bus).2.state.bus
        notices := []
        ticks := .error fault } := by
    simp only [step, executeStep, stopped]
  rw [parts]
  generalize (cpu.execute bus).2 = part at first stopped ⊢
  cases first with
  | idled halted => contradiction
  | dispatched running installed => contradiction
  | unassigned running missing => exact ⟨rfl, rfl, rfl⟩

theorem sink_of_fault {fault : Fault} (stopped : (cpu.execute bus).2.answer = .error fault)
    (sink : Sink) : (cpu.executeStep bus sink).2 = sink.tellAll [(cpu.execute bus).1] := by
  simp only [executeStep, stopped]
  rw [← sink.tell_all_tell, Sink.tell_all_nil]

theorem sink_of_answered (answered : (cpu.execute bus).2.answer = .ok ()) (sink : Sink) :
    (cpu.executeStep bus sink).2 = sink.tellAll ((cpu.execute bus).1 ::
      ((cpu.serviced bus).1.toList.map .delivery ++ (cpu.step bus).closing)) := by
  have parts := cpu.step_of_answered bus answered
  cases served : (cpu.serviced bus).1 with
  | some source =>
      have told : (cpu.executeStep bus sink).2 = (cpu.step bus).tellEnd
          ((sink.tell (cpu.execute bus).1).tell (.delivery source)) := by
        rw [parts, served]
        unfold serviced executed at served ⊢
        simp only [executeStep, answered, served]
        rfl
      rw [told, Step.tell_end_eq, Sink.tell_all_tell, Sink.tell_all_tell]
      rfl
  | none =>
      have told : (cpu.executeStep bus sink).2 =
          (cpu.step bus).tellEnd (sink.tell (cpu.execute bus).1) := by
        rw [parts, served]
        unfold serviced executed at served ⊢
        simp only [executeStep, answered, served]
        rfl
      rw [told, Step.tell_end_eq, Sink.tell_all_tell]
      rfl

theorem events_of_sink {told : List Event}
    (sink : ∀ sink, (cpu.executeStep bus sink).2 = sink.tellAll told) :
    cpu.events bus = told ∧
      ∀ sink, cpu.executeStep bus sink = (cpu.step bus, sink.tellAll (cpu.events bus)) := by
  have events : cpu.events bus = told := by
    rw [Cpu.events, sink]
    simp [Sink.tellAll]
  refine ⟨events, fun given => ?_⟩
  rw [events, ← sink, ← execute_step_fst cpu bus given]

theorem events_of_fault {fault : Fault} (stopped : (cpu.execute bus).2.answer = .error fault) :
    cpu.events bus = [(cpu.execute bus).1] :=
  (cpu.events_of_sink bus (cpu.sink_of_fault bus stopped)).1

theorem events_of_answered (answered : (cpu.execute bus).2.answer = .ok ()) :
    cpu.events bus = (cpu.execute bus).1 ::
      ((cpu.serviced bus).1.toList.map .delivery ++ (cpu.step bus).closing) :=
  (cpu.events_of_sink bus (cpu.sink_of_answered bus answered)).1

/-- A sink is told the same events in every step from here, and it decides nothing. -/
theorem execute_step_eq (sink : Sink) :
    cpu.executeStep bus sink = (cpu.step bus, sink.tellAll (cpu.events bus)) := by
  cases answered : (cpu.execute bus).2.answer with
  | error fault => exact (cpu.events_of_sink bus (cpu.sink_of_fault bus answered)).2 sink
  | ok _ => exact (cpu.events_of_sink bus (cpu.sink_of_answered bus answered)).2 sink

theorem notices_of_fault {fault : Fault} (stopped : (cpu.execute bus).2.answer = .error fault) :
    (cpu.step bus).notices = [] := by
  simp only [step, executeStep, stopped]

/-- Everything that a step which came to its end did. -/
structure Completed (cost : UInt32) : Prop where
  answered : (cpu.execute bus).2.answer = .ok ()
  cost_eq : cost.toNat = cpu.stepTicks bus
  ticks_eq : (cpu.step bus).cpu.ticks.toNat = cpu.ticks.toNat + cost.toNat
  registers_eq : (cpu.step bus).cpu.registers = (cpu.serviced bus).2.registers.setCost 0
  table_eq : (cpu.step bus).cpu.table = cpu.table
  advanced : (Bus.advanceTimer (cpu.serviced bus).2.bus (cpu.stepCycles bus)).answer = .ok ()
  bus_eq : (cpu.step bus).bus =
    (Bus.advanceTimer (cpu.serviced bus).2.bus (cpu.stepCycles bus)).state
  notices_eq : (cpu.step bus).notices = (cpu.serviced bus).1.toList.map .delivered
  events_eq : cpu.events bus =
    (cpu.execute bus).1 :: (cpu.serviced bus).1.toList.map .delivery ++
      [.retired cost (cpu.step bus).cpu.ticks]

theorem step_of_room (answered : (cpu.execute bus).2.answer = .ok ())
    (room : cpu.ticks.toNat + cpu.stepTicks bus < UInt64.size)
    (advanced : (Bus.advanceTimer (cpu.serviced bus).2.bus (cpu.stepCycles bus)).answer = .ok ()) :
    ∃ cost, (cpu.step bus).ticks = .ok cost ∧ cpu.Completed bus cost := by
  have parts := cpu.step_of_answered bus answered
  rcases tally_cases cpu.ticks (cpu.step_cycles_lt bus) with
    ⟨cost, total, tallied, value, sum⟩ | ⟨full, _⟩
  · simp only [retire, tallied, advanced] at parts
    refine ⟨cost, by rw [parts, Except.map], ?_⟩
    exact {
      answered := answered
      cost_eq := value
      ticks_eq := by simp only [parts, sum, value]
      registers_eq := by rw [parts]
      table_eq := by rw [parts]
      advanced := advanced
      bus_eq := by rw [parts]
      notices_eq := by rw [parts]
      events_eq := by
        rw [cpu.events_of_answered bus answered, parts]
        rfl }
  · exact absurd room (Nat.not_lt.mpr full)

theorem step_without_room (answered : (cpu.execute bus).2.answer = .ok ())
    (full : UInt64.size ≤ cpu.ticks.toNat + cpu.stepTicks bus) :
    (cpu.step bus).ticks = .error .additionOverflow := by
  have parts := cpu.step_of_answered bus answered
  rcases tally_cases cpu.ticks (cpu.step_cycles_lt bus) with
    ⟨ticks, total, _, _, sum⟩ | ⟨_, tallied⟩
  · rw [stepTicks, ← sum] at full
    exact absurd total.toNat_lt (Nat.not_lt.mpr full)
  · simp only [parts, retire, tallied]

theorem step_completed {cost : UInt32} (completed : (cpu.step bus).ticks = .ok cost) :
    cpu.Completed bus cost := by
  cases answered : (cpu.execute bus).2.answer with
  | error fault =>
      rw [(cpu.step_of_fault bus answered).2.2] at completed
      contradiction
  | ok _ =>
      have parts := cpu.step_of_answered bus answered
      rcases tally_cases cpu.ticks (cpu.step_cycles_lt bus) with
        ⟨ticks, total, tallied, _, sum⟩ | ⟨_, tallied⟩
      · cases advanced :
            (Bus.advanceTimer (cpu.serviced bus).2.bus (cpu.stepCycles bus)).answer with
        | error fault =>
            simp only [parts, retire, tallied, advanced] at completed
            contradiction
        | ok _ =>
            have room : cpu.ticks.toNat + cpu.stepTicks bus < UInt64.size := by
              rw [stepTicks, ← sum]
              exact total.toNat_lt
            obtain ⟨other, same, law⟩ := cpu.step_of_room bus answered room advanced
            rw [completed] at same
            rw [Except.ok.inj same]
            exact law
      · simp only [parts, retire, tallied] at completed
        contradiction

theorem Completed.filterMap_events {cpu : Cpu β} {bus : β} {cost : UInt32} {α : Type}
    {told? : Event → Option α} (law : cpu.Completed bus cost)
    (first : told? (cpu.execute bus).1 = none)
    (last : ∀ ticks total, told? (.retired ticks total) = none) :
    (cpu.events bus).filterMap told? =
      (cpu.serviced bus).1.toList.filterMap (told? ∘ Event.delivery) := by
  rw [law.events_eq, List.cons_append, List.filterMap_cons_none first, List.filterMap_append,
    List.filterMap_cons_none (last _ _), List.filterMap_nil, List.append_nil, List.filterMap_map]

theorem Completed.deliveries_eq {cpu : Cpu β} {bus : β} {cost : UInt32}
    (law : cpu.Completed bus cost) :
    (cpu.events bus).filterMap Event.delivered? = (cpu.serviced bus).1.toList := by
  have first : (cpu.execute bus).1.delivered? = none := by
    unfold execute
    split <;> rfl
  rw [law.filterMap_events first fun _ _ => rfl]
  exact List.filterMap_some

theorem Completed.mem_delivered_iff {cpu : Cpu β} {bus : β} {cost : UInt32}
    (law : cpu.Completed bus cost) (source : Interrupt) (vector : UInt16) :
    .delivered source vector ∈ cpu.events bus ↔
      (cpu.serviced bus).1 = some source ∧ vector = source.vector := by
  have first : Event.delivered source vector ≠ (cpu.execute bus).1 := by
    unfold execute
    split <;> exact nofun
  rw [law.events_eq, List.mem_append, List.mem_cons, List.mem_map, or_iff_right first]
  constructor
  · rintro (⟨other, served, same⟩ | closing)
    · obtain ⟨rfl, rfl⟩ := Event.delivered.inj same
      exact ⟨Option.mem_toList.mp served, rfl⟩
    · exact absurd (List.mem_singleton.mp closing) nofun
  · rintro ⟨served, rfl⟩
    exact .inl ⟨source, Option.mem_toList.mpr served, rfl⟩

theorem Completed.delivered_iff {cpu : Cpu β} {bus : β} {cost : UInt32}
    (law : cpu.Completed bus cost) (source : Interrupt) :
    .delivery source ∈ cpu.events bus ↔ (cpu.serviced bus).1 = some source := by
  rw [Event.delivery, law.mem_delivered_iff, and_iff_left rfl]

/-- A push of the step writes the address: the one of a restart, or the one of a delivery. -/
def PushesTo (address : UInt16) : Prop :=
  (cpu.registers.halted = false ∧
      (∃ vector, cpu.table.handler? (Bus.read bus cpu.registers.pc) =
        some (Instruction.restart vector)) ∧
      address ∈ cpu.registers.pushSlots) ∨
    ((cpu.serviced bus).1 ≠ none ∧ address ∈ (cpu.executed bus).registers.pushSlots)

/-- What the pushes of a step keep, the first part of a step keeps. -/
theorem executed_keeps (kept : β → Prop) (only : cpu.table.OnlyControl)
    (keeps : ∀ address, cpu.PushesTo bus address → ∀ bus value, kept bus →
      kept (Bus.write bus address value))
    (start : kept bus) : kept (cpu.executed bus).bus := by
  have first := cpu.execute_first_part bus
  unfold executed
  generalize (cpu.execute bus).2 = part at first ⊢
  cases first with
  | idled halted => exact start
  | unassigned running missing => exact start
  | dispatched running installed =>
      obtain ⟨instruction, rfl⟩ := only _ _ installed
      rcases instruction.handler_bus ⟨cpu.registers.advancePc, bus⟩ with same | ⟨vector, rfl⟩
      · exact same ▸ start
      · apply Context.push_keeps kept ⟨cpu.registers.advancePc, bus⟩ _ _ start
        intro address slot
        rw [Registers.pushSlots, Registers.advancePc, Registers.sp_setPc] at slot
        exact keeps address (.inl ⟨running, ⟨vector, installed⟩, slot⟩)

theorem delivery_keeps (kept : β → Prop) {source : Interrupt}
    (served : cpu.serviced bus =
      (some source, Context.enter ⟨(cpu.executed bus).registers.setCost 0,
        (cpu.executed bus).bus⟩ source))
    (keeps : ∀ address ∈ (cpu.executed bus).registers.pushSlots, ∀ bus value, kept bus →
      kept (Bus.write bus address value))
    (acknowledged : kept (Bus.setBank (cpu.executed bus).bus
      ((Bus.bank (cpu.executed bus).bus).acknowledge source))) :
    kept (cpu.serviced bus).2.bus := by
  rw [served]
  apply Context.push_keeps kept ⟨_, _⟩ _ _ acknowledged
  intro address slot
  rw [Registers.pushSlots, Registers.sp_setHalted, Registers.sp_setIme,
    Registers.sp_setCost] at slot
  exact keeps address slot

theorem serviced_keeps (kept : β → Prop)
    (keeps : (cpu.serviced bus).1 ≠ none → ∀ address ∈ (cpu.executed bus).registers.pushSlots,
      ∀ bus value, kept bus → kept (Bus.write bus address value))
    (acknowledges : ∀ source, kept (Bus.setBank (cpu.executed bus).bus
      ((Bus.bank (cpu.executed bus).bus).acknowledge source)))
    (start : kept (cpu.executed bus).bus) : kept (cpu.serviced bus).2.bus := by
  rcases cpu.serviced_cases bus with ⟨source, _, _, served⟩ | ⟨_, served⟩
  · have delivers : (cpu.serviced bus).1 ≠ none := by
      rw [served]
      exact Option.some_ne_none source
    exact cpu.delivery_keeps bus kept served (keeps delivers) (acknowledges source)
  · rw [served]
    exact start

/-- Where the tick counter takes the cost, the timer of the bus alone decides how the step ends. -/
theorem retire_of_tallied (settled : Context β) (notices : List Notice) {cycles ticks : UInt32}
    {total : UInt64} (tallied : tally cpu.ticks cycles = .ok (ticks, total)) :
    (cpu.retire settled notices cycles).cpu =
        { cpu with registers := settled.registers, ticks := total } ∧
      (cpu.retire settled notices cycles).bus = (Bus.advanceTimer settled.bus cycles).state ∧
      (cpu.retire settled notices cycles).ticks =
        (Bus.advanceTimer settled.bus cycles).answer.map fun _ => ticks := by
  simp only [retire, tallied, and_self]

theorem retire_cpu (settled : Context β) (notices : List Notice) (cycles : UInt32) :
    ∃ ticks, (cpu.retire settled notices cycles).cpu =
      { cpu with registers := settled.registers, ticks := ticks } := by
  cases tallied : tally cpu.ticks cycles with
  | error fault => exact ⟨cpu.ticks, by simp only [retire, tallied]⟩
  | ok counted => exact ⟨counted.2, (cpu.retire_of_tallied settled notices tallied).1⟩

theorem retire_table (settled : Context β) (notices : List Notice) (cycles : UInt32) :
    (cpu.retire settled notices cycles).cpu.table = cpu.table := by
  obtain ⟨ticks, same⟩ := cpu.retire_cpu settled notices cycles
  rw [same]

theorem retire_registers (settled : Context β) (notices : List Notice) (cycles : UInt32) :
    (cpu.retire settled notices cycles).cpu.registers = settled.registers := by
  obtain ⟨ticks, same⟩ := cpu.retire_cpu settled notices cycles
  rw [same]

theorem step_table : (cpu.step bus).cpu.table = cpu.table := by
  cases answered : (cpu.execute bus).2.answer with
  | error fault => rw [(cpu.step_of_fault bus answered).1]
  | ok _ =>
      rw [cpu.step_of_answered bus answered]
      exact cpu.retire_table _ _ _

theorem retire_keeps (kept : β → Prop) {settled : Context β} (notices : List Notice)
    (cycles : UInt32) (waits : kept (Bus.advanceTimer settled.bus cycles).state)
    (start : kept settled.bus) : kept (cpu.retire settled notices cycles).bus := by
  cases tallied : tally cpu.ticks cycles with
  | error fault =>
      simp only [retire, tallied]
      exact start
  | ok counted =>
      rw [(cpu.retire_of_tallied settled notices tallied).2.1]
      exact waits

/-- What writes, acknowledgements and waits keep, every step keeps, also one that faults. -/
theorem step_keeps (kept : β → Prop) (only : cpu.table.OnlyControl)
    (writes : ∀ bus address value, kept bus → kept (Bus.write bus address value))
    (acknowledges : ∀ bus source, kept bus →
      kept (Bus.setBank bus ((Bus.bank bus).acknowledge source)))
    (waits : ∀ bus cycles, kept bus → kept (Bus.advanceTimer bus cycles).state)
    (start : kept bus) : kept (cpu.step bus).bus := by
  have executed : kept (cpu.executed bus).bus :=
    cpu.executed_keeps bus kept only (fun address _ bus => writes bus address) start
  have serviced : kept (cpu.serviced bus).2.bus :=
    cpu.serviced_keeps bus kept (fun _ address _ bus => writes bus address)
      (fun source => acknowledges _ source executed) executed
  cases answered : (cpu.execute bus).2.answer with
  | error fault =>
      rw [(cpu.step_of_fault bus answered).2.1]
      exact start
  | ok _ =>
      rw [cpu.step_of_answered bus answered]
      exact cpu.retire_keeps kept _ _ (waits _ _ serviced) serviced
end Cpu

end Handheld
