import Handheld.Cpu.Run
import Handheld.Proofs.Stack
import Handheld.Proofs.StepCost
import Handheld.Proofs.TimerSafety

/-!
# Steps while the timer stands still

Where no timer runs, the time of a step leaves the board as it is. A step that delivers a source
then changes the flag of this source and the two cells of the stack, and a step with nothing to
deliver changes no more than its instruction did. The tick counter is all that can end such a step
early.
-/

namespace Handheld

set_option autoImplicit false

/-- No timer, or one whose counter stands still. -/
structure Board.Calm (board : Board) : Prop where
  reachable : board.TimerReachable
  still : ∀ timer, board.timer = some timer → timer.running = false

namespace Board

variable {board : Board}

theorem calm_overflows (calm : board.Calm) (cycles : Nat) : board.overflows cycles = 0 := by
  unfold overflows
  cases attached : board.timer with
  | none => rfl
  | some timer =>
      have still := calm.still timer attached
      simp only [Timer.overflows, Timer.increments, still, Bool.false_eq_true, if_false]
      rfl

theorem elapse_calm (calm : board.Calm) (cycles : Nat) :
    (board.elapse cycles).bank = board.bank ∧ (board.elapse cycles).memory = board.memory := by
  simp only [elapse, calm_overflows calm, Nat.lt_irrefl, if_false, and_self]

theorem advance_calm (calm : board.Calm) {cycles : UInt32} (short : cycles.toNat < 65536) :
    (board.advanceTimer cycles).answer = .ok () ∧
      (board.advanceTimer cycles).state.bank = board.bank ∧
      (board.advanceTimer cycles).state.memory = board.memory ∧
      (board.advanceTimer cycles).state.Calm := by
  have answered := advance_timer_of_reachable calm.reachable short
  have state := advance_timer_of_answered answered
  have reachable := timer_reachable_advance calm.reachable cycles
  obtain ⟨bank, memory⟩ := elapse_calm calm cycles.toNat
  rw [state] at reachable ⊢
  refine ⟨answered, bank, memory, reachable, ?_⟩
  intro timer elapsed
  obtain ⟨before, attached, rfl⟩ := Option.map_eq_some_iff.mp elapsed
  exact calm.still before attached

end Board

namespace Registers

variable (registers : Registers)

def inService (source : Interrupt) : Registers :=
  ((((registers.setIme false).setHalted false).setSp (registers.sp - 2)).setPc
    source.vector).setCost 0

theorem in_service_of_enter (source : Interrupt) (bus : Board) :
    (Context.enter ⟨registers.setCost 0, bus⟩ source).registers.setCost 0 =
      registers.inService source := by
  rw [Context.enter_registers]
  apply ext_of_views
  · intro view notCost
    simp [inService, get8_setCost _ notCost]
  · simp [inService]
  · simp [inService, Word.two_below]
  · simp [inService]
  · simp [inService]
  · simp [inService]

/-- Of what came before a delivery only the program counter matters, and that one is pushed. -/
theorem in_service_of_same {left right : Registers}
    (bytes : ∀ view, view ≠ .m → left.get8 view = right.get8 view) (sp : left.sp = right.sp)
    (source : Interrupt) : left.inService source = right.inService source := by
  apply ext_of_views
  · intro view notCost
    simp [inService, get8_setCost _ notCost, bytes view notCost]
  · simp [inService]
  · simp [inService, sp]
  · simp [inService]
  · simp [inService]
  · simp [inService]

end Registers

namespace Context

theorem enter_bus (registers : Registers) (board : Board) (source : Interrupt) :
    (enter ⟨registers.setCost 0, board⟩ source).bus =
      { board with bank := board.bank.acknowledge source }.stacked registers.sp registers.pc := by
  let entering := ((registers.setCost 0).setIme false).setHalted false
  have entered : (enter ⟨registers.setCost 0, board⟩ source).bus =
      (push ⟨entering, { board with bank := board.bank.acknowledge source }⟩ entering.pc).bus := rfl
  have sp : entering.sp = registers.sp := by
    simp only [entering, Registers.sp_setHalted, Registers.sp_setIme, Registers.sp_setCost]
  have pc : entering.pc = registers.pc := by
    simp only [entering, Registers.pc_setHalted, Registers.pc_setIme, Registers.pc_setCost]
  rw [entered, push_bus, sp, pc]

end Context

namespace Cpu

/-- What a step did on a board whose timer stands still. -/
structure CalmStep (cpu : Cpu Board) (board : Board) (cost : UInt32) (delivered : List Interrupt)
    (registers : Registers) (memory : Memory) (bank : InterruptBank) : Prop where
  completed : (cpu.step board).ticks = .ok cost
  ticks_eq : (cpu.step board).cpu.ticks.toNat = cpu.ticks.toNat + cost.toNat
  table_eq : (cpu.step board).cpu.table = cpu.table
  notices_eq : (cpu.step board).notices = delivered.map .delivered
  registers_eq : (cpu.step board).cpu.registers = registers
  memory_eq : (cpu.step board).bus.memory = memory
  bank_eq : (cpu.step board).bus.bank = bank
  calm : (cpu.step board).bus.Calm

/-- The cost of the step does not fit into the tick counter, and that ends it. -/
structure RunsOver (cpu : Cpu Board) (board : Board) (cost : UInt32) : Prop where
  full : UInt64.size ≤ cpu.ticks.toNat + cost.toNat
  stopped : (cpu.step board).ticks = .error .additionOverflow

section CalmStep

variable {cpu : Cpu Board} {board : Board} {phase : Context Board} {cost : UInt32}

/-- A step whose time the timer takes comes to its end, or has no room in the tick counter. -/
theorem completed_or_runs_over (answered : (cpu.execute board).2.answer = .ok ())
    (ticks : cpu.stepTicks board = cost.toNat)
    (told : (Bus.advanceTimer (cpu.serviced board).2.bus (cpu.stepCycles board)).answer = .ok ()) :
    ((cpu.step board).ticks = .ok cost ∧ cpu.Completed board cost) ∨ cpu.RunsOver board cost := by
  rcases Nat.lt_or_ge (cpu.ticks.toNat + cpu.stepTicks board) UInt64.size with room | full
  · obtain ⟨paid, completed, law⟩ := cpu.step_of_room board answered room told
    have same : paid = cost := by
      apply UInt32.toNat.inj
      rw [law.cost_eq, ticks]
    rw [same] at completed law
    exact .inl ⟨completed, law⟩
  · have stopped := cpu.step_without_room board answered full
    rw [ticks] at full
    exact .inr ⟨full, stopped⟩

theorem calm_step_of_serviced {delivered : Option Interrupt} {settled : Context Board}
    (executed : (cpu.execute board).2 = ⟨phase, .ok ()⟩)
    (served : cpu.serviced board = (delivered, settled)) (calm : settled.bus.Calm)
    (value : cost.toNat = 4 * (phase.registers.cost.toNat + settled.registers.cost.toNat)) :
    cpu.CalmStep board cost delivered.toList (settled.registers.setCost 0) settled.bus.memory
        settled.bus.bank ∨ cpu.RunsOver board cost := by
  have answered : (cpu.execute board).2.answer = .ok () := by rw [executed]
  have cycles := cpu.step_cycles_toNat board
  rw [Cpu.executed, executed, served] at cycles
  have ticks : cpu.stepTicks board = cost.toNat := by rw [stepTicks, cycles, value]
  have short := cpu.step_cycles_lt board
  obtain ⟨advanced, bank, memory, stillCalm⟩ :=
    Board.advance_calm calm (Nat.lt_trans short (by decide))
  have told : (Bus.advanceTimer (cpu.serviced board).2.bus (cpu.stepCycles board)).answer =
      .ok () := by
    rw [served]
    exact advanced
  rcases completed_or_runs_over answered ticks told with ⟨completed, law⟩ | overrun
  · have bus := law.bus_eq
    rw [served, Board.bus_advanceTimer] at bus
    refine .inl ?_
    exact {
      completed := completed
      ticks_eq := law.ticks_eq
      table_eq := law.table_eq
      notices_eq := by rw [law.notices_eq, served]
      registers_eq := by rw [law.registers_eq, served]
      memory_eq := by rw [bus, memory]
      bank_eq := by rw [bus, bank]
      calm := by rw [bus]; exact stillCalm }
  · exact .inr overrun

theorem calm_step_delivers {source : Interrupt} {rest : List Interrupt}
    (executed : (cpu.execute board).2 = ⟨phase, .ok ()⟩) (calm : phase.bus.Calm)
    (ime : phase.registers.ime = true) (waits : phase.bus.bank.waiting = source :: rest)
    (ram : StackInRam phase.registers.sp)
    (value : cost.toNat = 4 * (phase.registers.cost.toNat + 4)) :
    cpu.CalmStep board cost [source] (phase.registers.inService source)
        (phase.bus.memory.stack phase.registers.sp phase.registers.pc)
        (phase.bus.bank.acknowledge source) ∨ cpu.RunsOver board cost := by
  have first := phase.bus.bank.highest_priority_eq_head
  rw [waits, List.head?_cons] at first
  have context : cpu.executed board = phase := by rw [Cpu.executed, executed]
  rcases cpu.serviced_cases board with ⟨found, _, highest, served⟩ | ⟨quiet, _⟩
  · rw [context] at highest served
    obtain rfl : source = found := Option.some.inj (first.symm.trans highest)
    have bus := Context.enter_bus phase.registers phase.bus source
    rw [Board.stacked_ram _ ram] at bus
    have step := calm_step_of_serviced executed served (by rw [bus]; exact ⟨calm.1, calm.2⟩)
      (by rw [value, Context.enter_registers, Registers.cost_setCost]; rfl)
    rw [Registers.in_service_of_enter, bus] at step
    exact step
  · rw [context] at quiet
    rcases quiet with off | none
    · rw [ime] at off
      contradiction
    · rw [(phase.bus.bank.waiting_eq_nil_iff).mpr none] at waits
      contradiction

theorem calm_step_passes (executed : (cpu.execute board).2 = ⟨phase, .ok ()⟩)
    (calm : phase.bus.Calm) (waits : phase.bus.bank.waiting = [])
    (value : cost.toNat = 4 * phase.registers.cost.toNat) :
    cpu.CalmStep board cost [] (phase.registers.setCost 0) phase.bus.memory phase.bus.bank ∨
      cpu.RunsOver board cost := by
  have context : cpu.executed board = phase := by rw [Cpu.executed, executed]
  have first := phase.bus.bank.highest_priority_eq_head
  rw [waits, List.head?_nil] at first
  rcases cpu.serviced_cases board with ⟨found, _, highest, _⟩ | ⟨_, served⟩
  · rw [context, Board.bus_bank, first] at highest
    contradiction
  · rw [context] at served
    have step := calm_step_of_serviced executed served calm
      (by rw [value, Registers.cost_setCost]; rfl)
    rw [Registers.setCost_setCost] at step
    exact step

end CalmStep

end Cpu

end Handheld
