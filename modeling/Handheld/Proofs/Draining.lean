import Handheld.Cpu.Run
import Handheld.Proofs.CalmStep
import Mathlib.Data.List.Induction

/-!
# Pending interrupts drain

Sources that wait while the program is about to do nothing are served one a step, the lowest bit
first, where each handler returns at once and the timer stands still. The return of a handler and
the next delivery share a step: what the first delivery pushed is popped and pushed again, so that
the memory is the same from the first delivery on. The last return resumes the program, and what is
left of the flags is what did not wait.
-/

namespace Handheld

set_option autoImplicit false

namespace Registers

/-- The registers of a program that goes on at `pc`. -/
def resumed (registers : Registers) (pc : UInt16) : Registers :=
  ((registers.setPc pc).setHalted false).setCost 0

theorem resumed_of_return {registers : Registers} (ime : registers.ime = true)
    (source : Interrupt) (pc : UInt16) :
    ((((registers.inService source).advancePc.setSp registers.sp).setPc pc).setIme true).setCost 4 =
      (registers.resumed pc).setCost 4 := by
  apply ext_of_views
  · intro view notCost
    simp [inService, resumed, advancePc, get8_setCost _ notCost]
  · simp
  · simp [inService, resumed, advancePc]
  · simp [inService, resumed, advancePc]
  · simp [inService, resumed, advancePc, ime]
  · simp [inService, resumed, advancePc]

end Registers

/-- What it costs to serve all that waits: the first delivery, a return and a delivery for each
source after it, and the last return. -/
def Board.drainTicks (board : Board) : Nat :=
  20 + 32 * (board.bank.waiting.length - 1) + 16

namespace Cpu

def resumePc (cpu : Cpu Board) : UInt16 :=
  if cpu.registers.halted then cpu.registers.pc else cpu.registers.pc + 1

/-- The sources that wait will be served, and their handlers do nothing but return. -/
structure Drainable (cpu : Cpu Board) (board : Board) : Prop where
  table_eq : cpu.table = .control
  calm : board.Calm
  ime : cpu.registers.ime = true
  pending : board.bank.pending ≠ 0
  idle : cpu.registers.halted = true ∨ board.read cpu.registers.pc = Opcode.nop
  returns : ∀ source ∈ board.bank.waiting, board.read source.vector = Opcode.retEnable
  ram : StackInRam cpu.registers.sp

/-- In service of a source, with others still waiting, after a start that could be drained. -/
structure InService (start : Cpu Board) (board : Board) (source : Interrupt)
    (waiting : List Interrupt) (cpu : Cpu Board) (current : Board) : Prop where
  registers_eq : cpu.registers = start.registers.inService source
  table_eq : cpu.table = .control
  memory_eq : current.memory = board.memory.stack start.registers.sp start.resumePc
  enable_eq : current.bank.enable = board.bank.enable
  flag_left : current.bank.flag &&& ~~~current.bank.pending =
    board.bank.flag &&& ~~~board.bank.pending
  waiting_eq : current.bank.waiting = waiting
  calm : current.Calm

section Drain

variable {start cpu : Cpu Board} {board current : Board} {source other : Interrupt}
  {rest : List Interrupt}

theorem idle_executes (control : start.table = .control)
    (idle : start.registers.halted = true ∨ board.read start.registers.pc = Opcode.nop) :
    (start.execute board).2 =
      ⟨⟨(start.registers.setPc start.resumePc).setCost 1, board⟩, .ok ()⟩ := by
  cases halted : start.registers.halted with
  | true =>
      rw [execute_of_halted halted, resumePc, if_pos halted, Registers.setPc_pc]
  | false =>
      have nop : board.read start.registers.pc = Opcode.nop := by
        rcases idle with asleep | nop
        · exact absurd (halted.symm.trans asleep) Bool.false_ne_true
        · exact nop
      have installed : start.table.handler? (Bus.read board start.registers.pc) =
          some Instruction.nop := by
        rw [control, Board.bus_read, nop]
        rfl
      rw [execute_of_handler halted installed, resumePc, if_neg (by simp [halted])]
      rfl

theorem vector_in_rom (source : Interrupt) : Region.ofAddress source.vector = .rom := by
  cases source <;> rfl

theorem read_vector (drainable : start.Drainable board)
    (service : InService start board source rest cpu current)
    (waited : source ∈ board.bank.waiting) : current.read source.vector = Opcode.retEnable := by
  have below : source.vector < 0x8000 := by cases source <;> decide
  have high : source.vector ≠ ramCell (start.registers.sp - 1) := by
    have above := cartridge_below_ram drainable.ram.high
    grind
  have low : source.vector ≠ ramCell (start.registers.sp - 2) := by
    have above := cartridge_below_ram drainable.ram.low
    grind
  have before := drainable.returns source waited
  rw [Board.read_rom (vector_in_rom source)] at before ⊢
  rw [service.memory_eq, Memory.read_stack_other _ _ high low, before]

theorem return_executes (drainable : start.Drainable board)
    (service : InService start board source rest cpu current)
    (waited : source ∈ board.bank.waiting) :
    (cpu.execute current).2 =
      ⟨⟨(start.registers.resumed start.resumePc).setCost 4, current⟩, .ok ()⟩ := by
  have pc : cpu.registers.pc = source.vector := by simp [service.registers_eq, Registers.inService]
  have sp : cpu.registers.advancePc.sp = start.registers.sp - 2 := by
    simp [service.registers_eq, Registers.inService, Registers.advancePc]
  have running : cpu.registers.halted = false := by
    simp [service.registers_eq, Registers.inService]
  have installed : cpu.table.handler? (Bus.read current cpu.registers.pc) =
      some Instruction.retEnable := by
    rw [service.table_eq, Board.bus_read, pc, read_vector drainable service waited]
    rfl
  have popped := Context.pop_ram drainable.ram sp service.memory_eq
  have returned : Instruction.retEnable ⟨cpu.registers.advancePc, current⟩ =
      ⟨(((cpu.registers.advancePc.setSp start.registers.sp).setPc start.resumePc).setIme
        true).setCost 4, current⟩ := by
    simp only [Instruction.retEnable, popped]
    rfl
  rw [execute_of_handler running installed, returned, service.registers_eq,
    Registers.resumed_of_return drainable.ime]

theorem first_step_drains (drainable : start.Drainable board)
    (waits : board.bank.waiting = source :: rest) :
    start.CalmStep board 20 [source] (start.registers.inService source)
        (board.memory.stack start.registers.sp start.resumePc) (board.bank.acknowledge source) ∨
      start.RunsOver board 20 := by
  have sp : ((start.registers.setPc start.resumePc).setCost 1).sp = start.registers.sp := by simp
  have pc : ((start.registers.setPc start.resumePc).setCost 1).pc = start.resumePc := by simp
  have same : ((start.registers.setPc start.resumePc).setCost 1).inService source =
      start.registers.inService source := by
    apply Registers.in_service_of_same _ sp
    intro view notCost
    simp [Registers.get8_setCost _ notCost]
  have executed := idle_executes drainable.table_eq drainable.idle
  have step := calm_step_delivers executed drainable.calm drainable.ime waits
    (by rw [sp]; exact drainable.ram)
    (show (20 : UInt32).toNat = _ by rw [Registers.cost_setCost]; rfl)
  rw [sp, pc, same] at step
  exact step

/-- The return of a handler and the delivery of the next source share a step. -/
theorem next_step_drains (drainable : start.Drainable board)
    (service : InService start board source (other :: rest) cpu current)
    (waited : source ∈ board.bank.waiting) :
    cpu.CalmStep current 32 [other] (start.registers.inService other)
        (board.memory.stack start.registers.sp start.resumePc) (current.bank.acknowledge other) ∨
      cpu.RunsOver current 32 := by
  have sp : ((start.registers.resumed start.resumePc).setCost 4).sp = start.registers.sp := by
    simp [Registers.resumed]
  have pc : ((start.registers.resumed start.resumePc).setCost 4).pc = start.resumePc := by
    simp [Registers.resumed]
  have same : ((start.registers.resumed start.resumePc).setCost 4).inService other =
      start.registers.inService other := by
    apply Registers.in_service_of_same _ sp
    intro view notCost
    simp [Registers.resumed, Registers.get8_setCost _ notCost]
  have step := calm_step_delivers (return_executes drainable service waited) service.calm
    drainable.ime service.waiting_eq (by rw [sp]; exact drainable.ram)
    (show (32 : UInt32).toNat = _ by rw [Registers.cost_setCost]; rfl)
  -- The push writes over the word that the return has just read, which is the same word.
  rw [sp, pc, same, service.memory_eq, Memory.stack_stack] at step
  exact step

theorem last_step_drains (drainable : start.Drainable board)
    (service : InService start board source [] cpu current)
    (waited : source ∈ board.bank.waiting) :
    cpu.CalmStep current 16 [] (start.registers.resumed start.resumePc) current.memory
        current.bank ∨ cpu.RunsOver current 16 := by
  have step := calm_step_passes (return_executes drainable service waited) service.calm
    service.waiting_eq (show (16 : UInt32).toNat = _ by rw [Registers.cost_setCost]; rfl)
  have same : (start.registers.resumed start.resumePc).setCost 0 =
      start.registers.resumed start.resumePc := Registers.setCost_setCost _ _ _
  rw [Registers.setCost_setCost, same] at step
  exact step

theorem in_service_of_calm_step {cost : UInt32}
    (step : cpu.CalmStep current cost [source] (start.registers.inService source)
      (board.memory.stack start.registers.sp start.resumePc) (current.bank.acknowledge source))
    (table : cpu.table = .control) (enable : current.bank.enable = board.bank.enable)
    (left : current.bank.flag &&& ~~~current.bank.pending =
      board.bank.flag &&& ~~~board.bank.pending)
    (waits : current.bank.waiting = source :: rest) :
    InService start board source rest (cpu.step current).cpu (cpu.step current).bus where
  registers_eq := step.registers_eq
  table_eq := step.table_eq.trans table
  memory_eq := step.memory_eq
  enable_eq := by
    rw [step.bank_eq, ← enable]
    rfl
  flag_left := by
    rw [step.bank_eq, ← left]
    apply InterruptBank.flag_left_acknowledge
    rw [waits]
    exact List.mem_cons_self
  waiting_eq := by
    rw [step.bank_eq]
    exact InterruptBank.waiting_acknowledge waits
  calm := step.calm

/-- A run whose last step delivered `source`, after a delivery of each of `served`. -/
structure Run.Serving (start : Cpu Board) (board : Board) (served : List Interrupt)
    (source : Interrupt) (rest : List Interrupt) (run : Run Board) : Prop where
  going : run.fault = none
  notices_eq : run.notices.toList = (served ++ [source]).map .delivered
  costs_eq : run.costs.toList = 20 :: List.replicate served.length 32
  ticks_eq : run.cpu.ticks.toNat = start.ticks.toNat + 20 + 32 * served.length
  service : InService start board source rest run.cpu run.bus

/-- The tick counter ran over before it had counted all of `cost`. -/
structure Run.Over (start : Cpu Board) (cost : Nat) (run : Run Board) : Prop where
  full : UInt64.size ≤ start.ticks.toNat + cost
  stopped : run.fault = some .additionOverflow

theorem Run.Over.next {run : Run Board} {cost more : Nat} (overrun : run.Over start cost)
    (grows : cost ≤ more) : run.next.Over start more where
  full := Nat.le_trans overrun.full (Nat.add_le_add_left grows _)
  stopped := by rw [Run.next_of_fault overrun.stopped, overrun.stopped]

theorem Run.over_of_runs_over {run : Run Board} {cost : UInt32} {before total : Nat}
    (going : run.fault = none) (ticks : run.cpu.ticks.toNat = start.ticks.toNat + before)
    (overrun : run.cpu.RunsOver run.bus cost) (sum : before + cost.toNat = total) :
    run.next.Over start total where
  full := by
    have full := overrun.full
    omega
  stopped := Run.fault_next_of_error going overrun.stopped

theorem Run.next_of_calm_step {run : Run Board} {cost : UInt32} {delivered : List Interrupt}
    {registers : Registers} {memory : Memory} {bank : InterruptBank} (going : run.fault = none)
    (step : run.cpu.CalmStep run.bus cost delivered registers memory bank) :
    run.next.fault = none ∧ run.next.cpu = (run.cpu.step run.bus).cpu ∧
      run.next.bus = (run.cpu.step run.bus).bus ∧
      run.next.costs.toList = run.costs.toList ++ [cost] ∧
      run.next.notices.toList = run.notices.toList ++ delivered.map .delivered := by
  rw [Run.next_of_completed going step.completed]
  refine ⟨rfl, rfl, rfl, Array.toList_push, ?_⟩
  rw [Array.toList_appendList, step.notices_eq]

theorem first_serving (drainable : start.Drainable board)
    (waits : board.bank.waiting = source :: rest) :
    (Run.start start board).next.Serving start board [] source rest ∨
      (Run.start start board).next.Over start 20 := by
  have going : (Run.start start board).fault = none := rfl
  rcases first_step_drains drainable waits with step | overrun
  · obtain ⟨still, cpu, bus, costs, notices⟩ := Run.next_of_calm_step going step
    refine .inl ?_
    constructor
    · exact still
    · exact notices
    · exact costs
    · rw [cpu]
      exact step.ticks_eq
    · rw [cpu, bus]
      exact in_service_of_calm_step step drainable.table_eq rfl rfl waits
  · exact .inr (Run.over_of_runs_over going rfl overrun rfl)

theorem next_serving {run : Run Board} {served : List Interrupt} (drainable : start.Drainable board)
    (serving : run.Serving start board served source (other :: rest))
    (waited : source ∈ board.bank.waiting) :
    run.next.Serving start board (served ++ [source]) other rest ∨
      run.next.Over start (20 + 32 * (served.length + 1)) := by
  have service := serving.service
  have ticks := serving.ticks_eq
  rcases next_step_drains drainable service waited with step | overrun
  · obtain ⟨still, cpu, bus, costs, notices⟩ := Run.next_of_calm_step serving.going step
    refine .inl ?_
    constructor
    · exact still
    · rw [notices, serving.notices_eq, ← List.map_append]
    · rw [costs, serving.costs_eq, List.length_append, List.length_singleton,
        List.replicate_succ', List.cons_append]
    · rw [cpu, step.ticks_eq, ticks, List.length_append, List.length_singleton, Nat.mul_add,
        ← Nat.add_assoc]
      rfl
    · rw [cpu, bus]
      exact in_service_of_calm_step step service.table_eq service.enable_eq service.flag_left
        service.waiting_eq
  · exact .inr (Run.over_of_runs_over serving.going (ticks.trans (Nat.add_assoc _ _ _)) overrun rfl)

/-- As long as sources wait, each step delivers the next one. -/
theorem run_serves (drainable : start.Drainable board) (served : List Interrupt)
    (order : board.bank.waiting = served ++ source :: rest) :
    (start.run board (served.length + 1)).Serving start board served source rest ∨
      (start.run board (served.length + 1)).Over start (20 + 32 * served.length) := by
  -- What was served grows at its end, so the induction takes the last source away.
  induction served using List.reverseRecOn generalizing source rest with
  | nil => exact first_serving drainable order
  | append_singleton served last induction =>
      rw [List.append_assoc] at order
      rw [List.length_append, List.length_singleton, run_succ]
      rcases induction order with serving | overrun
      · apply next_serving drainable serving
        rw [order]
        exact List.mem_append_right served List.mem_cons_self
      · exact .inr (overrun.next (by omega))

/-- All that waited was served, and the program goes on where it was. -/
structure Drained (start : Cpu Board) (board : Board) (run : Run Board) : Prop where
  going : run.fault = none
  notices_eq : run.notices.toList = board.bank.waiting.map .delivered
  costs_eq : run.costs.toList = 20 :: List.replicate (board.bank.waiting.length - 1) 32 ++ [16]
  total_cost : (run.costs.toList.map UInt32.toNat).sum = board.drainTicks
  ticks_eq : run.cpu.ticks.toNat = start.ticks.toNat + board.drainTicks
  registers_eq : run.cpu.registers = start.registers.resumed start.resumePc
  ime : run.cpu.registers.ime = true
  flag_eq : run.bus.bank.flag = board.bank.flag &&& ~~~board.bank.pending
  enable_eq : run.bus.bank.enable = board.bank.enable
  memory_eq : ∀ cell, cell ≠ ramCell (start.registers.sp - 1) →
    cell ≠ ramCell (start.registers.sp - 2) → run.bus.memory.read cell = board.memory.read cell

theorem last_drained {run : Run Board} {served : List Interrupt} (drainable : start.Drainable board)
    (order : board.bank.waiting = served ++ [source])
    (serving : run.Serving start board served source []) :
    Drained start board run.next ∨ run.next.Over start board.drainTicks := by
  have waited : source ∈ board.bank.waiting := by
    rw [order]
    exact List.mem_append_right served List.mem_cons_self
  have service := serving.service
  have ticks := serving.ticks_eq
  have count : board.bank.waiting.length - 1 = served.length := by
    rw [order, List.length_append, List.length_singleton, Nat.add_sub_cancel]
  rcases last_step_drains drainable service waited with step | overrun
  · obtain ⟨still, cpu, bus, costs, notices⟩ := Run.next_of_calm_step serving.going step
    have none : run.bus.bank.pending = 0 :=
      (run.bus.bank.waiting_eq_nil_iff).mp service.waiting_eq
    have paid : run.next.costs.toList =
        20 :: List.replicate (board.bank.waiting.length - 1) 32 ++ [16] := by
      rw [costs, serving.costs_eq, count]
    refine .inl ?_
    constructor
    · exact still
    · rw [notices, serving.notices_eq, order]
      exact List.append_nil _
    · exact paid
    · rw [paid, Board.drainTicks]
      simp [Nat.add_assoc, Nat.mul_comm]
    · rw [cpu, step.ticks_eq, ticks, Board.drainTicks, count, Nat.add_assoc, Nat.add_assoc,
        Nat.add_assoc]
      rfl
    · rw [cpu, step.registers_eq]
    · rw [cpu, step.registers_eq]
      simp [Registers.resumed, drainable.ime]
    · have left := service.flag_left
      rw [none] at left
      rw [bus, step.bank_eq, ← left]
      simp
    · rw [bus, step.bank_eq]
      exact service.enable_eq
    · intro cell high low
      rw [bus, step.memory_eq, service.memory_eq]
      exact Memory.read_stack_other _ _ high low
  · refine .inr (Run.over_of_runs_over serving.going (ticks.trans (Nat.add_assoc _ _ _)) overrun ?_)
    rw [Board.drainTicks, count]
    rfl

theorem run_drains (drainable : start.Drainable board) :
    Drained start board (start.run board (board.bank.waiting.length + 1)) ∨
      (start.run board (board.bank.waiting.length + 1)).Over start board.drainTicks := by
  have waits : board.bank.waiting ≠ [] := by
    rw [ne_eq, board.bank.waiting_eq_nil_iff]
    exact drainable.pending
  obtain ⟨served, last, order⟩ := (List.eq_nil_or_concat _).resolve_left waits
  rw [List.concat_eq_append] at order
  have length : board.bank.waiting.length = served.length + 1 := by
    rw [order, List.length_append, List.length_singleton]
  rw [length, run_succ]
  rcases run_serves drainable served order with serving | overrun
  · exact last_drained drainable order serving
  · refine .inr (overrun.next ?_)
    rw [Board.drainTicks, length]
    omega

theorem run_delivers (drainable : start.Drainable board) {count : Nat}
    (inside : count ≤ board.bank.waiting.length) :
    ((start.run board count).fault = none ∧
        (start.run board count).notices.toList =
          (board.bank.waiting.take count).map .delivered) ∨
      UInt64.size ≤ start.ticks.toNat + board.drainTicks := by
  cases count with
  | zero => exact .inl ⟨rfl, rfl⟩
  | succ count =>
      have order : board.bank.waiting = board.bank.waiting.take count ++
          board.bank.waiting[count] :: board.bank.waiting.drop (count + 1) := by
        rw [← List.drop_eq_getElem_cons inside, List.take_append_drop]
      have length : (board.bank.waiting.take count).length = count :=
        List.length_take_of_le (Nat.le_of_lt inside)
      have served := run_serves drainable _ order
      rw [length] at served
      rcases served with serving | overrun
      · refine .inl ⟨serving.going, ?_⟩
        rw [serving.notices_eq, List.take_append_getElem]
      · refine .inr (Nat.le_trans overrun.full ?_)
        rw [Board.drainTicks]
        omega

/-- Sources that wait are delivered in ascending order, one a step, and then the program goes on
where it was. Only the tick counter can run over before. -/
theorem pending_interrupts_drain (cpu : Cpu Board) (board : Board)
    (drainable : cpu.Drainable board) :
    board.bank.waiting.Pairwise (fun source other => source.bit < other.bit) ∧
      (cpu.ticks.toNat + board.drainTicks < UInt64.size →
        (∀ count, count ≤ board.bank.waiting.length → (cpu.run board count).fault = none ∧
          (cpu.run board count).notices.toList =
            (board.bank.waiting.take count).map .delivered) ∧
        Drained cpu board (cpu.run board (board.bank.waiting.length + 1))) ∧
      (UInt64.size ≤ cpu.ticks.toNat + board.drainTicks →
        (cpu.run board (board.bank.waiting.length + 1)).fault = some .additionOverflow) := by
  refine ⟨board.bank.waiting_ascends, ?_, ?_⟩
  · intro room
    refine ⟨?_, ?_⟩
    · intro count inside
      rcases run_delivers drainable inside with delivers | full
      · exact delivers
      · exact absurd room (Nat.not_lt.mpr full)
    · rcases run_drains drainable with drained | overrun
      · exact drained
      · exact absurd room (Nat.not_lt.mpr overrun.full)
  · intro full
    rcases run_drains drainable with drained | overrun
    · have ticks := drained.ticks_eq
      rw [← ticks] at full
      exact absurd (UInt64.toNat_lt _) (Nat.not_lt.mpr full)
    · exact overrun.stopped

end Drain

def sleeping : Cpu Board where
  registers := ((Registers.zero.setSp 0xE101).setIme true).setHalted true
  ticks := 0
  table := .control
  config := .standard

/-- Three of five requests are let through, and each handler returns at once. -/
def returningBoard : Board :=
  { ((Board.bare.load 0x40 [Opcode.retEnable]).load 0x50 [Opcode.retEnable]).load 0x60
      [Opcode.retEnable] with
    bank := ⟨0x1F, 0x15⟩
    timer := some .stopped }

theorem sleeping_interrupts_drain :
    sleeping.Drainable returningBoard ∧
      (sleeping.run returningBoard 4).notices.toList =
        [.delivered .vblank, .delivered .timer, .delivered .joypad] ∧
      (sleeping.run returningBoard 4).bus.bank.flag = 0x0A := by
  have waiting : returningBoard.bank.waiting = [.vblank, .timer, .joypad] := by decide
  have drainable : sleeping.Drainable returningBoard := {
    table_eq := rfl
    calm := {
      reachable := by
        rintro timer attached
        rw [← Option.some.inj attached]
        exact .stopped
      still := by
        rintro timer attached
        rw [← Option.some.inj attached]
        rfl }
    ime := rfl
    pending := by decide
    idle := .inl rfl
    returns := by
      rw [waiting]
      decide
    ram := ⟨trivial, trivial⟩ }
  have law := (pending_interrupts_drain sleeping returningBoard drainable).2.1 (by decide)
  have drained : sleeping.Drained returningBoard (sleeping.run returningBoard 4) := law.2
  refine ⟨drainable, ?_, drained.flag_eq⟩
  rw [drained.notices_eq, waiting]
  rfl

end Cpu

end Handheld
