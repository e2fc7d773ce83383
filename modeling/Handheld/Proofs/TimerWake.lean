import Handheld.Proofs.Draining
import Handheld.Proofs.Idling
import Handheld.Proofs.Timer.Batches
import Handheld.Proofs.Timer.ClosedForm

/-!
# The timer wakes the processor

A halted processor that can only be woken by its timer idles for as many steps as the counter needs
machine cycles to pass 255, and no step more or less. The request comes up at the end of the last of
them, after the place where a step delivers; so it is the step after that which enters the vector.
-/

namespace Handheld

set_option autoImplicit false

namespace Timer

/-- The machine cycles until the counter passes 255. -/
def cyclesToOverflow (timer : Timer) : Nat :=
  (256 - timer.counter.toNat) * timer.periodCycles - timer.counterCycles.toNat

variable {timer : Timer}

theorem cycles_to_overflow_bounds (onTime : timer.counterCycles.toNat < timer.periodCycles) :
    0 < timer.cyclesToOverflow ∧ timer.cyclesToOverflow ≤ 65536 := by
  have value := timer.counter.toNat_lt
  have period := timer.period_cycles_bounds
  have least : 1 * timer.periodCycles ≤ (256 - timer.counter.toNat) * timer.periodCycles :=
    Nat.mul_le_mul_right _ (by omega)
  have most : (256 - timer.counter.toNat) * timer.periodCycles ≤ 256 * 256 :=
    Nat.mul_le_mul (by omega) period.2
  unfold cyclesToOverflow
  omega

theorem overflows_from (running : timer.running = true) (cycles : Nat) :
    0 < timer.overflows cycles ↔ timer.cyclesToOverflow ≤ cycles := by
  have value := timer.counter.toNat_lt
  have whole := Nat.le_div_iff_mul_le (x := 256 - timer.counter.toNat)
    (y := timer.counterCycles.toNat + cycles) timer.period_cycles_bounds.1
  rw [overflows_pos_iff running, cyclesToOverflow]
  omega

theorem elapse_zero (settled : timer.Settled)
    (onTime : timer.counterCycles.toNat < timer.periodCycles) : timer.elapse 0 = timer := by
  have divider := settled.1
  have none : timer.increments 0 = 0 := by
    rw [increments, Nat.add_zero, Nat.div_eq_of_lt onTime, ite_self]
  apply Timer.ext
  · apply UInt32.toNat.inj
    rw [divider_cycles_elapse, Nat.add_zero, Nat.mod_eq_of_lt divider]
  · apply UInt32.toNat.inj
    rw [counter_cycles_elapse, Nat.add_zero, Nat.mod_eq_of_lt onTime, ite_self]
  · rw [elapse, Nat.add_zero, Nat.div_eq_of_lt divider]
    exact UInt8.add_zero _
  · rw [elapse, none, countUp]
  · rw [elapse]
  · rw [elapse]

end Timer

namespace Cpu

section Step

variable {cpu : Cpu Board} {board : Board} {source : Interrupt}

/-- The step in which a halted processor goes into service of a source. -/
structure WokenBy (cpu : Cpu Board) (board : Board) (source : Interrupt) : Prop where
  completed : (cpu.step board).ticks = .ok 20
  registers_eq : (cpu.step board).cpu.registers = cpu.registers.inService source
  ticks_eq : (cpu.step board).cpu.ticks.toNat = cpu.ticks.toNat + 20
  notices_eq : (cpu.step board).notices = [.delivered source]

theorem serviced_of_woken (halted : cpu.registers.halted = true)
    (ime : cpu.registers.ime = true)
    (first : Interrupt.highestPriority board.bank.pending = some source) :
    cpu.serviced board = (some source, Context.enter ⟨cpu.registers.setCost 0, board⟩ source) := by
  have context := executed_of_halted halted board
  have cleared := cpu.registers.setCost_setCost 1 0
  rcases cpu.serviced_cases board with ⟨found, _, highest, served⟩ | ⟨quiet, _⟩
  · rw [context, Board.bus_bank, first] at highest
    rw [served, context, cleared, Option.some.inj highest]
  · rw [context] at quiet
    rcases quiet with off | none
    · exact absurd (off.symm.trans ime) Bool.false_ne_true
    · rw [Board.bus_bank] at none
      rw [none] at first
      contradiction

theorem woken_or_runs_over (halted : cpu.registers.halted = true) (ime : cpu.registers.ime = true)
    (reachable : board.TimerReachable)
    (first : Interrupt.highestPriority board.bank.pending = some source) :
    cpu.WokenBy board source ∨ cpu.RunsOver board 20 := by
  have answered : (cpu.execute board).2.answer = .ok () := answered_of_handled (.inl halted)
  have context := executed_of_halted halted board
  have served := serviced_of_woken halted ime first
  have ticks : cpu.stepTicks board = (20 : UInt32).toNat := by
    rw [stepTicks, step_cycles_toNat, context, served, Context.enter_registers]
    simp only [Registers.cost_setCost]
    rfl
  -- The push of the delivery can write to the timer, which stays one that can be reached.
  have pushed : (cpu.serviced board).2.bus.TimerReachable := by
    apply cpu.serviced_keeps board Board.TimerReachable
    · intro _ address _ bus value kept
      exact Board.write_timer_reachable kept address value
    · intro source
      rw [context]
      exact reachable
    · rw [context]
      exact reachable
  have told := Board.advance_timer_of_reachable pushed
    (Nat.lt_trans (cpu.step_cycles_lt board) (by decide))
  rcases completed_or_runs_over answered ticks told with ⟨completed, law⟩ | overrun
  · refine .inl ?_
    constructor
    · exact completed
    · rw [law.registers_eq, served, Registers.in_service_of_enter]
    · exact law.ticks_eq
    · rw [law.notices_eq, served]
      rfl
  · exact .inr overrun

end Step

/-- Halted, with nothing to deliver, and with the timer let through to the processor. -/
structure AwaitsTimer (cpu : Cpu Board) (board : Board) (timer : Timer) : Prop where
  halted : cpu.registers.halted = true
  ime : cpu.registers.ime = true
  attached : board.timer = some timer
  reachable : timer.Reachable
  counting : timer.control &&& 0x04 ≠ 0
  /-- No increment of the counter is overdue. -/
  onTime : timer.counterCycles.toNat < timer.periodCycles
  enabled : board.bank.enable &&& 0x04 ≠ 0
  quiet : board.bank.pending = 0

/-- A run of `count` steps, each of which idled. The request is up from the end of the step in which
the counter passes 255. -/
structure Run.Waited (start : Cpu Board) (board : Board) (timer : Timer) (count : Nat)
    (run : Run Board) : Prop where
  going : run.fault = none
  costs_eq : run.costs.toList = List.replicate count 4
  notices_eq : run.notices.toList = []
  ticks_eq : run.cpu.ticks.toNat = start.ticks.toNat + 4 * count
  registers_eq : run.cpu.registers.setCost 0 = start.registers.setCost 0
  bus_eq : run.bus = board.elapse count
  memory_eq : run.bus.memory = board.memory
  enable_eq : run.bus.bank.enable = board.bank.enable
  pending_eq : run.bus.bank.pending = if timer.cyclesToOverflow ≤ count then 0x04 else 0
  reachable : run.bus.TimerReachable

/-- A run whose last step brought the processor into service of the timer, after `count` idle
steps. -/
structure Run.Woken (start : Cpu Board) (count : Nat) (run : Run Board) : Prop where
  going : run.fault = none
  costs_eq : run.costs.toList = List.replicate count 4 ++ [20]
  notices_eq : run.notices.toList = [.delivered .timer]
  ticks_eq : run.cpu.ticks.toNat = start.ticks.toNat + (4 * count + 20)
  registers_eq : run.cpu.registers = start.registers.inService .timer
  pc_eq : run.cpu.registers.pc = 0x0050
  ime : run.cpu.registers.ime = false
  halted : run.cpu.registers.halted = false

section Wait

variable {start : Cpu Board} {board : Board} {timer : Timer} {run : Run Board} {count : Nat}

theorem AwaitsTimer.running (awaits : start.AwaitsTimer board timer) : timer.running = true :=
  bne_iff_ne.mpr awaits.counting

theorem AwaitsTimer.pending_elapse (awaits : start.AwaitsTimer board timer) (cycles : Nat) :
    (board.elapse cycles).bank.pending =
      if timer.cyclesToOverflow ≤ cycles then 0x04 else 0 := by
  have overflows := Timer.overflows_from awaits.running cycles
  rw [Board.elapse_attached awaits.attached]
  simp only [Timer.bankAfter, overflows]
  split
  · exact InterruptBank.pending_of_request awaits.quiet awaits.enabled
  · exact awaits.quiet

theorem Run.Waited.shown_eq {α : Type} (waited : run.Waited start board timer count)
    (shown : Registers → α) (costless : ∀ registers, shown (registers.setCost 0) = shown registers) :
    shown run.cpu.registers = shown start.registers := by
  rw [← costless, waited.registers_eq, costless]

theorem waited_at_start (awaits : start.AwaitsTimer board timer) :
    (Run.start start board).Waited start board timer 0 := by
  have ahead := Timer.cycles_to_overflow_bounds awaits.onTime
  have settled := Timer.reachable_settled awaits.reachable
  have still : board.elapse 0 = board := by
    have none := Timer.overflows_from awaits.running 0
    rw [Board.elapse_attached awaits.attached, Timer.elapse_zero settled awaits.onTime,
      ← awaits.attached, Timer.bankAfter, if_neg (by omega)]
  constructor
  · rfl
  · rfl
  · rfl
  · rfl
  · rfl
  · exact still.symm
  · rfl
  · rfl
  · rw [if_neg (by omega)]
    exact awaits.quiet
  · intro attached same
    rw [← Option.some.inj (awaits.attached.symm.trans same)]
    exact awaits.reachable

theorem next_waited (awaits : start.AwaitsTimer board timer)
    (waited : run.Waited start board timer count) (early : count < timer.cyclesToOverflow) :
    run.next.Waited start board timer (count + 1) ∨ run.next.Over start (4 * (count + 1)) := by
  have halted : run.cpu.registers.halted = true := by
    rw [waited.shown_eq Registers.halted fun _ => rfl, awaits.halted]
  have quiet : run.bus.bank.pending = 0 := by
    rw [waited.pending_eq, if_neg (Nat.not_le.mpr early)]
  have idle : run.cpu.Idle run.bus := ⟨halted, .inr quiet, waited.reachable⟩
  rcases idled_or_runs_over idle with idled | overrun
  · have next := Run.next_of_completed waited.going idled.completed
    have bus : run.next.bus = board.elapse (count + 1) := by
      rw [next, idled.bus_eq, waited.bus_eq, Board.elapse_add]
    refine .inl ?_
    constructor
    · rw [next]
    · rw [next, Array.toList_push, waited.costs_eq, List.replicate_succ']
    · rw [next, idled.notices_eq, Array.toList_appendList, waited.notices_eq]
      rfl
    · rw [next, idled.ticks_eq, waited.ticks_eq]
      omega
    · rw [next, idled.registers_eq, Registers.setCost_setCost, waited.registers_eq]
    · exact bus
    · rw [bus, Board.elapse]
    · rw [bus, Board.enable_of_elapse]
    · rw [bus, awaits.pending_elapse]
    · rw [next]
      exact idled.reachable
  · exact .inr (Run.over_of_runs_over waited.going waited.ticks_eq overrun rfl)

theorem run_waits (awaits : start.AwaitsTimer board timer)
    (inside : count ≤ timer.cyclesToOverflow) :
    (start.run board count).Waited start board timer count ∨
      (start.run board count).Over start (4 * count) := by
  induction count with
  | zero => exact .inl (waited_at_start awaits)
  | succ count induction =>
      rw [run_succ]
      rcases induction (by omega) with waited | overrun
      · exact next_waited awaits waited (by omega)
      · exact .inr (overrun.next (by omega))

theorem next_woken (awaits : start.AwaitsTimer board timer)
    (waited : run.Waited start board timer timer.cyclesToOverflow) :
    run.next.Woken start timer.cyclesToOverflow ∨
      run.next.Over start (4 * timer.cyclesToOverflow + 20) := by
  have halted : run.cpu.registers.halted = true := by
    rw [waited.shown_eq Registers.halted fun _ => rfl, awaits.halted]
  have ime : run.cpu.registers.ime = true := by
    rw [waited.shown_eq Registers.ime fun _ => rfl, awaits.ime]
  have first : Interrupt.highestPriority run.bus.bank.pending = some .timer := by
    rw [waited.pending_eq, if_pos (Nat.le_refl _)]
    rfl
  rcases woken_or_runs_over halted ime waited.reachable first with woken | overrun
  · have next := Run.next_of_completed waited.going woken.completed
    have registers : run.next.cpu.registers = start.registers.inService .timer := by
      rw [next, woken.registers_eq]
      apply Registers.in_service_of_same
      · intro view notCost
        exact waited.shown_eq (Registers.get8 · view) fun other =>
          other.get8_setCost notCost 0
      · exact waited.shown_eq Registers.sp fun other => other.sp_setCost 0
    refine .inl ?_
    constructor
    · rw [next]
    · rw [next, Array.toList_push, waited.costs_eq]
    · rw [next, woken.notices_eq, Array.toList_appendList, waited.notices_eq]
      rfl
    · rw [next, woken.ticks_eq, waited.ticks_eq, Nat.add_assoc]
    · exact registers
    · rw [registers]
      simp [Registers.inService, Interrupt.vector]
    · rw [registers]
      simp [Registers.inService]
    · rw [registers]
      simp [Registers.inService]
  · exact .inr (Run.over_of_runs_over waited.going waited.ticks_eq overrun rfl)

theorem run_wakes (awaits : start.AwaitsTimer board timer) :
    (start.run board (timer.cyclesToOverflow + 1)).Woken start timer.cyclesToOverflow ∨
      (start.run board (timer.cyclesToOverflow + 1)).Over start
        (4 * timer.cyclesToOverflow + 20) := by
  rw [run_succ]
  rcases run_waits awaits (Nat.le_refl _) with waited | overrun
  · exact next_woken awaits waited
  · exact .inr (overrun.next (Nat.le_add_right _ 20))

/-- The wait takes exactly as many idle steps as the counter needs cycles to overflow, whatever the
opcode table, the memory and the stack pointer. Only the tick counter can end it early. -/
theorem timer_wakes_processor (cpu : Cpu Board) (board : Board) (timer : Timer)
    (awaits : cpu.AwaitsTimer board timer) :
    (0 < timer.cyclesToOverflow ∧ timer.cyclesToOverflow ≤ 65536) ∧
      (cpu.ticks.toNat + (4 * timer.cyclesToOverflow + 20) < UInt64.size →
        (∀ count, count ≤ timer.cyclesToOverflow →
          (cpu.run board count).Waited cpu board timer count) ∧
        (cpu.run board (timer.cyclesToOverflow + 1)).Woken cpu timer.cyclesToOverflow) ∧
      (UInt64.size ≤ cpu.ticks.toNat + (4 * timer.cyclesToOverflow + 20) →
        (cpu.run board (timer.cyclesToOverflow + 1)).fault = some .additionOverflow) := by
  refine ⟨Timer.cycles_to_overflow_bounds awaits.onTime, ?_, ?_⟩
  · intro room
    refine ⟨?_, ?_⟩
    · intro count inside
      rcases run_waits awaits inside with waited | overrun
      · exact waited
      · have full := overrun.full
        omega
    · rcases run_wakes awaits with woken | overrun
      · exact woken
      · exact absurd room (Nat.not_lt.mpr overrun.full)
  · intro full
    rcases run_wakes awaits with woken | overrun
    · have ticks := woken.ticks_eq
      rw [← ticks] at full
      exact absurd (UInt64.toNat_lt _) (Nat.not_lt.mpr full)
    · exact overrun.stopped

end Wait

def dozing : Cpu Board where
  registers := ((Registers.zero.setSp 0xFF08).setIme true).setHalted true
  ticks := 1000
  table := .empty
  config := .standard

/-- A period of 4 cycles, 3 of them gone by, and two increments to go. -/
def nearlyDue : Timer :=
  (((Timer.stopped.write .counter 0xFE).write .control 0x05).advance .clear 3).state.1

def dozingBoard : Board :=
  { Board.bare.attachTimer nearlyDue with bank := ⟨0x01, 0x04⟩ }

theorem timer_wakes_dozing :
    dozing.AwaitsTimer dozingBoard nearlyDue ∧
      (dozing.run dozingBoard 6).costs.toList = [4, 4, 4, 4, 4, 20] ∧
      (dozing.run dozingBoard 6).cpu.registers.pc = 0x0050 ∧
      (dozing.run dozingBoard 6).cpu.ticks.toNat = 1040 := by
  have awaits : dozing.AwaitsTimer dozingBoard nearlyDue := {
    halted := rfl
    ime := rfl
    attached := rfl
    reachable :=
      ((Timer.Reachable.stopped.write .counter 0xFE).write .control 0x05).advance .clear 3
    counting := by decide
    onTime := by decide
    enabled := by decide
    quiet := by decide }
  have due : nearlyDue.cyclesToOverflow = 5 := by decide
  have law := (timer_wakes_processor dozing dozingBoard nearlyDue awaits).2.1
  rw [due] at law
  have woken := (law (by decide)).2
  exact ⟨awaits, woken.costs_eq, woken.pc_eq, woken.ticks_eq⟩

end Cpu

end Handheld
